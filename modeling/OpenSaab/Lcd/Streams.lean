import Mathlib.Data.List.GetD
import OpenSaab.Lcd.Effects
import OpenSaab.Lcd.Pixels

/-!
# The memory of the display

After a command the data are its parameters, or go to the memory, or nowhere. The cursor goes one step
for each byte that is written or read.
-/

namespace OpenSaab.Lcd

open Bus Runs

namespace Controller

/-! ## After a command -/

/-- The bytes of the data in a stream. -/
def Op.bytes : Op → List UInt8
  | .data v => [v]
  | _ => []

def dataBytes (ops : List Op) : List UInt8 := ops.flatMap Op.bytes

/-- No commands. -/
def Plain (ops : List Op) : Prop := ∀ op ∈ ops, ∀ v, op ≠ .command v

/-- What holds after a command and stays with data and reads holds up to the next command. -/
theorem plain_keeps {R : Controller → List Op → Prop}
    (hdata : ∀ s ops v, R s ops → R (s.writeData v) (ops ++ [.data v]))
    (hread : ∀ s ops, R s ops → R s.readData.2 (ops ++ [.read])) {s : Controller}
    {ops before : List Op} (hplain : Plain ops) (h : R s before) :
    R (run step s ops) (before ++ ops) := by
  induction ops generalizing s before with
  | nil => rwa [List.append_nil]
  | cons op ops ih =>
    have hrest : Plain ops := fun o ho => hplain o (List.mem_cons_of_mem _ ho)
    rw [run_cons, List.append_cons]
    cases op with
    | command v => exact absurd rfl (hplain _ List.mem_cons_self v)
    | data v => exact ih hrest (hdata s before v h)
    | read => exact ih hrest (hread s before h)

theorem dataBytes_data (ops : List Op) (v : UInt8) :
    dataBytes (ops ++ [.data v]) = dataBytes ops ++ [v] := List.flatMap_append

theorem dataBytes_read (ops : List Op) : dataBytes (ops ++ [.read]) = dataBytes ops := by
  unfold dataBytes
  rw [List.flatMap_append]
  exact List.append_nil _

/-- The memory with these bytes at these addresses, the first one first. -/
def written (vram : List UInt8) (address : Nat → Nat) (bytes : List UInt8) : List UInt8 :=
  bytes.zipIdx.foldl (fun m p => m.set (address p.2) p.1) vram

theorem written_snoc (vram : List UInt8) (address : Nat → Nat) (bytes : List UInt8) (v : UInt8) :
    written vram address (bytes ++ [v]) = (written vram address bytes).set (address bytes.length) v := by
  unfold written
  rw [List.zipIdx_append, List.foldl_append, Nat.zero_add]
  rfl

/-- The memory takes bytes from `base` on. -/
structure Writing (base : Controller) (s : Controller) (ops : List Op) : Prop where
  cmd : s.cmd = 0x42
  paramsLeft : s.paramsLeft = 0
  cursorDirection : s.cursorDirection = base.cursorDirection
  ap : s.ap = base.ap
  cursor : s.cursor.toNat = address base.toSed1335 (dataBytes ops).length
  vram : s.vram = written base.vram (address base.toSed1335) (dataBytes ops)

theorem writing_data {base s : Controller} {ops : List Op} (h : Writing base s ops) (v : UInt8) :
    Writing base (s.writeData v) (ops ++ [.data v]) := by
  have hstore : s.writeData v = ({ s with dataWr := s.dataWr + 1 } : Controller).store v := by
    unfold writeData
    dsimp only
    rw [h.paramsLeft, h.cmd, if_neg (Nat.lt_irrefl 0), if_neg (not_not.mpr rfl)]
  have hcursor : s.cursor.toNat % s.vram.length = address base.toSed1335 (dataBytes ops).length := by
    have hsize : s.vram.length = 65536 := s.sized
    have hlt := address_lt base.toSed1335 (dataBytes ops).length
    rw [hsize, h.cursor, Nat.mod_eq_of_lt hlt]
  rw [hstore]
  exact {
    cmd := h.cmd
    paramsLeft := h.paramsLeft
    cursorDirection := h.cursorDirection
    ap := h.ap
    cursor := by
      rw [dataBytes_data, List.length_append]
      exact address_advance h.cursorDirection h.ap h.cursor
    vram := by
      change s.vram.set (s.cursor.toNat % s.vram.length) v = _
      rw [dataBytes_data, written_snoc, hcursor, h.vram] }

theorem readData_other {s : Sed1335} (hcsrr : s.cmd ≠ 0x47) (hmread : s.cmd ≠ 0x43) :
    s.readData.2 = s := by
  unfold Sed1335.readData
  rw [if_neg hcsrr, if_neg hmread]

theorem writing_read {base s : Controller} {ops : List Op} (h : Writing base s ops) :
    Writing base s.readData.2 (ops ++ [.read]) := by
  have hsame : s.toSed1335.readData.2 = s.toSed1335 :=
    readData_other (by rw [h.cmd]; decide) (by rw [h.cmd]; decide)
  have hread : s.readData.2.toSed1335 = s.toSed1335 := hsame
  exact {
    cmd := by rw [hread, h.cmd]
    paramsLeft := h.paramsLeft
    cursorDirection := by rw [hread, h.cursorDirection]
    ap := by rw [hread, h.ap]
    cursor := by rw [hread, dataBytes_read, h.cursor]
    vram := by rw [hread, dataBytes_read, h.vram] }

theorem writing_command {l : Controller} (hcursor : l.cursor.toNat < 65536) :
    Writing l (l.writeCmd 0x42) [] where
  cmd := by rw [writeCmd_toSed1335]
  paramsLeft := rfl
  cursorDirection := by rw [writeCmd_toSed1335]; rfl
  ap := by rw [writeCmd_toSed1335]
  cursor := by rw [writeCmd_toSed1335]; exact (address_zero hcursor).symm
  vram := by rw [writeCmd_toSed1335]; rfl

/-! ### Reads -/

/-- The memory gives bytes from `base` on, so far `n`. -/
structure Reading (base : Controller) (s : Controller) (n : Nat) : Prop where
  cmd : s.cmd = 0x43
  paramsLeft : s.paramsLeft = 0
  cursorDirection : s.cursorDirection = base.cursorDirection
  ap : s.ap = base.ap
  cursor : s.cursor.toNat = address base.toSed1335 n
  vram : s.vram = base.vram

theorem reading_command {l : Controller} (hcursor : l.cursor.toNat < 65536) :
    Reading l (l.writeCmd 0x43) 0 where
  cmd := by rw [writeCmd_toSed1335]
  paramsLeft := rfl
  cursorDirection := by rw [writeCmd_toSed1335]; rfl
  ap := by rw [writeCmd_toSed1335]
  cursor := by rw [writeCmd_toSed1335]; exact (address_zero hcursor).symm
  vram := by rw [writeCmd_toSed1335]

theorem reading_data {base s : Controller} {n : Nat} (h : Reading base s n) (v : UInt8) :
    Reading base (s.writeData v) n := by
  have hignored : s.writeData v = { s with dataWr := s.dataWr + 1 } := by
    unfold writeData
    dsimp only
    rw [h.paramsLeft, h.cmd, if_neg (Nat.lt_irrefl 0), if_pos (by decide)]
  rw [hignored]
  exact { h with }

theorem readData_memory {s : Sed1335} (h : s.cmd = 0x43) :
    s.readData = (s.vram.getD (s.cursor.toNat % s.vram.length) 0, s.advanceCursor) := by
  unfold Sed1335.readData
  rw [h, if_neg (by decide), if_pos rfl]

theorem reading_read {base s : Controller} {n : Nat} (h : Reading base s n) :
    Reading base s.readData.2 (n + 1) ∧
      s.readData.1 = base.vram.getD (address base.toSed1335 n) 0 := by
  have hread : s.readData.2.toSed1335 = s.advanceCursor :=
    congrArg Prod.snd (readData_memory h.cmd)
  have hout : s.readData.1 = s.vram.getD (s.cursor.toNat % s.vram.length) 0 :=
    congrArg Prod.fst (readData_memory h.cmd)
  have hsize : s.vram.length = 65536 := s.sized
  refine ⟨?_, ?_⟩
  · exact {
      cmd := by rw [hread]; exact h.cmd
      paramsLeft := h.paramsLeft
      cursorDirection := by rw [hread]; exact h.cursorDirection
      ap := by rw [hread]; exact h.ap
      cursor := by rw [hread]; exact address_advance h.cursorDirection h.ap h.cursor
      vram := by rw [hread]; exact h.vram }
  · rw [hout, hsize, h.cursor, Nat.mod_eq_of_lt (address_lt _ _), h.vram]

/-- The bytes that are read one after the other. -/
theorem reading_out {base s : Controller} {k : Nat} (h : Reading base s k) (n : Nat) :
    log step readOut s (List.replicate n .read) =
      (List.range' k n).map fun i => base.vram.getD (address base.toSed1335 i) 0 := by
  induction n generalizing s k with
  | zero => rfl
  | succ n ih =>
    obtain ⟨hnext, hout⟩ := reading_read h
    rw [List.replicate_succ, log, List.range'_succ, List.map_cons, ← hout]
    exact congrArg (s.readData.1 :: ·) (ih hnext)

/-- Where the addresses differ, each byte stays. -/
theorem getElem?_written {vram : List UInt8} {address : Nat → Nat}
    (hinside : ∀ i, address i < vram.length) {bytes : List UInt8}
    (hdistinct : ∀ i j, i < j → j < bytes.length → address i ≠ address j) {i : Nat}
    (hi : i < bytes.length) : (written vram address bytes)[address i]? = bytes[i]? := by
  have hlength : ∀ bytes, (written vram address bytes).length = vram.length := by
    intro bytes
    induction bytes using List.reverseRecOn with
    | nil => rfl
    | append_singleton bytes v ih => rw [written_snoc, List.length_set, ih]
  induction bytes using List.reverseRecOn with
  | nil => cases hi
  | append_singleton bytes v ih =>
    rw [List.length_append, List.length_singleton] at hi hdistinct
    rw [written_snoc]
    rcases Nat.lt_or_eq_of_le (Nat.le_of_lt_succ hi) with hlt | rfl
    · rw [List.getElem?_set_ne (hdistinct i bytes.length hlt (Nat.lt_succ_self _)).symm,
        List.getElem?_append_left hlt]
      exact ih (fun i j hij hj => hdistinct i j hij (Nat.lt_succ_of_lt hj)) hlt
    · rw [List.getElem?_set_self (by rw [hlength]; exact hinside _), List.getElem?_concat_length]

/-- What has been written is read back with the same start, direction and pitch. -/
theorem read_back {base l : Controller} {bytes : List UInt8}
    (hvram : l.vram = written base.vram (address base.toSed1335) bytes)
    (hcursor : l.cursor = base.cursor) (hbase : base.cursor.toNat < 65536)
    (hdirection : l.cursorDirection = base.cursorDirection) (hpitch : l.ap = base.ap)
    (hdistinct : ∀ i j, i < j → j < bytes.length →
      address base.toSed1335 i ≠ address base.toSed1335 j) :
    log step readOut (l.writeCmd 0x43) (List.replicate bytes.length .read) = bytes := by
  have haddress : address l.toSed1335 = address base.toSed1335 := by
    funext n
    unfold address delta
    rw [hcursor, hdirection, hpitch]
  have hinside : ∀ i, address base.toSed1335 i < base.vram.length := fun i => by
    rw [base.sized]
    exact address_lt _ _
  have hread : Reading l (l.writeCmd 0x43) 0 := reading_command (by rw [hcursor]; exact hbase)
  rw [reading_out hread]
  refine List.ext_getElem (by rw [List.length_map, List.length_range']) fun i _ hi => ?_
  have hbyte := getElem?_written hinside hdistinct hi
  rw [List.getElem_map, List.getElem_range', Nat.zero_add, Nat.one_mul, hvram, haddress,
    List.getD_eq_getElem?_getD, hbyte, List.getElem?_eq_getElem hi, Option.getD_some]

/-! ### Other commands -/

/-- What the parameters `i` and `j` say once there are `k` of them. -/
def latest {β : Type} (p : Prop) [Decidable p] (k i j : Nat) (f : UInt8 → UInt8 → β) (x : β)
    (bytes : List UInt8) : β :=
  if p ∧ k ≤ bytes.length then f (bytes.getD i 0) (bytes.getD j 0) else x

theorem latest_snoc {β : Type} {p : Prop} [Decidable p] {k i j : Nat} (hi : i < k) (hj : j < k)
    (f : UInt8 → UInt8 → β) (x : β) (bytes : List UInt8) (v : UInt8) :
    latest p k i j f x (bytes ++ [v]) =
      if p ∧ (bytes ++ [v]).length = k then f ((bytes ++ [v]).getD i 0) ((bytes ++ [v]).getD j 0)
      else latest p k i j f x bytes := by
  have hlength : (bytes ++ [v]).length = bytes.length + 1 := List.length_append
  unfold latest
  by_cases hp : p
  · simp only [hp, true_and, hlength]
    rcases Nat.lt_trichotomy (bytes.length + 1) k with hlt | heq | hgt
    · rw [if_neg (by omega), if_neg (by omega), if_neg (by omega)]
    · rw [if_pos (by omega), if_pos heq]
    · rw [if_pos (by omega), if_neg (by omega), if_pos (by omega), List.getD_append _ _ _ _ (by omega),
        List.getD_append _ _ _ _ (by omega)]
  · simp only [hp, false_and, if_false]

/-- After a command that is none of the memory the data are its parameters, then nothing. -/
structure Taking (base : Controller) (c : UInt8) (s : Controller) (ops : List Op) : Prop where
  cmd : s.cmd = c
  params : s.params = (dataBytes ops).take (expected c)
  paramsLeft : s.paramsLeft = expected c - (dataBytes ops).length
  vram : s.vram = base.vram
  cursor : s.cursor =
    latest (c = 0x46) 2 0 1 (fun low high => UInt32.ofNat (word low high)) base.cursor (dataBytes ops)
  sad1 : s.sad1 = latest (c = 0x44) 2 0 1 word base.endScroll.sad1 (dataBytes ops)
  sad2 : s.sad2 = latest (c = 0x44) 5 3 4 word base.endScroll.sad2 (dataBytes ops)

theorem taking_command (l : Controller) (c : UInt8) : Taking l c (l.writeCmd c) [] where
  cmd := by rw [writeCmd_toSed1335]
  params := List.take_nil.symm
  paramsLeft := rfl
  vram := by rw [writeCmd_toSed1335]
  cursor := by
    rw [writeCmd_toSed1335]
    exact (if_neg (by rintro ⟨-, h⟩; cases h)).symm
  sad1 := (l.writeCmd_starts c).1.trans (if_neg (by rintro ⟨-, h⟩; cases h)).symm
  sad2 := (l.writeCmd_starts c).2.trans (if_neg (by rintro ⟨-, h⟩; cases h)).symm

theorem taking_read {base s : Controller} {c : UInt8} {ops : List Op} (hc : c ≠ 0x43)
    (h : Taking base c s ops) : Taking base c s.readData.2 (ops ++ [.read]) := by
  have hrest : s.readData.2.toSed1335.cmd = s.cmd ∧ s.readData.2.toSed1335.vram = s.vram ∧
      s.readData.2.toSed1335.cursor = s.cursor := by
    change s.toSed1335.readData.2.cmd = _ ∧ s.toSed1335.readData.2.vram = _ ∧
      s.toSed1335.readData.2.cursor = _
    unfold Sed1335.readData
    split
    · split <;> exact ⟨rfl, rfl, rfl⟩
    · rw [if_neg (by rw [h.cmd]; exact hc)]
      exact ⟨rfl, rfl, rfl⟩
  exact {
    cmd := hrest.1.trans h.cmd
    params := by rw [dataBytes_read]; exact h.params
    paramsLeft := by rw [dataBytes_read]; exact h.paramsLeft
    vram := hrest.2.1.trans h.vram
    cursor := by rw [dataBytes_read]; exact hrest.2.2.trans h.cursor
    sad1 := by rw [dataBytes_read]; exact h.sad1
    sad2 := by rw [dataBytes_read]; exact h.sad2 }

/-- A parameter that is expected. -/
theorem taking_param {base s : Controller} {c : UInt8} {ops : List Op} (h : Taking base c s ops)
    (hmore : (dataBytes ops).length < expected c) (v : UInt8) :
    Taking base c (s.writeData v) (ops ++ [.data v]) := by
  have hparams : s.params = dataBytes ops := by rw [h.params, List.take_of_length_le (Nat.le_of_lt hmore)]
  have htake : s.writeData v = ({ s with dataWr := s.dataWr + 1 } : Controller).takeParam v := by
    unfold writeData
    dsimp only
    rw [h.paramsLeft, if_pos (by omega)]
  obtain ⟨hcmd, hpushed, hleft, hvram⟩ :=
    of_shape _ (({ s with dataWr := s.dataWr + 1 } : Controller).takeParam_shape v)
  have hcursor := ({ s with dataWr := s.dataWr + 1 } : Controller).takeParam_cursor v
  obtain ⟨hsad1, hsad2⟩ := ({ s with dataWr := s.dataWr + 1 } : Controller).takeParam_starts v
  unfold param at hcursor hsad1 hsad2
  have hbytes : (({ s with dataWr := s.dataWr + 1 } : Controller).pushed v).params =
      dataBytes ops ++ [v] := congrArg (· ++ [v]) hparams
  rw [hbytes] at hpushed hcursor hsad1 hsad2
  rw [htake]
  exact {
    cmd := hcmd.trans h.cmd
    params := by
      rw [hpushed, dataBytes_data, List.take_of_length_le]
      rw [List.length_append, List.length_singleton]
      exact hmore
    paramsLeft := by
      rw [hleft, dataBytes_data, List.length_append, List.length_singleton]
      exact (congrArg (· - 1) h.paramsLeft).trans (Nat.sub_sub _ _ _)
    vram := hvram.trans h.vram
    cursor := by
      rw [dataBytes_data, latest_snoc (by decide) (by decide), hcursor, ← h.cursor, ← h.cmd]
    sad1 := by rw [dataBytes_data, latest_snoc (by decide) (by decide), hsad1, ← h.sad1, ← h.cmd]
    sad2 := by rw [dataBytes_data, latest_snoc (by decide) (by decide), hsad2, ← h.sad2, ← h.cmd] }

theorem latest_excess {β : Type} {p : Prop} [Decidable p] {k i j : Nat} (hi : i < k) (hj : j < k)
    (f : UInt8 → UInt8 → β) (x : β) {bytes : List UInt8} (h : p → k ≤ bytes.length) (v : UInt8) :
    latest p k i j f x (bytes ++ [v]) = latest p k i j f x bytes := by
  rw [latest_snoc hi hj, if_neg]
  rintro ⟨hp, hlength⟩
  have hmany := h hp
  rw [List.length_append, List.length_singleton] at hlength
  omega

/-- A byte too many. -/
theorem taking_excess {base s : Controller} {c : UInt8} {ops : List Op} (hc : c ≠ 0x42)
    (h : Taking base c s ops) (hfull : expected c ≤ (dataBytes ops).length) (v : UInt8) :
    Taking base c (s.writeData v) (ops ++ [.data v]) := by
  have hignored : s.writeData v = { s with dataWr := s.dataWr + 1 } := by
    unfold writeData
    dsimp only
    rw [h.paramsLeft, h.cmd, if_neg (by omega), if_pos hc]
  have hcursor : c = 0x46 → 2 ≤ (dataBytes ops).length := by
    rintro rfl
    exact hfull
  have hscroll : c = 0x44 → 6 ≤ (dataBytes ops).length := by
    rintro rfl
    exact hfull
  rw [hignored]
  exact {
    cmd := h.cmd
    params := by
      rw [dataBytes_data, List.take_append_of_le_length hfull]
      exact h.params
    paramsLeft := by
      rw [dataBytes_data, List.length_append]
      have hleft := h.paramsLeft
      dsimp only
      omega
    vram := h.vram
    cursor := by rw [dataBytes_data, latest_excess (by decide) (by decide) _ _ hcursor]; exact h.cursor
    sad1 := by
      rw [dataBytes_data, latest_excess (by decide) (by decide) _ _ fun hc => by
        have := hscroll hc; omega]
      exact h.sad1
    sad2 := by
      rw [dataBytes_data, latest_excess (by decide) (by decide) _ _ fun hc => by
        have := hscroll hc; omega]
      exact h.sad2 }

theorem taking_data {base s : Controller} {c : UInt8} {ops : List Op} (hc : c ≠ 0x42)
    (h : Taking base c s ops) (v : UInt8) : Taking base c (s.writeData v) (ops ++ [.data v]) := by
  rcases Nat.lt_or_ge (dataBytes ops).length (expected c) with hmore | hfull
  · exact taking_param h hmore v
  · exact taking_excess hc h hfull v

/-! ## Streams -/

theorem writing_run {l : Controller} (hcursor : l.cursor.toNat < 65536) {tail : List Op}
    (hplain : Plain tail) : Writing l (run step (l.writeCmd 0x42) tail) tail :=
  plain_keeps (R := Writing l) (fun _ _ v h => writing_data h v) (fun _ _ h => writing_read h) hplain
    (writing_command hcursor)

theorem reading_run {l : Controller} (hcursor : l.cursor.toNat < 65536) {tail : List Op}
    (hplain : Plain tail) : Reading l (run step (l.writeCmd 0x43) tail) (tail.count .read) := by
  have hstart : Reading l (l.writeCmd 0x43) (([] : List Op).count .read) := reading_command hcursor
  refine plain_keeps (R := fun s ops => Reading l s (ops.count .read)) ?_ ?_ hplain hstart
  · intro s ops v h
    rw [List.count_append]
    exact reading_data h v
  · intro s ops h
    rw [List.count_append]
    exact (reading_read h).1

theorem taking_run {l s : Controller} {c : UInt8} (hwrite : c ≠ 0x42) (hread : c ≠ 0x43)
    (h : Taking l c s []) {tail : List Op} (hplain : Plain tail) :
    Taking l c (run step s tail) tail :=
  plain_keeps (R := Taking l c) (fun _ _ v h => taking_data hwrite h v)
    (fun _ _ h => taking_read hread h) hplain h

/-- Before the first command nothing happens. -/
theorem taking_new : Taking new 0 new [] where
  cmd := rfl
  params := rfl
  paramsLeft := rfl
  vram := rfl
  cursor := rfl
  sad1 := rfl
  sad2 := rfl

/-- The command ends with parameters that are all there. -/
theorem endScroll_scroll {l : Controller} (hcmd : l.cmd = 0x44) (hparams : l.params ≠ [])
    (hleft : 0 < l.paramsLeft) : l.endScroll = l.scrollFirst.scrollSecond :=
  if_pos ⟨hcmd, hparams, hleft⟩

theorem scroll_one_screen {l : Controller} {p q r : UInt8} (hparams : l.params = [p, q, r]) :
    l.scrollFirst.scrollSecond.sad1 = word p q ∧ l.scrollFirst.scrollSecond.sad2 = word p q := by
  have hfirst : l.scrollFirst = { l with sad1 := word p q } := by
    unfold scrollFirst param
    rw [hparams]
    rfl
  have hsecond : ({ l with sad1 := word p q } : Controller).scrollSecond =
      { l with sad1 := word p q, sad2 := word p q } := by
    unfold scrollSecond param
    rw [hparams]
    rfl
  rw [hfirst, hsecond]
  exact ⟨rfl, rfl⟩

theorem scroll_two_screens {l : Controller} (hparams : 5 ≤ l.params.length) :
    l.scrollFirst.scrollSecond.sad1 = word (l.param 0) (l.param 1) ∧
      l.scrollFirst.scrollSecond.sad2 = word (l.param 3) (l.param 4) := by
  have hfirst : l.scrollFirst = { l with sad1 := word (l.param 0) (l.param 1) } := if_pos (by omega)
  have hsecond : ({ l with sad1 := word (l.param 0) (l.param 1) } : Controller).scrollSecond =
      { l with sad1 := word (l.param 0) (l.param 1), sad2 := word (l.param 3) (l.param 4) } := by
    unfold scrollSecond
    rw [if_neg (by dsimp only; omega), if_pos hparams]
    rfl
  rw [hfirst, hsecond]
  exact ⟨rfl, rfl⟩

/-- Three parameters and the next command make one screen of two. -/
theorem scroll_three {l : Controller} {tail : List Op} (hplain : Plain tail) {p q r : UInt8}
    (hbytes : dataBytes tail = [p, q, r]) (v : UInt8) :
    ((run step (l.writeCmd 0x44) tail).writeCmd v).sad1 = word p q ∧
      ((run step (l.writeCmd 0x44) tail).writeCmd v).sad2 = word p q := by
  have h := taking_run (by decide) (by decide) (taking_command l 0x44) hplain
  have hparams : (run step (l.writeCmd 0x44) tail).params = [p, q, r] := by
    rw [h.params, hbytes]
    rfl
  have hleft : 0 < (run step (l.writeCmd 0x44) tail).paramsLeft := by
    rw [h.paramsLeft, hbytes]
    change 0 < expected 0x44 - 3
    decide
  have hend := endScroll_scroll h.cmd (by rw [hparams]; exact List.cons_ne_nil _ _) hleft
  rw [(writeCmd_starts _ v).1, (writeCmd_starts _ v).2, hend]
  exact scroll_one_screen hparams

/-- Five parameters set both screens, and the next command leaves them so. -/
theorem scroll_five {l : Controller} {tail : List Op} (hplain : Plain tail)
    (hbytes : 5 ≤ (dataBytes tail).length) (v : UInt8) :
    let s := run step (l.writeCmd 0x44) tail
    (s.sad1 = word ((dataBytes tail).getD 0 0) ((dataBytes tail).getD 1 0) ∧
      s.sad2 = word ((dataBytes tail).getD 3 0) ((dataBytes tail).getD 4 0)) ∧
    (s.writeCmd v).sad1 = s.sad1 ∧ (s.writeCmd v).sad2 = s.sad2 := by
  intro s
  have h : Taking l 0x44 s tail := taking_run (by decide) (by decide) (taking_command l 0x44) hplain
  have hsad1 : s.sad1 = word ((dataBytes tail).getD 0 0) ((dataBytes tail).getD 1 0) :=
    h.sad1.trans (if_pos ⟨rfl, by omega⟩)
  have hsad2 : s.sad2 = word ((dataBytes tail).getD 3 0) ((dataBytes tail).getD 4 0) :=
    h.sad2.trans (if_pos ⟨rfl, hbytes⟩)
  have hcount : expected 0x44 = 6 := by decide
  refine ⟨⟨hsad1, hsad2⟩, ?_⟩
  rw [(writeCmd_starts _ v).1, (writeCmd_starts _ v).2]
  by_cases hleft : 0 < s.paramsLeft
  · have hlength : s.params.length = (dataBytes tail).length := by
      have hpending := h.paramsLeft
      rw [h.params, List.length_take]
      omega
    have hparam : ∀ i < 5, s.param i = (dataBytes tail).getD i 0 := by
      intro i hi
      unfold param
      rw [h.params, List.getD_eq_getElem?_getD, List.getElem?_take_of_lt (by omega),
        List.getD_eq_getElem?_getD]
    have hnonempty : s.params ≠ [] := by
      intro hnil
      rw [hnil] at hlength
      simp only [List.length_nil] at hlength
      omega
    obtain ⟨hfirst, hsecond⟩ := scroll_two_screens (l := s) (by omega)
    rw [endScroll_scroll h.cmd hnonempty hleft, hfirst, hsecond, hsad1, hsad2,
      hparam 0 (by decide), hparam 1 (by decide), hparam 3 (by decide), hparam 4 (by decide)]
    exact ⟨rfl, rfl⟩
  · have hend : s.endScroll = s := if_neg fun h => hleft h.2.2
    rw [hend]
    exact ⟨rfl, rfl⟩

/-! ## Any stream -/

theorem display_memory (ops : List Op) :
    let l := run step new ops
    (∀ tail, Plain tail →
      (run step new tail).vram = new.vram ∧ (run step new tail).cursor = new.cursor) ∧
    (∀ c tail, Plain tail →
      let s := run step (l.writeCmd c) tail
      s.vram = (if c = 0x42 then written l.vram (address l.toSed1335) (dataBytes tail) else l.vram) ∧
      s.cursor.toNat =
        if c = 0x42 then address l.toSed1335 (dataBytes tail).length
        else if c = 0x43 then address l.toSed1335 (tail.count .read)
        else latest (c = 0x46) 2 0 1 word l.cursor.toNat (dataBytes tail)) ∧
    (∀ bytes more,
      let s := run step (l.writeCmd 0x42) (bytes.map .data)
      let l' := run step s more
      l'.vram = s.vram → l'.cursor = l.cursor → l'.cursorDirection = l.cursorDirection →
      l'.ap = l.ap →
      (∀ i j, i < j → j < bytes.length → address l.toSed1335 i ≠ address l.toSed1335 j) →
      log step readOut (l'.writeCmd 0x43) (List.replicate bytes.length .read) = bytes) ∧
    (∀ tail v, Plain tail →
      let s := run step (l.writeCmd 0x44) tail
      ((dataBytes tail).length = 3 → (s.writeCmd v).sad1 = (s.writeCmd v).sad2 ∧
        (s.writeCmd v).sad1 = word ((dataBytes tail).getD 0 0) ((dataBytes tail).getD 1 0)) ∧
      (5 ≤ (dataBytes tail).length →
        (s.sad1 = word ((dataBytes tail).getD 0 0) ((dataBytes tail).getD 1 0) ∧
          s.sad2 = word ((dataBytes tail).getD 3 0) ((dataBytes tail).getD 4 0)) ∧
        (s.writeCmd v).sad1 = s.sad1 ∧ (s.writeCmd v).sad2 = s.sad2)) ∧
    (∀ (any : Controller) (x y : Nat), ∃ b, any.pixel x y = some b) ∧
    ∀ x y, x < 320 → y < 240 →
      l.sad1 + y * l.ap + x < 2 ^ 32 ∧ l.sad2 + y * l.ap + x < 2 ^ 32 := by
  intro l
  have hregisters : Registers l := registers_run ops
  have hcursor : l.cursor.toNat < 65536 := hregisters.cursor
  refine ⟨fun tail hplain => ?_, fun c tail hplain => ?_, ?_, ?_, fun any x y => any.pixel_inside x y,
    fun x y hx hy => ?_⟩
  · have h := taking_run (by decide) (by decide) taking_new hplain
    exact ⟨h.vram, h.cursor.trans (if_neg fun hset => absurd hset.1 (by decide))⟩
  · by_cases hwrite : c = 0x42
    · subst hwrite
      have h := writing_run hcursor hplain
      rw [if_pos rfl, if_pos rfl]
      exact ⟨h.vram, h.cursor⟩
    · rw [if_neg hwrite, if_neg hwrite]
      by_cases hread : c = 0x43
      · subst hread
        have h := reading_run hcursor hplain
        rw [if_pos rfl]
        exact ⟨h.vram, h.cursor⟩
      · have h := taking_run hwrite hread (taking_command l c) hplain
        rw [if_neg hread]
        refine ⟨h.vram, ?_⟩
        rw [h.cursor]
        unfold latest
        split
        · have hword := word_lt ((dataBytes tail).getD 0 0) ((dataBytes tail).getD 1 0)
          rw [UInt32.toNat_ofNat']
          omega
        · rfl
  · intro bytes more s l' hvram hstart hdirection hpitch hdistinct
    have hplain : Plain (bytes.map Op.data) := by
      intro op hop v
      obtain ⟨b, -, rfl⟩ := List.mem_map.mp hop
      exact Op.noConfusion
    have hbytes : dataBytes (bytes.map Op.data) = bytes := by
      unfold dataBytes
      rw [List.flatMap_map]
      exact List.flatMap_singleton' bytes
    have h : s.vram = written l.vram (address l.toSed1335) bytes :=
      hbytes ▸ (writing_run hcursor hplain).vram
    exact read_back (hvram.trans h) hstart hcursor hdirection hpitch hdistinct
  · intro tail v hplain s
    refine ⟨fun hthree => ?_, fun hfive => scroll_five hplain hfive v⟩
    obtain ⟨p, q, r, hbytes⟩ := List.length_eq_three.mp hthree
    obtain ⟨hsad1, hsad2⟩ := scroll_three (l := l) hplain hbytes v
    rw [hbytes]
    exact ⟨hsad1.trans hsad2.symm, hsad1⟩
  · have hrow : y * l.ap ≤ 240 * 65536 := Nat.mul_le_mul (Nat.le_of_lt hy) (Nat.le_of_lt hregisters.ap)
    have hsad1 := hregisters.sad1
    have hsad2 := hregisters.sad2
    omega

end Controller

end OpenSaab.Lcd
