import OpenSaab.Display.Rows
import OpenSaab.Library.Runs
import Mathlib.Data.List.Nodup

/-!
# No stale rows

What the memory of the guest held for each parameter at the latest refresh is kept beside the display.
A row that counts as known shows that, under the units of now.
-/

namespace OpenSaab.Display

/-! ## What the guest holds -/

/-- The parameter and the value of a node of the list. -/
def reading (m : Memory) (table p : UInt32) : Option ((UInt8 × UInt32) × UInt32) :=
  if m.u16 (p + 0x16) = some 1 then
    let index := (m.u32 (p + 0x18)).getD 0
    if index ≠ 0xffffffff ∧ index < 0x10000 then do
      let v ← FirmwareDisplay.valueAddress table index
      let flags ← m.u16 (v + 4)
      if flags &&& 0xff00 ≠ 0 then
        (m.u32 v).map fun raw => (((m.u8 p).getD 0, (m.u32 (p + 2)).getD 0), raw)
      else none
    else none
  else none

/-- The nodes of the list, up to one that cannot be read or has been seen. -/
def nodes (m : Memory) : Nat → UInt32 → List UInt32 → List UInt32
  | 0, _, _ => []
  | n + 1, p, seen =>
    if p = 0 ∨ p ∈ seen ∨ (m.bytes p 0x1c).isNone then []
    else p :: nodes m n ((m.u32 (p + 0x12)).getD 0) (p :: seen)

/-- The values of the list, in its order. -/
def listed (m : Memory) (anchor table : UInt32) : List ((UInt8 × UInt32) × UInt32) :=
  if anchor = 0 ∨ table = 0 then []
  else
    match m.u32 anchor with
    | none => []
    | some p => (nodes m 300 p []).filterMap (reading m table)

/-- The last value for a parameter. -/
def lastOf (key : UInt8 × UInt32) (values : List ((UInt8 × UInt32) × UInt32)) : Option UInt32 :=
  (values.reverse.find? (·.1 = key)).map Prod.snd

/-- A value as it was read, with the tables and the units of then. -/
structure Held where
  raw : UInt32
  source : Source
  units : UInt32

abbrev Latest := UInt8 × UInt32 → Option Held

namespace FirmwareDisplay

/-- Enabled and active, and not in the DTC application. -/
def Live (d : FirmwareDisplay) : Prop :=
  d.dataEnabled = true ∧ d.dataActive = true ∧ d.dtcApplication = false

instance decidableLive (d : FirmwareDisplay) : Decidable d.Live := inferInstanceAs (Decidable (_ ∧ _))

def hold (d : FirmwareDisplay) (raw : UInt32) : Held := ⟨raw, d.source, d.units⟩

/-- A refresh from the list replaces all that was held. -/
def listRefresh (d : FirmwareDisplay) (latest : Latest) (m : Memory) : Latest :=
  if d.Live then fun key => (lastOf key (listed m d.listAnchor d.valueTable)).map d.hold else latest

/-- A notification is about one parameter, if it can be read. -/
def notifyRefresh (d : FirmwareDisplay) (latest : Latest) (r : Registers) (m : Memory) : Latest :=
  if d.Live ∧ (d.valueTable = 0 ∨ d.listAnchor = 0) then
    match notification r m with
    | none => fun _ => none
    | some (key, valid, p) =>
      Function.update latest key (if valid ≠ 0 then (m.u32 p).map d.hold else none)
  else latest

/-- What is held after a signal. -/
def signalRefresh (d : FirmwareDisplay) (latest : Latest) (code : UInt16) (r : Registers)
    (m : Memory) : Latest :=
  match code with
  | 0x1400 =>
    if (checkedSub (r 14) 0x18).bind m.u8 = some 2 then d.listRefresh latest m else latest
  | 0x1410 => listRefresh { d with units := r 0 } latest m
  | 0x1106 => d.notifyRefresh latest r m
  | _ => latest

def refresh (d : FirmwareDisplay) (latest : Latest) : Op → Latest
  | .signal code r m => d.signalRefresh latest code r m
  | .instruction pc r m =>
    match signalAt pc m with
    | none => latest
    | some code => d.signalRefresh latest code r m
  | _ => latest

end FirmwareDisplay

/-! ## What the rows show -/

/-- The row shows what is held for it, under these units. -/
def Shows (latest : Latest) (units : UInt32) (row : DataRow) : Prop :=
  ∃ held, latest row.key = some held ∧ held.raw = row.rawBits ∧ held.units = units ∧
    (row.value, row.formatSupported) = held.source.format held.units row held.raw

/-- Every row that counts as known does. -/
def AllShow (latest : Latest) (units : UInt32) (rows : List DataRow) : Prop :=
  ∀ row ∈ rows, row.valueKnown = true → Shows latest units row

structure Fresh (d : FirmwareDisplay) (latest : Latest) : Prop where
  live : ∀ row ∈ d.rows, row.valueKnown = true → d.Live
  shown : AllShow latest d.units d.rows
  bounded : d.rows.length ≤ 300
  distinct : (d.rows.map DataRow.key).Nodup

/-! ## Rows -/

theorem unknown_shows {latest : Latest} {units : UInt32} {rows : List DataRow}
    (h : ∀ row ∈ rows, row.valueKnown = false) : AllShow latest units rows :=
  fun row hrow hknown => absurd ((h row hrow).symm.trans hknown) Bool.false_ne_true

theorem mem_modify_key {rows : List DataRow} {key : UInt8 × UInt32} {f : DataRow → DataRow}
    (h : (rows.map DataRow.key).Nodup) {row : DataRow}
    (hrow : row ∈ rows.modify (rows.findIdx (·.key = key)) f) :
    (∃ old ∈ rows, old.key = key ∧ row = f old) ∨ row ∈ rows ∧ row.key ≠ key := by
  induction rows with
  | nil => cases hrow
  | cons a rows ih =>
    obtain ⟨ha, hrest⟩ := List.nodup_cons.mp h
    by_cases hkey : a.key = key
    · rw [List.findIdx_cons, decide_eq_true hkey, cond_true, List.modify_zero_cons] at hrow
      rcases List.mem_cons.mp hrow with rfl | hrow
      · exact .inl ⟨a, List.mem_cons_self, hkey, rfl⟩
      · refine .inr ⟨List.mem_cons_of_mem a hrow, fun heq => ha ?_⟩
        rw [hkey, ← heq]
        exact List.mem_map_of_mem hrow
    · rw [List.findIdx_cons, decide_eq_false hkey, cond_false, List.modify_succ_cons] at hrow
      rcases List.mem_cons.mp hrow with rfl | hrow
      · exact .inr ⟨List.mem_cons_self, hkey⟩
      · rcases ih hrest hrow with ⟨old, hold, heq⟩ | ⟨hmem, hne⟩
        · exact .inl ⟨old, List.mem_cons_of_mem a hold, heq⟩
        · exact .inr ⟨List.mem_cons_of_mem a hmem, hne⟩

theorem map_modify_key {rows : List DataRow} {f : DataRow → DataRow} (hf : ∀ r, (f r).key = r.key)
    (i : Nat) : (rows.modify i f).map DataRow.key = rows.map DataRow.key := by
  induction rows generalizing i with
  | nil => cases i <;> rfl
  | cons a rows ih =>
    cases i with
    | zero => rw [List.modify_zero_cons, List.map_cons, List.map_cons, hf]
    | succ i => rw [List.modify_succ_cons, List.map_cons, List.map_cons, ih]

theorem lastOf_concat (key : UInt8 × UInt32) (values : List ((UInt8 × UInt32) × UInt32))
    (x : (UInt8 × UInt32) × UInt32) :
    lastOf key (values ++ [x]) = if x.1 = key then some x.2 else lastOf key values := by
  unfold lastOf
  rw [List.reverse_append]
  by_cases h : x.1 = key
  · simp [h]
  · simp [h]

namespace FirmwareDisplay

variable {d d' : FirmwareDisplay} {latest : Latest} {m : Memory}

/-- The same display but for its rows, which are of the same parameters, and what is told. -/
def Same (d d' : FirmwareDisplay) : Prop :=
  (∃ rows notice n, d' = { d with rows, notice, pointerRejections := n }) ∧
    d'.rows.map DataRow.key = d.rows.map DataRow.key

theorem Same.refl (d : FirmwareDisplay) : Same d d := ⟨⟨_, _, _, rfl⟩, rfl⟩

theorem Same.trans {d'' : FirmwareDisplay} (h : Same d d') (h' : Same d' d'') : Same d d'' := by
  obtain ⟨⟨rows, notice, n, rfl⟩, hkeys⟩ := h
  obtain ⟨⟨rows', notice', n', rfl⟩, hkeys'⟩ := h'
  exact ⟨⟨_, _, _, rfl⟩, hkeys'.trans hkeys⟩

theorem same_rejected (d : FirmwareDisplay) : Same d d.rejected := ⟨⟨_, _, _, rfl⟩, rfl⟩

theorem same_update (d : FirmwareDisplay) (category : UInt8) (epid raw : UInt32) :
    Same d (d.update category epid raw) := by
  unfold update
  cases d.rows.find? (·.key = (category, epid)) with
  | none => exact Same.refl d
  | some row => exact ⟨⟨_, _, _, rfl⟩, map_modify_key (f := (d.shown · raw)) (fun r => rfl) _⟩

/-- A value that is read is held from then on, and its row shows it. -/
theorem update_shows {category : UInt8} {epid raw : UInt32}
    (h : AllShow latest d.units d.rows) (hdistinct : (d.rows.map DataRow.key).Nodup) :
    AllShow (Function.update latest (category, epid) (some (d.hold raw))) d.units
      (d.update category epid raw).rows := by
  unfold update
  cases hfind : d.rows.find? (·.key = (category, epid)) with
  | none =>
    intro row hrow hknown
    have hne : row.key ≠ (category, epid) := by
      simpa using List.find?_eq_none.mp hfind row hrow
    obtain ⟨held, hheld, hshows⟩ := h row hrow hknown
    exact ⟨held, by rw [Function.update_of_ne hne]; exact hheld, hshows⟩
  | some found =>
    intro row hrow hknown
    rcases mem_modify_key hdistinct hrow with ⟨old, -, hkey, rfl⟩ | ⟨hmem, hne⟩
    · have hkey' : (d.shown old raw).key = (category, epid) := hkey
      exact ⟨d.hold raw, by rw [hkey', Function.update_self], rfl, rfl, rfl⟩
    · obtain ⟨held, hheld, hshows⟩ := h row hmem hknown
      exact ⟨held, by rw [Function.update_of_ne hne]; exact hheld, hshows⟩

/-- What a node does is what is read from it. -/
theorem visit_cases (d : FirmwareDisplay) (m : Memory) (p : UInt32) :
    (∃ key raw, reading m d.valueTable p = some (key, raw) ∧
        d.visit m p = d.update key.1 key.2 raw) ∨
      reading m d.valueTable p = none ∧ (d.visit m p).rows = d.rows ∧ Same d (d.visit m p) := by
  unfold visit reading
  dsimp only
  split_ifs with hkind hindex
  · cases hv : valueAddress d.valueTable ((m.u32 (p + 0x18)).getD 0) with
    | none => exact .inr ⟨rfl, rfl, same_rejected d⟩
    | some v =>
      dsimp only [Option.bind_some, bind]
      cases hflags : m.u16 (v + 4) with
      | none => exact .inr ⟨rfl, rfl, same_rejected d⟩
      | some flags =>
        dsimp only [Option.bind_some]
        split_ifs
        · cases hraw : m.u32 v with
          | none => exact .inr ⟨rfl, rfl, Same.refl d⟩
          | some raw => exact .inl ⟨_, raw, rfl, rfl⟩
        · exact .inr ⟨rfl, rfl, Same.refl d⟩
  · exact .inr ⟨rfl, rfl, Same.refl d⟩
  · exact .inr ⟨rfl, rfl, Same.refl d⟩

/-! ## The walk -/

/-- The values that have been read are held, the last one for each parameter. -/
def heldOf (d : FirmwareDisplay) (values : List ((UInt8 × UInt32) × UInt32)) : Latest :=
  fun key => (lastOf key values).map d.hold

theorem Same.heldOf (h : Same d d') (values : List ((UInt8 × UInt32) × UInt32)) :
    d'.heldOf values = d.heldOf values := by
  obtain ⟨⟨rows, notice, n, rfl⟩, -⟩ := h
  rfl

theorem Same.units (h : Same d d') : d'.units = d.units := by
  obtain ⟨⟨rows, notice, n, rfl⟩, -⟩ := h
  rfl

theorem Same.valueTable (h : Same d d') : d'.valueTable = d.valueTable := by
  obtain ⟨⟨rows, notice, n, rfl⟩, -⟩ := h
  rfl

theorem Same.live (h : Same d d') : d'.Live ↔ d.Live := by
  obtain ⟨⟨rows, notice, n, rfl⟩, -⟩ := h
  exact Iff.rfl

theorem same_visit (d : FirmwareDisplay) (m : Memory) (p : UInt32) : Same d (d.visit m p) := by
  rcases visit_cases d m p with ⟨key, raw, -, h⟩ | ⟨-, -, h⟩
  · rw [h]
    exact same_update d key.1 key.2 raw
  · exact h

theorem visit_shows {values : List ((UInt8 × UInt32) × UInt32)} {p : UInt32}
    (h : AllShow (d.heldOf values) d.units d.rows) (hdistinct : (d.rows.map DataRow.key).Nodup) :
    AllShow (d.heldOf (values ++ (reading m d.valueTable p).toList)) d.units (d.visit m p).rows := by
  rcases visit_cases d m p with ⟨key, raw, hreading, hvisit⟩ | ⟨hreading, hrows, -⟩
  · have hheld : d.heldOf (values ++ [(key, raw)]) =
        Function.update (d.heldOf values) key (some (d.hold raw)) := by
      funext k
      unfold heldOf
      rw [lastOf_concat, Function.update_apply]
      by_cases hk : k = key
      · rw [if_pos hk, if_pos hk.symm, Option.map_some]
      · rw [if_neg hk, if_neg (Ne.symm hk)]
    rw [hreading, hvisit, Option.toList_some, hheld]
    exact update_shows h hdistinct
  · rw [hreading, hrows, Option.toList_none, List.append_nil]
    exact h

/-- The walk visits the nodes, and tells at most that it has been stopped. -/
theorem walk_cases (m : Memory) (n : Nat) (p : UInt32) (seen : List UInt32) (d : FirmwareDisplay) :
    (walk m n p seen d).rows = ((nodes m n p seen).foldl (fun d p => d.visit m p) d).rows ∧
      Same d (walk m n p seen d) := by
  induction n generalizing p seen d with
  | zero => exact ⟨rfl, Same.refl d⟩
  | succ n ih =>
    unfold walk nodes
    by_cases hzero : p = 0
    · rw [if_pos hzero, if_pos (.inl hzero)]
      exact ⟨rfl, Same.refl d⟩
    by_cases hseen : p ∈ seen
    · rw [if_neg hzero, if_pos hseen, if_pos (.inr (.inl hseen))]
      exact ⟨rfl, ⟨_, _, _, rfl⟩, rfl⟩
    by_cases hbytes : (m.bytes p 0x1c).isNone = true
    · rw [if_neg hzero, if_neg hseen, if_pos hbytes, if_pos (.inr (.inr hbytes))]
      exact ⟨rfl, same_rejected d⟩
    · rw [if_neg hzero, if_neg hseen, if_neg hbytes, if_neg (by tauto), List.foldl_cons]
      obtain ⟨hrows, hsame⟩ := ih ((m.u32 (p + 0x12)).getD 0) (p :: seen) (d.visit m p)
      exact ⟨hrows, (same_visit d m p).trans hsame⟩

theorem foldl_shows (values : List ((UInt8 × UInt32) × UInt32)) {ps : List UInt32}
    (h : AllShow (d.heldOf values) d.units d.rows) (hdistinct : (d.rows.map DataRow.key).Nodup) :
    AllShow (d.heldOf (values ++ ps.filterMap (reading m d.valueTable))) d.units
      (ps.foldl (fun d p => d.visit m p) d).rows := by
  induction ps generalizing d values with
  | nil => simpa using h
  | cons p ps ih =>
    have hvisit := same_visit d m p
    have hrest := ih (d := d.visit m p) (values ++ (reading m d.valueTable p).toList)
      (by rw [hvisit.heldOf, hvisit.units]; exact visit_shows h hdistinct)
      (by rw [hvisit.2]; exact hdistinct)
    rw [hvisit.heldOf, hvisit.units, hvisit.valueTable, List.append_assoc] at hrest
    have hcons : (p :: ps).filterMap (reading m d.valueTable) =
        (reading m d.valueTable p).toList ++ ps.filterMap (reading m d.valueTable) := by
      cases hp : reading m d.valueTable p <;> simp [hp]
    rw [hcons, List.foldl_cons]
    exact hrest

theorem invalidate_unknown (d : FirmwareDisplay) :
    ∀ row ∈ d.invalidateAll.rows, row.valueKnown = false := by
  intro row hrow
  obtain ⟨old, -, rfl⟩ := List.mem_map.mp hrow
  rfl

theorem same_invalidate (d : FirmwareDisplay) : Same d d.invalidateAll :=
  ⟨⟨_, _, _, rfl⟩, by rw [invalidateAll, List.map_map]; rfl⟩

/-- A refresh from the list, while the display is live. -/
theorem updateData_shows (hlive : d.Live) (hdistinct : (d.rows.map DataRow.key).Nodup) :
    AllShow (d.heldOf (listed m d.listAnchor d.valueTable)) d.units (d.updateData m).rows ∧
      Same d (d.updateData m) := by
  obtain ⟨henabled, hactive, hdtc⟩ := hlive
  have hsame := same_invalidate d
  have hunknown := invalidate_unknown d
  unfold updateData listed
  have hgoes : ¬ (!d.dataEnabled ∨ !d.dataActive ∨ d.dtcApplication) := by
    simp [henabled, hactive, hdtc]
  rw [if_neg hgoes]
  change AllShow _ _ (if d.listAnchor = 0 ∨ d.valueTable = 0 then _ else _ : FirmwareDisplay).rows ∧
    Same d (if d.listAnchor = 0 ∨ d.valueTable = 0 then _ else _)
  split_ifs
  · exact ⟨unknown_shows hunknown, hsame⟩
  · change AllShow _ _ (match m.u32 d.listAnchor with
      | none => d.invalidateAll.rejected
      | some p => walk m 300 p [] d.invalidateAll).rows ∧ Same d (match m.u32 d.listAnchor with
      | none => d.invalidateAll.rejected
      | some p => walk m 300 p [] d.invalidateAll)
    cases m.u32 d.listAnchor with
    | none => exact ⟨unknown_shows hunknown, hsame.trans (same_rejected _)⟩
    | some p =>
      obtain ⟨hrows, hwalk⟩ := walk_cases m 300 p [] d.invalidateAll
      refine ⟨?_, hsame.trans hwalk⟩
      dsimp only
      rw [hrows]
      exact foldl_shows (d := d.invalidateAll) [] (unknown_shows hunknown)
        (hsame.2 ▸ hdistinct)

end FirmwareDisplay

/-! ## What keeps the rows fresh -/

open FirmwareDisplay

variable {d d' : FirmwareDisplay} {latest : Latest}

theorem fresh_empty (h : d.rows = []) (latest : Latest) : Fresh d latest where
  live := by simp [h]
  shown := unknown_shows (by simp [h])
  bounded := by simp [h]
  distinct := by simp [h]

/-- The rows are left alone, and what is live stays live. -/
theorem Fresh.keep (h : Fresh d latest) (hrows : d'.rows = d.rows) (hunits : d'.units = d.units)
    (hlive : d.Live → d'.Live) : Fresh d' latest where
  live := fun row hrow hknown => hlive (h.live row (hrows ▸ hrow) hknown)
  shown := by
    rw [hrows, hunits]
    exact h.shown
  bounded := hrows ▸ h.bounded
  distinct := hrows ▸ h.distinct

/-- No row counts as known any more. -/
theorem Fresh.unknown (h : Fresh d latest) (d' : FirmwareDisplay)
    (hkeys : d'.rows.map DataRow.key = d.rows.map DataRow.key)
    (hunknown : ∀ row ∈ d'.rows, row.valueKnown = false) (latest' : Latest) : Fresh d' latest' where
  live := fun row hrow hknown => absurd ((hunknown row hrow).symm.trans hknown) Bool.false_ne_true
  shown := unknown_shows hunknown
  bounded := by
    rw [← List.length_map (f := DataRow.key), hkeys, List.length_map]
    exact h.bounded
  distinct := by
    rw [hkeys]
    exact h.distinct

/-- The rows show what is held from now on. -/
theorem Fresh.same (h : Fresh d latest) (hsame : Same d d') (hlive : d.Live) {latest' : Latest}
    (hshows : AllShow latest' d.units d'.rows) : Fresh d' latest' where
  live := fun _ _ _ => hsame.live.mpr hlive
  shown := by
    rw [hsame.units]
    exact hshows
  bounded := by
    rw [← List.length_map (f := DataRow.key), hsame.2, List.length_map]
    exact h.bounded
  distinct := by
    rw [hsame.2]
    exact h.distinct

theorem Fresh.unknown_of_not_live (h : Fresh d latest) (hlive : ¬ d.Live) :
    ∀ row ∈ d.rows, row.valueKnown = false :=
  fun row hrow => Bool.eq_false_iff.mpr fun hknown => hlive (h.live row hrow hknown)

theorem fresh_updateData (h : Fresh d latest) (m : Memory) :
    Fresh (d.updateData m) (d.listRefresh latest m) := by
  unfold listRefresh
  split_ifs with hlive
  · obtain ⟨hshows, hsame⟩ := updateData_shows (m := m) hlive h.distinct
    exact h.same hsame hlive hshows
  · have hstops : !d.dataEnabled ∨ !d.dataActive ∨ d.dtcApplication := by
      unfold Live at hlive
      simp only [not_and_or, Bool.not_eq_true, Bool.not_eq_false] at hlive
      simpa using hlive
    unfold updateData
    rw [if_pos hstops]
    exact h

theorem describe_row {s : Source} {units : UInt32} {category : UInt8} {epid : UInt32}
    {row : DataRow} (h : s.describe units category epid = some row) :
    row.key = (category, epid) ∧ row.valueKnown = false := by
  have hrow {flags : UInt8} {conversions : Table} {p : Nat}
      (h : s.rowAt units category epid flags conversions p = some row) :
      row.key = (category, epid) ∧ row.valueKnown = false := by
    unfold Source.rowAt at h
    simp only [Option.bind_eq_bind, Option.bind_eq_some_iff, Option.some.injEq] at h
    obtain ⟨-, -, -, -, unit, -, name, -, precision, -, conversion, -, rfl⟩ := h
    exact ⟨rfl, rfl⟩
  have hsearch (definitions conversions : Table) (n k : Nat)
      (h : s.search units category epid definitions conversions n k = some row) :
      row.key = (category, epid) ∧ row.valueKnown = false := by
    induction n generalizing k with
    | zero => cases h
    | succ n ih =>
      unfold Source.search at h
      simp only [Option.bind_eq_bind, Option.bind_eq_some_iff] at h
      obtain ⟨flags, -, e, -, h⟩ := h
      by_cases hother : e ≠ epid.toNat ∨ flags &&& 0x20 ≠ (if category = 2 then 0x20 else 0)
      · rw [if_pos hother] at h
        exact ih (k + 1) h
      · rw [if_neg hother] at h
        exact hrow h
  unfold Source.describe at h
  split at h
  · split_ifs at h
    exact hsearch _ _ _ _ h
  · cases h

/-- A parameter is added as unknown, where it is not there and there is room. -/
theorem fresh_parameter (h : Fresh d latest) (r : Registers) : Fresh (d.parameter r) latest := by
  have hfirst : Fresh (if d.parameterHooks ∧ d.available ∧ !d.dtcApplication then
      { d with dataApplication := true } else d) latest := by
    split_ifs
    · exact h.keep rfl rfl id
    · exact h
  unfold parameter
  dsimp only
  generalize (if d.parameterHooks ∧ d.available ∧ !d.dtcApplication then
      { d with dataApplication := true } else d) = d₁ at hfirst ⊢
  split_ifs with hadd
  · obtain ⟨henabled, -, -, hdtc, hnew⟩ := hadd
    unfold addParameter
    split_ifs with hfull
    · exact hfirst.keep rfl rfl id
    cases hdescribe : d₁.source.describe d₁.units (r 6).toUInt8 (r 5) with
    | none => exact hfirst.keep rfl rfl id
    | some row =>
      obtain ⟨hkey, hunknown⟩ := describe_row hdescribe
      dsimp only
      have hcases : ∀ row' ∈ d₁.rows ++ [row], row'.valueKnown = true → row' ∈ d₁.rows := by
        intro row' hrow' hknown
        rcases List.mem_append.mp hrow' with hrow' | hrow'
        · exact hrow'
        · rw [List.mem_singleton.mp hrow', hunknown] at hknown
          cases hknown
      constructor
      · exact fun row' hrow' hknown => ⟨henabled, rfl, by simpa using hdtc⟩
      · exact fun row' hrow' hknown => hfirst.shown row' (hcases row' hrow' hknown) hknown
      · rw [List.length_append]
        exact Nat.succ_le_of_lt (Nat.not_le.mp hfull)
      · rw [List.map_append, List.nodup_append]
        refine ⟨hfirst.distinct, List.nodup_singleton _, ?_⟩
        intro key hkey' key' hkey'' heq
        obtain ⟨row', hrow', rfl⟩ := List.mem_map.mp hkey'
        rw [List.map_singleton, List.mem_singleton, hkey] at hkey''
        have hnone : ∀ x ∈ d₁.rows, ¬ x.key = ((r 6).toUInt8, r 5) := by simpa using hnew
        exact hnone row' hrow' (heq.trans hkey'')
  · exact hfirst

theorem fresh_setUnits (h : Fresh d latest) (units : UInt32) (m : Memory) :
    Fresh ((d.setUnits units).updateData m) (listRefresh { d with units } latest m) := by
  have hkeys : (d.setUnits units).rows.map DataRow.key = d.rows.map DataRow.key := by
    unfold setUnits
    rw [List.map_map]
    refine List.map_congr_left fun row _ => ?_
    dsimp only [Function.comp]
    split <;> rfl
  have hrefresh : listRefresh { d with units } latest m = (d.setUnits units).listRefresh latest m := rfl
  rw [hrefresh]
  by_cases hlive : d.Live
  · have hlive' : (d.setUnits units).Live := hlive
    have hdistinct : ((d.setUnits units).rows.map DataRow.key).Nodup := hkeys ▸ h.distinct
    obtain ⟨hshows, hsame⟩ := updateData_shows (m := m) hlive' hdistinct
    unfold listRefresh
    rw [if_pos hlive']
    refine ⟨fun _ _ _ => hsame.live.mpr hlive', by rw [hsame.units]; exact hshows, ?_, ?_⟩
    · rw [← List.length_map (f := DataRow.key), hsame.2, hkeys, List.length_map]
      exact h.bounded
    · rw [hsame.2]
      exact hdistinct
  · refine fresh_updateData (h.unknown _ hkeys ?_ latest) m
    intro row hrow
    obtain ⟨old, hold, rfl⟩ := List.mem_map.mp hrow
    have hunknown := h.unknown_of_not_live hlive old hold
    split <;> exact hunknown

theorem fresh_setDtc (h : Fresh d latest) (dtc : Bool) : Fresh (d.setDtc dtc) latest := by
  cases dtc with
  | true =>
    exact h.unknown (d.setDtc true) (same_invalidate d).2 (invalidate_unknown d) latest
  | false =>
    have hrows : (d.setDtc false).rows = d.rows := rfl
    refine ⟨fun row hrow hknown => ?_, h.shown, h.bounded, h.distinct⟩
    obtain ⟨henabled, -, -⟩ := h.live row hrow hknown
    refine ⟨henabled, ?_, rfl⟩
    change (d.dataEnabled && !d.rows.isEmpty) = true
    rw [henabled, List.isEmpty_eq_false_iff.mpr (List.ne_nil_of_mem (hrows ▸ hrow))]
    rfl

/-- A notification is shown, or takes back what was. -/
theorem fresh_notify (h : Fresh d latest) (r : Registers) (m : Memory) :
    Fresh (d.notify r m) (d.notifyRefresh latest r m) := by
  unfold notify notifyRefresh
  by_cases hgoes : d.Live ∧ (d.valueTable = 0 ∨ d.listAnchor = 0)
  · have hcond : d.dataEnabled ∧ d.dataActive ∧ !d.dtcApplication ∧
        (d.valueTable = 0 ∨ d.listAnchor = 0) := by
      obtain ⟨⟨henabled, hactive, hdtc⟩, haddress⟩ := hgoes
      exact ⟨henabled, hactive, by simp [hdtc], haddress⟩
    rw [if_pos hcond, if_pos hgoes]
    cases notification r m with
    | none =>
      exact h.unknown d.invalidateAll.rejected (same_invalidate d).2 (invalidate_unknown d) _
    | some note =>
      obtain ⟨key, valid, p⟩ := note
      have hdropped : Fresh (d.invalidateKey key) (Function.update latest key none) := by
        have hsame : Same d (d.invalidateKey key) := by
          refine ⟨⟨_, _, _, rfl⟩, ?_⟩
          unfold invalidateKey
          rw [List.map_map]
          refine List.map_congr_left fun row _ => ?_
          dsimp only [Function.comp]
          split_ifs <;> rfl
        refine h.same hsame hgoes.1 fun row hrow hknown => ?_
        obtain ⟨old, hold, rfl⟩ := List.mem_map.mp hrow
        split_ifs at hknown ⊢ with hkey
        · cases hknown
        · obtain ⟨held, hheld, hshows⟩ := h.shown old hold hknown
          exact ⟨held, by rw [Function.update_of_ne hkey]; exact hheld, hshows⟩
      dsimp only
      split_ifs
      · cases m.u32 p with
        | none => exact hdropped.keep rfl rfl id
        | some raw =>
          exact h.same (same_update d key.1 key.2 raw) hgoes.1 (update_shows h.shown h.distinct)
      · exact hdropped
  · have hcond : ¬ (d.dataEnabled ∧ d.dataActive ∧ !d.dtcApplication ∧
        (d.valueTable = 0 ∨ d.listAnchor = 0)) := fun ⟨henabled, hactive, hdtc, haddress⟩ =>
      hgoes ⟨⟨henabled, hactive, by simpa using hdtc⟩, haddress⟩
    rw [if_neg hcond, if_neg hgoes]
    exact h

/-! ## Signals -/

theorem fresh_loadTables (h : Fresh d latest) : Fresh d.loadTables latest := by
  unfold loadTables
  cases load d.source.card d.newExtracts with
  | none => exact h.keep rfl rfl id
  | some tables => exact h.keep rfl rfl id

theorem fresh_react (h : Fresh d latest) (code : UInt16) (r : Registers) (m : Memory) :
    Fresh (d.react code r m) (d.signalRefresh latest code r m) := by
  unfold react
  split
  · exact h.keep rfl rfl id
  · exact fresh_loadTables (h.keep rfl rfl id)
  · change Fresh _ latest
    split_ifs
    · exact h.keep rfl rfl id
    · exact h
  · change Fresh _ latest
    split_ifs
    · exact fresh_empty rfl latest
    · exact h
  · exact fresh_parameter h r
  · exact fresh_empty rfl latest
  · exact fresh_empty rfl latest
  · change Fresh _ latest
    cases (checkedSub (r 14) 0x14).bind m.u32 with
    | none => exact h.keep rfl rfl id
    | some p => exact h.keep rfl rfl id
  · change Fresh _ (if (checkedSub (r 14) 0x18).bind m.u8 = some 2 then d.listRefresh latest m
      else latest)
    split_ifs
    · exact fresh_updateData h m
    · exact h
  · exact fresh_setUnits h (r 0) m
  · exact fresh_setDtc h _
  · exact fresh_setDtc h _
  · exact fresh_notify h r m
  · next hother =>
    unfold signalRefresh
    split
    · exact absurd rfl ‹_›
    · exact absurd rfl ‹_›
    · exact absurd rfl ‹_›
    · exact h

theorem fresh_signal (h : Fresh d latest) (code : UInt16) (r : Registers) (m : Memory) :
    Fresh (d.signal code r m).1 (d.signalRefresh latest code r m) :=
  fresh_react (d := d.count code) (h.keep rfl rfl id) code r m

theorem fresh_step (d : FirmwareDisplay) (latest : Latest) (op : Op) (h : Fresh d latest) :
    Fresh (d.step op) (d.refresh latest op) := by
  cases op with
  | enable enabled =>
    change Fresh (d.setDataEnabled enabled).1 latest
    unfold setDataEnabled
    split_ifs with hrefused henabled
    · exact h.keep rfl rfl id
    · exact h.keep rfl rfl fun hlive => ⟨henabled, hlive.2⟩
    · exact fresh_empty rfl latest
  | signal code r m => exact fresh_signal h code r m
  | instruction pc r m =>
    change Fresh (d.beforeInstruction pc r m).1 (match signalAt pc m with
      | none => latest
      | some code => d.signalRefresh latest code r m)
    unfold beforeInstruction
    cases signalAt pc m with
    | none => exact h
    | some code =>
      dsimp only
      split_ifs with hanchor
      · obtain ⟨rfl, -⟩ := hanchor
        have hfound : Fresh (d.findAnchor (pc &&& 0xffffff) m) latest := by
          unfold findAnchor
          split
          · cases m.u32 ((pc &&& 0xffffff) - 4) with
            | none => exact h
            | some anchor =>
              dsimp only
              split_ifs
              · exact h.keep rfl rfl id
              · exact h.keep rfl rfl id
          · exact h.keep rfl rfl id
        exact fresh_signal hfound 0x1003 r m
      · exact fresh_signal h code r m
  | invalidate =>
    exact h.unknown d.invalidateLive (same_invalidate d).2 (invalidate_unknown d) latest

/-! ## The nodes -/

/-- The nodes are distinct, and all that is read of them is there. -/
theorem nodes_spec (m : Memory) (n : Nat) (p : UInt32) (seen : List UInt32) :
    (nodes m n p seen).length ≤ n ∧ (nodes m n p seen).Nodup ∧
      ∀ q ∈ nodes m n p seen, q ∉ seen ∧ q ≠ 0 ∧ (m.bytes q 0x1c).isSome := by
  induction n generalizing p seen with
  | zero => exact ⟨Nat.le_refl 0, List.nodup_nil, fun q hq => absurd hq List.not_mem_nil⟩
  | succ n ih =>
    unfold nodes
    split_ifs with hstops
    · exact ⟨Nat.zero_le _, List.nodup_nil, fun q hq => absurd hq List.not_mem_nil⟩
    · obtain ⟨hlength, hnodup, hall⟩ := ih ((m.u32 (p + 0x12)).getD 0) (p :: seen)
      simp only [not_or, Bool.not_eq_true, Option.isNone_eq_false_iff] at hstops
      refine ⟨Nat.succ_le_succ hlength, List.nodup_cons.mpr ⟨fun hp => ?_, hnodup⟩, fun q hq => ?_⟩
      · exact (hall p hp).1 List.mem_cons_self
      · rcases List.mem_cons.mp hq with rfl | hq
        · exact ⟨hstops.2.1, hstops.1, hstops.2.2⟩
        · obtain ⟨hseen, hrest⟩ := hall q hq
          exact ⟨fun hmem => hseen (List.mem_cons_of_mem p hmem), hrest⟩

/-- No part of a node is missing. -/
theorem node_readable {m : Memory} {q : UInt32} (h : (m.bytes q 0x1c).isSome) :
    (m.u8 q).isSome ∧ (m.u32 (q + 2)).isSome ∧ (m.u32 (q + 0x12)).isSome ∧
      (m.u16 (q + 0x16)).isSome ∧ (m.u32 (q + 0x18)).isSome := by
  obtain ⟨bs, hbs⟩ := Option.isSome_iff_exists.mp h
  have hlength := m.length_bytes hbs
  refine ⟨?_, ?_, ?_, ?_, ?_⟩
  · have hfirst := m.part 0 1 hbs (by decide) (by decide)
    rw [show q + UInt32.ofNat 0 = q from UInt32.add_zero q] at hfirst
    rw [Memory.u8, hfirst]
    obtain ⟨b, bs, rfl⟩ := List.exists_cons_of_length_pos (l := bs) (by omega)
    rfl
  · rw [Memory.u32, show q + 2 = q + UInt32.ofNat 2 from rfl, m.part 2 4 hbs (by decide) (by decide)]
    rfl
  · rw [Memory.u32, show q + 0x12 = q + UInt32.ofNat 0x12 from rfl,
      m.part 0x12 4 hbs (by decide) (by decide)]
    rfl
  · rw [Memory.u16, show q + 0x16 = q + UInt32.ofNat 0x16 from rfl,
      m.part 0x16 2 hbs (by decide) (by decide)]
    rfl
  · rw [Memory.u32, show q + 0x18 = q + UInt32.ofNat 0x18 from rfl,
      m.part 0x18 4 hbs (by decide) (by decide)]
    rfl

/-! ## Runs -/

/-- The display, and what the guest held at the latest refresh. -/
def pairStep (s : FirmwareDisplay × Latest) (op : Op) : FirmwareDisplay × Latest :=
  (s.1.step op, s.1.refresh s.2 op)

/-- For every card and every run, the rows that count as known are live and show what the memory of the
guest held at the latest refresh, in the units of now; they are at most 300 and distinct; and the walk
through the list visits at most 300 nodes, each once. -/
theorem rows_fresh (card : List UInt8) (ops : List Op) :
    let s := Runs.run pairStep (.new card, fun _ => none) ops
    (∀ row ∈ s.1.rows, row.valueKnown = true → s.1.Live ∧
      ∃ held, s.2 row.key = some held ∧ held.raw = row.rawBits ∧ held.units = s.1.units ∧
        (row.value, row.formatSupported) = held.source.format held.units row held.raw) ∧
      s.1.rows.length ≤ 300 ∧ (s.1.rows.map DataRow.key).Nodup ∧
      ∀ (m : Memory) (d : FirmwareDisplay) (p : UInt32),
        (walk m 300 p [] d).rows = ((nodes m 300 p []).foldl (fun d p => d.visit m p) d).rows ∧
          (nodes m 300 p []).length ≤ 300 ∧ (nodes m 300 p []).Nodup ∧
          ∀ q ∈ nodes m 300 p [], (m.u8 q).isSome ∧ (m.u32 (q + 2)).isSome ∧
            (m.u32 (q + 0x12)).isSome ∧ (m.u16 (q + 0x16)).isSome ∧ (m.u32 (q + 0x18)).isSome := by
  have hnew : Fresh (FirmwareDisplay.new card) fun _ => none := by
    refine fresh_empty ?_ _
    unfold FirmwareDisplay.new loadTables
    dsimp only
    cases load card false <;> rfl
  have hrun : Fresh (Runs.run pairStep (.new card, fun _ => none) ops).1
      (Runs.run pairStep (.new card, fun _ => none) ops).2 :=
    Runs.run_invariant (I := fun s : FirmwareDisplay × Latest => Fresh s.1 s.2)
      (fun s op h => fresh_step s.1 s.2 op h) ops hnew
  refine ⟨fun row hrow hknown => ⟨hrun.live row hrow hknown, hrun.shown row hrow hknown⟩,
    hrun.bounded, hrun.distinct, fun m d p => ?_⟩
  obtain ⟨hlength, hnodup, hall⟩ := nodes_spec m 300 p []
  exact ⟨(walk_cases m 300 p [] d).1, hlength, hnodup, fun q hq => node_readable (hall q hq).2.2⟩

end OpenSaab.Display
