import Mathlib.Data.List.Basic
import OpenSaab.Library.Programs

/-!
# Security data

`security/mod.rs`: what is accepted as data that was collected from a vehicle, and what as the reply
to it.
-/

namespace OpenSaab.Security

open Program

/-! ## The record -/

/-- `SIZE`. -/
def ssaSize : Nat := 714

def need (ok : Bool) (msg : String) : Except String Unit := if ok then .ok () else .error msg

/-- `b[lo..hi]`. -/
def slice (b : List UInt8) (lo hi : Nat) : List UInt8 := (b.drop lo).take (hi - lo)

def vinCharacters : List UInt8 :=
  "ABCDEFGHJKLMNPRSTUVWXYZ0123456789".toList.map fun c => UInt8.ofNat c.toNat

def validVin (v : List UInt8) : Bool := v.length == 17 && v.all vinCharacters.contains

def vin (b : List UInt8) : Except String (List UInt8) := do
  need (b.length == ssaSize) "Expected 714-byte SSA data"
  let v := slice b 20 37
  -- What is no UTF-8 has a byte that is in no VIN, and it is refused in the same words.
  need (validVin v) "Invalid SSA VIN"
  return v

/-- `u16::from_be_bytes`. -/
def word (b : List UInt8) (p : Nat) : UInt16 :=
  (b.getD p 0).toUInt16 <<< 8 ||| (b.getD (p + 1) 0).toUInt16

/-- `(0x132..=SIZE - 8).step_by(8)`. -/
def recordStarts : List Nat := List.range' 0x132 ((ssaSize - 8 - 0x132) / 8 + 1) 8

def unused (b : List UInt8) (p : Nat) : Bool := (slice b p (p + 8)).all (· == 255)

def recordsLoop (b : List UInt8) (out : List Nat) : List Nat → Except String (List Nat)
  | [] => .ok out
  | p :: ps =>
    if unused b p then recordsLoop b out ps
    else do
      need (word b p != 65535 && word b (p + 2) >>> 8 == 3 && word b (p + 4) != 65535)
        "Invalid SSA seed record"
      recordsLoop b (out ++ [p]) ps

def records (b : List UInt8) : Except String (List Nat) := do
  need (b.length == ssaSize) "Invalid SSA size"
  recordsLoop b [] recordStarts

def validateInput (b : List UInt8) : Except String Nat := do
  let _ ← vin b
  need (b.getD 0 0 == 0xb1) "Invalid SSA header"
  need ((slice b 0x26 0x2e).all (· == 255)) "Collect fresh security data first"
  let rows ← records b
  need (!rows.isEmpty) "No collected seeds in SSA"
  rows.forM fun p => need (word b (p + 6) == 65535) "SSA already contains keys"
  return rows.length

/-! ## The reply -/

/-- `allowed[lo..hi].fill(true)`. -/
def allow (allowed : List Bool) (lo hi : Nat) : List Bool :=
  allowed.zipIdx.map fun (x, i) => x || lo ≤ i && i < hi

/-- The bytes of the header that a reply may change. -/
def allowedHeader : List Bool :=
  allow ((allow (List.replicate ssaSize false) 0 0x14).set 0x25 true) 0x26 0x2e

def checkRow (before after : List UInt8) (allowed : List Bool) (p : Nat) :
    Except String (List Bool) := do
  need (slice before p (p + 6) == slice after p (p + 6)) "API changed a seed or algorithm"
  need (word after (p + 6) != 65535) "API returned an unfilled key"
  return allow allowed (p + 6) (p + 8)

/-- `(0..SIZE).all(|i| before[i] == after[i] || allowed[i])`, of three arrays of that size. -/
def unchanged (before after : List UInt8) (allowed : List Bool) : Bool :=
  (before.zip (after.zip allowed)).all fun (old, new, may) => old == new || may

def validateReply (before after : List UInt8) : Except String Unit := do
  let _ ← validateInput before
  need (after.length == ssaSize && after.getD 0 0 == 0xb1 && after.getD 1 0 == 0)
    "Invalid processed SSA header/size"
  let vinBefore ← vin before
  let vinAfter ← vin after
  need (vinBefore == vinAfter) "API changed VIN"
  need ((slice after 0x26 0x2e).all fun c => 32 ≤ c && c ≤ 126) "API security code incomplete"
  let rows ← records before
  let rowsAfter ← records after
  need (rows == rowsAfter) "API changed seed record positions"
  let allowed ← rows.foldlM (checkRow before after) allowedHeader
  need (unchanged before after allowed) "API changed unrelated SSA data"

/-! ## What is accepted -/

theorem need_bind_ok {α : Type} {ok : Bool} {msg : String} {next : Unit → Except String α}
    {result : α} (h : (need ok msg >>= next) = .ok result) : ok = true ∧ next () = .ok result := by
  cases ok with
  | false => cases h
  | true => exact ⟨rfl, h⟩

theorem need_ok {ok : Bool} {msg : String} {u : Unit} (h : need ok msg = .ok u) : ok = true := by
  cases ok with
  | false => cases h
  | true => rfl

theorem vin_ok {b v : List UInt8} (h : vin b = .ok v) : b.length = ssaSize ∧ v = slice b 20 37 := by
  obtain ⟨hlength, h⟩ := need_bind_ok h
  obtain ⟨-, h⟩ := need_bind_ok h
  exact ⟨of_decide_eq_true hlength, (Except.ok.inj h).symm⟩

theorem recordsLoop_ok {b : List UInt8} {out ps rows : List Nat}
    (h : recordsLoop b out ps = .ok rows) : rows = out ++ ps.filter fun p => !unused b p := by
  induction ps generalizing out with
  | nil =>
    cases h
    simp
  | cons p ps ih =>
    unfold recordsLoop at h
    split at h
    · next hunused => rw [ih h, List.filter_cons_of_neg (by simp [hunused])]
    · next hused =>
      obtain ⟨-, h⟩ := need_bind_ok h
      rw [ih h, List.filter_cons_of_pos (by simpa using hused), List.append_assoc]
      rfl

/-- The records that are in use. -/
theorem records_ok {b : List UInt8} {rows : List Nat} (h : records b = .ok rows) :
    rows = recordStarts.filter fun p => !unused b p := by
  obtain ⟨-, h⟩ := need_bind_ok h
  exact recordsLoop_ok h

/-- Data that is fresh has no security code yet. -/
theorem validateInput_ok {b : List UInt8} {n : Nat} (h : validateInput b = .ok n) :
    b.length = ssaSize ∧ (slice b 0x26 0x2e).all (· == 255) = true := by
  obtain ⟨v, hvin, h⟩ := except_bind_ok h
  obtain ⟨-, h⟩ := need_bind_ok h
  obtain ⟨hfresh, -⟩ := need_bind_ok h
  exact ⟨(vin_ok hvin).1, hfresh⟩

/-! ## What a reply may change -/

def HeaderByte (i : Nat) : Prop := i < 0x14 ∨ i = 0x25 ∨ 0x26 ≤ i ∧ i < 0x2e

/-- A byte of the key word of one of the records. -/
def KeyByte (rows : List Nat) (i : Nat) : Prop := ∃ p ∈ rows, p + 6 ≤ i ∧ i < p + 8

@[simp] theorem length_allow (allowed : List Bool) (lo hi : Nat) :
    (allow allowed lo hi).length = allowed.length := by
  rw [allow, List.length_map, List.length_zipIdx]

theorem of_allow {allowed : List Bool} {lo hi i : Nat}
    (h : (allow allowed lo hi).getD i false = true) :
    lo ≤ i ∧ i < hi ∨ allowed.getD i false = true := by
  rw [allow, List.getD_eq_getElem?_getD, List.getElem?_map, List.getElem?_zipIdx] at h
  rw [List.getD_eq_getElem?_getD]
  cases hget : allowed[i]? with
  | none =>
    rw [hget] at h
    cases h
  | some x =>
    rw [hget] at h
    simp only [Option.map_some, Option.getD_some, Nat.zero_add, Bool.or_eq_true, Bool.and_eq_true,
      decide_eq_true_eq] at h
    exact h.symm

theorem allowedHeader_byte {i : Nat} (h : allowedHeader.getD i false = true) : HeaderByte i := by
  unfold HeaderByte
  rcases of_allow h with hcode | h
  · exact .inr (.inr hcode)
  · rw [List.getD_eq_getElem?_getD, List.getElem?_set] at h
    split at h
    · next heq => exact .inr (.inl heq.symm)
    · rw [← List.getD_eq_getElem?_getD] at h
      rcases of_allow h with hfirst | h
      · exact .inl hfirst.2
      · simp [List.getD_eq_getElem?_getD, List.getElem?_replicate] at h
        split at h <;> cases h

/-- Each row keeps its seed and algorithm, has its key, and allows its key word. -/
theorem checkRows_ok {before after : List UInt8} {rows : List Nat} {allowed result : List Bool}
    (h : rows.foldlM (checkRow before after) allowed = .ok result) :
    (∀ p ∈ rows, slice before p (p + 6) = slice after p (p + 6) ∧ word after (p + 6) ≠ 65535) ∧
      result.length = allowed.length ∧
      ∀ i, result.getD i false = true → allowed.getD i false = true ∨ KeyByte rows i := by
  induction rows generalizing allowed with
  | nil =>
    cases h
    exact ⟨fun p hp => absurd hp List.not_mem_nil, rfl, fun i hi => .inl hi⟩
  | cons p rows ih =>
    rw [List.foldlM_cons] at h
    obtain ⟨next, hrow, h⟩ := except_bind_ok h
    obtain ⟨hseed, hrow⟩ := need_bind_ok hrow
    obtain ⟨hkey, hrow⟩ := need_bind_ok hrow
    obtain rfl := Except.ok.inj hrow
    obtain ⟨hrows, hlength, hallowed⟩ := ih h
    refine ⟨?_, hlength.trans (length_allow _ _ _), ?_⟩
    · intro q hq
      rcases List.mem_cons.mp hq with rfl | hq
      · exact ⟨eq_of_beq hseed, by simpa using hkey⟩
      · exact hrows q hq
    · intro i hi
      rcases hallowed i hi with hfill | ⟨q, hq, hrange⟩
      · rcases of_allow hfill with hin | hbefore
        · exact .inr ⟨p, List.mem_cons_self, hin⟩
        · exact .inl hbefore
      · exact .inr ⟨q, List.mem_cons_of_mem p hq, hrange⟩

theorem unchanged_at {before after : List UInt8} {allowed : List Bool}
    (h : unchanged before after allowed = true) (i : Nat) (hb : i < before.length)
    (ha : i < after.length) (hl : i < allowed.length) :
    before[i] = after[i] ∨ allowed.getD i false = true := by
  have hmem : (before[i], after[i], allowed[i]) ∈ before.zip (after.zip allowed) := by
    have hzip : i < (before.zip (after.zip allowed)).length := by
      simp only [List.length_zip]
      omega
    have hget : (before.zip (after.zip allowed))[i] = (before[i], after[i], allowed[i]) := by
      rw [List.getElem_zip, List.getElem_zip]
    exact hget ▸ List.getElem_mem hzip
  have hone := List.all_eq_true.mp h _ hmem
  rcases Bool.or_eq_true_iff.mp hone with hequal | hpermitted
  · exact .inl (eq_of_beq hequal)
  · refine .inr ?_
    rw [List.getD_eq_getElem?_getD, List.getElem?_eq_getElem hl]
    exact hpermitted

/-! ## Replies -/

def usedRecords (b : List UInt8) : List Nat := recordStarts.filter fun p => !unused b p

theorem mem_usedRecords {b : List UInt8} {p : Nat} :
    p ∈ usedRecords b ↔ p ∈ recordStarts ∧ unused b p = false := by
  rw [usedRecords, List.mem_filter, Bool.not_eq_true']

theorem mem_recordStarts {p : Nat} (h : p ∈ recordStarts) : ∃ k, p = 0x132 + 8 * k := by
  obtain ⟨k, -, hk⟩ := List.mem_range'.mp h
  exact ⟨k, hk⟩

/-- What a reply to some data keeps of it, and what it fills. -/
structure Framed (before after : List UInt8) : Prop where
  length : after.length = before.length
  vin : vin after = vin before
  seeds : ∀ p ∈ usedRecords before, slice after p (p + 6) = slice before p (p + 6)
  keys : ∀ p ∈ usedRecords before, word after (p + 6) ≠ 65535
  rest : ∀ i, ¬ HeaderByte i → ¬ KeyByte (usedRecords before) i → after[i]? = before[i]?

/-- A record that is not in use has no byte that may change. -/
theorem Framed.unused {before after : List UInt8} (h : Framed before after) {p : Nat}
    (hp : p ∈ recordStarts) (hunused : unused before p = true) :
    slice after p (p + 8) = slice before p (p + 8) := by
  obtain ⟨k, rfl⟩ := mem_recordStarts hp
  apply List.ext_getElem?
  intro j
  simp only [slice, List.getElem?_take, List.getElem?_drop]
  split
  · next hj =>
    apply h.rest
    · unfold HeaderByte
      omega
    · rintro ⟨q, hq, hrange⟩
      obtain ⟨hq, hused⟩ := mem_usedRecords.mp hq
      obtain ⟨l, rfl⟩ := mem_recordStarts hq
      have hkl : k = l := by omega
      rw [hkl, hused] at hunused
      cases hunused
  · rfl

theorem validateReply_ok {before after : List UInt8} (h : validateReply before after = .ok ()) :
    Framed before after ∧ ((slice after 0x26 0x2e).all fun c => 32 ≤ c && c ≤ 126) = true := by
  obtain ⟨n, hinput, h⟩ := except_bind_ok h
  obtain ⟨hheader, h⟩ := need_bind_ok h
  obtain ⟨v, hvin, h⟩ := except_bind_ok h
  obtain ⟨v', hvin', h⟩ := except_bind_ok h
  obtain ⟨hsame, h⟩ := need_bind_ok h
  obtain ⟨hcode, h⟩ := need_bind_ok h
  obtain ⟨rows, hrows, h⟩ := except_bind_ok h
  obtain ⟨rows', -, h⟩ := except_bind_ok h
  obtain ⟨-, h⟩ := need_bind_ok h
  obtain ⟨allowed, hcheck, hchanges⟩ := except_bind_ok h
  obtain rfl : rows = usedRecords before := records_ok hrows
  obtain ⟨hkeys, hcount, hallowed⟩ := checkRows_ok hcheck
  have hlength := (vin_ok hvin).1
  have hlength' := (vin_ok hvin').1
  have hcount' : allowed.length = ssaSize := by
    rw [hcount]
    simp [allowedHeader]
  refine ⟨⟨hlength'.trans hlength.symm, ?_, ?_, ?_, ?_⟩, hcode⟩
  · rw [hvin, hvin', eq_of_beq hsame]
  · exact fun p hp => (hkeys p hp).1.symm
  · exact fun p hp => (hkeys p hp).2
  · intro i hheader hkey
    by_cases hi : i < ssaSize
    · have hall : unchanged before after allowed = true := need_ok hchanges
      rcases unchanged_at hall i (by omega) (by omega) (by omega) with hequal | hmay
      · rw [List.getElem?_eq_getElem (by omega), List.getElem?_eq_getElem (by omega), hequal]
      · rcases hallowed i hmay with h | h
        · exact absurd (allowedHeader_byte h) hheader
        · exact absurd h hkey
    · rw [List.getElem?_eq_none (by omega), List.getElem?_eq_none (by omega)]

/-- The security code that a reply has is the mark that the data is not fresh. -/
theorem not_fresh {after : List UInt8}
    (hcode : ((slice after 0x26 0x2e).all fun c => 32 ≤ c && c ≤ 126) = true) (n : Nat) :
    validateInput after ≠ .ok n := by
  intro h
  obtain ⟨hlength, hfresh⟩ := validateInput_ok h
  have hslice : (slice after 0x26 0x2e).length = 8 := by
    rw [slice, List.length_take, List.length_drop, hlength]
    rfl
  obtain ⟨c, hc⟩ : ∃ c, c ∈ slice after 0x26 0x2e :=
    List.exists_mem_of_length_pos (by omega)
  have hblank : c = 255 := eq_of_beq (List.all_eq_true.mp hfresh c hc)
  have hprinted := List.all_eq_true.mp hcode c hc
  rw [hblank] at hprinted
  cases hprinted

/-- An accepted reply keeps what it must and has the keys; it is not taken for fresh data; and two of
them differ only where a reply may change something. -/
theorem reply_frame (before after : List UInt8) (h : validateReply before after = .ok ()) :
    Framed before after ∧
      (∀ p ∈ recordStarts, unused before p = true →
        slice after p (p + 8) = slice before p (p + 8)) ∧
      (∀ n, validateInput after ≠ .ok n) ∧
      ∀ other, validateReply before other = .ok () → ∀ i, after[i]? ≠ other[i]? →
        HeaderByte i ∨ KeyByte (usedRecords before) i := by
  obtain ⟨hframed, hcode⟩ := validateReply_ok h
  refine ⟨hframed, fun p hp hunused => hframed.unused hp hunused, ?_, ?_⟩
  · exact not_fresh hcode
  · intro other hother i hne
    by_contra hneither
    rw [not_or] at hneither
    apply hne
    rw [hframed.rest i hneither.1 hneither.2,
      (validateReply_ok hother).1.rest i hneither.1 hneither.2]

/-- One seed, and the key to it. -/
def collected : List UInt8 :=
  0xb1 :: List.replicate 19 0 ++ List.replicate 17 0x41 ++ [0] ++ List.replicate 8 255 ++
    List.replicate 260 0 ++ [1, 2, 3, 4, 5, 6, 255, 255] ++ List.replicate 400 255

def processed : List UInt8 :=
  0xb1 :: List.replicate 19 0 ++ List.replicate 17 0x41 ++ [0] ++ List.replicate 8 0x42 ++
    List.replicate 260 0 ++ [1, 2, 3, 4, 5, 6, 7, 8] ++ List.replicate 400 255

theorem processed_ok : validateReply collected processed = .ok () := by decide +kernel

theorem processed_framed : Framed collected processed :=
  (reply_frame collected processed processed_ok).1

end OpenSaab.Security
