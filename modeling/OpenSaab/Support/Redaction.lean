import Mathlib.Data.List.Basic
import OpenSaab.Json

/-!
# Texts in a support report

`support_reports.rs`: the description of the user and the message of the last error are cut to a length,
and then what looks like a vehicle identification number is removed.
-/

namespace OpenSaab.Support

open Json

abbrev Chars := List Char

def truncate (s : Chars) (max : Nat) : Chars := s.take max

/-- The alphabet of an identification number. -/
def vinChar (c : Char) : Bool := c.isDigit || c.isUpper && !"IOQ".toList.contains c

def wordChar (c : Char) : Bool := c.isAlphanum

def window (chars : Chars) (i : Nat) : Chars := (chars.drop i).take 17

/-- The test of `redact_vins` at one index. -/
def matchesAt (chars : Chars) (i : Nat) : Bool :=
  (i == 0 || !chars[i - 1]?.any wordChar) && decide (i + 17 ≤ chars.length) &&
    !chars[i + 17]?.any wordChar && (window chars i).all vinChar &&
    (window chars i).any Char.isDigit && (window chars i).any Char.isUpper

def removed : Chars := "[VIN removed]".toList

/-- The loop of `redact_vins`, from one index on. -/
def redactFrom (chars : Chars) (i : Nat) : Chars :=
  match _ : chars[i]? with
  | none => []
  | some c => if matchesAt chars i then removed ++ redactFrom chars (i + 17) else c :: redactFrom chars (i + 1)
termination_by chars.length - i
decreasing_by
  all_goals
    have hi := (List.getElem?_eq_some_iff.mp ‹_›).1
    omega

def redactVins (text : Chars) : Chars := redactFrom text 0

/-- What is exported of a text. -/
def exported (source : Chars) (max : Nat) : Chars := redactVins (truncate source max)

/-! ## Where it is exported -/

def utcShape (t : Chars) : Bool :=
  20 ≤ t.length && t.length ≤ 40 && t[4]? == some '-' && t.contains 'T' &&
    t.all fun c => c.isDigit || "-:T.Z+".toList.contains c

def errorKinds : List String := ["handled_error", "session_error", "connection_error"]

def text (s : Chars) : Value := .string (String.ofList s)

/-- The fields of `last_error`, of what the file holds. -/
def lastError (raw : Value) : List (String × Value) :=
  let utc := (raw.get "utc").asStr.filter fun t => utcShape t.toList
  let kind := (raw.get "kind").asStr.filter errorKinds.contains
  let message := (raw.get "message").asStr.map fun m => text (exported m.toList 600)
  (utc.map fun t => ("utc", Value.string t)).toList ++
    [("kind", .string (kind.getD "handled_error"))] ++ (message.map fun m => ("message", m)).toList

/-- The field that `collect` makes of the description. -/
def descriptionField (description : Chars) : String × Value :=
  ("description", text (exported description 2000))

/-! ## Tokens -/

/-- Seventeen characters of the alphabet, a digit and a letter among them, with no word around. -/
structure Token (s : Chars) (i : Nat) : Prop where
  fits : i + 17 ≤ s.length
  before : ∀ c, 1 ≤ i → s[i - 1]? = some c → wordChar c = false
  after : ∀ c, s[i + 17]? = some c → wordChar c = false
  alphabet : ∀ c ∈ window s i, vinChar c = true
  digit : ∃ c ∈ window s i, c.isDigit = true
  letter : ∃ c ∈ window s i, c.isUpper = true

theorem matchesAt_iff (s : Chars) (i : Nat) : matchesAt s i = true ↔ Token s i := by
  have hafter : (!s[i + 17]?.any wordChar) = true ↔ ∀ c, s[i + 17]? = some c → wordChar c = false := by
    cases s[i + 17]? <;> simp
  have hbefore : (i == 0 || !s[i - 1]?.any wordChar) = true ↔
      ∀ c, 1 ≤ i → s[i - 1]? = some c → wordChar c = false := by
    rw [Bool.or_eq_true, beq_iff_eq]
    cases s[i - 1]? with
    | none => simp
    | some d =>
      simp only [Option.any_some, Bool.not_eq_true', Option.some.injEq]
      constructor
      · rintro (rfl | h) c hi rfl
        · omega
        · exact h
      · intro h
        rcases Nat.eq_zero_or_pos i with hi | hi
        · exact .inl hi
        · exact .inr (h d hi rfl)
  unfold matchesAt
  simp only [Bool.and_eq_true, hbefore, hafter, decide_eq_true_iff, List.all_eq_true, List.any_eq_true]
  constructor
  · rintro ⟨⟨⟨⟨⟨hb, hfits⟩, ha⟩, hall⟩, hdigit⟩, hletter⟩
    exact ⟨hfits, hb, ha, hall, hdigit, hletter⟩
  · rintro ⟨hfits, hb, ha, hall, hdigit, hletter⟩
    exact ⟨⟨⟨⟨⟨hb, hfits⟩, ha⟩, hall⟩, hdigit⟩, hletter⟩

/-- The position is one of a token. -/
def inToken (s : Chars) (p : Nat) : Bool :=
  (List.range (p + 1)).any fun i => matchesAt s i && decide (p < i + 17)

theorem inToken_iff {s : Chars} {p : Nat} :
    inToken s p = true ↔ ∃ i, Token s i ∧ i ≤ p ∧ p < i + 17 := by
  unfold inToken
  simp only [List.any_eq_true, List.mem_range, Bool.and_eq_true, decide_eq_true_iff, matchesAt_iff,
    Nat.lt_succ_iff]
  constructor
  · rintro ⟨i, hle, hi, hlt⟩
    exact ⟨i, hi, hle, hlt⟩
  · rintro ⟨i, hi, hle, hlt⟩
    exact ⟨i, hle, hi, hlt⟩

theorem wordChar_of_vinChar {c : Char} (h : vinChar c = true) : wordChar c = true := by
  unfold vinChar at h
  unfold wordChar Char.isAlphanum Char.isAlpha
  rcases Bool.or_eq_true_iff.mp h with hdigit | hletter
  · rw [hdigit, Bool.or_true]
  · rw [(Bool.and_eq_true_iff.mp hletter).1, Bool.true_or, Bool.true_or]

theorem Token.word {s : Chars} {i p : Nat} (h : Token s i) (hlo : i ≤ p) (hhi : p < i + 17) :
    ∃ c, s[p]? = some c ∧ wordChar c = true := by
  have hp : p < s.length := Nat.lt_of_lt_of_le hhi h.fits
  refine ⟨s[p], List.getElem?_eq_getElem hp, wordChar_of_vinChar (h.alphabet _ ?_)⟩
  refine List.mem_of_getElem? (i := p - i) ?_
  unfold window
  rw [List.getElem?_take_of_lt (by omega), List.getElem?_drop, Nat.add_sub_cancel' hlo]
  exact List.getElem?_eq_getElem hp

/-- No token begins inside another one. -/
theorem Token.apart {s : Chars} {i j : Nat} (hi : Token s i) (hj : Token s j) (h : i < j) :
    i + 17 ≤ j := by
  by_contra hnot
  obtain ⟨c, hc, hword⟩ := hi.word (p := j - 1) (by omega) (by omega)
  rw [hj.before c (by omega) hc] at hword
  cases hword

/-! ## Positions -/

/-- What one round of the loop puts out. -/
inductive Piece where
  | kept (i : Nat)
  | mark
  deriving DecidableEq, Repr

def Piece.position : Piece → Option Nat
  | .kept i => some i
  | .mark => none

def Piece.text (chars : Chars) : Piece → Chars
  | .kept i => chars[i]?.toList
  | .mark => removed

/-- The rounds of the loop. -/
def pieces (chars : Chars) (i : Nat) : List Piece :=
  if h : i < chars.length then
    if matchesAt chars i then .mark :: pieces chars (i + 17) else .kept i :: pieces chars (i + 1)
  else []
termination_by chars.length - i

theorem redactFrom_eq (chars : Chars) (i : Nat) :
    redactFrom chars i = (pieces chars i).flatMap (Piece.text chars) := by
  fun_induction pieces chars i with
  | case1 i hi htoken ih =>
    rw [redactFrom, List.flatMap_cons, ← ih]
    split
    · next hnone =>
      rw [List.getElem?_eq_getElem hi] at hnone
      cases hnone
    · rw [if_pos htoken]
      rfl
  | case2 i hi htoken ih =>
    rw [redactFrom, List.flatMap_cons, ← ih]
    split
    · next hnone =>
      rw [List.getElem?_eq_getElem hi] at hnone
      cases hnone
    · next c hc =>
      rw [if_neg htoken]
      dsimp only [Piece.text]
      rw [hc]
      rfl
  | case3 i hi =>
    rw [redactFrom]
    split
    · rfl
    · next c hc => exact absurd (List.getElem?_eq_some_iff.mp hc).1 hi

/-- Where no token is open, the loop keeps the positions that are in none. -/
theorem positions_pieces (s : Chars) (i : Nat) (hopen : ∀ j < i, Token s j → j + 17 ≤ i) :
    (pieces s i).filterMap Piece.position =
      (List.range' i (s.length - i)).filter fun p => !inToken s p := by
  fun_induction pieces s i with
  | case1 i hi htoken ih =>
    have hat := (matchesAt_iff s i).mp htoken
    have hfits := hat.fits
    have hin : (List.range' i 17).filter (fun p => !inToken s p) = [] := by
      refine List.filter_eq_nil_iff.mpr fun p hp hnot => ?_
      have hrange := List.mem_range'_1.mp hp
      rw [inToken_iff.mpr ⟨i, hat, hrange.1, hrange.2⟩] at hnot
      cases hnot
    have hsplit : List.range' i (s.length - i) =
        List.range' i 17 ++ List.range' (i + 17) (s.length - (i + 17)) := by
      rw [List.range'_append_1]
      congr 1
      omega
    rw [hsplit, List.filter_append, hin, List.nil_append, ← ih]
    · rfl
    · intro j hj hjtoken
      rcases Nat.lt_trichotomy j i with hlt | rfl | hgt
      · have hend := hopen j hlt hjtoken
        omega
      · exact Nat.le_refl _
      · have hapart := hat.apart hjtoken hgt
        omega
  | case2 i hi htoken ih =>
    have hat : ¬ Token s i := fun h => htoken ((matchesAt_iff s i).mpr h)
    have hout : inToken s i = false := by
      rw [Bool.eq_false_iff]
      intro hin
      obtain ⟨j, hj, hle, hlt⟩ := inToken_iff.mp hin
      rcases Nat.eq_or_lt_of_le hle with rfl | hlt'
      · exact hat hj
      · have hend := hopen j hlt' hj
        omega
    have hsplit : List.range' i (s.length - i) = i :: List.range' (i + 1) (s.length - (i + 1)) := by
      rw [← List.range'_succ]
      congr 1
      omega
    rw [hsplit, List.filter_cons_of_pos (by rw [hout]; rfl), ← ih]
    · rfl
    · intro j hj hjtoken
      rcases Nat.eq_or_lt_of_le (Nat.le_of_lt_succ hj) with rfl | hlt
      · exact absurd hjtoken hat
      · exact Nat.le_succ_of_le (hopen j hlt hjtoken)
  | case3 i hi =>
    rw [Nat.sub_eq_zero_of_le (by omega)]
    rfl

/-! ## The cut -/

/-- The positions of the source that are exported. -/
def exportedPositions (source : Chars) (max : Nat) : List Nat :=
  (pieces (truncate source max) 0).filterMap Piece.position

/-- All that is exported but the marks are the characters before the cut that are in no token. -/
def Private (source : Chars) (max : Nat) : Prop :=
  exportedPositions source max =
    (List.range (min max source.length)).filter fun p => !inToken source p

/-- No token goes over the cut, and none is made by it. -/
structure Uncut (source : Chars) (max : Nat) : Prop where
  inside : ∀ i, Token source i → i < max → i + 17 ≤ max
  behind : 17 ≤ max → Token (truncate source max) (max - 17) → source[max]?.any wordChar = false

theorem positions_exported (source : Chars) (max : Nat) : exportedPositions source max =
    (List.range (min max source.length)).filter fun p => !inToken (truncate source max) p := by
  have hpositions := positions_pieces (truncate source max) 0 fun j hj => absurd hj (Nat.not_lt_zero j)
  rw [Nat.sub_zero, ← List.range_eq_range'] at hpositions
  unfold exportedPositions
  rw [hpositions, truncate, List.length_take]

section Cut

variable {source : Chars} {max i : Nat}

theorem window_truncate (h : i + 17 ≤ max) : window (truncate source max) i = window source i := by
  unfold window truncate
  rw [List.drop_take, List.take_take, Nat.min_eq_left (by omega)]

theorem before_truncate (h : i + 17 ≤ max) : (truncate source max)[i - 1]? = source[i - 1]? :=
  List.getElem?_take_of_lt (by omega)

/-- The tokens of the part are those of the whole up to the cut, where the source may go on. -/
theorem token_truncate : Token (truncate source max) i ↔
    i + 17 ≤ max ∧ i + 17 ≤ source.length ∧
      (∀ c, 1 ≤ i → source[i - 1]? = some c → wordChar c = false) ∧
      (i + 17 < max → ∀ c, source[i + 17]? = some c → wordChar c = false) ∧
      (∀ c ∈ window source i, vinChar c = true) ∧ (∃ c ∈ window source i, c.isDigit = true) ∧
      ∃ c ∈ window source i, c.isUpper = true := by
  have hlength : (truncate source max).length = min max source.length := List.length_take
  constructor
  · intro h
    have hfits := h.fits
    rw [hlength] at hfits
    have hmax : i + 17 ≤ max := by omega
    have hbefore := h.before
    have halphabet := h.alphabet
    have hdigit := h.digit
    have hletter := h.letter
    rw [before_truncate hmax] at hbefore
    rw [window_truncate hmax] at halphabet hdigit hletter
    refine ⟨hmax, by omega, hbefore, fun hlt c hc => h.after c ?_, halphabet, hdigit, hletter⟩
    rw [truncate, List.getElem?_take_of_lt hlt]
    exact hc
  · rintro ⟨hmax, hfits, hbefore, hafter, halphabet, hdigit, hletter⟩
    rw [← window_truncate hmax] at halphabet hdigit hletter
    rw [← before_truncate hmax] at hbefore
    refine ⟨by omega, hbefore, fun c hc => ?_, halphabet, hdigit, hletter⟩
    have hlt := (List.getElem?_eq_some_iff.mp hc).1
    rw [hlength] at hlt
    refine hafter (by omega) c ?_
    rw [truncate, List.getElem?_take_of_lt (by omega)] at hc
    exact hc

theorem Token.cut (h : Token source i) (hmax : i + 17 ≤ max) :
    Token (truncate source max) i :=
  token_truncate.mpr ⟨hmax, h.fits, h.before, fun _ => h.after, h.alphabet, h.digit, h.letter⟩

theorem Token.whole (h : Token (truncate source max) i)
    (hbehind : i + 17 = max → source[max]?.any wordChar = false) : Token source i := by
  obtain ⟨hmax, hfits, hbefore, hafter, halphabet, hdigit, hletter⟩ := token_truncate.mp h
  refine ⟨hfits, hbefore, fun c hc => ?_, halphabet, hdigit, hletter⟩
  rcases Nat.lt_or_eq_of_le hmax with hlt | heq
  · exact hafter hlt c hc
  · rw [heq] at hc
    have hnone := hbehind heq
    rw [hc] at hnone
    exact hnone

/-- Where the same positions are in a token, the cut leaves the tokens as they are. -/
theorem uncut_of_same
    (h : ∀ p < min max source.length, inToken (truncate source max) p = inToken source p) :
    Uncut source max := by
  constructor
  · intro i hi hlt
    have hfits := hi.fits
    have hin : inToken source i = true := inToken_iff.mpr ⟨i, hi, Nat.le_refl i, by omega⟩
    rw [← h i (by omega)] at hin
    obtain ⟨j, hj, hle, hjlt⟩ := inToken_iff.mp hin
    obtain ⟨hmax, hjfits, -, -, halphabet, -⟩ := token_truncate.mp hj
    by_contra hnot
    -- The token of the part begins before this one, so that this one has a word before it.
    have hword : ∃ c, source[i - 1]? = some c ∧ wordChar c = true := by
      obtain ⟨c, hc, hword⟩ := hj.word (p := i - 1) (by omega) (by omega)
      rw [truncate, List.getElem?_take_of_lt (by omega)] at hc
      exact ⟨c, hc, hword⟩
    obtain ⟨c, hc, hword⟩ := hword
    rw [hi.before c (by omega) hc] at hword
    cases hword
  · intro hmax htoken
    have hfits := (token_truncate.mp htoken).2.1
    rw [Nat.sub_add_cancel hmax] at hfits
    have hin : inToken (truncate source max) (max - 17) = true :=
      inToken_iff.mpr ⟨max - 17, htoken, Nat.le_refl _, by omega⟩
    rw [h _ (by omega)] at hin
    obtain ⟨j, hj, hle, hlt⟩ := inToken_iff.mp hin
    have heq : j = max - 17 := by
      by_contra hne
      obtain ⟨c, hc, hword⟩ := hj.word (p := max - 17 - 1) (by omega) (by omega)
      rw [(token_truncate.mp htoken).2.2.1 c (by omega) hc] at hword
      cases hword
    subst heq
    have hafter := hj.after
    rw [Nat.sub_add_cancel hmax] at hafter
    cases hnext : source[max]? with
    | none => rfl
    | some c => exact hafter c hnext

theorem same_of_uncut (h : Uncut source max) {p : Nat} (hp : p < max) :
    inToken (truncate source max) p = inToken source p := by
  rw [Bool.eq_iff_iff, inToken_iff, inToken_iff]
  constructor
  · rintro ⟨i, hi, hle, hlt⟩
    have hbehind : i + 17 = max → source[max]?.any wordChar = false := by
      rintro rfl
      exact h.behind (by omega) (by rwa [Nat.add_sub_cancel])
    exact ⟨i, hi.whole hbehind, hle, hlt⟩
  · rintro ⟨i, hi, hle, hlt⟩
    exact ⟨i, hi.cut (h.inside i hi (by omega)), hle, hlt⟩

end Cut

/-- The characters are those of the source, at the positions that are kept. -/
theorem exported_eq (source : Chars) (max : Nat) :
    exported source max = (pieces (truncate source max) 0).flatMap (Piece.text source) := by
  unfold exported redactVins
  rw [redactFrom_eq]
  refine List.flatMap_congr fun piece hpiece => ?_
  cases piece with
  | mark => rfl
  | kept i =>
    have hi : i ∈ exportedPositions source max := List.mem_filterMap.mpr ⟨.kept i, hpiece, rfl⟩
    rw [positions_exported] at hi
    have hlt := List.mem_range.mp (List.mem_of_mem_filter hi)
    dsimp only [Piece.text, truncate]
    rw [List.getElem?_take_of_lt (by omega)]

/-- What is exported of a description or a message leaks nothing, and leaves the rest as it is, exactly
where the cut leaves the tokens as they are. -/
theorem exported_private_iff (source : Chars) (max : Nat) :
    exported source max = (pieces (truncate source max) 0).flatMap (Piece.text source) ∧
      (Private source max ↔ Uncut source max) := by
  refine ⟨exported_eq source max, ?_⟩
  unfold Private
  rw [positions_exported]
  constructor
  · intro h
    refine uncut_of_same fun p hp => ?_
    have hmem := List.mem_range.mpr hp
    have hsame : p ∈ (List.range (min max source.length)).filter
        (fun p => !inToken (truncate source max) p) ↔
        p ∈ (List.range (min max source.length)).filter fun p => !inToken source p := by rw [h]
    rw [List.mem_filter, List.mem_filter, and_iff_right hmem, and_iff_right hmem] at hsame
    exact Bool.not_inj (Bool.eq_iff_iff.mpr hsame)
  · intro h
    refine List.filter_congr fun p hp => ?_
    have hlt := List.mem_range.mp hp
    rw [same_of_uncut h (by omega)]

/-- A number that is written over the end of a description. -/
def longDescription : Chars := List.replicate 1990 ' ' ++ "YS3FD49W041000001".toList

theorem cut_number_leaks : ¬ Private longDescription 2000 := by
  have hlong : longDescription.length = 2007 := by
    unfold longDescription
    rw [List.length_append, List.length_replicate]
    rfl
  have hwindow : window longDescription 1990 = "YS3FD49W041000001".toList := by
    unfold window longDescription
    rw [List.drop_left' List.length_replicate]
    rfl
  have hbefore : longDescription[1989]? = some ' ' := by
    unfold longDescription
    rw [List.getElem?_append_left (by rw [List.length_replicate]; omega),
      List.getElem?_replicate_of_lt (by omega)]
  have htoken : Token longDescription 1990 := by
    refine ⟨by omega, fun c _ hc => ?_, fun c hc => ?_, ?_, ?_, ?_⟩
    · obtain rfl := Option.some.inj (hbefore.symm.trans hc)
      rfl
    · have hlt := (List.getElem?_eq_some_iff.mp hc).1
      omega
    · rw [hwindow, ← List.all_eq_true]
      decide
    · rw [hwindow, ← List.any_eq_true]
      decide
    · rw [hwindow, ← List.any_eq_true]
      decide
  intro hprivate
  have hmem : 1990 ∉ (List.range (min 2000 longDescription.length)).filter
      fun p => !inToken longDescription p := by
    intro hin
    have hout := (List.mem_filter.mp hin).2
    rw [inToken_iff.mpr ⟨1990, htoken, Nat.le_refl _, by omega⟩] at hout
    cases hout
  refine hmem (hprivate ▸ ?_)
  rw [positions_exported, List.mem_filter]
  refine ⟨List.mem_range.mpr (by omega), ?_⟩
  -- No token of the part reaches this far.
  rw [Bool.not_eq_true', Bool.eq_false_iff]
  intro hin
  obtain ⟨i, hi, hle, hlt⟩ := inToken_iff.mp hin
  obtain ⟨hmax, -⟩ := token_truncate.mp hi
  obtain ⟨c, hc, hword⟩ := hi.word (p := 1989) (by omega) (by omega)
  rw [truncate, List.getElem?_take_of_lt (by omega), hbefore] at hc
  obtain rfl := Option.some.inj hc
  cases hword

end OpenSaab.Support
