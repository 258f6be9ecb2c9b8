import Mathlib.Data.List.Basic
import Mathlib.Algebra.Ring.Nat
import Mathlib.Tactic.SplitIfs

/-!
# Lines of words and numbers

A line is cut into words at its blanks, and a word is read as a number in some radix. What is written
as words with one blank between them is read back.
-/

namespace OpenSaab.Lines

/-! ## Words -/

section Words

variable {α : Type*} (blank : α → Bool)

/-- The words of a line, however many blanks are between them. -/
def words (line : List α) : List (List α) := (line.splitOnP blank).filter fun w => !w.isEmpty

def join (sep : α) (ws : List (List α)) : List α := [sep].intercalate ws

/-- Not empty, and without a blank. -/
def IsWord (w : List α) : Prop := w ≠ [] ∧ ∀ c ∈ w, blank c = false

variable {blank}

theorem join_cons {sep : α} {w : List α} {ws : List (List α)} (h : ws ≠ []) :
    join sep (w :: ws) = w ++ sep :: join sep ws := by
  obtain ⟨v, vs, rfl⟩ := List.exists_cons_of_ne_nil h
  simp [join, List.intercalate]

theorem words_join {sep : α} {ws : List (List α)} (hsep : blank sep = true)
    (h : ∀ w ∈ ws, IsWord blank w) : words blank (join sep ws) = ws := by
  unfold words
  induction ws with
  | nil => rfl
  | cons w ws ih =>
    obtain ⟨hne, hw⟩ := h w List.mem_cons_self
    have hkeep (rest : List (List α)) : (w :: rest).filter (fun w => !w.isEmpty) =
        w :: rest.filter fun w => !w.isEmpty := List.filter_cons_of_pos (by simpa using hne)
    by_cases hws : ws = []
    · subst hws
      have hone : join sep [w] = w := by simp [join, List.intercalate]
      rw [hone, List.splitOnP_eq_singleton hw, hkeep]
      rfl
    · rw [join_cons hws, List.splitOnP_append_cons_of_forall_mem hw _ hsep, hkeep,
        ih fun v hv => h v (List.mem_cons_of_mem w hv)]

theorem join_ne_nil {sep : α} {ws : List (List α)} (hne : ws ≠ []) (h : ∀ w ∈ ws, IsWord blank w) :
    join sep ws ≠ [] := by
  obtain ⟨w, ws, rfl⟩ := List.exists_cons_of_ne_nil hne
  have hw := (h w List.mem_cons_self).1
  by_cases hws : ws = []
  · subst hws
    simpa [join, List.intercalate] using hw
  · rw [join_cons hws]
    exact List.append_ne_nil_of_left_ne_nil hw _

/-- A line of words ends without a blank. -/
theorem getLast_join {sep : α} {ws : List (List α)} (hne : ws ≠ []) (h : ∀ w ∈ ws, IsWord blank w)
    {c : α} (hc : (join sep ws).getLast? = some c) : blank c = false := by
  induction ws with
  | nil => exact absurd rfl hne
  | cons w ws ih =>
    by_cases hws : ws = []
    · subst hws
      have hone : join sep [w] = w := by simp [join, List.intercalate]
      rw [hone] at hc
      exact (h w List.mem_cons_self).2 c (List.mem_of_getLast? hc)
    · have hrest : ∀ v ∈ ws, IsWord blank v := fun v hv => h v (List.mem_cons_of_mem w hv)
      have hjoin : join sep ws ≠ [] := join_ne_nil hws hrest
      have hlast : (w ++ sep :: join sep ws).getLast? = (join sep ws).getLast? := by
        obtain ⟨x, xs, hx⟩ := List.exists_cons_of_ne_nil hjoin
        rw [hx, List.getLast?_append_of_ne_nil _ (List.cons_ne_nil _ _), List.getLast?_cons_cons]
      rw [join_cons hws, hlast] at hc
      exact ih hws hrest hc

theorem length_join {sep : α} {ws : List (List α)} (hne : ws ≠ []) :
    (join sep ws).length + 1 = (ws.map List.length).sum + ws.length := by
  induction ws with
  | nil => exact absurd rfl hne
  | cons w ws ih =>
    by_cases hws : ws = []
    · subst hws
      simp [join, List.intercalate]
    · have hrest := ih hws
      rw [join_cons hws, List.length_append, List.length_cons, List.map_cons, List.sum_cons,
        List.length_cons]
      omega

end Words

/-! ## Numbers -/

/-- The value of a digit, in either case. -/
def digitValue (radix : Nat) (c : Char) : Option Nat :=
  let v := if '0' ≤ c ∧ c ≤ '9' then c.toNat - 48
    else if 'a' ≤ c ∧ c ≤ 'z' then c.toNat - 87
    else if 'A' ≤ c ∧ c ≤ 'Z' then c.toNat - 55
    else radix
  if v < radix then some v else none

def push (radix bound acc : Nat) (c : Char) : Option Nat :=
  (digitValue radix c).bind fun d => if acc * radix + d < bound then some (acc * radix + d) else none

/-- `from_str_radix` of an unsigned type: below `bound`, perhaps with a plus sign. -/
def parse (radix bound : Nat) (cs : List Char) : Option Nat :=
  let body := if cs.head? = some '+' then cs.tail else cs
  if body = [] then none else body.foldlM (push radix bound) 0

/-- The value of some digits, the highest first. -/
def value (radix : Nat) (cs : List Char) : Nat :=
  cs.foldl (fun n c => n * radix + (digitValue radix c).getD 0) 0

/-- In upper case. -/
def digits (radix n : Nat) : List Char := (Nat.toDigits radix n).map Char.toUpper

/-- At least `w` digits. -/
def padded (w radix n : Nat) : List Char :=
  List.replicate (w - (digits radix n).length) '0' ++ digits radix n

variable {radix bound n : Nat}

theorem digitValue_upper {d : Nat} (h : d < radix) (hradix : radix ≤ 16) :
    digitValue radix d.digitChar.toUpper = some d := by
  have hall : ∀ r < 17, ∀ d < r, digitValue r d.digitChar.toUpper = some d := by decide
  exact hall radix (Nat.lt_succ_of_le hradix) d h

theorem digits_eq (hradix : 1 < radix) (n : Nat) : digits radix n =
    if n < radix then [n.digitChar.toUpper]
    else digits radix (n / radix) ++ [(n % radix).digitChar.toUpper] := by
  unfold digits
  rw [Nat.toDigits_eq_if hradix]
  split_ifs <;> simp

theorem foldlM_digits (hradix : 1 < radix) (hmax : radix ≤ 16) (h : n < bound) :
    (digits radix n).foldlM (push radix bound) 0 = some n := by
  induction n using Nat.strongRecOn with
  | ind n ih =>
    have hdigit : digitValue radix (n % radix).digitChar.toUpper = some (n % radix) :=
      digitValue_upper (Nat.mod_lt n (by omega)) hmax
    rw [digits_eq hradix]
    split_ifs with hsmall
    · rw [Nat.mod_eq_of_lt hsmall] at hdigit
      simp only [List.foldlM_cons, List.foldlM_nil, push, hdigit, Option.bind_some, Nat.zero_mul,
        Nat.zero_add, if_pos h]
      rfl
    · have hless : n / radix < n := Nat.div_lt_self (by omega) hradix
      have hsum : n / radix * radix + n % radix = n := Nat.div_add_mod' n radix
      rw [List.foldlM_append, ih _ hless (by omega)]
      simp only [Option.bind_eq_bind, Option.bind_some, List.foldlM_cons, List.foldlM_nil, push,
        hdigit, hsum, if_pos h]
      rfl

theorem foldlM_zeros (hradix : 1 < radix) (hmax : radix ≤ 16) (h : 0 < bound) (k : Nat) :
    (List.replicate k '0').foldlM (push radix bound) 0 = some 0 := by
  have hzero : push radix bound 0 '0' = some 0 := by
    have hdigit : digitValue radix '0' = some 0 := @digitValue_upper radix 0 (by omega) hmax
    simp only [push, hdigit, Option.bind_some, Nat.zero_mul, Nat.add_zero, if_pos h]
  induction k with
  | zero => rfl
  | succ k ih =>
    rw [List.replicate_succ, List.foldlM_cons, hzero]
    exact ih

/-- Digits in both cases; these are no blanks and no signs. -/
theorem digit_of_mem_digits (hradix : 1 < radix) (hmax : radix ≤ 16) {c : Char}
    (h : c ∈ digits radix n) : (digitValue 16 c).isSome = true := by
  induction n using Nat.strongRecOn with
  | ind n ih =>
    have hdigit {d : Nat} (hd : d < radix) : (digitValue 16 d.digitChar.toUpper).isSome = true := by
      rw [digitValue_upper (Nat.lt_of_lt_of_le hd hmax) (Nat.le_refl 16)]
      rfl
    rw [digits_eq hradix] at h
    split_ifs at h with hsmall
    · rw [List.mem_singleton.mp h]
      exact hdigit hsmall
    · rcases List.mem_append.mp h with h | h
      · exact ih _ (Nat.div_lt_self (by omega) hradix) h
      · rw [List.mem_singleton.mp h]
        exact hdigit (Nat.mod_lt n (by omega))

theorem digit_of_mem_padded (hradix : 1 < radix) (hmax : radix ≤ 16) {w : Nat} {c : Char}
    (h : c ∈ padded w radix n) : (digitValue 16 c).isSome = true := by
  rcases List.mem_append.mp h with h | h
  · rw [List.eq_of_mem_replicate h]
    decide
  · exact digit_of_mem_digits hradix hmax h

theorem padded_ne_nil (w radix n : Nat) : padded w radix n ≠ [] := by
  unfold padded digits
  simp

theorem length_padded (hradix : 1 < radix) {w : Nat} (hw : 0 < w) (h : n < radix ^ w) :
    (padded w radix n).length = w := by
  have hle : (digits radix n).length ≤ w := by
    rw [digits, List.length_map]
    exact (Nat.length_toDigits_le_iff hradix hw).mpr h
  rw [padded, List.length_append, List.length_replicate]
  omega

/-- A number that fits comes back. -/
theorem parse_padded (hradix : 1 < radix) (hmax : radix ≤ 16) (h : n < bound) (w : Nat) :
    parse radix bound (padded w radix n) = some n := by
  have hsign : (padded w radix n).head? ≠ some '+' := by
    intro hplus
    have hmem := digit_of_mem_padded hradix hmax (List.mem_of_mem_head? hplus)
    exact absurd hmem (by decide)
  unfold parse
  simp only [if_neg hsign, if_neg (padded_ne_nil w radix n)]
  rw [padded, List.foldlM_append, foldlM_zeros hradix hmax (by omega)]
  exact foldlM_digits hradix hmax h

theorem padded_zero (radix n : Nat) : padded 0 radix n = digits radix n := by
  rw [padded, Nat.zero_sub]
  rfl

theorem parse_digits (hradix : 1 < radix) (hmax : radix ≤ 16) (h : n < bound) :
    parse radix bound (digits radix n) = some n := by
  rw [← padded_zero, parse_padded hradix hmax h]

/-! ## What is read as a number -/

theorem digit_ascii {c : Char} (h : (digitValue radix c).isSome = true) : c.toNat < 128 := by
  unfold digitValue at h
  by_cases hdecimal : '0' ≤ c ∧ c ≤ '9'
  · exact Nat.lt_of_le_of_lt hdecimal.2 (by decide)
  · by_cases hlower : 'a' ≤ c ∧ c ≤ 'z'
    · exact Nat.lt_of_le_of_lt hlower.2 (by decide)
    · by_cases hupper : 'A' ≤ c ∧ c ≤ 'Z'
      · exact Nat.lt_of_le_of_lt hupper.2 (by decide)
      · simp [hdecimal, hlower, hupper] at h

theorem digitValue_plus : digitValue radix '+' = none := by
  have hplus : ¬('0' ≤ '+' ∧ '+' ≤ '9') ∧ ¬('a' ≤ '+' ∧ '+' ≤ 'z') ∧ ¬('A' ≤ '+' ∧ '+' ≤ 'Z') := by
    decide
  rw [digitValue, if_neg hplus.1, if_neg hplus.2.1, if_neg hplus.2.2]
  exact if_neg (Nat.lt_irrefl radix)

theorem le_foldl_value (hradix : 0 < radix) (acc : Nat) (cs : List Char) :
    acc ≤ cs.foldl (fun n c => n * radix + (digitValue radix c).getD 0) acc := by
  induction cs generalizing acc with
  | nil => exact Nat.le_refl acc
  | cons c cs ih =>
    have hstep : acc ≤ acc * radix + (digitValue radix c).getD 0 :=
      Nat.le_add_right_of_le (Nat.le_mul_of_pos_right acc hradix)
    exact Nat.le_trans hstep (ih _)

/-- Digits are read one after the other, and the number stays below the bound throughout. -/
theorem foldlM_push_iff (hradix : 0 < radix) {acc : Nat} (hacc : acc < bound) {cs : List Char} :
    cs.foldlM (push radix bound) acc = some n ↔
      (∀ c ∈ cs, (digitValue radix c).isSome = true) ∧
        cs.foldl (fun n c => n * radix + (digitValue radix c).getD 0) acc = n ∧ n < bound := by
  induction cs generalizing acc with
  | nil =>
    constructor
    · rintro h
      obtain rfl := Option.some.inj h
      exact ⟨fun c hc => absurd hc List.not_mem_nil, rfl, hacc⟩
    · rintro ⟨-, rfl, -⟩
      rfl
  | cons c cs ih =>
    rw [List.foldlM_cons, List.foldl_cons, List.forall_mem_cons]
    cases hdigit : digitValue radix c with
    | none => simp [push, hdigit]
    | some d =>
      by_cases hfits : acc * radix + d < bound
      · have hpush : push radix bound acc c = some (acc * radix + d) := by
          rw [push, hdigit, Option.bind_some, if_pos hfits]
        rw [hpush]
        simp only [Option.bind_eq_bind, Option.bind_some, Option.getD_some, Option.isSome_some,
          true_and]
        exact ih hfits
      · have hpush : push radix bound acc c = none := by
          rw [push, hdigit, Option.bind_some, if_neg hfits]
        have hle := le_foldl_value hradix (acc * radix + d) cs
        rw [hpush, Option.getD_some]
        constructor
        · intro h
          cases h
        · rintro ⟨-, rfl, hn⟩
          omega

theorem digitValue_lt {c : Char} {d : Nat} (h : digitValue radix c = some d) : d < radix := by
  unfold digitValue at h
  dsimp only at h
  generalize (if '0' ≤ c ∧ c ≤ '9' then c.toNat - 48 else if 'a' ≤ c ∧ c ≤ 'z' then c.toNat - 87
    else if 'A' ≤ c ∧ c ≤ 'Z' then c.toNat - 55 else radix) = v at h
  split at h
  · next hv => exact Option.some.inj h ▸ hv
  · cases h

theorem value_lt {cs : List Char} (h : ∀ c ∈ cs, (digitValue radix c).isSome = true) :
    value radix cs < radix ^ cs.length := by
  have hfold (acc : Nat) (cs : List Char) (h : ∀ c ∈ cs, (digitValue radix c).isSome = true) :
      cs.foldl (fun n c => n * radix + (digitValue radix c).getD 0) acc <
        (acc + 1) * radix ^ cs.length := by
    induction cs generalizing acc with
    | nil => simp
    | cons c cs ih =>
      obtain ⟨hc, hcs⟩ := List.forall_mem_cons.mp h
      obtain ⟨d, hd⟩ := Option.isSome_iff_exists.mp hc
      have hlt := digitValue_lt hd
      have hstep : acc * radix + d + 1 ≤ (acc + 1) * radix := by
        rw [Nat.add_mul, Nat.one_mul]
        omega
      rw [List.foldl_cons, hd, Option.getD_some, List.length_cons, Nat.pow_succ', ← Nat.mul_assoc]
      exact Nat.lt_of_lt_of_le (ih _ hcs) (Nat.mul_le_mul_right _ hstep)
  have hvalue := hfold 0 cs h
  rw [Nat.zero_add, Nat.one_mul] at hvalue
  exact hvalue

/-- A number is one digit or more, perhaps behind a plus sign. -/
theorem parse_iff (hradix : 0 < radix) (hbound : 0 < bound) {cs : List Char} :
    parse radix bound cs = some n ↔ ∃ body, (cs = body ∨ cs = '+' :: body) ∧ body ≠ [] ∧
      (∀ c ∈ body, (digitValue radix c).isSome = true) ∧ value radix body = n ∧ n < bound := by
  have hbody {body : List Char} (hne : body ≠ []) :
      (if body = [] then none else body.foldlM (push radix bound) 0) = some n ↔
        (∀ c ∈ body, (digitValue radix c).isSome = true) ∧ value radix body = n ∧ n < bound := by
    rw [if_neg hne]
    exact foldlM_push_iff hradix hbound
  unfold parse
  dsimp only
  constructor
  · intro h
    split at h
    · next hsign =>
      obtain ⟨rest, rfl⟩ := List.head?_eq_some_iff.mp hsign
      rw [List.tail_cons] at h
      by_cases hne : rest = []
      · rw [if_pos hne] at h
        cases h
      · exact ⟨rest, .inr rfl, hne, (hbody hne).mp h⟩
    · by_cases hne : cs = []
      · rw [if_pos hne] at h
        cases h
      · exact ⟨cs, .inl rfl, hne, (hbody hne).mp h⟩
  · rintro ⟨body, rfl | rfl, hne, hdigits, hvalue⟩
    · have hsign : cs.head? ≠ some '+' := by
        intro hplus
        have hdigit := hdigits '+' (List.mem_of_mem_head? hplus)
        rw [digitValue_plus] at hdigit
        cases hdigit
      rw [if_neg hsign]
      exact (hbody hne).mpr ⟨hdigits, hvalue⟩
    · rw [List.head?_cons, if_pos rfl, List.tail_cons]
      exact (hbody hne).mpr ⟨hdigits, hvalue⟩

example : padded 4 16 0x2f = "002F".toList := by decide

example : parse 10 256 "+007".toList = some 7 := by decide

end OpenSaab.Lines
