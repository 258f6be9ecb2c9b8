import Mathlib.Data.Finset.Card
import Mathlib.Data.List.Nodup
import Mathlib.Order.Interval.Finset.Nat

/-!
# Lists with one entry for each key

An entry is put in the place of the one with its key, or it is added at the end. What has been put in
last for a key is what is there.
-/

namespace OpenSaab.Keyed

variable {α κ : Type*} {f : α → κ} {xs : List α} {a x y : α}

/-- No key is there twice. -/
def Distinct (f : α → κ) (xs : List α) : Prop := (xs.map f).Nodup

theorem Distinct.eq_of_mem (h : Distinct f xs) (hx : x ∈ xs) (hy : y ∈ xs) (heq : f x = f y) :
    x = y := List.inj_on_of_nodup_map h hx hy heq

theorem Distinct.perm {ys : List α} (h : Distinct f xs) (hperm : xs.Perm ys) : Distinct f ys :=
  (hperm.map f).nodup_iff.mp h

theorem Distinct.append (h : Distinct f xs) (hnew : ∀ x ∈ xs, f x ≠ f a) :
    Distinct f (xs ++ [a]) := by
  unfold Distinct
  rw [List.map_append, List.map_singleton]
  refine List.Nodup.append h (List.nodup_singleton _) fun k hk hk' => ?_
  obtain ⟨x, hx, rfl⟩ := List.mem_map.mp hk
  exact hnew x hx (List.mem_singleton.mp hk')

/-- In the place of an entry with the same key. -/
theorem map_set_of_eq {i : Nat} {old : α} (hold : xs[i]? = some old) (hkey : f old = f a) :
    (xs.set i a).map f = xs.map f := by
  obtain ⟨hi, rfl⟩ := List.getElem?_eq_some_iff.mp hold
  have hi' : i < (xs.map f).length := by rwa [List.length_map]
  have hat : (xs.map f)[i] = f a := (List.getElem_map f).trans hkey
  rw [List.map_set, ← hat]
  exact List.set_getElem_self hi'

theorem Distinct.set (h : Distinct f xs) {i : Nat} {old : α} (hold : xs[i]? = some old)
    (hkey : f old = f a) : Distinct f (xs.set i a) := by
  unfold Distinct
  rw [map_set_of_eq hold hkey]
  exact h

theorem Distinct.mem_set (h : Distinct f xs) {i : Nat} {old : α} (hold : xs[i]? = some old)
    (hkey : f old = f a) (x : α) : x ∈ xs.set i a ↔ x = a ∨ x ∈ xs ∧ f x ≠ f a := by
  obtain ⟨hi, hget⟩ := List.getElem?_eq_some_iff.mp hold
  have ha : a ∈ xs.set i a := List.mem_set hi a
  constructor
  · intro hx
    by_cases hsame : f x = f a
    · exact .inl ((h.set hold hkey).eq_of_mem hx ha hsame)
    · rcases List.mem_or_eq_of_mem_set hx with hmem | rfl
      · exact .inr ⟨hmem, hsame⟩
      · exact .inl rfl
  · rintro (rfl | ⟨hx, hne⟩)
    · exact ha
    · obtain ⟨j, hj⟩ := List.mem_iff_getElem?.mp hx
      refine List.mem_of_getElem? (i := j) ?_
      rw [List.getElem?_set_ne]
      · exact hj
      · rintro rfl
        obtain rfl := Option.some.inj (hold.symm.trans hj)
        exact hne hkey

/-! ## What was put in last -/

variable [DecidableEq κ]

/-- The last entry with a key. -/
def lastWith (f : α → κ) (xs : List α) (k : κ) : Option α := xs.reverse.find? fun x => f x = k

theorem lastWith_snoc (k : κ) :
    lastWith f (xs ++ [a]) k = if f a = k then some a else lastWith f xs k := by
  unfold lastWith
  rw [List.reverse_append, List.reverse_singleton, List.singleton_append, List.find?_cons]
  by_cases h : f a = k
  · rw [if_pos h, decide_eq_true h]
  · rw [if_neg h, decide_eq_false h]

theorem exists_lastWith (hx : x ∈ xs) : ∃ y, lastWith f xs (f x) = some y := by
  refine Option.isSome_iff_exists.mp (List.find?_isSome.mpr ⟨x, List.mem_reverse.mpr hx, ?_⟩)
  exact decide_eq_true rfl

theorem lastWith_mem {k : κ} (h : lastWith f xs k = some x) : x ∈ xs ∧ f x = k := by
  unfold lastWith at h
  have hkey := List.find?_some h
  exact ⟨List.mem_reverse.mp (List.mem_of_find?_eq_some h), of_decide_eq_true hkey⟩

/-! ## Complete lists -/

/-- With the keys from one up to `n`, all of them are there when there are as many entries. -/
theorem length_eq_iff {f : α → Nat} {n : Nat} (h : Distinct f xs)
    (hrange : ∀ x ∈ xs, 1 ≤ f x ∧ f x ≤ n) :
    xs.length = n ↔ ∀ k, 1 ≤ k → k ≤ n → ∃ x ∈ xs, f x = k := by
  have hsub : (xs.map f).toFinset ⊆ Finset.Icc 1 n := by
    intro k hk
    obtain ⟨x, hx, rfl⟩ := List.mem_map.mp (List.mem_toFinset.mp hk)
    exact Finset.mem_Icc.mpr (hrange x hx)
  have hcard : (xs.map f).toFinset.card = xs.length := by
    rw [List.toFinset_card_of_nodup h, List.length_map]
  have hall : (Finset.Icc 1 n).card = n := by rw [Nat.card_Icc, Nat.add_sub_cancel]
  constructor
  · intro hlength k hlo hhi
    have heq : (xs.map f).toFinset = Finset.Icc 1 n :=
      Finset.eq_of_subset_of_card_le hsub (by omega)
    have hk : k ∈ (xs.map f).toFinset := heq ▸ Finset.mem_Icc.mpr ⟨hlo, hhi⟩
    exact List.mem_map.mp (List.mem_toFinset.mp hk)
  · intro hseen
    have heq : (xs.map f).toFinset = Finset.Icc 1 n := by
      refine Finset.Subset.antisymm hsub fun k hk => ?_
      obtain ⟨hlo, hhi⟩ := Finset.mem_Icc.mp hk
      exact List.mem_toFinset.mpr (List.mem_map.mpr (hseen k hlo hhi))
    rw [← hcard, heq, hall]

end OpenSaab.Keyed
