import Std.Data.TreeMap
import Std.Data.TreeMap.Lemmas
import Mathlib.Algebra.Ring.Nat
import Mathlib.Data.List.Basic
import Mathlib.Data.List.Perm.Subperm
import Mathlib.Data.Option.Basic

/-!
# Ordered tables

Facts on `Std.TreeMap` for programs that keep their objects in an ordered map and sweep its
values: the values in key order, and one function applied to every value in place.
-/

namespace OpenSaab.Table

open Std

variable {κ ν μ : Type*} [Ord κ]

/-- The values, in the order of their keys. -/
def values (t : TreeMap κ ν) : List ν := t.toList.map Prod.snd

/-- Every value changed in place. -/
def mapValues (f : ν → ν) (t : TreeMap κ ν) : TreeMap κ ν := t.map fun _ v => f v

variable [TransOrd κ] [LawfulEqOrd κ]

theorem get_insert [DecidableEq κ] (t : TreeMap κ ν) (k a : κ) (v : ν) :
    (t.insert k v)[a]? = if a = k then some v else t[a]? := by
  simp only [TreeMap.getElem?_insert, LawfulEqCmp.compare_eq_iff_eq, @eq_comm _ k a]

theorem get_insert_ne (t : TreeMap κ ν) {k a : κ} (v : ν) (h : a ≠ k) :
    (t.insert k v)[a]? = t[a]? := by
  rw [TreeMap.getElem?_insert]
  simp [Ne.symm h]

theorem get_erase [DecidableEq κ] (t : TreeMap κ ν) (k a : κ) :
    (t.erase k)[a]? = if a = k then none else t[a]? := by
  simp only [TreeMap.getElem?_erase, LawfulEqCmp.compare_eq_iff_eq, @eq_comm _ k a]

@[simp] theorem get_mapValues (f : ν → ν) (t : TreeMap κ ν) (a : κ) :
    (mapValues f t)[a]? = t[a]?.map f := by
  rw [mapValues, TreeMap.getElem?_map]

theorem mem_values {t : TreeMap κ ν} {v : ν} : v ∈ values t ↔ ∃ k : κ, t[k]? = some v := by
  simp only [values, List.mem_map, Prod.exists, exists_eq_right]
  exact exists_congr fun k => TreeMap.mem_toList_iff_getElem?_eq_some

theorem value_mem {t : TreeMap κ ν} {k : κ} {v : ν} (h : t[k]? = some v) : v ∈ values t :=
  mem_values.mpr ⟨k, h⟩

theorem get_of_mem {t : TreeMap κ ν} {p : κ × ν} (h : p ∈ t.toList) : t[p.1]? = some p.2 :=
  TreeMap.mem_toList_iff_getElem?_eq_some.mp h

/-! ## Searching the entries -/

theorem filter_eq_nil {t : TreeMap κ ν} {p : κ × ν → Bool}
    (h : ∀ (k : κ) (v : ν), t[k]? = some v → p (k, v) = false) : t.toList.filter p = [] := by
  rw [List.filter_eq_nil_iff]
  intro e he
  simp [h e.1 e.2 (get_of_mem he)]

theorem toList_nodup (t : TreeMap κ ν) : t.toList.Nodup := by
  refine TreeMap.distinct_keys_toList.imp fun hab heq => ?_
  rw [heq] at hab
  exact hab compare_self

/-- The only entry that the test accepts. -/
theorem filter_eq_singleton {t : TreeMap κ ν} {p : κ × ν → Bool} {k : κ} {v : ν}
    (hv : t[k]? = some v) (hp : p (k, v) = true)
    (h : ∀ (k' : κ) (v' : ν), k' ≠ k → t[k']? = some v' → p (k', v') = false) :
    t.toList.filter p = [(k, v)] := by
  have hall : ∀ e ∈ t.toList.filter p, e = (k, v) := by
    rintro ⟨k', v'⟩ he
    obtain ⟨hmem, hpe⟩ := List.mem_filter.mp he
    have hget := get_of_mem hmem
    by_cases hk : k' = k
    · subst hk
      obtain rfl : v = v' := by simpa [hv] using hget
      rfl
    · rw [h k' v' hk hget] at hpe
      cases hpe
  have hmem : (k, v) ∈ t.toList.filter p :=
    List.mem_filter.mpr ⟨TreeMap.mem_toList_iff_getElem?_eq_some.mpr hv, hp⟩
  have hnodup : (t.toList.filter p).Nodup := (toList_nodup t).filter p
  cases hl : t.toList.filter p with
  | nil => simp [hl] at hmem
  | cons e es =>
    rw [hl] at hall hnodup
    have hes : es = [] := by
      rw [List.eq_nil_iff_forall_not_mem]
      intro x hx
      have hxe : x = e := (hall x (List.mem_cons_of_mem _ hx)).trans (hall e List.mem_cons_self).symm
      exact (List.nodup_cons.mp hnodup).1 (hxe ▸ hx)
    rw [hes, hall e List.mem_cons_self]

/-! ## Sums over the values -/

/-- The value stored under a key counts in the place of the one before it. -/
theorem sum_insert [DecidableEq κ] (g : ν → Nat) (t : TreeMap κ ν) (k : κ) (v : ν) :
    ((values (t.insert k v)).map g).sum + (t[k]?.map g).getD 0 =
      ((values t).map g).sum + g v := by
  have hinsert := (TreeMap.toList_insert_perm (t := t) (k := k) (v := v)).map fun e => g e.2
  have hsplit := (List.filter_append_perm (fun e : κ × ν => e.1 == k) t.toList).map fun e => g e.2
  have hone : ((t.toList.filter fun e => e.1 == k).map fun e => g e.2).sum = (t[k]?.map g).getD 0 := by
    cases ht : t[k]? with
    | none =>
      rw [filter_eq_nil]
      · rfl
      · intro k' v' hv'
        simp only [beq_eq_false_iff_ne, ne_eq]
        rintro rfl
        rw [ht] at hv'
        cases hv'
    | some old =>
      rw [filter_eq_singleton ht (by simp)]
      · simp
      · intro k' v' hne _
        simpa using hne
  have hrest : (fun e : κ × ν => decide ¬((k == e.1) = true)) = fun e => !(e.1 == k) := by
    funext e
    by_cases he : e.1 = k
    · simp [he]
    · simp [he, Ne.symm he]
  rw [hrest] at hinsert
  have h1 := hinsert.sum_nat
  have h2 := hsplit.sum_nat
  simp only [List.map_cons, List.sum_cons, List.map_append, List.sum_append] at h1 h2
  simp only [values, List.map_map, Function.comp_def]
  omega

/-! ## Sizes -/

/-- A table without other keys is no larger. -/
theorem size_le_of_mem {t : TreeMap κ ν} {u : TreeMap κ μ} (h : ∀ k : κ, k ∈ u → k ∈ t) :
    u.size ≤ t.size := by
  have hsubset : u.keys ⊆ t.keys := fun k hk => TreeMap.mem_keys.mpr (h k (TreeMap.mem_keys.mp hk))
  have hle := (List.subperm_of_subset TreeMap.nodup_keys hsubset).length_le
  rwa [TreeMap.length_keys, TreeMap.length_keys] at hle

/-! ## Two states of a table -/

/-- The same keys before and after, with each value changed as `R` allows. -/
def Pointwise (R : ν → ν → Prop) (t u : TreeMap κ ν) : Prop := ∀ k : κ, Option.Rel R t[k]? u[k]?

namespace Pointwise

variable {R : ν → ν → Prop} {t u w : TreeMap κ ν}

omit [TransOrd κ] [LawfulEqOrd κ] in
theorem refl (hR : ∀ v, R v v) (t : TreeMap κ ν) : Pointwise R t t := by
  intro k
  cases t[k]? with
  | none => exact .none
  | some v => exact .some (hR v)

omit [TransOrd κ] [LawfulEqOrd κ] in
theorem trans (hR : ∀ a b c, R a b → R b c → R a c) (h : Pointwise R t u)
    (h' : Pointwise R u w) : Pointwise R t w := by
  intro k
  have hk := h k
  have hk' := h' k
  revert hk hk'
  generalize t[k]? = a, u[k]? = b, w[k]? = c
  rintro (hab | _) hbc
  · cases hbc with
    | some hbc => exact .some (hR _ _ _ hab hbc)
  · cases hbc
    exact .none

omit [TransOrd κ] [LawfulEqOrd κ] in
theorem mono {R' : ν → ν → Prop} (hR : ∀ v v', R v v' → R' v v') (h : Pointwise R t u) :
    Pointwise R' t u := by
  intro k
  have hk := h k
  revert hk
  generalize t[k]? = a, u[k]? = b
  rintro (hab | _)
  · exact .some (hR _ _ hab)
  · exact .none

theorem insert [DecidableEq κ] (hR : ∀ v, R v v) {k : κ} {v v' : ν} (hv : t[k]? = some v)
    (h : R v v') : Pointwise R t (t.insert k v') := by
  intro a
  rw [get_insert]
  split
  · next ha => rw [ha, hv]; exact .some h
  · exact refl hR t a

theorem mapValues {f : ν → ν} (h : ∀ v, R v (f v)) (t : TreeMap κ ν) :
    Pointwise R t (mapValues f t) := by
  intro k
  rw [get_mapValues]
  cases t[k]? with
  | none => exact .none
  | some v => exact .some (h v)

omit [TransOrd κ] [LawfulEqOrd κ] in
theorem after (h : Pointwise R t u) {k : κ} {v' : ν} (hv' : u[k]? = some v') :
    ∃ v, t[k]? = some v ∧ R v v' := by
  have hk := h k
  rw [hv'] at hk
  cases ht : t[k]? with
  | none => rw [ht] at hk; cases hk
  | some v => rw [ht] at hk; cases hk with | some hr => exact ⟨v, rfl, hr⟩

omit [TransOrd κ] [LawfulEqOrd κ] in
theorem before (h : Pointwise R t u) {k : κ} {v : ν} (hv : t[k]? = some v) :
    ∃ v', u[k]? = some v' ∧ R v v' := by
  have hk := h k
  rw [hv] at hk
  cases hu : u[k]? with
  | none => rw [hu] at hk; cases hk
  | some v' => rw [hu] at hk; cases hk with | some hr => exact ⟨v', rfl, hr⟩

omit [LawfulEqOrd κ] in
theorem mem (h : Pointwise R t u) {k : κ} (hk : k ∈ t) : k ∈ u := by
  rw [TreeMap.mem_iff_isSome_getElem?] at hk ⊢
  obtain ⟨v, hv⟩ := Option.isSome_iff_exists.mp hk
  obtain ⟨v', hv', -⟩ := h.before hv
  exact Option.isSome_iff_exists.mpr ⟨v', hv'⟩

end Pointwise

/-- `u` is `t` with `v` stored under `k`. -/
def Updated (t : TreeMap κ ν) (k : κ) (v : ν) (u : TreeMap κ ν) : Prop :=
  u[k]? = some v ∧ ∀ a : κ, a ≠ k → u[a]? = t[a]?

namespace Updated

variable {t u w : TreeMap κ ν} {k : κ} {v v' : ν}

omit [LawfulEqOrd κ] in
theorem insert [LawfulEqOrd κ] (t : TreeMap κ ν) (k : κ) (v : ν) : Updated t k v (t.insert k v) :=
  ⟨TreeMap.getElem?_insert_self, fun _ ha => get_insert_ne t v ha⟩

omit [TransOrd κ] [LawfulEqOrd κ] in
theorem again (h : Updated t k v u) (h' : Updated u k v' w) : Updated t k v' w :=
  ⟨h'.1, fun a ha => (h'.2 a ha).trans (h.2 a ha)⟩

end Updated

end OpenSaab.Table
