import Mathlib.Data.List.Basic

/-!
# Contents of a memory

A memory holds a list of items by address. `SameOutside` compares two contents away from a range.
-/

namespace OpenSaab.Bytes

variable {α : Type*} {xs ys zs : List α} {lo hi i : Nat} {v : α}

/-- `v` at the addresses from `lo` up to `hi`. -/
def fill (xs : List α) (lo hi : Nat) (v : α) : List α :=
  xs.mapIdx fun i x => if lo ≤ i ∧ i < hi then v else x

@[simp] theorem length_fill (xs : List α) (lo hi : Nat) (v : α) :
    (fill xs lo hi v).length = xs.length := List.length_mapIdx

theorem fill_inside (hlo : lo ≤ i) (hhi : i < hi) (h : i < xs.length) :
    (fill xs lo hi v)[i]? = some v := by
  rw [fill, List.getElem?_mapIdx, List.getElem?_eq_getElem h, Option.map_some, if_pos ⟨hlo, hhi⟩]

theorem fill_outside (h : i < lo ∨ hi ≤ i) : (fill xs lo hi v)[i]? = xs[i]? := by
  have hi : ¬ (lo ≤ i ∧ i < hi) := by omega
  rw [fill, List.getElem?_mapIdx]
  simp only [hi, if_false, Option.map_id']

/-- As long, and alike at every address that is not from `lo` up to `hi`. -/
def SameOutside (lo hi : Nat) (xs ys : List α) : Prop :=
  ys.length = xs.length ∧ ∀ i, i < lo ∨ hi ≤ i → ys[i]? = xs[i]?

theorem SameOutside.refl (lo hi : Nat) (xs : List α) : SameOutside lo hi xs xs :=
  ⟨rfl, fun _ _ => rfl⟩

theorem SameOutside.trans (h : SameOutside lo hi xs ys) (h' : SameOutside lo hi ys zs) :
    SameOutside lo hi xs zs :=
  ⟨h'.1.trans h.1, fun i hi => (h'.2 i hi).trans (h.2 i hi)⟩

theorem SameOutside.mono {lo' hi' : Nat} (h : SameOutside lo hi xs ys) (hlo : lo' ≤ lo)
    (hhi : hi ≤ hi') : SameOutside lo' hi' xs ys :=
  ⟨h.1, fun i hi => h.2 i (by omega)⟩

theorem sameOutside_fill (xs : List α) (lo hi : Nat) (v : α) :
    SameOutside lo hi xs (fill xs lo hi v) :=
  ⟨length_fill xs lo hi v, fun _ h => fill_outside h⟩

theorem sameOutside_set (xs : List α) (i : Nat) (v : α) : SameOutside i (i + 1) xs (xs.set i v) :=
  ⟨List.length_set, fun j hj => List.getElem?_set_ne (by omega)⟩

/-- Two neighbours. -/
theorem sameOutside_set_set (xs : List α) (i : Nat) (v w : α) :
    SameOutside i (i + 2) xs ((xs.set i v).set (i + 1) w) :=
  ((sameOutside_set xs i v).mono (Nat.le_refl i) (by omega)).trans
    ((sameOutside_set _ (i + 1) w).mono (by omega) (Nat.le_refl _))

/-! ## Contents that grow -/

/-- Cut or filled up with `v` to the length `n`. -/
def resize (xs : List α) (n : Nat) (v : α) : List α := xs.take n ++ List.replicate (n - xs.length) v

/-- `ys` in the place of what is at its offset. -/
def overwrite (xs : List α) (offset : Nat) (ys : List α) : List α :=
  xs.take offset ++ ys ++ xs.drop (offset + ys.length)

@[simp] theorem length_resize (xs : List α) (n : Nat) (v : α) : (resize xs n v).length = n := by
  simp only [resize, List.length_append, List.length_take, List.length_replicate]
  omega

theorem getD_resize (xs : List α) (n i : Nat) (v : α) :
    (resize xs n v).getD i v = if i < n then xs.getD i v else v := by
  simp only [resize, List.getD_eq_getElem?_getD]
  by_cases h : i < n
  · rw [if_pos h]
    by_cases hi : i < xs.length
    · rw [List.getElem?_append_left (by rw [List.length_take]; omega), List.getElem?_take_of_lt h]
    · rw [List.getElem?_append_right (by rw [List.length_take]; omega), List.getElem?_replicate,
        List.getElem?_eq_none (by omega : xs.length ≤ i)]
      split <;> rfl
  · rw [if_neg h, List.getElem?_eq_none]
    · rfl
    · rw [List.length_append, List.length_take, List.length_replicate]
      omega

theorem getElem?_overwrite {offset : Nat} (h : offset + ys.length ≤ xs.length) (i : Nat) :
    (overwrite xs offset ys)[i]? =
      if offset ≤ i ∧ i < offset + ys.length then ys[i - offset]? else xs[i]? := by
  have hfront : (xs.take offset).length = offset := by rw [List.length_take]; omega
  rw [overwrite, List.append_assoc]
  rcases Nat.lt_or_ge i offset with hi | hi
  · rw [if_neg (by omega), List.getElem?_append_left (by omega), List.getElem?_take_of_lt hi]
  · rw [List.getElem?_append_right (by omega), hfront]
    by_cases hin : i < offset + ys.length
    · rw [if_pos ⟨hi, hin⟩, List.getElem?_append_left (by omega)]
    · rw [if_neg (by omega), List.getElem?_append_right (by omega), List.getElem?_drop]
      congr 1
      omega

theorem length_overwrite {offset : Nat} (h : offset + ys.length ≤ xs.length) :
    (overwrite xs offset ys).length = xs.length := by
  simp only [overwrite, List.length_append, List.length_take, List.length_drop]
  omega

/-! ## Parts -/

/-- The `k` items from `p` on, as far as they are there. -/
def slice (xs : List α) (p k : Nat) : List α := (xs.drop p).take k

theorem getElem?_slice (xs : List α) (p k i : Nat) :
    (slice xs p k)[i]? = if i < k then xs[p + i]? else none := by
  rw [slice, List.getElem?_take, List.getElem?_drop]

theorem length_slice {p k : Nat} (h : p + k ≤ xs.length) : (slice xs p k).length = k := by
  rw [slice, List.length_take, List.length_drop]
  omega

theorem getD_slice {p k i : Nat} (h : i < k) (d : α) : (slice xs p k).getD i d = xs.getD (p + i) d := by
  rw [List.getD_eq_getElem?_getD, getElem?_slice, if_pos h, List.getD_eq_getElem?_getD]

/-- Parts of a part. -/
theorem slice_slice {p k i j : Nat} (h : i + j ≤ k) :
    slice (slice xs p k) i j = slice xs (p + i) j := by
  apply List.ext_getElem?
  intro n
  rw [getElem?_slice, getElem?_slice, getElem?_slice, Nat.add_assoc]
  split
  · rw [if_pos (by omega)]
  · rfl

theorem slice_overwrite {offset k : Nat} (h : offset + ys.length ≤ xs.length)
    (hk : ys.length = k) : slice (overwrite xs offset ys) offset k = ys := by
  subst hk
  apply List.ext_getElem?
  intro i
  rw [getElem?_slice, getElem?_overwrite h]
  split
  · rw [if_pos (by omega), Nat.add_sub_cancel_left]
  · rw [List.getElem?_eq_none (by omega)]

theorem slice_overwrite_of_disjoint {offset p k : Nat} (h : offset + ys.length ≤ xs.length)
    (hapart : p + k ≤ offset ∨ offset + ys.length ≤ p) :
    slice (overwrite xs offset ys) p k = slice xs p k := by
  apply List.ext_getElem?
  intro i
  rw [getElem?_slice, getElem?_slice, getElem?_overwrite h]
  split
  · rw [if_neg (by omega)]
  · rfl

theorem slice_append_slice (xs : List α) (p j k : Nat) :
    slice xs p j ++ slice xs (p + j) k = slice xs p (j + k) := by
  unfold slice
  rw [List.take_add, List.drop_drop]

theorem slice_append_drop (xs : List α) (p k : Nat) : slice xs p k ++ xs.drop (p + k) = xs.drop p := by
  unfold slice
  rw [← List.drop_drop, List.take_append_drop]

/-- The items from one index up to another, if they are all there. -/
def part (xs : List α) (lo hi : Nat) : Option (List α) :=
  if lo ≤ hi ∧ hi ≤ xs.length then some (slice xs lo (hi - lo)) else none

theorem part_eq {k : Nat} (h : lo + k ≤ xs.length) : part xs lo (lo + k) = some (slice xs lo k) := by
  unfold part
  rw [if_pos ⟨Nat.le_add_right lo k, h⟩, Nat.add_sub_cancel_left]

theorem part_append (hlo : xs.length = lo) (hhi : lo + ys.length = hi) :
    part (xs ++ ys ++ zs) lo hi = some ys := by
  subst hhi
  rw [part_eq (by simp only [List.length_append]; omega)]
  unfold slice
  rw [List.append_assoc, List.drop_left' hlo, List.take_left' rfl]

end OpenSaab.Bytes
