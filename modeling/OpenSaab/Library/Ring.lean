import Mathlib.Data.Nat.ModEq

/-!
# Lists in a ring of cells

A ring of `size` cells holds a list from a start on: the cell after the last one is the first.
-/

namespace OpenSaab.Ring

variable {α : Type*} {size start : Nat} {cell cell' : Nat → α} {xs ys : List α}

/-- From `start` on the cells hold the list. -/
def Holds (size : Nat) (cell : Nat → α) (start : Nat) (xs : List α) : Prop :=
  ∀ i, (h : i < xs.length) → cell ((start + i) % size) = xs[i]

theorem Holds.nil : Holds size cell start [] := fun i h => absurd h (Nat.not_lt_zero i)

/-- Cells outside of the ring do not matter. -/
theorem Holds.congr (hsize : 0 < size) (h : Holds size cell start xs)
    (hcell : ∀ i < size, cell' i = cell i) : Holds size cell' start xs := by
  intro i hi
  rw [hcell _ (Nat.mod_lt _ hsize)]
  exact h i hi

theorem holds_mod : Holds size cell (start % size) xs ↔ Holds size cell start xs := by
  unfold Holds
  simp only [Nat.mod_add_mod]

/-- What comes first is left behind by moving the start. -/
theorem Holds.drop (h : Holds size cell start (xs ++ ys)) :
    Holds size cell (start + xs.length) ys := by
  intro i hi
  have hmoved := h (xs.length + i) (by rw [List.length_append]; omega)
  rw [Nat.add_assoc, hmoved, List.getElem_append_right (Nat.le_add_right _ _)]
  simp only [Nat.add_sub_cancel_left]

/-- One more element fits as long as there is a cell that is not used. -/
theorem Holds.push (h : Holds size cell start xs) (hroom : xs.length < size) {x : α}
    (hnew : cell' ((start + xs.length) % size) = x)
    (hold : ∀ i, i ≠ (start + xs.length) % size → cell' i = cell i) :
    Holds size cell' start (xs ++ [x]) := by
  intro i hi
  rw [List.length_append, List.length_singleton] at hi
  by_cases hlast : i = xs.length
  · subst hlast
    rw [List.getElem_concat_length rfl]
    exact hnew
  · have hbefore : i < xs.length := by omega
    have hother : (start + i) % size ≠ (start + xs.length) % size := by
      intro hsame
      have hmod : i % size = xs.length % size := Nat.ModEq.add_left_cancel' start hsame
      rw [Nat.mod_eq_of_lt (by omega), Nat.mod_eq_of_lt hroom] at hmod
      omega
    rw [hold _ hother, List.getElem_append_left hbefore]
    exact h i hbefore

end OpenSaab.Ring
