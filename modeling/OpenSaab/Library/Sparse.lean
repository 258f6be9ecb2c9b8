import OpenSaab.Library.Bytes
import Mathlib.Data.List.Induction

/-!
# Sparse files

A file is what it holds at every offset and a size. What was never written is filled in.
-/

namespace OpenSaab

/-- Beyond its size a file holds nothing but `z`. -/
@[ext] structure Sparse {α : Type*} (z : α) where
  get : Nat → α
  size : Nat
  beyond : ∀ i, size ≤ i → get i = z

namespace Sparse

open Bytes

variable {α : Type*} {z : α}

def empty : Sparse z := ⟨fun _ => z, 0, fun _ _ => rfl⟩

def ofList (z : α) (xs : List α) : Sparse z :=
  ⟨fun i => xs.getD i z, xs.length, fun _ h => by simp [h]⟩

/-- As much as there is, from an offset on. -/
def read (f : Sparse z) (offset n : Nat) : List α :=
  (List.range (min n (f.size - offset))).map fun i => f.get (offset + i)

/-- Whether a write of `n` items at `offset` covers `i`. -/
abbrev Covers (offset n i : Nat) : Prop := offset ≤ i ∧ i < offset + n

def write (f : Sparse z) (offset : Nat) (ys : List α) : Sparse z where
  get i := if Covers offset ys.length i then ys.getD (i - offset) z else f.get i
  size := max f.size (offset + ys.length)
  beyond i h := by
    rw [if_neg (by omega)]
    exact f.beyond i (by omega)

/-! ## Reading -/

@[simp] theorem length_read (f : Sparse z) (offset n : Nat) :
    (f.read offset n).length = min n (f.size - offset) := by
  simp [read]

theorem read_get {f : Sparse z} {offset n i : Nat} (h : i < (f.read offset n).length) :
    (f.read offset n)[i]? = some (f.get (offset + i)) := by
  rw [length_read] at h
  simp [read, h]

theorem read_ofList (xs : List α) (offset n : Nat) :
    (ofList z xs).read offset n = (xs.drop offset).take n := by
  apply List.ext_getElem?
  intro i
  by_cases h : i < min n (xs.length - offset)
  · have hi : offset + i < xs.length := by omega
    rw [read_get (by rw [length_read]; exact h), List.getElem?_take_of_lt (by omega),
      List.getElem?_drop]
    simp [ofList, hi]
  · rw [List.getElem?_eq_none (by rw [length_read]; exact Nat.not_lt.mp h),
      List.getElem?_eq_none (by rw [List.length_take, List.length_drop]; exact Nat.not_lt.mp h)]

/-! ## Writing -/

/-- Filling up and overwriting a list is a write. -/
theorem ofList_overwrite (xs ys : List α) (offset : Nat) :
    ofList z (overwrite (resize xs (max (offset + ys.length) xs.length) z) offset ys) =
      (ofList z xs).write offset ys := by
  have hfits : offset + ys.length ≤
      (resize xs (max (offset + ys.length) xs.length) z).length := by
    rw [length_resize]
    omega
  ext i
  · simp only [ofList, write, List.getD_eq_getElem?_getD, getElem?_overwrite hfits]
    split
    · rfl
    · rw [← List.getD_eq_getElem?_getD, getD_resize]
      split
      · rw [List.getD_eq_getElem?_getD]
      · rw [List.getElem?_eq_none (by omega)]
        rfl
  · exact (length_overwrite hfits).trans ((length_resize _ _ _).trans (Nat.max_comm _ _))

/-! ## Histories -/

/-- The writes one after the other. -/
def writeAll (f : Sparse z) (writes : List (Nat × List α)) : Sparse z :=
  writes.foldl (fun f w => f.write w.1 w.2) f

/-- What the last write that covers an offset puts there. -/
def lastWritten (z : α) (writes : List (Nat × List α)) (i : Nat) : Option α :=
  writes.foldl (fun last w =>
    if Covers w.1 w.2.length i then some (w.2.getD (i - w.1) z) else last) none

theorem writeAll_append (f : Sparse z) (ws vs : List (Nat × List α)) :
    f.writeAll (ws ++ vs) = (f.writeAll ws).writeAll vs := List.foldl_append

/-- A file holds what was written last, and what it held before where nothing was written. -/
theorem writeAll_get (f : Sparse z) (writes : List (Nat × List α)) (i : Nat) :
    (f.writeAll writes).get i = (lastWritten z writes i).getD (f.get i) := by
  induction writes using List.reverseRecOn with
  | nil => rfl
  | append_singleton ws w ih =>
    rw [writeAll_append, lastWritten, List.foldl_append]
    change (if Covers w.1 w.2.length i then w.2.getD (i - w.1) z else (f.writeAll ws).get i) =
      (if Covers w.1 w.2.length i then some (w.2.getD (i - w.1) z)
        else lastWritten z ws i).getD (f.get i)
    split
    · rfl
    · exact ih

end Sparse

end OpenSaab
