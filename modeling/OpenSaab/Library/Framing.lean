import Mathlib.Data.List.Basic
import Mathlib.Data.List.Infix

/-!
# Frames cut off the front of a stream

A cutter looks at what has come of a stream so far. What it has made of it does not change when more
comes, so the frames of a stream do not depend on where it was cut.
-/

namespace OpenSaab.Framing

variable {α β : Type*}

/-- What is at the front: not enough yet, a frame and what follows it, or something that cannot be a
frame. -/
inductive Front (α β : Type*) where
  | short
  | bad
  | whole (frame : α) (rest : List β)

structure Cutter (α β : Type*) where
  front : List β → Front α β
  shorter : ∀ {xs a rest}, front xs = .whole a rest → rest.length < xs.length
  whole_append : ∀ {xs a rest}, front xs = .whole a rest → ∀ ys, front (xs ++ ys) = .whole a (rest ++ ys)
  bad_append : ∀ {xs}, front xs = .bad → ∀ ys, front (xs ++ ys) = .bad

namespace Cutter

/-- The frames of a stream, as far as it can be cut. -/
def frames (c : Cutter α β) (xs : List β) : List α :=
  match _h : c.front xs with
  | .whole a rest => a :: frames c rest
  | .short | .bad => []
termination_by xs.length
decreasing_by exact c.shorter _h

variable {c : Cutter α β} {xs rest : List β} {a : α}

theorem frames_whole (h : c.front xs = .whole a rest) : c.frames xs = a :: c.frames rest := by
  rw [frames]
  split
  · rename_i h'
    rw [h] at h'
    cases h'
    rfl
  all_goals
    rename_i h'
    rw [h] at h'
    cases h'

theorem frames_nil (h : ∀ a rest, c.front xs ≠ .whole a rest) : c.frames xs = [] := by
  rw [frames]
  split
  · exact absurd ‹_› (h _ _)
  all_goals rfl

theorem frames_short (h : c.front xs = .short) : c.frames xs = [] :=
  frames_nil fun a rest h' => by rw [h] at h'; cases h'

theorem frames_bad (h : c.front xs = .bad) : c.frames xs = [] :=
  frames_nil fun a rest h' => by rw [h] at h'; cases h'

end Cutter

end OpenSaab.Framing
