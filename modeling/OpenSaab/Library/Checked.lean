import Mathlib.Data.List.Basic

/-!
# Indices that must be inside

A program that may find nothing, and that goes wrong at an index that is outside. `Meets` says that it
does not go wrong, and what it finds; there is one rule for each way to put programs together.
-/

namespace OpenSaab

/-- Nothing is found, or something, unless the program goes wrong. -/
abbrev Checked (ε α : Type) := OptionT (Except ε) α

namespace Checked

variable {ε α β : Type} {x : Checked ε α} {f : α → Checked ε β} {o : Option α} {g : α → Option β}

def ofOption (o : Option α) : Checked ε α := OptionT.mk (.ok o)

def absent : Checked ε α := ofOption none

/-- What is meant to be there. -/
def demand (wrong : ε) : Option α → Checked ε α
  | some a => pure a
  | none => OptionT.mk (.error wrong)

/-- What is found, or the value that stands for nothing. -/
def orElseDefault (x : Checked ε α) (a : α) : Checked ε α :=
  OptionT.mk (x.run.map fun found => some (found.getD a))

/-- The program finds what `o` says, and does not go wrong. -/
def Meets (x : Checked ε α) (o : Option α) : Prop := x.run = .ok o

theorem meets_pure (a : α) : Meets (pure a : Checked ε α) (some a) := rfl

theorem meets_ofOption (o : Option α) : Meets (ofOption o : Checked ε α) o := rfl

theorem meets_absent : Meets (absent : Checked ε α) none := rfl

theorem meets_demand (wrong : ε) {a : α} (h : o = some a) : Meets (demand wrong o) (some a) := by
  rw [h]
  rfl

theorem meets_bind (hx : Meets x o) (hf : ∀ a, o = some a → Meets (f a) (g a)) :
    Meets (x >>= f) (o.bind g) := by
  unfold Meets at hx ⊢
  rw [OptionT.run_bind, hx]
  cases o with
  | none => rfl
  | some a => exact hf a rfl

/-- What is found first is known. -/
theorem meets_bind_some {a : α} {p : Option β} (hx : Meets x (some a)) (hf : Meets (f a) p) :
    Meets (x >>= f) p := by
  refine meets_bind (g := fun _ => p) hx fun b hb => ?_
  rwa [← Option.some.inj hb]

theorem meets_map {r : α → β} (hx : Meets x o) : Meets (r <$> x) (o.map r) := by
  unfold Meets at hx ⊢
  rw [OptionT.run_map, hx]
  rfl

theorem meets_orElseDefault (hx : Meets x o) (a : α) :
    Meets (orElseDefault x a) (some (o.getD a)) := by
  unfold Meets orElseDefault at *
  rw [hx]
  rfl

theorem meets_ite {c : Prop} [Decidable c] {y : Checked ε α} {p : Option α}
    (hx : c → Meets x o) (hy : ¬ c → Meets y p) :
    Meets (if c then x else y) (if c then o else p) := by
  split
  · next h => exact hx h
  · next h => exact hy h

end Checked

end OpenSaab
