import Mathlib.Tactic.Common

/-!
# Blocks that tile an extent

A heap that hands out memory by splitting blocks, and that takes blocks back without joining them:
the blocks stay apart, and no address of the extent gets lost between them.
-/

namespace OpenSaab.Blocks

/-- `B b s` says that there is a block of `s` addresses from `b` on. Together the blocks tile the
addresses from `lo` to `hi`. -/
structure Tiles (lo hi : Nat) (B : Nat → Nat → Prop) : Prop where
  positive : ∀ {b s}, B b s → 0 < s
  inside : ∀ {b s}, B b s → lo ≤ b ∧ b + s ≤ hi
  apart : ∀ {b s b' s'}, B b s → B b' s' → b = b' ∧ s = s' ∨ b + s ≤ b' ∨ b' + s' ≤ b
  covers : ∀ x, lo ≤ x → x < hi → ∃ b s, B b s ∧ b ≤ x ∧ x < b + s

/-- The blocks when that of `size` addresses at `base` is split after `n` addresses. -/
def split (B : Nat → Nat → Prop) (base size n : Nat) : Nat → Nat → Prop := fun b s =>
  B b s ∧ b ≠ base ∨ b = base ∧ s = n ∨ b = base + n ∧ s = size - n

variable {lo hi : Nat} {B : Nat → Nat → Prop}

theorem tiles_single {base size : Nat} (h : 0 < size) :
    Tiles base (base + size) fun b s => b = base ∧ s = size where
  positive hb := hb.2 ▸ h
  inside hb := by
    obtain ⟨rfl, rfl⟩ := hb
    exact ⟨Nat.le_refl _, Nat.le_refl _⟩
  apart hb hb' := Or.inl ⟨hb.1.trans hb'.1.symm, hb.2.trans hb'.2.symm⟩
  covers x hlo hhi := ⟨base, size, ⟨rfl, rfl⟩, hlo, hhi⟩

theorem Tiles.congr {B' : Nat → Nat → Prop} (h : Tiles lo hi B) (hB : ∀ b s, B' b s ↔ B b s) :
    Tiles lo hi B' := by
  have : B' = B := funext fun b => funext fun s => propext (hB b s)
  rwa [this]

/-- No block starts inside another. -/
theorem Tiles.not_inside (h : Tiles lo hi B) {b s b' s' : Nat} (hb : B b s) (hb' : B b' s')
    (hlt : b < b') : b + s ≤ b' := by
  have := h.positive hb'
  rcases h.apart hb hb' with ⟨heq, -⟩ | h | h <;> omega

theorem Tiles.size_eq (h : Tiles lo hi B) {b s s' : Nat} (hb : B b s) (hb' : B b s') : s = s' := by
  have := h.positive hb
  have := h.positive hb'
  rcases h.apart hb hb' with ⟨-, heq⟩ | h | h <;> omega

/-- A split block still tiles the extent. -/
theorem Tiles.split (h : Tiles lo hi B) {base size n : Nat} (hbase : B base size) (hn : 0 < n)
    (hlt : n < size) : Tiles lo hi (split B base size n) := by
  have hin := h.inside hbase
  have haway : ∀ {b s : Nat}, B b s → b ≠ base → b + s ≤ base ∨ base + size ≤ b := by
    intro b s hb hne
    rcases h.apart hb hbase with ⟨heq, -⟩ | h | h
    · exact absurd heq hne
    · exact Or.inl h
    · exact Or.inr h
  refine ⟨fun hb => ?_, fun hb => ?_, fun hb hb' => ?_, fun x hlo hhi => ?_⟩
  · rcases hb with ⟨hb, -⟩ | ⟨-, rfl⟩ | ⟨-, rfl⟩
    · exact h.positive hb
    · exact hn
    · omega
  · rcases hb with ⟨hb, -⟩ | ⟨rfl, rfl⟩ | ⟨rfl, rfl⟩
    · exact h.inside hb
    · omega
    · omega
  · rcases hb with ⟨hb, hne⟩ | ⟨rfl, rfl⟩ | ⟨rfl, rfl⟩ <;>
      rcases hb' with ⟨hb', hne'⟩ | ⟨rfl, rfl⟩ | ⟨rfl, rfl⟩
    · exact h.apart hb hb'
    · have := haway hb hne
      omega
    · have := haway hb hne
      omega
    · have := haway hb' hne'
      omega
    · omega
    · omega
    · have := haway hb' hne'
      omega
    · omega
    · omega
  · obtain ⟨b, s, hb, hle, hx⟩ := h.covers x hlo hhi
    by_cases hne : b = base
    · subst hne
      obtain rfl := h.size_eq hb hbase
      by_cases hx' : x < b + n
      · exact ⟨b, n, Or.inr (Or.inl ⟨rfl, rfl⟩), hle, hx'⟩
      · exact ⟨b + n, s - n, Or.inr (Or.inr ⟨rfl, rfl⟩), by omega, by omega⟩
    · exact ⟨b, s, Or.inl ⟨hb, hne⟩, hle, hx⟩

end OpenSaab.Blocks
