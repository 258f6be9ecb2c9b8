import OpenSaab.Candi.Sja1000

/-!
# What a write does to a controller

All the outcomes of a register write are said once, in `write_cases` and `command_cases`.
-/

namespace OpenSaab.Candi.Controller

open Can

variable {c c' : Controller} {value : UInt8}

/-- A property of all bytes, looked up in the finite type of their bits. -/
theorem forall_byte {P : UInt8 → Prop} (h : ∀ x : BitVec 8, P ⟨x⟩) (b : UInt8) : P b := h b.toBitVec

/-- All that a write can do. -/
inductive Written (c : Controller) : Controller → Prop where
  | refused : Written c c
  | mode (value : UInt8) : Written c (c.writeMode value)
  | command {value : UInt8} {c' : Controller} (h : c.command value = .ok c') : Written c c'
  | configuration {registers : Vector UInt8 32}
      (hsame : ∀ i, (hi : i < 32) → i ≤ 3 ∨ 16 ≤ i → registers[i] = c.registers[i]) :
      Written c { c with registers }
  | clock {value : UInt8} (hreset : c.reset = true) :
      Written c { c with registers := c.registers.set 31 value (by decide) }
  | start {value : UInt8} (hreset : c.reset = true) :
      Written c { c with registers := c.registers.set 30 (value &&& 63) (by decide) }
  | filter {i : Nat} {value : UInt8} :
      Written c { c with filter := c.filter.setIfInBounds i value }
  | transmitBuffer {i j : Nat} {value : UInt8} (hj : 64 ≤ j) :
      Written c { c with tx := c.tx.setIfInBounds i value, ram := c.ram.setIfInBounds j value }
  | memory {i : Nat} {value : UInt8} (hreset : c.reset = true) :
      Written c { c with ram := c.ram.setIfInBounds i value }

theorem configuration_set {i : Nat} (hlow : 3 < i) (hhigh : i < 16) :
    ∀ j, (hj : j < 32) → j ≤ 3 ∨ 16 ≤ j →
      (c.registers.setIfInBounds i value)[j] = c.registers[j] := by
  intro j hj hother
  exact Vector.getElem_setIfInBounds_ne hj (by omega)

theorem write_ok {offset : UInt8} (h : c.write offset value = .ok c') : Written c c' := by
  unfold write at h
  simp only at h
  by_cases hmode : offset = 0
  · rw [if_pos hmode] at h
    cases h
    exact .mode value
  rw [if_neg hmode] at h
  by_cases hclock : offset = 31 ∧ c.reset = true
  · rw [if_pos hclock] at h
    cases h
    exact .clock hclock.2
  rw [if_neg hclock] at h
  by_cases hcommand : offset = 1
  · rw [if_pos hcommand] at h
    exact .command h
  rw [if_neg hcommand] at h
  split at h
  · cases h
    refine .configuration fun i hi hother => Vector.getElem_set_ne _ hi (by omega)
  split at h
  · cases h
    exact .refused
  split at h
  · next hrange =>
    cases h
    obtain ⟨hlow, hhigh, -⟩ := hrange
    rw [UInt8.le_iff_toNat_le] at hlow hhigh
    refine .configuration (configuration_set ?_ ?_)
    · simp at hlow
      omega
    · simp at hhigh
      omega
  split at h
  · next hrange =>
    cases h
    obtain ⟨hlow, hhigh, -⟩ := hrange
    rw [UInt8.le_iff_toNat_le] at hlow hhigh
    refine .configuration (configuration_set ?_ ?_)
    · simp at hlow
      omega
    · simp at hhigh
      omega
  split at h
  · cases h
    exact .filter
  split at h
  · next hstart =>
    cases h
    exact .start hstart.2.2
  split at h
  · next hrange =>
    split at h
    · cases h
      exact .refused
    · cases h
      have hlow := UInt8.le_iff_toNat_le.mp hrange.1
      exact .transmitBuffer (by simp at hlow; omega)
  split at h
  · next hmemory =>
    cases h
    exact .memory hmemory.2.2.2
  · cases h

theorem write_cases (c : Controller) (offset value : UInt8) :
    Written c (c.written offset value) := by
  unfold written
  cases h : c.write offset value with
  | error e => exact .refused
  | ok c' => exact write_ok h

/-- What the parts of a command keep, the command keeps. -/
theorem command_keeps {P : Controller → Prop} (hrequest : ∀ c c', P c → c.request = .ok c' → P c')
    (habort : ∀ c, P c → P c.abort) (hrelease : ∀ c, P c → P c.release)
    (hclear : ∀ c, P c → P c.clearOverrun) (hc : P c) (h : c.command value = .ok c') : P c' := by
  unfold command at h
  split at h
  · cases h
  split at h
  · cases h
  split at h
  · cases h
  split at h
  · cases h
  · next c₁ hfirst =>
    have h₁ : P c₁ := by
      split at hfirst
      · exact hrequest c c₁ hc hfirst
      · cases hfirst
        exact hc
    have h₂ : P (if value &&& 2 ≠ 0 then c₁.abort else c₁) := by
      split
      · exact habort c₁ h₁
      · exact h₁
    dsimp only at h
    generalize (if value &&& 2 ≠ 0 then c₁.abort else c₁) = c₂ at h h₂
    have h₃ : P (if value &&& 4 ≠ 0 then c₂.release else c₂) := by
      split
      · exact hrelease c₂ h₂
      · exact h₂
    generalize (if value &&& 4 ≠ 0 then c₂.release else c₂) = c₃ at h h₃
    cases h
    split
    · exact hclear c₃ h₃
    · exact h₃

end OpenSaab.Candi.Controller
