import Mathlib.Algebra.Ring.Nat
import Mathlib.Logic.Basic

/-!
# Bits of a register

A mask of one bit is zero on a register exactly when that bit is clear, the complement of a mask of
low bits rounds down, a byte has two halves, and bits are cleared and set beside others.
-/

namespace OpenSaab.Bits

theorem and_twoPow_eq_zero_iff {w : Nat} (x : BitVec w) {i : Nat} (hi : i < w) :
    x &&& BitVec.twoPow w i = 0#w ↔ x.getLsbD i = false := by
  rw [BitVec.and_twoPow]
  cases hbit : x.getLsbD i with
  | false => simp
  | true =>
    refine iff_of_false ?_ Bool.noConfusion
    intro h
    have hone := congrArg (·.getLsbD i) h
    simp [hi] at hone

/-- The mask `m` has bit `i` only. -/
def Mask8 (m : UInt8) (i : Nat) : Prop := i < 8 ∧ m.toBitVec = BitVec.twoPow 8 i

def Mask16 (m : UInt16) (i : Nat) : Prop := i < 16 ∧ m.toBitVec = BitVec.twoPow 16 i

instance decidableMask8 (m : UInt8) (i : Nat) : Decidable (Mask8 m i) :=
  inferInstanceAs (Decidable (_ ∧ _))

instance decidableMask16 (m : UInt16) (i : Nat) : Decidable (Mask16 m i) :=
  inferInstanceAs (Decidable (_ ∧ _))

theorem Mask8.and_eq_zero {m : UInt8} {i : Nat} (h : Mask8 m i) (x : UInt8) :
    x &&& m = 0 ↔ x.toBitVec.getLsbD i = false := by
  rw [← UInt8.toBitVec_inj, UInt8.toBitVec_and, h.2]
  exact and_twoPow_eq_zero_iff x.toBitVec h.1

theorem Mask16.and_eq_zero {m : UInt16} {i : Nat} (h : Mask16 m i) (x : UInt16) :
    x &&& m = 0 ↔ x.toBitVec.getLsbD i = false := by
  rw [← UInt16.toBitVec_inj, UInt16.toBitVec_and, h.2]
  exact and_twoPow_eq_zero_iff x.toBitVec h.1

theorem toNat_high (b : UInt8) : (b >>> 4).toNat = b.toNat / 16 := by
  rw [UInt8.toNat_shiftRight]
  exact Nat.shiftRight_eq_div_pow _ 4

theorem toNat_low (b : UInt8) : (b &&& 15).toNat = b.toNat % 16 := by
  rw [UInt8.toNat_and]
  exact Nat.and_two_pow_sub_one_eq_mod _ 4

/-! ## Some bits of a byte, after others were cleared or set -/

theorem or_and_right (b s j : UInt8) : (b ||| s) &&& j = b &&& j ||| s &&& j :=
  UInt8.toBitVec_inj.mp BitVec.and_or_distrib_right

theorem clear_other {m j : UInt8} (hm : ~~~m &&& j = j) (b : UInt8) :
    b &&& ~~~m &&& j = b &&& j := by
  rw [UInt8.and_assoc, hm]

theorem clear_same {m j : UInt8} (hm : ~~~m &&& j = 0) (b : UInt8) : b &&& ~~~m &&& j = 0 := by
  rw [UInt8.and_assoc, hm, UInt8.and_zero]

theorem set_other {s j : UInt8} (hs : s &&& j = 0) (b : UInt8) : (b ||| s) &&& j = b &&& j := by
  rw [or_and_right, hs, UInt8.or_zero]

theorem set_same {s j : UInt8} (hs : s &&& j = j) (b : UInt8) : (b ||| s) &&& j = j := by
  rw [or_and_right, hs]
  apply UInt8.toBitVec_inj.mp
  ext i hi
  simp

end OpenSaab.Bits
