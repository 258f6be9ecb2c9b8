import Mathlib.Algebra.Ring.Nat
import Mathlib.Data.List.Basic

/-!
# Words on the wire

Numbers as a fixed count of bytes, with the low byte first or last.
-/

namespace OpenSaab.Words

/-- The low `w` bytes of a number, the lowest first. -/
def little : Nat → Nat → List UInt8
  | 0, _ => []
  | w + 1, n => UInt8.ofNat n :: little w (n / 256)

def ofLittle : List UInt8 → Nat
  | [] => 0
  | b :: bs => b.toNat + 256 * ofLittle bs

/-- The low `w` bytes of a number, the lowest last. -/
def big (w n : Nat) : List UInt8 := (little w n).reverse

def ofBig (bytes : List UInt8) : Nat := ofLittle bytes.reverse

@[simp] theorem length_little (w n : Nat) : (little w n).length = w := by
  induction w generalizing n with
  | zero => rfl
  | succ w ih => rw [little, List.length_cons, ih]

@[simp] theorem length_big (w n : Nat) : (big w n).length = w := by
  rw [big, List.length_reverse, length_little]

theorem ofLittle_lt (bytes : List UInt8) : ofLittle bytes < 256 ^ bytes.length := by
  induction bytes with
  | nil => exact Nat.one_pos
  | cons b bs ih =>
    have hb := b.toNat_lt
    rw [ofLittle, List.length_cons, Nat.pow_succ]
    omega

/-- A number that fits comes back. -/
theorem ofLittle_little {w n : Nat} (h : n < 256 ^ w) : ofLittle (little w n) = n := by
  induction w generalizing n with
  | zero =>
    rw [Nat.pow_zero, Nat.lt_one_iff] at h
    exact h.symm
  | succ w ih =>
    rw [Nat.pow_succ, Nat.mul_comm] at h
    rw [little, ofLittle, ih (Nat.div_lt_of_lt_mul h), UInt8.toNat_ofNat']
    exact Nat.mod_add_div n 256

/-- Bytes come back from their number. -/
theorem little_ofLittle (bytes : List UInt8) : little bytes.length (ofLittle bytes) = bytes := by
  induction bytes with
  | nil => rfl
  | cons b bs ih =>
    have hb := b.toNat_lt
    have hlow : UInt8.ofNat (b.toNat + 256 * ofLittle bs) = b := by
      apply UInt8.toNat_inj.mp
      rw [UInt8.toNat_ofNat']
      omega
    have hhigh : (b.toNat + 256 * ofLittle bs) / 256 = ofLittle bs := by omega
    rw [List.length_cons, ofLittle, little, hlow, hhigh, ih]

theorem ofBig_big {w n : Nat} (h : n < 256 ^ w) : ofBig (big w n) = n := by
  rw [ofBig, big, List.reverse_reverse, ofLittle_little h]

theorem big_ofBig (bytes : List UInt8) : big bytes.length (ofBig bytes) = bytes := by
  rw [big, ofBig, ← List.length_reverse, little_ofLittle, List.reverse_reverse]

/-! ## Words of a fixed size -/

theorem ofLittle_word (w : UInt32) : UInt32.ofNat (ofLittle (little 4 w.toNat)) = w := by
  rw [ofLittle_little w.toNat_lt, UInt32.ofNat_toNat]

theorem little_word {bytes : List UInt8} (h : bytes.length = 4) :
    little 4 (UInt32.ofNat (ofLittle bytes)).toNat = bytes := by
  have hlt := ofLittle_lt bytes
  rw [h] at hlt
  rw [UInt32.toNat_ofNat_of_lt' hlt, ← h, little_ofLittle]

theorem ofBig_word (w : UInt32) : UInt32.ofNat (ofBig (big 4 w.toNat)) = w := by
  rw [ofBig_big w.toNat_lt, UInt32.ofNat_toNat]

theorem big_word {bytes : List UInt8} (h : bytes.length = 4) :
    big 4 (UInt32.ofNat (ofBig bytes)).toNat = bytes := by
  rw [big, ofBig, little_word (by rw [List.length_reverse, h]), List.reverse_reverse]

example : big 4 0x1000 = [0, 0, 0x10, 0] := by decide

end OpenSaab.Words
