import Mathlib.Algebra.Ring.Nat
import Mathlib.Logic.Basic

/-!
# Words in a memory of bytes

A memory gives a byte for every address. A word takes two bytes, the high one first.
-/

namespace OpenSaab.Memory

abbrev Bytes : Type := Nat → UInt8

variable {m m' : Bytes} {off off' : Nat}

/-- `u16::from_be_bytes` of the two bytes at an address. -/
def word (m : Bytes) (off : Nat) : UInt16 :=
  UInt16.ofNat ((m off).toNat * 256 + (m (off + 1)).toNat)

/-- `to_be_bytes` to the two bytes at an address. -/
def put (m : Bytes) (off : Nat) (v : UInt16) : Bytes := fun i =>
  if i = off then UInt8.ofNat (v.toNat / 256)
  else if i = off + 1 then UInt8.ofNat (v.toNat % 256)
  else m i

theorem toNat_word (m : Bytes) (off : Nat) :
    (word m off).toNat = (m off).toNat * 256 + (m (off + 1)).toNat := by
  have hhigh := (m off).toNat_lt
  have hlow := (m (off + 1)).toNat_lt
  exact UInt16.toNat_ofNat_of_lt' (by change _ < 65536; omega)

@[simp] theorem word_put (m : Bytes) (off : Nat) (v : UInt16) : word (put m off v) off = v := by
  have hv := v.toNat_lt
  apply UInt16.toNat_inj.mp
  rw [toNat_word, put, put, if_pos rfl, if_neg (by omega), if_pos rfl, UInt8.toNat_ofNat',
    UInt8.toNat_ofNat']
  omega

theorem word_put_ne (v : UInt16) (h : off' + 2 ≤ off ∨ off + 2 ≤ off') :
    word (put m off v) off' = word m off' := by
  unfold word put
  rw [if_neg (by omega), if_neg (by omega), if_neg (by omega), if_neg (by omega)]

/-- The second of two words at one address. -/
@[simp] theorem put_put (m : Bytes) (off : Nat) (v w : UInt16) :
    put (put m off v) off w = put m off w := by
  funext i
  unfold put
  split_ifs <;> rfl

theorem put_comm (m : Bytes) (v w : UInt16) (h : off' + 2 ≤ off ∨ off + 2 ≤ off') :
    put (put m off v) off' w = put (put m off' w) off v := by
  funext i
  unfold put
  split_ifs <;> first | rfl | omega

/-- Memories with the same words at even addresses. -/
theorem ext_words (h : ∀ off, off % 2 = 0 → word m off = word m' off) : m = m' := by
  have hpair (off : Nat) (heven : off % 2 = 0) : m off = m' off ∧ m (off + 1) = m' (off + 1) := by
    have hword := congrArg UInt16.toNat (h off heven)
    rw [toNat_word, toNat_word] at hword
    have hlow := (m (off + 1)).toNat_lt
    have hlow' := (m' (off + 1)).toNat_lt
    exact ⟨UInt8.toNat_inj.mp (by omega), UInt8.toNat_inj.mp (by omega)⟩
  funext i
  rcases Nat.mod_two_eq_zero_or_one i with heven | hodd
  · exact (hpair i heven).1
  · have hprev := (hpair (i - 1) (by omega)).2
    rwa [show i - 1 + 1 = i by omega] at hprev

end OpenSaab.Memory
