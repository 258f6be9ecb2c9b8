import OpenSaab.Library.Words
import Mathlib.Data.Nat.ModEq
import Mathlib.Tactic.Ring

/-!
# The key of a session

`adapters/vcx_nano/init_handshake.rs`: each side draws an exponent, and both make the same key of the
other's public value. Nothing is returned where a product would overflow.
-/

namespace OpenSaab.VcxNano

/-! ## Powers -/

def prime : Nat := 2 ^ 64 - 59

def generator : UInt64 := 5

/-- A product of 128 bits, reduced. -/
def mulMod (a b : UInt64) : Option UInt64 :=
  if a.toNat * b.toNat < 2 ^ 128 then some (UInt64.ofNat (a.toNat * b.toNat % prime)) else none

theorem shift_lt {e : UInt64} (h : e ≠ 0) : (e >>> 1).toNat < e.toNat := by
  have hpos : e.toNat ≠ 0 := fun hzero => h (UInt64.toNat_inj.mp hzero)
  rw [UInt64.toNat_shiftRight]
  change e.toNat >>> 1 < _
  rw [Nat.shiftRight_eq_div_pow]
  omega

/-- The loop of `pow_mod`. -/
def powLoop (result base exponent : UInt64) : Option UInt64 :=
  if _ : exponent = 0 then some result
  else do
    let result ← if exponent &&& 1 ≠ 0 then mulMod result base else some result
    let base ← mulMod base base
    powLoop result base (exponent >>> 1)
termination_by exponent.toNat
decreasing_by exact shift_lt ‹_›

def powMod (base exponent : UInt64) : Option UInt64 := powLoop 1 base exponent

/-! ## Both sides -/

def publicValid (value : UInt64) : Bool := 2 ≤ value.toNat && value.toNat < prime - 1

structure Dh where
  privateExponent : UInt64
  publicValue : UInt64
  deriving DecidableEq, Repr

namespace Dh

/-- One of the two values is that of the last exchange. -/
def stale (prior : Option Dh) (privateExponent publicValue : UInt64) : Bool :=
  prior.any fun old => old.privateExponent == privateExponent || old.publicValue == publicValue

/-- The attempts from the `n`-th value of the generator on. -/
def attempts (random : Nat → Except String UInt64) (prior : Option Dh) :
    Nat → Nat → Option (Except String Dh)
  | 0, _ => some (.error "CSPRNG did not produce a valid fresh DH exponent")
  | k + 1, n =>
    match random n with
    | .error e => some (.error e)
    | .ok privateExponent =>
      if ¬ publicValid privateExponent then attempts random prior k (n + 1)
      else do
        let publicValue ← powMod generator privateExponent
        if ¬ publicValid publicValue ∨ stale prior privateExponent publicValue then attempts random prior k (n + 1)
        else some (.ok { privateExponent, publicValue })

def generate (random : Nat → Except String UInt64) (prior : Option Dh) :
    Option (Except String Dh) := attempts random prior 128 0

/-- The bytes of the key: the first half is given, the second one is shared. -/
def keyBytes (start : Vector UInt8 8) (shared : UInt64) : Vector UInt8 16 :=
  let shared : Vector UInt8 8 := ⟨(Words.little 8 shared.toNat).toArray, by simp⟩
  start ++ shared

def key (d : Dh) (start : Vector UInt8 8) (peer : UInt64) :
    Option (Except String (Vector UInt8 16)) :=
  if ¬ publicValid peer then
    some (.error "Device DH public value outside nondegenerate range")
  else do
    let shared ← powMod peer d.privateExponent
    if ¬ publicValid shared then some (.error "Degenerate DH shared value rejected")
    else some (.ok (keyBytes start shared))

end Dh

/-! ## Powers are powers -/

theorem mulMod_spec (a b : UInt64) :
    mulMod a b = some (UInt64.ofNat (a.toNat * b.toNat % prime)) := by
  have ha := a.toNat_lt
  have hb := b.toNat_lt
  have hfits : a.toNat * b.toNat < 2 ^ 64 * 2 ^ 64 := Nat.mul_lt_mul'' ha hb
  unfold mulMod
  exact if_pos hfits

theorem toNat_reduced (n : Nat) : (UInt64.ofNat (n % prime)).toNat = n % prime := by
  have hlt := Nat.mod_lt n (by decide : 0 < prime)
  apply UInt64.toNat_ofNat_of_lt'
  unfold prime at hlt
  change n % (2 ^ 64 - 59) < 2 ^ 64
  omega

/-- The exponent by its lowest bit. -/
theorem exponent_bit (e : UInt64) :
    (e >>> 1).toNat = e.toNat / 2 ∧ (e &&& 1 ≠ 0 ↔ e.toNat % 2 = 1) := by
  constructor
  · rw [UInt64.toNat_shiftRight]
    change e.toNat >>> 1 = _
    rw [Nat.shiftRight_eq_div_pow]
  · rw [ne_eq, ← UInt64.toNat_inj, UInt64.toNat_and]
    change ¬ e.toNat &&& 1 = 0 ↔ _
    rw [Nat.and_one_is_mod]
    omega

/-- What is left to multiply stays the same, one bit after the other. -/
theorem powLoop_spec (result base exponent : UInt64) (h : result.toNat < prime) :
    powLoop result base exponent =
      some (UInt64.ofNat (result.toNat * base.toNat ^ exponent.toNat % prime)) := by
  induction hk : exponent.toNat using Nat.strongRecOn generalizing result base exponent with
  | _ k ih =>
    obtain ⟨hshift, hbit⟩ := exponent_bit exponent
    unfold powLoop
    split
    · next hzero =>
      subst hzero
      subst hk
      change some result = some (UInt64.ofNat (result.toNat * base.toNat ^ 0 % prime))
      rw [pow_zero, mul_one, Nat.mod_eq_of_lt h, UInt64.ofNat_toNat]
    · next hne =>
      have hlt := hk ▸ shift_lt hne
      have hsquare : (UInt64.ofNat (base.toNat * base.toNat % prime)).toNat ≡
          base.toNat ^ 2 [MOD prime] := by
        rw [toNat_reduced, pow_two]
        exact Nat.mod_modEq _ _
      simp only [mulMod_spec, Option.bind_eq_bind, Option.bind_some]
      by_cases hodd : exponent.toNat % 2 = 1
      · have hresult : (UInt64.ofNat (result.toNat * base.toNat % prime)).toNat ≡
            result.toNat * base.toNat [MOD prime] := by
          rw [toNat_reduced]
          exact Nat.mod_modEq _ _
        have hreduced : (UInt64.ofNat (result.toNat * base.toNat % prime)).toNat < prime := by
          rw [toNat_reduced]
          exact Nat.mod_lt _ (by decide)
        have hexponent : k = 2 * (exponent.toNat / 2) + 1 := by omega
        rw [if_pos (hbit.mpr hodd), ih _ hlt _ _ _ hreduced rfl, hshift]
        congr 2
        refine (hresult.mul (hsquare.pow _)).trans ?_
        rw [mul_assoc, ← pow_mul, ← pow_succ', ← hexponent]
      · have hexponent : k = 2 * (exponent.toNat / 2) := by omega
        rw [if_neg (fun hset => hodd (hbit.mp hset)), ih _ hlt _ _ _ h rfl, hshift]
        congr 2
        refine ((Nat.ModEq.refl _).mul (hsquare.pow _)).trans ?_
        rw [← pow_mul, ← hexponent]

theorem powMod_spec (base exponent : UInt64) :
    powMod base exponent = some (UInt64.ofNat (base.toNat ^ exponent.toNat % prime)) := by
  unfold powMod
  rw [powLoop_spec 1 base exponent (by decide)]
  congr 3
  exact Nat.one_mul _

/-! ## Both sides make the same key -/

namespace Dh

/-- What an exponent that is drawn has passed. -/
structure Drawn (d : Dh) : Prop where
  power : powMod generator d.privateExponent = some d.publicValue
  valid : publicValid d.publicValue = true

theorem attempts_drawn {random : Nat → Except String UInt64} {prior : Option Dh} {k n : Nat} {d : Dh}
    (h : attempts random prior k n = some (.ok d)) : d.Drawn := by
  induction k generalizing n with
  | zero => cases h
  | succ k ih =>
    unfold attempts at h
    split at h
    · cases h
    · next privateExponent _ =>
      split at h
      · exact ih h
      · obtain ⟨publicValue, hpower, h⟩ := Option.bind_eq_some_iff.mp h
        split at h
        · exact ih h
        · next hfresh =>
          obtain rfl := Except.ok.inj (Option.some.inj h)
          exact ⟨hpower, by simpa using (not_or.mp hfresh).1⟩

/-- Powers of powers, in either order. -/
theorem shared_comm (a b : UInt64) :
    (generator.toNat ^ a.toNat % prime) ^ b.toNat % prime =
      (generator.toNat ^ b.toNat % prime) ^ a.toNat % prime := by
  rw [← Nat.pow_mod, ← Nat.pow_mod, ← pow_mul, ← pow_mul, Nat.mul_comm]

/-- The public value of one side and the exponent of the other. -/
theorem key_drawn {d peer : Dh} (h : peer.Drawn) (start : Vector UInt8 8) :
    ∃ shared, shared.toNat = (generator.toNat ^ peer.privateExponent.toNat % prime) ^
        d.privateExponent.toNat % prime ∧
      d.key start peer.publicValue =
        some (if publicValid shared then .ok (keyBytes start shared)
          else .error "Degenerate DH shared value rejected") := by
  have hvalue : peer.publicValue.toNat =
      generator.toNat ^ peer.privateExponent.toNat % prime := by
    have hpower := h.power
    rw [powMod_spec] at hpower
    rw [← Option.some.inj hpower, toNat_reduced]
  refine ⟨UInt64.ofNat (peer.publicValue.toNat ^ d.privateExponent.toNat % prime), ?_, ?_⟩
  · rw [toNat_reduced, hvalue]
  · unfold key
    rw [if_neg (not_not_intro h.valid), powMod_spec]
    dsimp only [Option.bind_eq_bind, Option.bind_some]
    rw [ite_not, apply_ite some]

/-- The power is the power, and two sides that have drawn their exponents make the same key, or both
of them refuse. -/
theorem key_agreement :
    (∀ base exponent : UInt64, ∃ value, powMod base exponent = some value ∧
        value.toNat = base.toNat ^ exponent.toNat % prime) ∧
      ∀ (random random' : Nat → Except String UInt64) (prior prior' : Option Dh) (a b : Dh),
        generate random prior = some (.ok a) → generate random' prior' = some (.ok b) →
          ∀ start : Vector UInt8 8, a.key start b.publicValue = b.key start a.publicValue ∧
            ∃ result, a.key start b.publicValue = some result := by
  refine ⟨fun base exponent => ⟨_, powMod_spec base exponent, toNat_reduced _⟩, ?_⟩
  intro random random' prior prior' a b ha hb start
  obtain ⟨shared, hshared, hkey⟩ := key_drawn (d := a) (attempts_drawn hb) start
  obtain ⟨shared', hshared', hkey'⟩ := key_drawn (d := b) (attempts_drawn ha) start
  have hsame : shared = shared' := by
    apply UInt64.toNat_inj.mp
    rw [hshared, hshared', shared_comm]
  exact ⟨by rw [hkey, hkey', hsame], _, hkey⟩

/-- The first value that is drawn is taken. -/
theorem generate_first {privateExponent publicValue : UInt64}
    (hprivate : publicValid privateExponent = true)
    (hpower : UInt64.ofNat (generator.toNat ^ privateExponent.toNat % prime) = publicValue)
    (hpublic : publicValid publicValue = true) :
    generate (fun _ => .ok privateExponent) none = some (.ok ⟨privateExponent, publicValue⟩) := by
  unfold generate attempts
  simp [hprivate, powMod_spec, hpower, hpublic, stale]

theorem key_agreement_of_three_and_four :
    (Dh.mk 3 125).key (Vector.replicate 8 0) 625 = (Dh.mk 4 625).key (Vector.replicate 8 0) 125 := by
  have ha : generate (fun _ => .ok 3) none = some (.ok ⟨3, 125⟩) :=
    generate_first (by decide) (by decide) (by decide)
  have hb : generate (fun _ => .ok 4) none = some (.ok ⟨4, 625⟩) :=
    generate_first (by decide) (by decide) (by decide)
  exact (key_agreement.2 _ _ none none _ _ ha hb _).1

end Dh

end OpenSaab.VcxNano
