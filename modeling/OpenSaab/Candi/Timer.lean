import OpenSaab.Candi.Peripherals

/-!
# The free running counter

What time does to the counter of the general purpose timer: it does not matter in how many steps it
passes, and an overflow is seen until the guest acknowledges it.
-/

namespace OpenSaab.Candi

open Runs Psos Bits

/-! ## Counting with a carry -/

/-- What two additions carry is what their sum carries. -/
theorem carry_split (x e f d : Nat) : (x + e) / d + ((x + e) % d + f) / d = (x + e + f) / d := by
  rcases Nat.eq_zero_or_pos d with rfl | hd
  · simp
  have hsum : x + e + f = d * ((x + e) / d) + ((x + e) % d + f) := by
    rw [← Nat.add_assoc, Nat.div_add_mod]
  rw [hsum, Nat.mul_add_div hd]

theorem carry_le {x d : Nat} (h : x < d) (e : Nat) : (x + e) / d ≤ e := by
  rw [Nat.div_le_iff_le_mul_add_pred (Nat.zero_lt_of_lt h)]
  have hmul : e ≤ d * e := Nat.le_mul_of_pos_left e (Nat.zero_lt_of_lt h)
  omega

namespace Peripherals

/-! ## The parts of time -/

@[simp] theorem advanceSerial_registers (p : Peripherals) (now : UInt64) :
    (p.advanceSerial now).registers = p.registers := by
  unfold advanceSerial
  split <;> rfl

theorem advance_registers (p : Peripherals) (now : UInt64) :
    (p.advance now).registers = (p.advanceGpt now).registers := by
  have hpit (q : Peripherals) : (q.advancePit now).registers = q.registers := by
    unfold advancePit
    dsimp only
    split
    · rfl
    · split
      · rfl
      · split <;> rfl
  rw [advance, hpit, advanceSerial_registers]

/-- Neither the serial port nor the interval timer touches the counter. -/
theorem advance_gpt (p : Peripherals) (now : UInt64) :
    (p.advance now).gptCounter = (p.advanceGpt now).gptCounter ∧
      (p.advance now).gptPrescaler = (p.advanceGpt now).gptPrescaler ∧
      (p.advance now).gptOverflowEpoch = (p.advanceGpt now).gptOverflowEpoch ∧
      (p.advance now).gptOverflowRead = (p.advanceGpt now).gptOverflowRead ∧
      (p.advance now).now = now := by
  have hserial (q : Peripherals) : (q.advanceSerial now).gptCounter = q.gptCounter ∧
      (q.advanceSerial now).gptPrescaler = q.gptPrescaler ∧
      (q.advanceSerial now).gptOverflowEpoch = q.gptOverflowEpoch ∧
      (q.advanceSerial now).gptOverflowRead = q.gptOverflowRead ∧
      (q.advanceSerial now).now = q.now := by
    unfold advanceSerial
    split <;> exact ⟨rfl, rfl, rfl, rfl, rfl⟩
  have hpit (q : Peripherals) : (q.advancePit now).gptCounter = q.gptCounter ∧
      (q.advancePit now).gptPrescaler = q.gptPrescaler ∧
      (q.advancePit now).gptOverflowEpoch = q.gptOverflowEpoch ∧
      (q.advancePit now).gptOverflowRead = q.gptOverflowRead ∧
      (q.advancePit now).now = q.now := by
    unfold advancePit
    dsimp only
    split
    · exact ⟨rfl, rfl, rfl, rfl, rfl⟩
    · split
      · exact ⟨rfl, rfl, rfl, rfl, rfl⟩
      · split <;> exact ⟨rfl, rfl, rfl, rfl, rfl⟩
  obtain ⟨s1, s2, s3, s4, s5⟩ := hserial { p.advanceGpt now with now }
  obtain ⟨p1, p2, p3, p4, p5⟩ := hpit ({ p.advanceGpt now with now }.advanceSerial now)
  exact ⟨p1.trans s1, p2.trans s2, p3.trans s3, p4.trans s4, p5.trans s5⟩

/-! ## The counter in numbers -/

/-- The counter has not passed its time: what it adds up stays within 64 bits. -/
def Timely (p : Peripherals) : Prop := p.gptPrescaler.toNat ≤ p.now.toNat

theorem divisor_spec {cpr : UInt8} (h : cpr < 7) :
    ((4 : UInt64) <<< cpr.toUInt64).toNat ∣ 512 ∧ 4 ≤ ((4 : UInt64) <<< cpr.toUInt64).toNat := by
  have hall : ∀ n < 7, ((4 : UInt64) <<< (UInt8.ofNat n).toUInt64).toNat ∣ 512 ∧
      4 ≤ ((4 : UInt64) <<< (UInt8.ofNat n).toUInt64).toNat := by
    decide
  have hone := hall cpr.toNat (UInt8.lt_iff_toNat_lt.mp h)
  rwa [UInt8.ofNat_toNat] at hone

/-- The taps divide by 4 to 256. -/
theorem gptDivisor_spec {p : Peripherals} (h : p.tapped) :
    p.gptDivisor.toNat ∣ 512 ∧ 4 ≤ p.gptDivisor.toNat := divisor_spec h

/-- The ticks of the counter while some time passes. -/
def ticks (p : Peripherals) (elapsed : Nat) : Nat :=
  if p.gptStopped ∨ ¬ p.tapped then 0
  else (p.gptPrescaler.toNat % p.gptDivisor.toNat + elapsed) / p.gptDivisor.toNat

/-- How often the counter overflows meanwhile. -/
def wraps (p : Peripherals) (elapsed : Nat) : Nat := (p.gptCounter.toNat + p.ticks elapsed) / 65536

theorem control_lt : 0x21 < 0x700 := by decide

theorem flags_lt : 0x23 < 0x700 := by decide

/-- The registers after overflows. -/
def marked (p : Peripherals) (overflows : Nat) : Vector UInt8 0x700 :=
  if overflows ≠ 0 then
    p.registers.set 0x23 (getElem p.registers 0x23 flags_lt ||| 0x80) flags_lt
  else p.registers

theorem ticks_le (p : Peripherals) (elapsed : Nat) : p.ticks elapsed ≤ elapsed := by
  unfold ticks
  split
  · exact Nat.zero_le _
  next h =>
    rw [not_or, not_not] at h
    have hpos : 0 < p.gptDivisor.toNat := Nat.lt_of_lt_of_le (by decide) (gptDivisor_spec h.2).2
    exact carry_le (Nat.mod_lt _ hpos) elapsed

theorem wraps_le (p : Peripherals) (elapsed : Nat) : p.wraps elapsed ≤ elapsed :=
  Nat.le_trans (carry_le (d := 65536) p.gptCounter.toNat_lt _) (p.ticks_le elapsed)

theorem elapsed_toNat {now before : UInt64} (h : before ≤ now) :
    (satSub now before).toNat = now.toNat - before.toNat := by
  rw [satSub, if_neg (UInt64.not_lt.mpr h), UInt64.toNat_sub_of_le _ _ h]

theorem gptTotal_toNat {p : Peripherals} {now : UInt64} (hp : p.Timely) (h : p.now ≤ now)
    (htapped : p.tapped) : (p.gptTotal (satSub now p.now)).toNat = p.gptCounter.toNat +
      (p.gptPrescaler.toNat % p.gptDivisor.toNat + (now.toNat - p.now.toNat)) /
        p.gptDivisor.toNat := by
  obtain ⟨hdvd, hfour⟩ := gptDivisor_spec htapped
  have hphase := Nat.mod_le p.gptPrescaler.toNat p.gptDivisor.toNat
  have hle := UInt64.le_iff_toNat_le.mp h
  have hnow := now.toNat_lt
  have hcounter := p.gptCounter.toNat_lt
  unfold Timely at hp
  have hsum : p.gptPrescaler.toNat % p.gptDivisor.toNat + (now.toNat - p.now.toNat) < 2 ^ 64 := by
    omega
  have hticks := Nat.div_le_div_left hfour (by decide)
    (a := p.gptPrescaler.toNat % p.gptDivisor.toNat + (now.toNat - p.now.toNat))
  rw [gptTotal, UInt64.toNat_add, UInt64.toNat_div, UInt64.toNat_add, UInt64.toNat_mod,
    elapsed_toNat h, UInt16.toNat_toUInt64, UInt16.toNat_toUInt64, Nat.mod_eq_of_lt hsum]
  apply Nat.mod_eq_of_lt
  omega

theorem countGpt_spec {p : Peripherals} {now : UInt64} (hp : p.Timely) (h : p.now ≤ now)
    (hruns : p.gptStopped = false) :
    (p.countGpt (satSub now p.now)).gptCounter.toNat =
        (p.gptCounter.toNat + p.ticks (now.toNat - p.now.toNat)) % 65536 ∧
      (p.countGpt (satSub now p.now)).gptOverflowEpoch =
        p.gptOverflowEpoch + UInt64.ofNat (p.wraps (now.toNat - p.now.toNat)) ∧
      (p.countGpt (satSub now p.now)).registers = p.marked (p.wraps (now.toNat - p.now.toNat)) := by
  by_cases htapped : p.tapped
  · have hticks : p.ticks (now.toNat - p.now.toNat) =
        (p.gptPrescaler.toNat % p.gptDivisor.toNat + (now.toNat - p.now.toNat)) /
          p.gptDivisor.toNat :=
      if_neg (by simp [hruns, htapped])
    have htotal := gptTotal_toNat hp h htapped
    rw [← hticks] at htotal
    have hwraps : (p.gptTotal (satSub now p.now) >>> 16).toNat =
        p.wraps (now.toNat - p.now.toNat) := by
      rw [UInt64.toNat_shiftRight, htotal, Nat.shiftRight_eq_div_pow]
      rfl
    have hzero : p.gptTotal (satSub now p.now) >>> 16 ≠ 0 ↔
        p.wraps (now.toNat - p.now.toNat) ≠ 0 := by
      rw [← hwraps, ne_eq, ne_eq, ← UInt64.toNat_inj]
      rfl
    rw [countGpt, if_pos htapped]
    refine ⟨?_, ?_, ?_⟩
    · rw [← htotal]
      exact UInt64.toNat_toUInt16 _
    · dsimp only
      by_cases hnone : p.gptTotal (satSub now p.now) >>> 16 ≠ 0
      · rw [if_pos hnone, ← hwraps, UInt64.ofNat_toNat]
      · rw [if_neg hnone, ← hwraps, not_not.mp hnone]
        exact (UInt64.add_zero _).symm
    · simp only [marked, hzero]
  · have hticks : p.ticks (now.toNat - p.now.toNat) = 0 := if_pos (.inr htapped)
    have hwraps : p.wraps (now.toNat - p.now.toNat) = 0 := by
      rw [wraps, hticks]
      exact Nat.div_eq_of_lt p.gptCounter.toNat_lt
    rw [countGpt, if_neg htapped, hticks, hwraps]
    exact ⟨(Nat.mod_eq_of_lt p.gptCounter.toNat_lt).symm, (UInt64.add_zero _).symm, rfl⟩

/-- The counter after time has passed, in numbers. -/
theorem advance_spec {p : Peripherals} {now : UInt64} (hp : p.Timely) (h : p.now ≤ now) :
    (p.advance now).gptCounter.toNat =
        (p.gptCounter.toNat + p.ticks (now.toNat - p.now.toNat)) % 65536 ∧
      (p.advance now).gptPrescaler.toNat =
        (if p.gptStopped then p.gptPrescaler.toNat
          else (p.gptPrescaler.toNat + (now.toNat - p.now.toNat)) % 512) ∧
      (p.advance now).gptOverflowEpoch =
        p.gptOverflowEpoch + UInt64.ofNat (p.wraps (now.toNat - p.now.toNat)) ∧
      (p.advance now).registers = p.marked (p.wraps (now.toNat - p.now.toNat)) := by
  obtain ⟨hcounter, hprescaler, hepoch, -, -⟩ := p.advance_gpt now
  rw [hcounter, hprescaler, hepoch, advance_registers, advanceGpt]
  cases hruns : p.gptStopped with
  | true =>
    have hticks : p.ticks (now.toNat - p.now.toNat) = 0 := if_pos (.inl hruns)
    have hwraps : p.wraps (now.toNat - p.now.toNat) = 0 := by
      rw [wraps, hticks]
      exact Nat.div_eq_of_lt p.gptCounter.toNat_lt
    rw [hticks, hwraps]
    exact ⟨(Nat.mod_eq_of_lt p.gptCounter.toNat_lt).symm, rfl, (UInt64.add_zero _).symm, rfl⟩
  | false =>
    obtain ⟨hcount, hmore, hregisters⟩ := countGpt_spec hp h hruns
    refine ⟨hcount, ?_, hmore, hregisters⟩
    have hnow := now.toNat_lt
    have hle := UInt64.le_iff_toNat_le.mp h
    unfold Timely at hp
    have hsum : p.gptPrescaler.toNat + (now.toNat - p.now.toNat) < 2 ^ 64 := by omega
    change ((p.gptPrescaler.toUInt64 + satSub now p.now &&& 511).toUInt16).toNat = _
    rw [UInt64.toNat_toUInt16, UInt64.toNat_and, UInt64.toNat_add, elapsed_toNat h,
      UInt16.toNat_toUInt64, Nat.mod_eq_of_lt hsum]
    have hlow := Nat.and_two_pow_sub_one_eq_mod (p.gptPrescaler.toNat + (now.toNat - p.now.toNat)) 9
    change (_ &&& 2 ^ 9 - 1) % 2 ^ 16 = _
    rw [hlow]
    exact Nat.mod_eq_of_lt (Nat.lt_trans (Nat.mod_lt _ (by decide)) (by decide))

/-! ## Time in several steps -/

theorem get_set_ne {r : Vector UInt8 0x700} {i j : Nat} {v : UInt8} (hi : i < 0x700) (hj : j < 0x700)
    (h : i ≠ j) : (r.set i v hi).get ⟨j, hj⟩ = r.get ⟨j, hj⟩ := by
  change (r.set i v hi)[j] = r[j]
  exact Vector.getElem_set_ne hi hj h

/-- Overflows do not change how the counter runs. -/
theorem advance_settings {p : Peripherals} {now : UInt64} (hp : p.Timely) (h : p.now ≤ now) :
    (p.advance now).gptStopped = p.gptStopped ∧
      getElem (p.advance now).registers 0x21 control_lt = getElem p.registers 0x21 control_lt := by
  obtain ⟨-, -, -, hregisters⟩ := advance_spec hp h
  unfold gptStopped word
  rw [hregisters, marked]
  split
  · rw [get_set_ne _ _ (by decide), get_set_ne _ _ (by decide)]
    exact ⟨rfl, Vector.getElem_set_ne _ _ (by decide)⟩
  · exact ⟨rfl, rfl⟩

theorem Timely.advance {p : Peripherals} {now : UInt64} (hp : p.Timely) (h : p.now ≤ now) :
    (p.advance now).Timely := by
  obtain ⟨-, hprescaler, -, -⟩ := advance_spec hp h
  obtain ⟨-, -, -, -, hnow⟩ := p.advance_gpt now
  have hle := UInt64.le_iff_toNat_le.mp h
  unfold Timely at hp ⊢
  rw [hprescaler, hnow]
  split
  · omega
  · have hmod := Nat.mod_le (p.gptPrescaler.toNat + (now.toNat - p.now.toNat)) 512
    omega

/-- The ticks of two steps are those of one. -/
theorem ticks_split {p : Peripherals} {a : UInt64} (hp : p.Timely) (ha : p.now ≤ a) (f : Nat) :
    p.ticks (a.toNat - p.now.toNat) + (p.advance a).ticks f =
      p.ticks (a.toNat - p.now.toNat + f) := by
  obtain ⟨hstopped, htap⟩ := advance_settings hp ha
  obtain ⟨-, hprescaler, -, -⟩ := advance_spec hp ha
  have hdivisor : (p.advance a).gptDivisor = p.gptDivisor := by rw [gptDivisor, htap, gptDivisor]
  have htapped : (p.advance a).tapped ↔ p.tapped := by rw [tapped, htap, tapped]
  unfold ticks
  simp only [hstopped, htapped, hdivisor, hprescaler]
  by_cases hidle : p.gptStopped = true ∨ ¬ p.tapped
  · simp only [if_pos hidle]
  · simp only [if_neg hidle]
    rw [not_or, not_not] at hidle
    rw [if_neg hidle.1, Nat.mod_mod_of_dvd _ (gptDivisor_spec hidle.2).1, ← Nat.mod_add_mod,
      ← Nat.add_assoc]
    exact carry_split _ _ _ _

/-- Marking twice is marking once. -/
theorem marked_marked {p q : Peripherals} {m n : Nat} (h : q.registers = p.marked m) :
    q.marked n = p.marked (m + n) := by
  unfold marked at h ⊢
  by_cases hm : m = 0
  · subst hm
    rw [if_neg (not_not.mpr rfl)] at h
    rw [h, Nat.zero_add]
  · rw [if_pos hm] at h
    rw [h, if_pos (show m + n ≠ 0 by omega)]
    split
    · simp [UInt8.or_assoc]
    · rfl

/-- However time passes, the counter, the prescaler, the overflow flag and the number of overflows
come out the same. -/
theorem Timely.split {p : Peripherals} {a b : UInt64} (hp : p.Timely) (ha : p.now ≤ a) (hb : a ≤ b) :
    ((p.advance a).advance b).gptCounter = (p.advance b).gptCounter ∧
      ((p.advance a).advance b).gptPrescaler = (p.advance b).gptPrescaler ∧
      ((p.advance a).advance b).gptOverflowEpoch = (p.advance b).gptOverflowEpoch ∧
      ((p.advance a).advance b).registers = (p.advance b).registers := by
  obtain ⟨-, -, -, -, hnow⟩ := p.advance_gpt a
  have hb' : (p.advance a).now ≤ b := by rwa [hnow]
  have hab : p.now ≤ b := UInt64.le_trans ha hb
  have hstopped := (advance_settings hp ha).1
  obtain ⟨hcounter, hprescaler, hepoch, hregisters⟩ := advance_spec hp ha
  obtain ⟨hcounter₁, hprescaler₁, hepoch₁, hregisters₁⟩ := advance_spec (hp.advance ha) hb'
  obtain ⟨hcounter₂, hprescaler₂, hepoch₂, hregisters₂⟩ := advance_spec hp hab
  have hparts : a.toNat - p.now.toNat + (b.toNat - a.toNat) = b.toNat - p.now.toNat := by
    have := UInt64.le_iff_toNat_le.mp ha
    have := UInt64.le_iff_toNat_le.mp hb
    omega
  have hticks := ticks_split hp ha (b.toNat - a.toNat)
  rw [hparts] at hticks
  rw [hnow] at hcounter₁ hprescaler₁ hepoch₁ hregisters₁
  have hwraps : p.wraps (a.toNat - p.now.toNat) + (p.advance a).wraps (b.toNat - a.toNat) =
      p.wraps (b.toNat - p.now.toNat) := by
    rw [wraps, wraps, wraps, hcounter, ← hticks, ← Nat.add_assoc]
    exact carry_split _ _ _ _
  refine ⟨?_, ?_, ?_, ?_⟩
  · apply UInt16.toNat_inj.mp
    rw [hcounter₁, hcounter₂, hcounter, Nat.mod_add_mod, Nat.add_assoc, hticks]
  · apply UInt16.toNat_inj.mp
    rw [hprescaler₁, hprescaler₂, hprescaler, hstopped]
    split
    · rfl
    · rw [Nat.mod_add_mod, Nat.add_assoc, hparts]
  · rw [hepoch₁, hepoch₂, hepoch, UInt64.add_assoc, ← UInt64.ofNat_add, hwraps]
  · rw [hregisters₁, hregisters₂, marked_marked hregisters, hwraps]

/-! ## Accesses -/

/-- Bit 7 of the timer flags. -/
def overflowFlag (p : Peripherals) : Bool := getElem p.registers 0x23 flags_lt &&& 0x80 != 0

theorem overflowFlag_eq (p : Peripherals) :
    p.overflowFlag = (getElem p.registers 0x23 flags_lt).toBitVec.getLsbD 7 := by
  unfold overflowFlag
  cases hbit : p.registers[0x23].toBitVec.getLsbD 7 with
  | false => rw [(Mask8.and_eq_zero (i := 7) (by decide) _).mpr hbit]; rfl
  | true =>
    rw [bne_iff_ne, ne_eq, Mask8.and_eq_zero (i := 7) (by decide), hbit]
    exact Bool.noConfusion

/-- The counter with its flags and its time is left alone. -/
structure SameTimer (p q : Peripherals) : Prop where
  counter : q.gptCounter = p.gptCounter
  prescaler : q.gptPrescaler = p.gptPrescaler
  epoch : q.gptOverflowEpoch = p.gptOverflowEpoch
  seen : q.gptOverflowRead = p.gptOverflowRead
  now : q.now = p.now
  flags : getElem q.registers 0x23 flags_lt = getElem p.registers 0x23 flags_lt

theorem SameTimer.of_serial (p : Peripherals) (serial : Serial) : SameTimer p { p with serial } :=
  ⟨rfl, rfl, rfl, rfl, rfl, rfl⟩

theorem SameTimer.flag {p q : Peripherals} (h : SameTimer p q) : q.overflowFlag = p.overflowFlag := by
  rw [overflowFlag, overflowFlag, h.flags]

theorem SameTimer.ite {p q r : Peripherals} {c : Prop} [Decidable c] (hq : SameTimer p q)
    (hr : SameTimer p r) : SameTimer p (if c then q else r) := by
  split
  · exact hq
  · exact hr

theorem read_other (p : Peripherals) {address : UInt32} (h : address ≠ 0xfff923) :
    SameTimer p (p.read8 address).2 := by
  have hite {c : Prop} [Decidable c] {r r' : Option UInt8 × Peripherals} (hr : SameTimer p r.2)
      (hr' : SameTimer p r'.2) : SameTimer p (if c then r else r').2 := by
    split
    · exact hr
    · exact hr'
  unfold read8
  iterate 14 refine hite (.of_serial p _) ?_
  rw [if_neg h]
  exact .of_serial p _

/-- A read of the timer flags remembers the overflow that it shows. -/
theorem read_flags (p : Peripherals) :
    (p.read8 0xfff923).2.registers = p.registers ∧
      (p.read8 0xfff923).2.gptPrescaler = p.gptPrescaler ∧
      (p.read8 0xfff923).2.gptOverflowEpoch = p.gptOverflowEpoch ∧
      (p.read8 0xfff923).2.now = p.now ∧
      (p.read8 0xfff923).2.gptOverflowRead =
        if p.overflowFlag then some p.gptOverflowEpoch else none := by
  refine ⟨rfl, rfl, rfl, rfl, ?_⟩
  unfold overflowFlag
  simp only [bne_iff_ne]
  rfl

/-- The timer flags are no configuration register. -/
theorem configuration_ne {address : UInt32} (h : configuration address ∨ address = 0xfff907 ∨
    address = 0xfffc15) : (address - 0xfff900).toNat ≠ 0x23 := by
  intro hindex
  have haddress : address = 0xfff923 := by
    have hoffset : address - 0xfff900 = 0x23 := UInt32.toNat_inj.mp hindex
    rw [← UInt32.sub_add_cancel address 0xfff900, hoffset]
    rfl
  subst haddress
  revert h
  decide

theorem SameTimer.set (p : Peripherals) {i : Nat} (hi : i < 0x700) (h : i ≠ 0x23) (v : UInt8)
    (written : Bool) :
    SameTimer p { p with registers := p.registers.set i v hi, gptCprWritten := written } :=
  ⟨rfl, rfl, rfl, rfl, rfl, Vector.getElem_set_ne hi _ h⟩

theorem write_other (p : Peripherals) {address : UInt32} (value : UInt8) (h : address ≠ 0xfff923) :
    SameTimer p (p.write8 address value) := by
  have hregister (q : Peripherals) : SameTimer q (q.writeRegister address value) := by
    unfold writeRegister
    refine .ite (.set q _ (by decide) _ _) (.ite (.set q _ (by decide) _ _) ?_)
    by_cases hconfiguration : configuration address ∨ address = 0xfff907 ∨ address = 0xfffc15
    · rw [if_pos hconfiguration]
      exact ⟨rfl, rfl, rfl, rfl, rfl,
        Vector.getElem_setIfInBounds_ne _ (configuration_ne hconfiguration)⟩
    · rw [if_neg hconfiguration, if_neg (c := address = 0xfff923) h]
      exact .ite (.set q _ (by decide) _ _) (.ite (.set q _ (by decide) _ _) (.of_serial q _))
  unfold write8
  dsimp only
  split
  · have hwritten := hregister { p with serial := p.serial.sendBreak }
    exact ⟨hwritten.counter, hwritten.prescaler, hwritten.epoch, hwritten.seen, hwritten.now,
      hwritten.flags⟩
  · exact hregister p

/-- The write of the timer flags clears the overflow exactly when it acknowledges what the last read
has shown. -/
theorem write_flags (p : Peripherals) (value : UInt8) :
    (p.write8 0xfff923 value).overflowFlag =
        (p.overflowFlag &&
          !(value &&& 0x80 == 0 && p.gptOverflowRead == some p.gptOverflowEpoch)) ∧
      (p.write8 0xfff923 value).gptOverflowRead =
        (if value &&& 0x80 = 0 ∧ p.gptOverflowRead = some p.gptOverflowEpoch then none
          else p.gptOverflowRead) ∧
      (p.write8 0xfff923 value).gptPrescaler = p.gptPrescaler ∧
      (p.write8 0xfff923 value).gptOverflowEpoch = p.gptOverflowEpoch ∧
      (p.write8 0xfff923 value).now = p.now := by
  change (p.writeFlags value).overflowFlag = _ ∧ (p.writeFlags value).gptOverflowRead = _ ∧
    (p.writeFlags value).gptPrescaler = _ ∧ (p.writeFlags value).gptOverflowEpoch = _ ∧
    (p.writeFlags value).now = _
  unfold writeFlags clearOverflow
  by_cases hclears : value &&& 0x80 = 0 ∧ p.gptOverflowRead = some p.gptOverflowEpoch
  · rw [if_pos hclears, if_pos hclears]
    refine ⟨?_, rfl, rfl, rfl, rfl⟩
    rw [overflowFlag_eq]
    simp [hclears.1, hclears.2]
  · rw [if_neg hclears, if_neg hclears]
    refine ⟨?_, rfl, rfl, rfl, rfl⟩
    have hbits : (value &&& 0x80 == 0 && p.gptOverflowRead == some p.gptOverflowEpoch) = false := by
      simpa using hclears
    rw [hbits, overflowFlag_eq, overflowFlag_eq]
    simp

/-! ## Runs -/

/-- What happens to the overflow flag: the counter overflows, or the guest reads the flag as set. -/
inductive FlagEvent where
  | overflow
  | seen
  deriving DecidableEq, Repr

/-- The counter overflows before the new time. -/
def overflows (p : Peripherals) (now : UInt64) : Prop :=
  ¬ p.gptStopped ∧ p.tapped ∧ p.gptTotal (satSub now p.now) >>> 16 ≠ 0

instance decidableOverflows (p : Peripherals) (now : UInt64) : Decidable (p.overflows now) :=
  inferInstanceAs (Decidable (_ ∧ _ ∧ _))

def flagEvents (p : Peripherals) : Op → List FlagEvent
  | .advance now => if p.overflows now then [.overflow] else []
  | .read address => if address = 0xfff923 ∧ p.overflowFlag then [.seen] else []
  | _ => []

theorem overflows_iff {p : Peripherals} {now : UInt64} (hp : p.Timely) (h : p.now ≤ now) :
    p.overflows now ↔ p.wraps (now.toNat - p.now.toNat) ≠ 0 := by
  unfold overflows wraps ticks
  by_cases hidle : p.gptStopped = true ∨ ¬ p.tapped
  · rw [if_pos hidle, Nat.add_zero, Nat.div_eq_of_lt p.gptCounter.toNat_lt]
    refine iff_of_false ?_ (not_not.mpr rfl)
    rintro ⟨hruns, htapped, -⟩
    exact hidle.elim hruns fun h => h htapped
  · rw [if_neg hidle]
    rw [not_or, not_not] at hidle
    rw [ne_eq, ← UInt64.toNat_inj, UInt64.toNat_shiftRight, gptTotal_toNat hp h hidle.2,
      Nat.shiftRight_eq_div_pow]
    exact ⟨fun h => h.2.2, fun h => ⟨hidle.1, hidle.2, h⟩⟩

/-- What holds of the timer in every run. -/
structure Sound (p : Peripherals) : Prop where
  timely : p.Timely
  epoch : p.gptOverflowEpoch.toNat ≤ p.now.toNat
  seen : ∀ e, p.gptOverflowRead = some e → e ≤ p.gptOverflowEpoch

/-- A set flag can be acknowledged as long as the last event is that the guest has seen it. -/
def Tracked (p : Peripherals) (past : List FlagEvent) : Prop :=
  p.overflowFlag = true →
    (p.gptOverflowRead = some p.gptOverflowEpoch ↔ past.getLast? = some .seen)

theorem SameTimer.sound {p q : Peripherals} (h : SameTimer p q) (hp : p.Sound) : q.Sound := by
  refine ⟨?_, ?_, ?_⟩
  · rw [Timely, h.prescaler, h.now]
    exact hp.timely
  · rw [h.epoch, h.now]
    exact hp.epoch
  · rw [h.seen, h.epoch]
    exact hp.seen

theorem SameTimer.tracked {p q : Peripherals} (h : SameTimer p q) {past : List FlagEvent}
    (hp : p.Tracked past) : q.Tracked past := by
  rw [Tracked, h.flag, h.seen, h.epoch]
  exact hp

/-- The number of overflows does not come round again. -/
theorem epoch_advance {p : Peripherals} {now : UInt64} (hp : p.Sound) (h : p.now ≤ now) :
    (p.advance now).gptOverflowEpoch.toNat =
      p.gptOverflowEpoch.toNat + p.wraps (now.toNat - p.now.toNat) := by
  obtain ⟨-, -, hepoch, -⟩ := advance_spec hp.timely h
  have hwraps := p.wraps_le (now.toNat - p.now.toNat)
  have hle := UInt64.le_iff_toNat_le.mp h
  have hlt := now.toNat_lt
  have hbound := hp.epoch
  rw [hepoch, UInt64.toNat_add, UInt64.toNat_ofNat', Nat.add_mod_mod]
  apply Nat.mod_eq_of_lt
  omega

theorem advance_seen (p : Peripherals) (now : UInt64) :
    (p.advance now).gptOverflowRead = p.gptOverflowRead := by
  obtain ⟨-, -, -, hseen, -⟩ := p.advance_gpt now
  rw [hseen]
  unfold advanceGpt countGpt
  split
  · rfl
  · dsimp only
    split <;> rfl

theorem Sound.advance {p : Peripherals} {now : UInt64} (hp : p.Sound) (h : p.now ≤ now) :
    (p.advance now).Sound := by
  obtain ⟨-, -, -, -, hnow⟩ := p.advance_gpt now
  have hepoch := epoch_advance hp h
  have hwraps := p.wraps_le (now.toNat - p.now.toNat)
  have hle := UInt64.le_iff_toNat_le.mp h
  have hbound := hp.epoch
  refine ⟨hp.timely.advance h, ?_, ?_⟩
  · rw [hepoch, hnow]
    omega
  · rw [advance_seen]
    intro e he
    have hold := UInt64.le_iff_toNat_le.mp (hp.seen e he)
    rw [UInt64.le_iff_toNat_le, hepoch]
    omega

/-- An overflow that follows the read is not acknowledged by it. -/
theorem Tracked.advance {p : Peripherals} {now : UInt64} {past : List FlagEvent} (hp : p.Sound)
    (h : p.now ≤ now) (ht : p.Tracked past) :
    (p.advance now).Tracked (past ++ p.flagEvents (.advance now)) := by
  have hepoch := epoch_advance hp h
  obtain ⟨-, -, -, hregisters⟩ := advance_spec hp.timely h
  have hevents := overflows_iff hp.timely h
  by_cases hover : p.overflows now
  · have hout : p.flagEvents (.advance now) = [.overflow] := if_pos hover
    rw [hout, Tracked, advance_seen, List.getLast?_concat]
    refine fun _ => iff_of_false ?_ (by decide)
    intro hread
    have hold := UInt64.le_iff_toNat_le.mp (hp.seen _ hread)
    have hmore := hevents.mp hover
    omega
  · have hnone : p.wraps (now.toNat - p.now.toNat) = 0 := not_not.mp fun h => hover (hevents.mpr h)
    rw [hnone] at hepoch hregisters
    have hsame : (p.advance now).gptOverflowEpoch = p.gptOverflowEpoch := UInt64.toNat_inj.mp hepoch
    have hflag : (p.advance now).overflowFlag = p.overflowFlag := by
      rw [overflowFlag, overflowFlag, hregisters]
      rfl
    have hout : p.flagEvents (.advance now) = [] := if_neg hover
    rw [hout, List.append_nil, Tracked, advance_seen, hsame, hflag]
    exact ht

theorem SameTimer.acknowledge (p : Peripherals) (level : UInt8) :
    SameTimer p (p.acknowledge level).2 := by
  unfold Peripherals.acknowledge acknowledgePit
  split
  · split
    · exact .ite ⟨rfl, rfl, rfl, rfl, rfl, rfl⟩ (.of_serial p _)
    · exact .of_serial p _
  · exact .of_serial p _

theorem SameTimer.transmit (p : Peripherals) (value : UInt8) : SameTimer p (p.transmit value).2 := by
  unfold Peripherals.transmit
  split
  · exact .of_serial p _
  · exact .of_serial p _

theorem step_sound {p : Peripherals} {op : Op} (h : p.Onward op) (hp : p.Sound) :
    (p.step op).Sound := by
  cases op with
  | advance now => exact hp.advance h
  | read address =>
    by_cases hflags : address = 0xfff923
    · subst hflags
      obtain ⟨-, hprescaler, hepoch, hnow, hread⟩ := p.read_flags
      refine ⟨?_, ?_, ?_⟩
      · rw [Timely, step, hprescaler, hnow]
        exact hp.timely
      · rw [step, hepoch, hnow]
        exact hp.epoch
      · rw [step, hepoch, hread]
        intro e he
        split at he
        · exact UInt64.le_of_eq (Option.some.inj he).symm
        · cases he
    · exact (p.read_other hflags).sound hp
  | write address value =>
    by_cases hflags : address = 0xfff923
    · subst hflags
      obtain ⟨-, hread, hprescaler, hepoch, hnow⟩ := p.write_flags value
      refine ⟨?_, ?_, ?_⟩
      · rw [Timely, step, hprescaler, hnow]
        exact hp.timely
      · rw [step, hepoch, hnow]
        exact hp.epoch
      · rw [step, hepoch, hread]
        intro e he
        split at he
        · cases he
        · exact hp.seen e he
    · exact (p.write_other value hflags).sound hp
  | transmit value => exact (SameTimer.transmit p value).sound hp
  | acknowledge level => exact (SameTimer.acknowledge p level).sound hp
  | queue bytes => exact (SameTimer.of_serial p _).sound hp
  | takeEvents => exact (SameTimer.of_serial p _).sound hp

theorem step_tracked {p : Peripherals} {op : Op} {past : List FlagEvent} (h : p.Onward op)
    (hp : p.Sound) (ht : p.Tracked past) : (p.step op).Tracked (past ++ p.flagEvents op) := by
  cases op with
  | advance now => exact ht.advance hp h
  | read address =>
    by_cases hflags : address = 0xfff923
    · subst hflags
      obtain ⟨hregisters, -, hepoch, -, hread⟩ := p.read_flags
      have hflag : (p.read8 0xfff923).2.overflowFlag = p.overflowFlag := by
        rw [overflowFlag, hregisters, overflowFlag]
      rw [Tracked, step, hflag, hepoch, hread]
      intro hset
      simp [hset, flagEvents]
    · have hnone : p.flagEvents (.read address) = [] := if_neg fun h => hflags h.1
      rw [hnone, List.append_nil]
      exact (p.read_other hflags).tracked ht
  | write address value =>
    have hnone : p.flagEvents (.write address value) = [] := rfl
    rw [hnone, List.append_nil]
    by_cases hflags : address = 0xfff923
    · subst hflags
      obtain ⟨hflag, hread, -, hepoch, -⟩ := p.write_flags value
      rw [Tracked, step, hflag, hepoch, hread]
      intro hset
      have hkept : ¬ (value &&& 0x80 = 0 ∧ p.gptOverflowRead = some p.gptOverflowEpoch) := by
        intro h
        simp [h.1, h.2] at hset
      rw [if_neg hkept]
      exact ht (Bool.and_eq_true_iff.mp hset).1
    · exact (p.write_other value hflags).tracked ht
  | transmit value => simpa [flagEvents] using! (SameTimer.transmit p value).tracked ht
  | acknowledge level => simpa [flagEvents] using! (SameTimer.acknowledge p level).tracked ht
  | queue bytes => simpa [flagEvents] using! (SameTimer.of_serial p _).tracked ht
  | takeEvents => simpa [flagEvents] using! (SameTimer.of_serial p _).tracked ht

theorem run_sound {ops : List Op} (h : Each step Onward default ops) :
    (run step default ops).Sound := by
  refine run_keeps (I := Sound) (fun p op hop hp => step_sound hop hp) h ⟨?_, ?_, ?_⟩
  · exact Nat.le_refl _
  · exact Nat.le_refl _
  · intro e he
    cases he

theorem run_tracked {ops : List Op} (h : Each step Onward default ops) :
    (run step default ops).Tracked (log step flagEvents default ops) := by
  have hstart : Sound default := @run_sound [] trivial
  have hkeeps := @log_keeps_of_each _ _ _ step Onward (fun p past => p.Sound ∧ p.Tracked past)
    flagEvents (fun p op past hop hp => ⟨step_sound hop hp.1, step_tracked hop hp.1 hp.2⟩) default []
    ops h ⟨hstart, fun hset => absurd hset (by decide)⟩
  exact hkeeps.2

/-- Time never clears the flag. -/
theorem advance_flag {p : Peripherals} (now : UInt64) (h : p.overflowFlag = true) :
    (p.advance now).overflowFlag = true := by
  rw [overflowFlag_eq] at h ⊢
  rw [advance_registers]
  unfold advanceGpt
  dsimp only
  split
  · exact h
  unfold countGpt
  split
  · dsimp only
    split
    · simp
    · exact h
  · exact h

/-- A set flag is cleared only by the write that acknowledges what the last read has shown. -/
theorem step_flag {p : Peripherals} (op : Op) (h : p.overflowFlag = true) :
    (p.step op).overflowFlag = false ↔
      (∃ value, op = .write 0xfff923 value ∧ value &&& 0x80 = 0) ∧
        p.gptOverflowRead = some p.gptOverflowEpoch := by
  have hkeeps (hsame : (p.step op).overflowFlag = true)
      (hother : ∀ value, op ≠ .write 0xfff923 value) : (p.step op).overflowFlag = false ↔
        (∃ value, op = .write 0xfff923 value ∧ value &&& 0x80 = 0) ∧
          p.gptOverflowRead = some p.gptOverflowEpoch := by
    rw [hsame]
    exact iff_of_false Bool.noConfusion fun ⟨⟨value, hop, _⟩, _⟩ => hother value hop
  cases op with
  | advance now => exact hkeeps (advance_flag now h) fun value hop => by cases hop
  | read address =>
    refine hkeeps ?_ fun value hop => by cases hop
    by_cases hflags : address = 0xfff923
    · subst hflags
      rw [step, overflowFlag, p.read_flags.1]
      exact h
    · exact (p.read_other hflags).flag.trans h
  | write address value =>
    by_cases hflags : address = 0xfff923
    · subst hflags
      rw [step, (p.write_flags value).1, h, Bool.true_and, Bool.not_eq_false', Bool.and_eq_true_iff,
        beq_iff_eq, beq_iff_eq]
      refine and_congr_left fun _ => ⟨fun hzero => ⟨value, rfl, hzero⟩, ?_⟩
      rintro ⟨_, ⟨⟩, hzero⟩
      exact hzero
    · refine hkeeps ((p.write_other value hflags).flag.trans h) fun value' hop => ?_
      injection hop with haddress
      exact hflags haddress
  | transmit value =>
    exact hkeeps ((SameTimer.transmit p value).flag.trans h) fun value hop => by cases hop
  | acknowledge level =>
    exact hkeeps ((SameTimer.acknowledge p level).flag.trans h) fun value hop => by cases hop
  | queue bytes => exact hkeeps h fun value hop => by cases hop
  | takeEvents => exact hkeeps h fun value hop => by cases hop

/-! ## Main results -/

/-- In every state that the peripherals reach, it does not matter in how many steps time passes. -/
theorem advance_split {ops : List Op} (h : Each step Onward default ops) {a b : UInt64}
    (ha : (run step default ops).now ≤ a) (hb : a ≤ b) :
    (((run step default ops).advance a).advance b).gptCounter =
        ((run step default ops).advance b).gptCounter ∧
      (((run step default ops).advance a).advance b).gptPrescaler =
        ((run step default ops).advance b).gptPrescaler ∧
      (((run step default ops).advance a).advance b).gptOverflowEpoch =
        ((run step default ops).advance b).gptOverflowEpoch ∧
      (((run step default ops).advance a).advance b).registers =
        ((run step default ops).advance b).registers :=
  (run_sound h).timely.split ha hb

/-- A timer that has not been stopped counts the same in two steps as in one. -/
theorem advance_split_default : ((default.advance 100).advance 300000).gptCounter =
    (default.advance 300000).gptCounter :=
  (@advance_split [] trivial 100 300000 (by decide) (by decide)).1

/-- In every run, a set overflow flag is cleared exactly by writing a zero to it when no overflow has
followed the last read that has shown it as set. -/
theorem overflow_cleared_iff {ops : List Op} (h : Each step Onward default ops) (op : Op)
    (hset : (run step default ops).overflowFlag = true) :
    ((run step default ops).step op).overflowFlag = false ↔
      (∃ value, op = .write 0xfff923 value ∧ value &&& 0x80 = 0) ∧
        (log step flagEvents default ops).getLast? = some .seen := by
  rw [step_flag op hset, run_tracked h hset]

/-- The guest reads the flag and clears it. -/
theorem overflow_cleared_example : ((run step default [.advance 300000, .read 0xfff923]).step
    (.write 0xfff923 0)).overflowFlag = false :=
  (@overflow_cleared_iff [.advance 300000, .read 0xfff923] (by decide +kernel)
    (.write 0xfff923 0) (by decide +kernel)).mpr ⟨⟨0, rfl, rfl⟩, by decide +kernel⟩

end Peripherals

end OpenSaab.Candi
