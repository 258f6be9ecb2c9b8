import OpenSaab.Library.Runs
import OpenSaab.Tpu.Passes

/-!
# Polls of the countdowns

How often the timers are polled, on either clock. The first poll of a clock that is not running only
starts it.
-/

namespace OpenSaab.Tpu

open Memory Runs

inductive Clock where
  | instruction
  | wall
  deriving DecidableEq

/-- The timers, the memory of the TPU and the channels that have been reported as expired. -/
structure Polled where
  timer : Countdown
  sim : Bytes
  expired : UInt16

def Polled.poll (clock : Clock) (p : Polled) (now : Nat) : Polled :=
  let r :=
    match clock with
    | .instruction => p.timer.advance p.sim now
    | .wall => p.timer.advanceWall p.sim now
  ⟨r.1, r.2.1, p.expired ||| r.2.2⟩

/-- The clock has been started, by a poll that is not after `now`. -/
def Polled.Running (p : Polled) (now : Nat) : Clock → Prop
  | .instruction => p.timer.wallLast = none ∧ p.timer.next.isSome
  | .wall => ∃ previous, p.timer.wallLast = some previous ∧ previous ≤ now ∧
      p.timer.wallDivider = Countdown.divider p.sim

/-- No number saturates in a poll. -/
def Polled.Unclamped (p : Polled) (now : Nat) : Clock → Prop
  | .instruction => now + quantum < 2 ^ 64
  | .wall => ((now - p.timer.wallLast.getD now) * systemHz + p.timer.wallRemainder) /
      Countdown.denominator p.sim < 2 ^ 64

variable {p : Polled}

theorem aged_zero (slot : Nat) (v : UInt16) : aged 0 slot v = v := by
  unfold aged
  split_ifs
  · exact UInt16.add_zero v
  · exact UInt16.ofNat_toNat
  · rfl

theorem mask_false {f : Nat → Bool} {n : Nat} (h : ∀ channel, f channel = false) : mask f n = 0 := by
  induction n with
  | zero => rfl
  | succ n ih => rw [mask_succ, h n, if_neg Bool.false_ne_true, ih]

theorem fires_zero (sim : Bytes) (interrupt : Bool) (channel : Nat) :
    fires sim 0 interrupt channel = false := by
  have hends (v : UInt16) : ends 0 v = false := by
    rw [← Bool.not_eq_true, ends_iff]
    omega
  simp [fires, hends]

/-- No ticks change nothing. -/
theorem decrement_zero (sim : Bytes) : decrement sim 0 = (sim, 0) := by
  cases hstop : stop sim with
  | true => exact decrement_stopped hstop 0
  | false =>
    refine Prod.ext (ext_words fun off heven => ?_) ?_
    · rw [decrement_word hstop 0 heven, mask_false (fires_zero sim true), aged_zero]
      split_ifs with hcisr
      · rw [hcisr, UInt16.or_zero]
      · rfl
      · rfl
    · rw [decrement_expired hstop, mask_false (fires_zero sim false)]

/-! ## The instruction clock -/

/-- The passes that are due at `now` when the first one is due at `next`. -/
def due (next now : Nat) : Nat := if now < next then 0 else (now - next) / quantum + 1

theorem due_add {next a b : Nat} (hab : a ≤ b) :
    due next a + due (next + quantum * due next a) b = due next b := by
  have hq : 0 < quantum := by decide
  unfold due
  by_cases ha : a < next
  · rw [if_pos ha, Nat.mul_zero, Nat.add_zero, Nat.zero_add]
  · rw [if_neg ha, if_neg (by omega : ¬ b < next)]
    have hlo : quantum * ((a - next) / quantum) ≤ a - next := Nat.mul_div_le _ _
    have hhi : a - next < quantum * ((a - next) / quantum + 1) := Nat.lt_mul_div_succ _ hq
    generalize (a - next) / quantum = k at hlo hhi ⊢
    have hsucc : quantum * (k + 1) = quantum * k + quantum := Nat.mul_succ _ _
    split
    · have hk : (b - next) / quantum = k := by
        refine Nat.div_eq_of_lt_le ?_ ?_
        · rw [Nat.mul_comm]
          omega
        · rw [Nat.mul_comm]
          omega
      omega
    · have hsplit : b - next = b - (next + quantum * (k + 1)) + quantum * (k + 1) := by omega
      rw [hsplit, Nat.add_mul_div_left _ _ hq]
      omega

theorem advance_eq {t : Countdown} {next now : Nat} (sim : Bytes) (hwall : t.wallLast = none)
    (hnext : t.next = some next) (hclamp : now + quantum < 2 ^ 64) :
    t.advance sim now =
      ({ t with next := some (next + quantum * due next now) }, decrement sim (due next now)) := by
  unfold Countdown.advance
  simp only [hwall, Option.isSome_none, Bool.false_eq_true, if_false, hnext, Option.getD_some]
  unfold due
  split_ifs with hlt
  · rw [decrement_zero, Nat.mul_zero, Nat.add_zero]
  · have hdeadline : satAdd now (quantum - (now - next) % quantum) =
        next + quantum * ((now - next) / quantum + 1) := by
      unfold satAdd
      rw [Nat.min_eq_left (by omega)]
      unfold quantum
      omega
    rw [hdeadline]

/-! ## The wall clock -/

/-- The ticks of a time, and what is left of it. -/
theorem divMod_add {d : Nat} (hd : 0 < d) (n m : Nat) :
    n / d + (m + n % d) / d = (m + n) / d ∧ (m + n % d) % d = (m + n) % d := by
  have hsplit : m + n = m + n % d + d * (n / d) := by
    have hdivision := Nat.mod_add_div n d
    omega
  rw [hsplit, Nat.add_mul_div_left _ _ hd, Nat.add_mul_mod_self_left]
  exact ⟨Nat.add_comm _ _, rfl⟩

theorem denominator_pos (sim : Bytes) : 0 < Countdown.denominator sim := by
  unfold Countdown.denominator Countdown.divider countdownTcr1Ticks
  rw [Nat.shiftLeft_eq]
  have hpow := Nat.two_pow_pos (word sim 0xe00 >>> 13 &&& 3).toNat
  split
  · exact Nat.mul_pos (Nat.mul_pos (by decide) (Nat.mul_pos (by decide) hpow)) (by decide)
  · exact Nat.mul_pos (Nat.mul_pos (by decide) (Nat.mul_pos (by decide) hpow)) (by decide)

theorem advanceWall_stop {t : Countdown} {previous now : Nat} {sim : Bytes}
    (hlast : t.wallLast = some previous) (hle : previous ≤ now)
    (hdivider : t.wallDivider = Countdown.divider sim) (hstop : stop sim = true) :
    t.advanceWall sim now = ({ t with wallLast := some now, next := none }, sim, 0) := by
  unfold Countdown.advanceWall
  simp only [hlast, hdivider, hstop, if_true]
  rw [if_neg (by omega)]

theorem advanceWall_eq {t : Countdown} {previous now : Nat} {sim : Bytes}
    (hlast : t.wallLast = some previous) (hle : previous ≤ now)
    (hdivider : t.wallDivider = Countdown.divider sim) (hstop : stop sim = false)
    (hclamp : ((now - previous) * systemHz + t.wallRemainder) / Countdown.denominator sim <
      2 ^ 64) :
    t.advanceWall sim now =
      ({ t with
          wallLast := some now
          next := none
          wallRemainder := ((now - previous) * systemHz + t.wallRemainder) %
            Countdown.denominator sim },
        decrement sim (((now - previous) * systemHz + t.wallRemainder) /
          Countdown.denominator sim)) := by
  unfold Countdown.advanceWall
  simp only [hlast, hdivider, hstop, Bool.false_eq_true, if_false]
  rw [if_neg (by omega), Nat.min_eq_left (by omega)]

theorem decrement_divider (sim : Bytes) (elapsed : Nat) :
    Countdown.divider (decrement sim elapsed).1 = Countdown.divider sim := by
  unfold Countdown.divider
  rw [decrement_low sim elapsed (by decide) (by decide) (by decide)]

/-! ## Two polls -/

namespace Polled

/-- A poll at `a` finds a running clock, and none up to `last` saturates. -/
structure Ready (clock : Clock) (last : Nat) (p : Polled) (a : Nat) : Prop where
  running : p.Running a clock
  le : a ≤ last
  unclamped : p.Unclamped last clock

variable {last a b : Nat}

theorem decrement_twice (e : UInt16) (sim : Bytes) (j k : Nat) :
    (decrement (decrement sim j).1 k).1 = (decrement sim (j + k)).1 ∧
      e ||| (decrement sim j).2 ||| (decrement (decrement sim j).1 k).2 =
        e ||| (decrement sim (j + k)).2 := by
  obtain ⟨hsim, hexpired⟩ := decrement_add sim j k
  exact ⟨hsim, by rw [UInt16.or_assoc, hexpired]⟩

theorem instruction_overtaken (h : p.Ready .instruction last a) (hab : a ≤ b) (hb : b ≤ last) :
    (p.poll .instruction a).Ready .instruction last b ∧
      (p.poll .instruction a).poll .instruction b = p.poll .instruction b := by
  obtain ⟨⟨hwall, hsome⟩, hle, hclamp⟩ := h
  obtain ⟨next, hnext⟩ := Option.isSome_iff_exists.mp hsome
  have hbound : last + quantum < 2 ^ 64 := hclamp
  have hfirst := advance_eq p.sim hwall hnext (by omega : a + quantum < 2 ^ 64)
  have hsecond := advance_eq p.sim hwall hnext (by omega : b + quantum < 2 ^ 64)
  have hboth := advance_eq (t := { p.timer with next := some (next + quantum * due next a) })
    (decrement p.sim (due next a)).1 hwall rfl (by omega : b + quantum < 2 ^ 64)
  obtain ⟨hsim, hexpired⟩ := decrement_twice p.expired p.sim (due next a)
    (due (next + quantum * due next a) b)
  have hcount : due next a + due (next + quantum * due next a) b = due next b := due_add hab
  have hdeadline : next + quantum * due next a + quantum * due (next + quantum * due next a) b =
      next + quantum * due next b := by
    rw [← hcount, Nat.mul_add, Nat.add_assoc]
  rw [hcount] at hsim hexpired
  simp only [poll, hfirst, hsecond, hboth, hsim, hexpired, hdeadline]
  exact ⟨⟨⟨hwall, rfl⟩, hb, hclamp⟩, trivial⟩

theorem wall_overtaken (h : p.Ready .wall last a) (hab : a ≤ b) (hb : b ≤ last) :
    (p.poll .wall a).Ready .wall last b ∧
      (p.poll .wall a).poll .wall b = p.poll .wall b := by
  obtain ⟨⟨previous, hprevious, hle, hdivider⟩, -, hclamp⟩ := h
  have hd := denominator_pos p.sim
  have hbound : ((last - previous) * systemHz + p.timer.wallRemainder) /
      Countdown.denominator p.sim < 2 ^ 64 := by
    simpa only [Unclamped, hprevious, Option.getD_some] using hclamp
  cases hstop : stop p.sim with
  | true =>
    have hfirst := advanceWall_stop hprevious hle hdivider hstop
    have hsecond := advanceWall_stop hprevious (Nat.le_trans hle hab) hdivider hstop
    have hboth := advanceWall_stop (t := { p.timer with wallLast := some a, next := none })
      rfl hab hdivider hstop
    simp only [poll, hfirst, hsecond, hboth, UInt16.or_zero]
    refine ⟨⟨⟨a, rfl, hab, hdivider⟩, hb, ?_⟩, trivial⟩
    simp only [Unclamped, Option.getD_some]
    refine Nat.lt_of_le_of_lt (Nat.div_le_div_right ?_) hbound
    exact Nat.add_le_add_right (Nat.mul_le_mul_right _ (by omega)) _
  | false =>
    have hmono {x : Nat} (hx : x ≤ last) :
        ((x - previous) * systemHz + p.timer.wallRemainder) / Countdown.denominator p.sim <
          2 ^ 64 := by
      refine Nat.lt_of_le_of_lt (Nat.div_le_div_right ?_) hbound
      exact Nat.add_le_add_right (Nat.mul_le_mul_right _ (by omega)) _
    have hfirst := advanceWall_eq hprevious hle hdivider hstop (hmono (Nat.le_trans hab hb))
    have hsecond := advanceWall_eq hprevious (Nat.le_trans hle hab) hdivider hstop (hmono hb)
    generalize hn : (a - previous) * systemHz + p.timer.wallRemainder = n at hfirst
    have hnum {x : Nat} (hx : a ≤ x) :
        (x - previous) * systemHz + p.timer.wallRemainder = (x - a) * systemHz + n := by
      rw [← hn, ← Nat.add_assoc, ← Nat.add_mul]
      congr 2
      omega
    have hrest {x : Nat} (hx : a ≤ x) := divMod_add hd n ((x - a) * systemHz)
    have hdenominator : Countdown.denominator (decrement p.sim (n / Countdown.denominator p.sim)).1 =
        Countdown.denominator p.sim := by
      rw [Countdown.denominator, decrement_divider, ← Countdown.denominator]
    have hclamped {x : Nat} (hx : a ≤ x) (hxl : x ≤ last) :
        ((x - a) * systemHz + n % Countdown.denominator p.sim) / Countdown.denominator p.sim <
          2 ^ 64 := by
      have htotal := hmono hxl
      rw [hnum hx, ← (hrest hx).1] at htotal
      exact Nat.lt_of_le_of_lt (Nat.le_add_left _ _) htotal
    have hboth := advanceWall_eq
      (t := { p.timer with
        wallLast := some a, next := none
        wallRemainder := n % Countdown.denominator p.sim })
      rfl hab (hdivider.trans (decrement_divider p.sim (n / Countdown.denominator p.sim)).symm)
      ((decrement_stop _ _).trans hstop) (by rw [hdenominator]; exact hclamped hab hb)
    rw [hdenominator, (hrest hab).2, ← hnum hab] at hboth
    obtain ⟨hsim, hexpired⟩ := decrement_twice p.expired p.sim (n / Countdown.denominator p.sim)
      (((b - a) * systemHz + n % Countdown.denominator p.sim) / Countdown.denominator p.sim)
    rw [(hrest hab).1, ← hnum hab] at hsim hexpired
    simp only [poll, hfirst, hsecond, hboth, hsim, hexpired]
    refine ⟨⟨⟨a, rfl, hab, hdivider.trans (decrement_divider _ _).symm⟩, hb, ?_⟩, trivial⟩
    simp only [Unclamped, Option.getD_some, hdenominator]
    exact hclamped (Nat.le_trans hab hb) (Nat.le_refl _)

theorem overtaken {clock : Clock} (h : p.Ready clock last a) (hab : a ≤ b) (hb : b ≤ last) :
    (p.poll clock a).Ready clock last b ∧ (p.poll clock a).poll clock b = p.poll clock b := by
  cases clock with
  | instruction => exact instruction_overtaken h hab hb
  | wall => exact wall_overtaken h hab hb

theorem Running.mono {clock : Clock} (h : p.Running a clock) (hab : a ≤ b) : p.Running b clock := by
  cases clock with
  | instruction => exact h
  | wall =>
    obtain ⟨previous, hlast, hle, hdivider⟩ := h
    exact ⟨previous, hlast, Nat.le_trans hle hab, hdivider⟩

/-- The first poll starts the clock, whatever was before. -/
theorem poll_running (clock : Clock) (p : Polled) {a b : Nat} (hab : a ≤ b) :
    (p.poll clock a).Running b clock := by
  cases clock with
  | instruction =>
    simp only [poll, Running, Countdown.advance]
    split <;> split <;> simp_all
  | wall =>
    have hshape : (p.timer.advanceWall p.sim a).1.wallLast = some a ∧
        (p.timer.advanceWall p.sim a).1.wallDivider =
          Countdown.divider (p.timer.advanceWall p.sim a).2.1 := by
      unfold Countdown.advanceWall
      dsimp only
      split
      · exact ⟨rfl, rfl⟩
      · split_ifs with hanchor
        · exact ⟨rfl, rfl⟩
        · exact ⟨rfl, by_contra fun h => hanchor (.inr h)⟩
        · exact ⟨rfl, (by_contra fun h => hanchor (.inr h) :
            p.timer.wallDivider = _).trans (decrement_divider _ _).symm⟩
    exact ⟨a, hshape.1, hab, hshape.2⟩

/-! ## Any number of polls -/

theorem polls_running {clock : Clock} {times : List Nat} {t : Nat}
    (hsorted : (times ++ [t]).Pairwise (· ≤ ·)) (hready : ∀ a ∈ times ++ [t], p.Ready clock t a) :
    run (poll clock) p (times ++ [t]) = p.poll clock t := by
  have hlast : ∀ a ∈ times ++ [t], a ≤ t := fun a ha => (hready a ha).le
  refine run_overtaken (R := fun a b => a ≤ b ∧ b ≤ t)
    (I := fun p a => p.Ready clock t a) ?_ ?_ ?_ hready
  · exact fun p a b h hR => (overtaken h hR.1 hR.2).1
  · exact fun p a b h hR => (overtaken h hR.1 hR.2).2
  · exact hsorted.imp_of_mem fun _ hb hab => ⟨hab, hlast _ hb⟩

/-- Polls in between do not matter: the first poll starts the clock, and the last one does the rest. A
clock that has been started before needs only the last one. -/
theorem polls_eq (clock : Clock) (p : Polled) (first : Nat) (times : List Nat) (t : Nat)
    (hsorted : (first :: times ++ [t]).Pairwise (· ≤ ·))
    (hclamp : (p.poll clock first).Unclamped t clock) :
    run (poll clock) p (first :: times ++ [t]) = run (poll clock) p [first, t] ∧
      (p.Running first clock → p.Unclamped t clock →
        run (poll clock) p (first :: times ++ [t]) = p.poll clock t) := by
  have hpairs := List.pairwise_cons.mp hsorted
  have hfirst : ∀ b ∈ times ++ [t], first ≤ b := hpairs.1
  have hle : ∀ b ∈ times ++ [t], b ≤ t := by
    intro b hb
    rcases List.mem_append.mp hb with hb | hb
    · exact (List.pairwise_append.mp hpairs.2).2.2 b hb t List.mem_cons_self
    · exact Nat.le_of_eq (List.mem_singleton.mp hb)
  constructor
  · rw [List.cons_append, run_cons]
    exact polls_running hpairs.2 fun b hb =>
      ⟨poll_running clock p (hfirst b hb), hle b hb, hclamp⟩
  · intro hrunning hunclamped
    refine polls_running hsorted fun b hb => ?_
    rcases List.mem_cons.mp hb with rfl | hb
    · exact ⟨hrunning, hfirst t (by simp), hunclamped⟩
    · exact ⟨hrunning.mono (hfirst b hb), hle b hb, hunclamped⟩

/-! ## The first poll -/

/-- Polls on the way to `t` make no difference. -/
def Independent (clock : Clock) : Prop :=
  ∀ (p : Polled) (times : List Nat) (t : Nat), (times ++ [t]).Pairwise (· ≤ ·) →
    (run (poll clock) p (times ++ [t])).sim = (p.poll clock t).sim ∧
    (run (poll clock) p (times ++ [t])).expired = (p.poll clock t).expired

/-- Channel 3 counts two ticks down. -/
def twoTicks : Bytes :=
  put (put (put (put (put (fun _ => 0) 0xe00 0x1ccc) 0xe12 0xf000) 0xe1e 0x0040) 0xe16 0x0080) 0xf32 2

/-- A poll at the very beginning starts the clock, and one later than that starts it later. -/
theorem first_poll : ¬ Independent .instruction ∧ ¬ Independent .wall := by
  constructor
  · intro h
    have hsim := (h ⟨.default, twoTicks, 0⟩ [0] 20000 (by decide)).1
    have hword := congrArg (fun sim => word sim 0xf32) hsim
    revert hword
    decide +kernel
  · intro h
    have hsim := (h ⟨.default, twoTicks, 0⟩ [0] 2000000 (by decide)).1
    have hword := congrArg (fun sim => word sim 0xf32) hsim
    revert hword
    decide +kernel

theorem twoTicks_polled : run (poll .instruction) ⟨.default, twoTicks, 0⟩ [0, 10000, 20000] =
    run (poll .instruction) ⟨.default, twoTicks, 0⟩ [0, 20000] :=
  (polls_eq .instruction ⟨.default, twoTicks, 0⟩ 0 [10000] 20000 (by decide)
    (by change 20000 + quantum < 2 ^ 64; decide)).1

end Polled

end OpenSaab.Tpu
