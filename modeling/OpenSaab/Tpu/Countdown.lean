import OpenSaab.Library.Memory

/-!
# The timers of the TPU

`tpu.rs`: the countdowns of function 15, on a clock that counts instructions or on the wall clock,
and the idle timeout of function 13 on the channel of the CANdi UART. Durations are in nanoseconds.
-/

namespace OpenSaab.Tpu

open Memory

def quantum : Nat := 10000

def systemHz : Nat := 16777216

def countdownTcr1Ticks : Nat := 0x1062

def cisr : Nat := 0xe20

/-- Addition of `u64` that stays at its maximum. -/
def satAdd (n m : Nat) : Nat := min (n + m) (2 ^ 64 - 1)

/-- `service` is a request of the guest to load the interval. -/
structure UartTimeout where
  service : Bool
  remaining : Option Nat
  halfPeriod : Nat
  last : Nat
  idle : Bool
  deriving DecidableEq, Repr

structure Countdown where
  next : Option Nat
  wallLast : Option Nat
  wallRemainder : Nat
  wallDivider : Nat
  uart : UartTimeout
  deriving DecidableEq, Repr

def UartTimeout.default : UartTimeout := ⟨false, none, 0, 0, false⟩

def Countdown.default : Countdown := ⟨none, none, 0, 0, .default⟩

/-! ## Configuration -/

/-- The TPU is stopped. -/
def stop (sim : Bytes) : Bool := word sim 0xe00 &&& 0x8000 != 0

def function (sim : Bytes) (channel : Nat) : UInt16 :=
  word sim (0xe12 - channel / 4 * 2) >>> UInt16.ofNat (channel % 4 * 4) &&& 15

def priority (sim : Bytes) (channel : Nat) : UInt16 :=
  word sim (if channel < 8 then 0xe1e else 0xe1c) >>> UInt16.ofNat (channel % 8 * 2) &&& 3

def sequence (sim : Bytes) (channel : Nat) : UInt16 :=
  word sim (if channel < 8 then 0xe16 else 0xe14) >>> UInt16.ofNat (channel % 8 * 2) &&& 3

/-- The channel counts down. -/
def counting (sim : Bytes) (channel : Nat) : Bool :=
  function sim channel == 15 && priority sim channel != 0 && sequence sim channel &&& 2 != 0

/-! ## The countdowns -/

/-- How far `decrement` is: the channels that have expired, and those whose interrupt is flagged. -/
structure Pass where
  sim : Bytes
  expired : UInt16
  cisrMask : UInt16

def bit (channel : Nat) : UInt16 := 1 <<< UInt16.ofNat channel

/-- One of the counters of a channel. -/
def countParameter (elapsed channel : Nat) (sequence : UInt16) (p : Pass) (index : Nat) : Pass :=
  let off := 0xf00 + channel * 16 + index * 2
  let before := word p.sim off
  let after := UInt16.ofNat (before.toNat - elapsed)
  if before = 0 then p
  else if after ≠ 0 then { p with sim := put p.sim off after }
  else
    { sim := put p.sim off after
      expired := p.expired ||| bit channel
      cisrMask := if sequence &&& 1 = 0 then p.cisrMask ||| bit channel else p.cisrMask }

def countChannel (elapsed : Nat) (p : Pass) (channel : Nat) : Pass :=
  if counting p.sim channel then
    let base := 0xf00 + channel * 16
    [1, 2, 3, 4, 5].foldl (countParameter elapsed channel (sequence p.sim channel))
      { p with sim := put p.sim base (word p.sim base + UInt16.ofNat elapsed) }
  else p

/-- The memory after `elapsed` ticks, and the channels with a counter that has reached zero. -/
def decrement (sim : Bytes) (elapsed : Nat) : Bytes × UInt16 :=
  if stop sim then (sim, 0)
  else
    let p := (List.range 16).foldl (countChannel elapsed) ⟨sim, 0, 0⟩
    (put p.sim cisr (word p.sim cisr ||| p.cisrMask), p.expired)

namespace Countdown

def advance (t : Countdown) (sim : Bytes) (now : Nat) : Countdown × Bytes × UInt16 :=
  let t :=
    if t.wallLast.isSome then { t with wallLast := none, next := none, wallRemainder := 0 } else t
  let next := t.next.getD (satAdd now quantum)
  if now < next then ({ t with next := some next }, sim, 0)
  else
    ({ t with next := some (satAdd now (quantum - (now - next) % quantum)) },
      decrement sim ((now - next) / quantum + 1))

def divider (sim : Bytes) : Nat :=
  let mcr := word sim 0xe00
  (if mcr &&& 0x40 ≠ 0 then 4 else 32) <<< (mcr >>> 13 &&& 3).toNat

def denominator (sim : Bytes) : Nat := 1000000000 * divider sim * countdownTcr1Ticks

def advanceWall (t : Countdown) (sim : Bytes) (now : Nat) : Countdown × Bytes × UInt16 :=
  let t' := { t with wallLast := some now, next := none }
  match t.wallLast with
  | none => ({ t' with wallDivider := divider sim, wallRemainder := 0 }, sim, 0)
  | some previous =>
    if now < previous ∨ t.wallDivider ≠ divider sim then
      ({ t' with wallDivider := divider sim, wallRemainder := 0 }, sim, 0)
    else if stop sim then (t', sim, 0)
    else
      let numerator := (now - previous) * systemHz + t.wallRemainder
      ({ t' with wallRemainder := numerator % denominator sim },
        decrement sim (min (numerator / denominator sim) (2 ^ 64 - 1)))

end Countdown

/-! ## The idle timeout -/

namespace Countdown

def uartHostService (t : Countdown) (value : UInt8) : Countdown :=
  { t with uart := { t.uart with
    service := t.uart.service || value >>> 2 &&& 3 == 1 } }

/-- The channel of the UART runs function 13. -/
def timing (sim : Bytes) : Bool :=
  word sim 0xe10 >>> 4 &&& 15 == 13 && word sim 0xe1e >>> 10 &&& 3 != 0

/-- The interval of the parameters, and half of its period where it has one. -/
def interval (sim : Bytes) : Nat × Nat :=
  let p0 := word sim 0xf50
  let p1 := word sim 0xf52
  if p1 &&& 0x8000 ≠ 0 then
    let half := max (p1 &&& 0x7fff).toNat 1
    (max p0.toNat 1 * 2 * half, half)
  else (max (p0.toNat * 65536 + p1.toNat) 1, 0)

/-- The interval starts again. -/
def load (t : Countdown) (sim : Bytes) (idle : Bool) : Countdown × Bytes :=
  ({ t with uart := { t.uart with
      service := false
      remaining := some (interval sim).1
      halfPeriod := (interval sim).2 } },
    put (put (put sim 0xf54 (if idle then 1 else 0)) 0xf56 (word sim 0xf50)) 0xf58
      (word sim 0xf52 &&& 0x8000))

/-- What the parameters show of the time that remains. -/
def refresh (sim : Bytes) (half remaining : Nat) : Bytes :=
  if half ≠ 0 then
    let halves := (remaining + half - 1) / half
    put (put sim 0xf58 (if halves % 2 = 0 then 0x8000 else 0)) 0xf56 (UInt16.ofNat ((halves + 1) / 2))
  else put sim 0xf56 (UInt16.ofNat (remaining / 65536))

def expire (sim : Bytes) : Bytes :=
  let sim := put (put (put sim 0xf54 1) 0xf56 0) 0xf58 0x8000
  put sim cisr (word sim cisr ||| 0x20)

/-- The timer, the memory, and whether the timeout has expired. -/
def advanceUart (t : Countdown) (sim : Bytes) (now : Nat) (idle : Bool) :
    Countdown × Bytes × Bool :=
  let elapsed := now - t.uart.last
  let t := { t with uart := { t.uart with last := now } }
  if stop sim then (t, sim, false)
  else if ¬ timing sim then ({ t with uart := { t.uart with remaining := none } }, sim, false)
  else
    let settled (t : Countdown) : Countdown := { t with uart := { t.uart with idle } }
    if t.uart.service ∨ idle ∧ ¬ t.uart.idle then
      (settled (t.load sim idle).1, (t.load sim idle).2, false)
    else
      match idle, t.uart.remaining with
      | true, some remaining =>
        let remaining := remaining - elapsed
        let sim := refresh sim t.uart.halfPeriod remaining
        if remaining = 0 then
          (settled { t with uart := { t.uart with remaining := none } }, expire sim, true)
        else (settled { t with uart := { t.uart with remaining := some remaining } }, sim, false)
      | _, _ => (settled t, sim, false)

end Countdown

end OpenSaab.Tpu
