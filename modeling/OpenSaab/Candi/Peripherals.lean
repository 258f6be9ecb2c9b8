import OpenSaab.Candi.Serial

/-!
# The peripherals of the CANdi

`candi/peripherals.rs`: the registers of the MC68331, its serial port, its interval timer and the free
running counter of its general purpose timer.
-/

namespace OpenSaab.Candi

open Runs Psos Bits

structure Peripherals where
  registers : Vector UInt8 0x700
  serial : Serial
  now : UInt64
  pitDeadline : Option UInt64
  pitPending : Bool
  gptCounter : UInt16
  gptPrescaler : UInt16
  gptCprWritten : Bool
  gptOverflowEpoch : UInt64
  gptOverflowRead : Option UInt64
  deriving DecidableEq, Repr

namespace Peripherals

/-- `Peripherals::default`. Bit 0 of the interrupt vector register always reads one. -/
def default : Peripherals where
  registers := ((Vector.replicate 0x700 0).set 0x305 0x0f).set 0x309 4
  serial := Serial.default
  now := 0
  pitDeadline := none
  pitPending := false
  gptCounter := 0
  gptPrescaler := 0
  gptCprWritten := false
  gptOverflowEpoch := 0
  gptOverflowRead := none

def externalIrqEnabled (p : Peripherals) (level : UInt8) : Bool :=
  (2 ≤ level && level ≤ 4) && p.registers[0x11f] &&& (1 <<< level) != 0

/-- `u16::from_be_bytes`. -/
def bigEndian (high low : UInt8) : UInt16 := high.toUInt16 <<< 8 ||| low.toUInt16

def word (p : Peripherals) (offset : Nat) (h : offset + 1 < 0x700 := by decide) : UInt16 :=
  bigEndian (p.registers.get ⟨offset, Nat.lt_of_succ_lt h⟩) (p.registers.get ⟨offset + 1, h⟩)

/-- Ten bits of 32 system clocks each, times the divisor. -/
def characterCycles (p : Peripherals) : UInt64 := 320 * (max (p.word 0x308 &&& 0x1fff) 1).toUInt64

/-! ## Time -/

def gptStopped (p : Peripherals) : Bool := p.word 0 &&& 0x9000 != 0

def gptDivisor (p : Peripherals) : UInt64 := (4 : UInt64) <<< (p.registers[0x21] &&& 7).toUInt64

/-- The counter with the ticks of the time that has passed, before it wraps. -/
def gptTotal (p : Peripherals) (elapsed : UInt64) : UInt64 :=
  p.gptCounter.toUInt64 + (p.gptPrescaler.toUInt64 % p.gptDivisor + elapsed) / p.gptDivisor

/-- The last tap of the prescaler is an external clock, and no edge of it ever comes. -/
def tapped (p : Peripherals) : Prop := p.registers[0x21] &&& 7 < 7

instance decidableTapped (p : Peripherals) : Decidable p.tapped := inferInstanceAs (Decidable (_ < _))

def countGpt (p : Peripherals) (elapsed : UInt64) : Peripherals :=
  if p.tapped then
    let total := p.gptTotal elapsed
    { p with
      registers :=
        if total >>> 16 ≠ 0 then p.registers.set 0x23 (p.registers[0x23] ||| 0x80) else p.registers
      gptOverflowEpoch :=
        if total >>> 16 ≠ 0 then p.gptOverflowEpoch + (total >>> 16) else p.gptOverflowEpoch
      gptCounter := total.toUInt16 }
  else p

def advanceGpt (p : Peripherals) (now : UInt64) : Peripherals :=
  let elapsed := satSub now p.now
  if p.gptStopped then p
  else
    { p.countGpt elapsed with
      gptPrescaler := ((p.gptPrescaler.toUInt64 + elapsed) &&& 511).toUInt16 }

def advanceSerial (p : Peripherals) (now : UInt64) : Peripherals :=
  if p.word 0x300 &&& 0x8000 = 0 ∧ p.word 0x308 &&& 0x1fff ≠ 0 then
    { p with serial := p.serial.advance now (p.word 0x30a) p.characterCycles }
  else p

def advancePit (p : Peripherals) (now : UInt64) : Peripherals :=
  let pitr := p.word 0x124
  if pitr &&& 255 = 0 then { p with pitDeadline := none, pitPending := false }
  else
    let period := (pitr &&& 255).toUInt64 * 2048 * if pitr &&& 0x100 ≠ 0 then 512 else 1
    match p.pitDeadline with
    | none => { p with pitDeadline := some (satAdd now period) }
    | some deadline =>
      if deadline ≤ now then
        { p with pitPending := true, pitDeadline := some (satAdd now period) }
      else p

def advance (p : Peripherals) (now : UInt64) : Peripherals :=
  ({ p.advanceGpt now with now }.advanceSerial now).advancePit now

/-! ## Interrupts -/

/-- `max_by_key` on the level: of several with the highest level, the last. -/
def highest (requests : List (UInt8 × UInt32)) : Option (UInt8 × UInt32) :=
  requests.foldl (fun best r => match best with
    | none => some r
    | some b => if r.1 < b.1 then some b else some r) none

def sciRequest (p : Peripherals) : Option (UInt8 × UInt32) :=
  let level := p.registers[0x304] &&& 7
  if level ≠ 0 ∧ p.word 0x300 &&& 0x8000 = 0 ∧ p.serial.interrupt (p.word 0x30a) then
    some (level, (p.registers[0x305] &&& 0xfe).toUInt32)
  else none

def pitRequest (p : Peripherals) : Option (UInt8 × UInt32) :=
  let picr := p.word 0x122
  let level := ((picr >>> 8) &&& 7).toUInt8
  if p.pitPending ∧ level ≠ 0 then some (level, (picr &&& 255).toUInt32) else none

def gptRequest (p : Peripherals) : Option (UInt8 × UInt32) :=
  let icr := p.word 4
  let level := ((icr >>> 8) &&& 7).toUInt8
  let source : UInt16 := if icr >>> 12 = 9 then 0 else 9
  if p.registers[0x23] &&& p.registers[0x21] &&& 0x80 ≠ 0 ∧ p.word 0 &&& 0x8000 = 0 ∧
      p.word 0 &&& 15 ≠ 0 ∧ level ≠ 0 then
    some (level, (icr &&& 0xf0 ||| source).toUInt32)
  else none

def interrupt (p : Peripherals) : Option (UInt8 × UInt32) :=
  highest (p.sciRequest.toList ++ p.pitRequest.toList ++ p.gptRequest.toList)

/-- The acknowledgement of the interval timer ends its request. -/
def acknowledgePit (p : Peripherals) (level : UInt8) (vector : UInt32) : Peripherals :=
  let request : UInt16 := level.toUInt16 <<< 8 ||| vector.toUInt16
  if p.pitPending ∧ p.word 0x122 &&& 0x7ff = request then
    { p with pitPending := false }
  else p

def acknowledge (p : Peripherals) (level : UInt8) : UInt32 × Peripherals :=
  match p.interrupt with
  | some (priority, vector) =>
    if priority = level then (vector, p.acknowledgePit level vector) else (0xffffffff, p)
  | none => (0xffffffff, p)

/-! ## Registers -/

def transmit (p : Peripherals) (value : UInt8) : Bool × Peripherals :=
  if p.word 0x30a &&& 8 ≠ 0 ∧ p.word 0x308 &&& 0x1fff ≠ 0 then
    let (sent, serial) := p.serial.writeData value p.now p.characterCycles
    (sent, { p with serial })
  else (false, p)

/-- The registers that read as they were written. -/
def configuration (address : UInt32) : Bool :=
  [((0xfff900 : UInt32), (0xfff901 : UInt32)), (0xfff904, 0xfff906), (0xfff91e, 0xfff921),
    (0xfffa00, 0xfffa01), (0xfffa14, 0xfffa17), (0xfffa1c, 0xfffa1f), (0xfffa22, 0xfffa25),
    (0xfffa44, 0xfffa73), (0xfffc00, 0xfffc01), (0xfffc04, 0xfffc05), (0xfffc08, 0xfffc0b),
    (0xfffc16, 0xfffc17)].any fun (first, last) => first ≤ address && address ≤ last

/-- The read of the timer flags, which remembers the overflow that it has shown. -/
def readFlags (p : Peripherals) : UInt8 × Peripherals :=
  (p.registers[0x23],
    { p with
      gptOverflowRead :=
        if p.registers[0x23] &&& 0x80 ≠ 0 then some p.gptOverflowEpoch else none })

def read8 (p : Peripherals) (address : UInt32) : Option UInt8 × Peripherals :=
  if configuration address then (p.registers[(address - 0xfff900).toNat]?, p)
  else if address = 0xfff90a then (some (p.gptCounter >>> 8).toUInt8, p)
  else if address = 0xfff90b then (some p.gptCounter.toUInt8, p)
  else if address = 0xfff92c then (some (p.gptPrescaler >>> 8).toUInt8, p)
  else if address = 0xfff92d then (some p.gptPrescaler.toUInt8, p)
  else if address = 0xfffc0c then
    (some (p.serial.readStatus.1 >>> 8).toUInt8, { p with serial := p.serial.readStatus.2 })
  else if address = 0xfffc0d then
    (some p.serial.readStatus.1.toUInt8, { p with serial := p.serial.readStatus.2 })
  else if address = 0xfffc0e then (some 0, p)
  else if address = 0xfffc0f then
    (some p.serial.readData.1, { p with serial := p.serial.readData.2 })
  else if address = 0xfffc15 ∧ p.registers[0x316] = 0 then
    (some (p.registers[0x315] &&& p.registers[0x317]), p)
  else if address = 0xfff907 ∧ p.registers[0x1e] = 0 then
    (some (p.registers[7] &&& p.registers[6]), p)
  else if (address = 0xfffa19 ∨ address = 0xfffa1b) ∧ p.registers[0x11f] = 0 then
    (some (p.registers[0x119] &&& p.registers[0x11d]), p)
  else if 0xfff90e ≤ address ∧ address ≤ 0xfff913 then (some 0, p)
  else if address = 0xfff922 then (some p.registers[0x22], p)
  else if address = 0xfff923 then (some p.readFlags.1, p.readFlags.2)
  else (none, p)

/-- The divisor can be set only once. -/
def writeCpr (p : Peripherals) (value : UInt8) : Peripherals :=
  let cpr := if p.gptCprWritten then p.registers[0x21] &&& 7 else value &&& 7
  { p with gptCprWritten := true, registers := p.registers.set 0x21 ((value &&& 0xf8) ||| cpr) }

/-- A zero clears the overflow flag when no overflow has followed the read that has shown it. -/
def clearOverflow (p : Peripherals) (value : UInt8) : Peripherals :=
  if value &&& 0x80 = 0 ∧ p.gptOverflowRead = some p.gptOverflowEpoch then
    { p with
      registers := p.registers.set 0x23 (p.registers[0x23] &&& ~~~0x80), gptOverflowRead := none }
  else p

def writeFlags (p : Peripherals) (value : UInt8) : Peripherals :=
  let p := p.clearOverflow value
  { p with registers := p.registers.set 0x23 (p.registers[0x23] &&& (value ||| 0x80)) }

def writeRegister (p : Peripherals) (address : UInt32) (value : UInt8) : Peripherals :=
  if address = 0xfffc05 then { p with registers := p.registers.set 0x305 (value ||| 1) }
  else if address = 0xfff921 then p.writeCpr value
  else if configuration address ∨ address = 0xfff907 ∨ address = 0xfffc15 then
    { p with registers := p.registers.setIfInBounds (address - 0xfff900).toNat value }
  else if address = 0xfffa19 ∨ address = 0xfffa1b then
    { p with registers := p.registers.set 0x119 value }
  else if address = 0xfff923 then p.writeFlags value
  else if address = 0xfff922 then
    { p with registers := p.registers.set 0x22 (p.registers[0x22] &&& value) }
  else p

def write8 (p : Peripherals) (address : UInt32) (value : UInt8) : Peripherals :=
  let p :=
    if address = 0xfffc0b ∧ value &&& 1 ≠ 0 ∧ p.registers[0x30b] &&& 1 = 0 then
      { p with serial := p.serial.sendBreak }
    else p
  p.writeRegister address value

/-! ## Runs -/

/-- Everything that the host, the guest and time can do to the peripherals. -/
inductive Op where
  | advance (now : UInt64)
  | read (address : UInt32)
  | write (address : UInt32) (value : UInt8)
  | transmit (value : UInt8)
  | acknowledge (level : UInt8)
  | queue (bytes : List UInt8)
  | takeEvents
  deriving DecidableEq, Repr

def step (p : Peripherals) : Op → Peripherals
  | .advance now => p.advance now
  | .read address => (p.read8 address).2
  | .write address value => p.write8 address value
  | .transmit value => (p.transmit value).2
  | .acknowledge level => (p.acknowledge level).2
  | .queue bytes => { p with serial := p.serial.step (.queue bytes) }
  | .takeEvents => { p with serial := p.serial.step .takeEvents }

/-- Time does not go back. -/
def Onward (p : Peripherals) : Op → Prop
  | .advance now => p.now ≤ now
  | _ => True

instance decidableOnward (p : Peripherals) : (op : Op) → Decidable (p.Onward op)
  | .advance now => inferInstanceAs (Decidable (p.now ≤ now))
  | .read _ | .write _ _ | .transmit _ | .acknowledge _ | .queue _ | .takeEvents => isTrue trivial

end Peripherals

end OpenSaab.Candi
