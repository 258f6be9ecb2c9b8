import OpenSaab.Can.Frame
import OpenSaab.Library.Runs
import Mathlib.Algebra.Ring.Nat

/-!
# The CAN controller

`sja1000.rs`: the registers of an SJA1000, its transmission request and its receive queue.
-/

namespace OpenSaab

namespace Can

/-- The bytes of a frame in the transmit and the receive buffer. -/
def Frame.encode (f : Frame) : List UInt8 :=
  let head := (f.dlc ||| if f.extended then 0x80 else 0) ||| if f.rtr then 0x40 else 0
  let id :=
    if f.extended then
      [(f.id >>> 21).toUInt8, (f.id >>> 13).toUInt8, (f.id >>> 5).toUInt8, (f.id <<< 3).toUInt8]
    else [(f.id >>> 3).toUInt8, (f.id <<< 5).toUInt8]
  head :: (id ++ f.data)

end Can

namespace Candi

open Can Text

structure ReceiveState where
  mode : UInt8
  interruptEnable : UInt8
  status : UInt8
  queuedMessages : Nat
  queuedBytes : Nat
  bitTiming : UInt8 × UInt8
  deriving DecidableEq, Repr

structure Controller where
  registers : Vector UInt8 32
  filter : Vector UInt8 8
  ram : Vector UInt8 80
  tx : Vector UInt8 13
  transport : Bool
  nextTicket : UInt64
  pending : Option Transmission
  dispatched : Bool
  cancelled : List UInt64
  rx : List (List UInt8)
  rxBytes : Nat
  electrical : ElectricalState
  deriving DecidableEq, Repr

namespace Controller

/-- `Controller::default`. -/
def default : Controller where
  registers := ((((Vector.replicate 32 0).set 0 1).set 2 0x3c).set 13 96).set 31 5
  filter := Vector.replicate 8 0
  ram := Vector.replicate 80 0
  tx := Vector.replicate 13 0
  transport := false
  nextTicket := 1
  pending := none
  dispatched := false
  cancelled := []
  rx := []
  rxBytes := 0
  electrical := .unspecified

/-- The register with a given number. -/
@[simp] abbrev register (c : Controller) (n : Nat) (h : n < 32 := by decide) : UInt8 :=
  c.registers[n]

theorem mode_lt : 0 < 32 := by decide

theorem status_lt : 2 < 32 := by decide

theorem pending_lt : 3 < 32 := by decide

theorem interrupts_lt : 4 < 32 := by decide

theorem timing0_lt : 6 < 32 := by decide

theorem timing1_lt : 7 < 32 := by decide

theorem rxStart_lt : 30 < 32 := by decide

theorem clock_lt : 31 < 32 := by decide

def pelican (c : Controller) : Bool := c.registers[31] &&& 0x80 != 0

def reset (c : Controller) : Bool := c.registers[0] &&& 1 != 0

def bitTiming (c : Controller) : UInt8 × UInt8 := (c.registers[6], c.registers[7])

def receiveState (c : Controller) : ReceiveState where
  mode := c.registers[0]
  interruptEnable := c.registers[4]
  status := c.registers[2]
  queuedMessages := c.rx.length
  queuedBytes := c.rxBytes
  bitTiming := c.bitTiming

/-! ## Reads -/

/-- A read in BasicCAN mode. -/
def readBasic (c : Controller) (offset : UInt8) : Option UInt8 :=
  if offset = 1 then some 0xff
  else if 6 ≤ offset ∧ offset ≤ 8 ∧ ¬ c.reset then some 0xff
  else if 2 ≤ offset ∧ offset ≤ 8 ∨ offset = 31 then c.registers[offset.toNat]?
  else none

/-- The bytes of the window on the oldest frame; behind its end it shows zeros. -/
def window (c : Controller) (i : Nat) : UInt8 := ((c.rx.head?.bind (·[i]?)).getD 0)

/-- A read in PeliCAN mode, but for the interrupt register. -/
def readPelican (c : Controller) (offset : UInt8) : Option UInt8 :=
  let i := offset.toNat
  if offset = 9 then some 0
  else if offset = 29 then some (UInt8.ofNat c.rx.length)
  else if offset ∈ [1, 5, 10, 11, 12] ∨ 112 ≤ offset ∧ offset ≤ 127 then some 0
  else if offset ∈ [2, 4, 6, 7, 8, 13, 14, 15, 30, 31] then c.registers[i]?
  else if 16 ≤ offset ∧ offset ≤ 23 ∧ c.reset then c.filter[i - 16]?
  else if 24 ≤ offset ∧ offset ≤ 28 ∧ c.reset then some 0
  else if 16 ≤ offset ∧ offset ≤ 28 then some (c.window (i - 16))
  else if 32 ≤ offset ∧ offset ≤ 111 then c.ram[i - 32]?
  else none

/-- Reading the interrupt register clears it. -/
def readInterrupts (c : Controller) : UInt8 × Controller :=
  (c.registers[3] ||| if c.rx ≠ [] ∧ c.registers[4] &&& 1 ≠ 0 then 1 else 0,
    { c with registers := c.registers.set 3 0 })

def read (c : Controller) (offset : UInt8) : Option UInt8 × Controller :=
  if offset = 0 then (some (c.registers[0] ||| if c.pelican then 0 else 0xe0), c)
  else if ¬ c.pelican then (c.readBasic offset, c)
  else if offset = 3 then (some c.readInterrupts.1, c.readInterrupts.2)
  else (c.readPelican offset, c)

/-! ## Transmission -/

/-- The frame in the transmit buffer. -/
def txFrame (c : Controller) : Frame :=
  let extended := c.tx[0] &&& 0x80 != 0
  let rtr := c.tx[0] &&& 0x40 != 0
  let dlc := c.tx[0] &&& 15
  let (id, start) :=
    if extended then
      (c.tx[1].toUInt32 <<< 21 ||| c.tx[2].toUInt32 <<< 13 ||| c.tx[3].toUInt32 <<< 5 |||
        c.tx[4].toUInt32 >>> 3, 5)
    else (c.tx[1].toUInt32 <<< 3 ||| c.tx[2].toUInt32 >>> 5, 3)
  let length := if rtr then 0 else min dlc.toNat 8
  { id, extended, rtr, dlc, data := (c.tx.toList.drop start).take length }

def txDescription (c : Controller) : String :=
  if ¬ c.pelican then "BasicCAN TX decoding not implemented"
  else
    let f := c.txFrame
    "id=" ++ hexWord f.id ++ " extended=" ++ toString f.extended ++ " rtr=" ++ toString f.rtr ++
      " dlc=" ++ toString f.dlc.toNat ++ " data=" ++ hexList f.data ++ " btr0=" ++
      hexPrefixed c.registers[6] ++ " btr1=" ++ hexPrefixed c.registers[7] ++ " external_tx=false"

/-- The last 64 cancelled tickets are kept. -/
def retain (tickets : List UInt64) (ticket : UInt64) : List UInt64 :=
  (if tickets.length = 64 then tickets.tail else tickets) ++ [ticket]

/-- Whether something was pending, and the controller without it. -/
def cancelPending (c : Controller) : Bool × Controller :=
  (c.pending.isSome,
    { c with
      pending := none
      dispatched := false
      cancelled := match c.pending with
        | some tx => if c.dispatched then retain c.cancelled tx.ticket else c.cancelled
        | none => c.cancelled })

/-- The transmission request of a command. -/
def request (c : Controller) : Except String Controller :=
  if ¬ c.transport then .error ("CAN TX requested; backend absent; " ++ c.txDescription)
  else if ¬ c.pelican ∨ c.reset ∨ c.registers[0] &&& 0x16 ≠ 0 ∨ c.pending.isSome then
    .error "CAN TX unavailable: controller mode or pending transmission"
  else
    match c.txFrame.validate with
    | .error e => .error e
    | .ok () =>
      if c.nextTicket = 0xffffffffffffffff then .error "CAN transmission ticket exhausted"
      else
        .ok { c with
          nextTicket := c.nextTicket + 1
          pending := some
            { ticket := c.nextTicket, frame := c.txFrame, btr0 := c.registers[6]
              btr1 := c.registers[7], electrical := c.electrical }
          dispatched := false
          registers := c.registers.set 2 (c.registers[2] &&& ~~~0x0c ||| 0x20) }

/-- The abort of a command. The buffer is released, but nothing is marked as sent. -/
def abort (c : Controller) : Controller :=
  let (cancelled, c) := c.cancelPending
  if cancelled then
    { c with
      registers := (c.registers.set 2 (c.registers[2] &&& ~~~0x28 ||| 4)).set 3
        (c.registers[3] ||| c.registers[4] &&& 2) }
  else c

/-- The release of the oldest frame by a command. -/
def release (c : Controller) : Controller :=
  let c := match c.rx with
    | [] => c
    | frame :: rest =>
      { c with
        rx := rest
        rxBytes := c.rxBytes - frame.length
        registers := c.registers.set 30 ((c.registers[30] + UInt8.ofNat frame.length) &&& 63) }
  if c.rx = [] then { c with registers := c.registers.set 2 (c.registers[2] &&& ~~~1) } else c

def clearOverrun (c : Controller) : Controller :=
  { c with registers := c.registers.set 2 (c.registers[2] &&& ~~~2) }

def command (c : Controller) (value : UInt8) : Except String Controller :=
  if value &&& 0xe0 ≠ 0 then .error "Unsupported CAN command bits"
  else if value &&& 0x11 = 0x10 then .error "SJA1000 self reception is not implemented"
  else if value &&& 3 = 3 then .error "SJA1000 single-shot transmission is not implemented"
  else
    match if value &&& 1 ≠ 0 then c.request else .ok c with
    | .error e => .error e
    | .ok c =>
      let c := if value &&& 2 ≠ 0 then c.abort else c
      let c := if value &&& 4 ≠ 0 then c.release else c
      .ok (if value &&& 8 ≠ 0 then c.clearOverrun else c)

/-! ## Writes -/

/-- A write of the mode register: entering reset drops everything. -/
def writeMode (c : Controller) (value : UInt8) : Controller :=
  let wasReset := c.reset
  let c := { c with registers := c.registers.set 0 (value &&& 0x1f) }
  if c.reset then
    let c := c.cancelPending.2
    { c with rx := [], rxBytes := 0, registers := (c.registers.set 3 0).set 2 0x3c }
  else if wasReset then { c with registers := c.registers.set 2 0x0c }
  else c

def write (c : Controller) (offset value : UInt8) : Except String Controller :=
  let i := offset.toNat
  if offset = 0 then .ok (c.writeMode value)
  else if offset = 31 ∧ c.reset then
    .ok { c with registers := c.registers.set 31 (value &&& ~~~0x10) }
  else if offset = 1 then c.command value
  else if offset = 4 ∧ c.pelican then .ok { c with registers := c.registers.set 4 value }
  else if 4 ≤ offset ∧ offset ≤ 8 ∧ ¬ c.pelican ∧ ¬ c.reset then .ok c
  else if 4 ≤ offset ∧ offset ≤ 8 ∧ c.reset then
    .ok { c with registers := c.registers.setIfInBounds i value }
  else if 13 ≤ offset ∧ offset ≤ 15 ∧ c.pelican ∧ c.reset then
    .ok { c with registers := c.registers.setIfInBounds i value }
  else if 16 ≤ offset ∧ offset ≤ 23 ∧ c.pelican ∧ c.reset then
    .ok { c with filter := c.filter.setIfInBounds (i - 16) value }
  else if offset = 30 ∧ c.pelican ∧ c.reset then
    .ok { c with registers := c.registers.set 30 (value &&& 63) }
  else if 16 ≤ offset ∧ offset ≤ 28 ∧ c.pelican ∧ ¬ c.reset then
    if c.pending.isSome then .ok c
    else
      .ok { c with
        tx := c.tx.setIfInBounds (i - 16) value
        ram := c.ram.setIfInBounds (64 + i - 16) value }
  else if 32 ≤ offset ∧ offset ≤ 111 ∧ c.pelican ∧ c.reset then
    .ok { c with ram := c.ram.setIfInBounds (i - 32) value }
  else
    .error ("unsupported SJA1000 register write offset=" ++ hexPrefixed offset ++ " value=" ++
      hexPrefixed value)

/-! ## The backend -/

def enableTransport (c : Controller) : Controller := { c with transport := true }

def setElectrical (c : Controller) (state : ElectricalState) : Controller :=
  { c with electrical := state }

def takeTransmission (c : Controller) : Option Transmission × Controller :=
  if c.dispatched then (none, c) else (c.pending, { c with dispatched := true })

/-- The completion of a ticket: what was cancelled is forgotten, what is dispatched is sent. -/
def complete (c : Controller) (ticket : UInt64) : Except String Bool × Controller :=
  if ticket ∈ c.cancelled then (.ok false, { c with cancelled := c.cancelled.erase ticket })
  else if ¬ c.dispatched ∨ ¬ c.pending.any (·.ticket == ticket) then
    (.error "Stale CAN transmission completion", c)
  else
    (.ok true,
      { c with
        pending := none
        registers := (c.registers.set 2 (c.registers[2] &&& ~~~0x20 ||| 0x0c)).set 3
          (c.registers[3] ||| c.registers[4] &&& 2) })

/-! ## Reception -/

/-- The bytes that the acceptance filter compares, and the bits of them that count. -/
def filterKey (f : Frame) : List UInt8 × List UInt8 :=
  if f.extended then
    ([(f.id >>> 21).toUInt8, (f.id >>> 13).toUInt8, (f.id >>> 5).toUInt8,
        (f.id <<< 3).toUInt8 ||| if f.rtr then 4 else 0],
      [255, 255, 255, 252])
  else
    ([(f.id >>> 3).toUInt8, (f.id <<< 5).toUInt8 ||| if f.rtr then 16 else 0, f.data.getD 0 0,
        f.data.getD 1 0],
      [255, 240, if f.data = [] then 0 else 255, if f.data.length < 2 then 0 else 255])

/-- The filter does not let the frame pass. -/
def filtered (c : Controller) (f : Frame) : Bool :=
  let (key, valid) := filterKey f
  (List.range 4).any fun i =>
    (key.getD i 0 ^^^ (c.filter[i]?).getD 0) &&& ~~~(c.filter[i + 4]?).getD 0 &&& valid.getD i 0 != 0

def accepts (c : Controller) (f : Frame) : Except String Bool :=
  match f.validate with
  | .error e => .error e
  | .ok () =>
    if ¬ c.transport then .error "CAN RX transport is disabled"
    else if c.reset then .ok false
    else if c.registers[0] &&& 0x14 ≠ 0 then
      .error "CAN RX in sleep/self-test mode is not implemented"
    else if ¬ c.pelican ∨ c.registers[0] &&& 8 = 0 then
      .error ("CAN RX requires PeliCAN single acceptance filter; mode=" ++
        hexPrefixed c.registers[0] ++ " clock=" ++ hexPrefixed c.registers[31])
    else .ok (!c.filtered f)

def receiveWouldOverrun (c : Controller) (f : Frame) : Except String Bool :=
  (c.accepts f).map fun accepted => accepted && decide (64 < c.rxBytes + f.encode.length)

/-- The bytes go around the first 64 bytes of the RAM. -/
def writeRing (ram : Vector UInt8 80) (start : Nat) : List UInt8 → Vector UInt8 80
  | [] => ram
  | byte :: bytes => writeRing (ram.setIfInBounds (start &&& 63) byte) (start + 1) bytes

/-- A frame that does not fit is dropped, and the overrun is signalled. -/
def overrun (c : Controller) : Controller :=
  { c with
    registers :=
      (if c.registers[2] &&& 2 = 0 then
        c.registers.set 3 (c.registers[3] ||| c.registers[4] &&& 8) else c.registers).set 2
          (c.registers[2] ||| 2) }

/-- A frame that fits is queued. -/
def enqueue (c : Controller) (bytes : List UInt8) : Controller :=
  { c with
    ram := writeRing c.ram (c.registers[30].toNat + c.rxBytes) bytes
    rxBytes := c.rxBytes + bytes.length
    rx := c.rx ++ [bytes]
    registers := c.registers.set 2 (c.registers[2] ||| 1) }

def receive (c : Controller) (f : Frame) : Except String Bool × Controller :=
  match c.accepts f with
  | .error e => (.error e, c)
  | .ok false => (.ok false, c)
  | .ok true =>
    if 64 < c.rxBytes + f.encode.length then (.ok false, c.overrun)
    else (.ok true, c.enqueue f.encode)

end Controller

/-! ## Runs -/

/-- Everything that the guest and the backend can do to a controller. -/
inductive Op where
  | read (offset : UInt8)
  | write (offset value : UInt8)
  | enableTransport
  | setElectrical (state : ElectricalState)
  | takeTransmission
  | complete (ticket : UInt64)
  | receive (frame : Frame)
  deriving DecidableEq, Repr

namespace Controller

/-- A write that is refused changes nothing. -/
def written (c : Controller) (offset value : UInt8) : Controller :=
  match c.write offset value with
  | .error _ => c
  | .ok c => c

def step (c : Controller) : Op → Controller
  | .read offset => (c.read offset).2
  | .write offset value => c.written offset value
  | .enableTransport => c.enableTransport
  | .setElectrical state => c.setElectrical state
  | .takeTransmission => c.takeTransmission.2
  | .complete ticket => (c.complete ticket).2
  | .receive frame => (c.receive frame).2

end Controller

end Candi

end OpenSaab
