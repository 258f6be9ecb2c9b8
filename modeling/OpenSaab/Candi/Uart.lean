import OpenSaab.Candi.Serial

/-!
# The UART of the CANdi port

`candi/uart.rs` and `candi/native_link.rs`: the registers through which the guest writes bytes to the
CANdi and reads what comes from it. A delimiter stands in the queue of what has been received.
-/

namespace OpenSaab.Candi

open Runs

structure Uart where
  registers : Vector UInt8 8
  divisor : Vector UInt8 2
  tx : List UInt8
  rx : List (Option UInt8)
  txIrq : Bool
  lineAck : Bool
  activity : Bool
  stopped : Bool
  deriving DecidableEq

namespace Uart

/-- `Uart::default`. -/
def default : Uart := ⟨.replicate 8 0, .replicate 2 0, [], [], false, false, false, false⟩

/-! ## Registers -/

theorem index_lt (address : UInt32) : ((address >>> 1) &&& 7).toNat < 8 := by
  rw [UInt32.toNat_and]
  exact Nat.lt_succ_of_le Nat.and_le_right

def index (address : UInt32) : Fin 8 := ⟨((address >>> 1) &&& 7).toNat, index_lt address⟩

theorem enable_lt : 1 < 8 := by decide

theorem line_lt : 3 < 8 := by decide

theorem modem_lt : 4 < 8 := by decide

/-- The interrupt enable register. -/
def ier (u : Uart) : UInt8 := getElem u.registers 1 enable_lt

/-- The line control register. -/
def lcr (u : Uart) : UInt8 := getElem u.registers 3 line_lt

/-- The modem control register. -/
def mcr (u : Uart) : UInt8 := getElem u.registers 4 modem_lt

/-- The first two registers are those of the divisor. -/
def latched (u : Uart) : Bool := u.lcr &&& 0x80 != 0

/-- The front of what has been received is a delimiter. -/
def delimited (u : Uart) : Bool := u.rx.head? == some none

def interruptId (u : Uart) : UInt8 :=
  if u.ier &&& 4 ≠ 0 ∧ u.delimited ∧ ¬ u.lineAck then 6
  else if u.ier &&& 1 ≠ 0 ∧ u.rx ≠ [] then 4
  else if u.ier &&& 2 ≠ 0 ∧ u.txIrq then 2
  else 1

/-! ## Reads -/

/-- The receive holding register. -/
def readHolding (u : Uart) : UInt8 × Uart :=
  ((u.rx.head?.join).getD 0,
    { u with
      lineAck := false
      rx := u.rx.tail
      activity := u.activity ||
        (u.rx.head?.join.isSome && u.tx.isEmpty &&
          (u.rx.tail.isEmpty || u.rx.tail.head? == some none)) })

/-- The interrupt identification register. -/
def readIdentification (u : Uart) : UInt8 × Uart :=
  (u.interruptId, if u.interruptId = 2 then { u with txIrq := false } else u)

/-- The line status register. -/
def readLine (u : Uart) : UInt8 × Uart :=
  (0x60 ||| (if u.rx = [] then 0 else 1) ||| (if u.delimited ∧ ¬ u.lineAck then 0x18 else 0),
    { u with lineAck := true })

def read (u : Uart) (address : UInt32) : UInt8 × Uart :=
  let i := index address
  if u.latched ∧ i.val < 2 then (u.divisor.toList.getD i.val 0, u)
  else if i.val = 0 then u.readHolding
  else if i.val = 2 then u.readIdentification
  else if i.val = 5 then u.readLine
  else (u.registers.get i, u)

/-! ## Writes -/

/-- A frame that ends, and by what it ends. -/
abbrev Ended : Type := List UInt8 × String

/-- A zero under space parity is the end of a frame: its parity bit stands where the stop bit would
be. -/
def spaceParity (u : Uart) (value : UInt8) : Bool := u.lcr &&& 0x3f == 0x3f && value == 0

def loopback (u : Uart) : Bool := u.mcr &&& 0x10 != 0

/-- The frame that has been written so far. -/
def finish (u : Uart) (delimiter : String) : Uart × Option Ended :=
  ({ u with activity := true, tx := [] }, some (u.tx, delimiter))

/-- The transmit holding register. -/
def writeHolding (u : Uart) (value : UInt8) : Uart × Option Ended :=
  let r :=
    if u.spaceParity value then u.finish "space-parity-zero"
    else if u.loopback then
      (if u.rx.length < 4096 then { u with rx := u.rx ++ [some value] } else u, none)
    else if u.tx.length < 4096 then
      ({ u with
        activity := if u.tx = [] then false else u.activity
        tx := u.tx ++ [value] }, none)
    else ({ u with stopped := true }, none)
  ({ r.1 with txIrq := true }, r.2)

def writeEnable (u : Uart) (value : UInt8) : Uart :=
  { u with
    txIrq := u.txIrq || (value &&& 2 != 0 && u.ier &&& 2 == 0)
    registers := u.registers.set 1 value enable_lt }

/-- The FIFO control register; whatever is written clears both queues. -/
def writeFifo (u : Uart) : Uart := { u with rx := [], tx := [], lineAck := false, activity := true }

/-- The rising edge of the break control ends a frame. -/
def breaks (u : Uart) (value : UInt8) : Bool := value &&& 0x40 != 0 && u.lcr &&& 0x40 == 0

def writeLine (u : Uart) (value : UInt8) : Uart × Option Ended :=
  let r := if u.breaks value then u.finish "break" else (u, none)
  ({ r.1 with registers := r.1.registers.set 3 value line_lt }, r.2)

def write (u : Uart) (address : UInt32) (value : UInt8) : Uart × Option Ended :=
  let i := index address
  if u.latched ∧ i.val < 2 then ({ u with divisor := u.divisor.setIfInBounds i.val value }, none)
  else if i.val = 0 then u.writeHolding value
  else if i.val = 1 then (u.writeEnable value, none)
  else if i.val = 2 then (u.writeFifo, none)
  else if i.val = 3 then u.writeLine value
  else ({ u with registers := u.registers.setIfInBounds i.val value }, none)

end Uart

/-! ## The link -/

/-- What `NativeLink` does with its UART: `serial` is the wire to the CANdi, `halted` whether the CPU
of the CANdi has stopped. -/
structure Port where
  uart : Uart
  serial : Serial
  halted : Bool
  stopped : Bool
  deriving DecidableEq

namespace Port

def start (serial : Serial) (halted : Bool) : Port := ⟨.default, serial, halted, false⟩

def finishFrame (p : Port) (frame : List UInt8) : Port :=
  if p.halted then { p with stopped := true }
  else
    match p.serial.queue frame with
    | .error _ => { p with stopped := true }
    | .ok serial => { p with serial }

def read (p : Port) (address : UInt32) : UInt8 × Port :=
  ((p.uart.read address).1, { p with uart := (p.uart.read address).2 })

def write (p : Port) (address : UInt32) (value : UInt8) : Port :=
  let r := p.uart.write address value
  let p := { p with uart := r.1 }
  let p :=
    match r.2 with
    | some (frame, _) => p.finishFrame frame
    | none => p
  { p with stopped := p.stopped || r.1.stopped }

/-- What has come from the CANdi goes to the back of the queue. -/
def receiveEvents (p : Port) (output : List (Option UInt8)) : Port :=
  if output = [] then p
  else if 4096 < p.uart.rx.length + output.length then { p with stopped := true }
  else
    { p with uart := { p.uart with
      lineAck := !p.uart.rx.isEmpty && p.uart.lineAck
      activity := !output.any Option.isSome && p.uart.activity
      rx := p.uart.rx ++ output } }

/-- Accesses of the guest, and what the CANdi sends in the meantime. -/
inductive Op where
  | read (address : UInt32)
  | write (address : UInt32) (value : UInt8)
  | receive (output : List (Option UInt8))
  deriving DecidableEq

def step (p : Port) : Op → Port
  | .read address => (p.read address).2
  | .write address value => p.write address value
  | .receive output => p.receiveEvents output

theorem finishFrame_uart (p : Port) (frame : List UInt8) : (p.finishFrame frame).uart = p.uart := by
  unfold finishFrame
  split
  · rfl
  · split
    · rfl
    · rfl

theorem write_uart (p : Port) (address : UInt32) (value : UInt8) :
    (p.write address value).uart = (p.uart.write address value).1 := by
  unfold write
  dsimp only
  split
  · exact finishFrame_uart _ _
  · rfl

end Port

end OpenSaab.Candi
