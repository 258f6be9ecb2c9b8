import OpenSaab.Flash.Eprom
import OpenSaab.Psos.State
import OpenSaab.Text

/-!
# Initialisation on demand

`candi/demand.rs` and `guest.rs`: the first instruction that needs the CANdi is held back, the routines
of the guest that find and load it are called below the stack of the caller, and then the instruction
goes on.
-/

namespace OpenSaab.Candi.Demand

open Psos

/-! ## Memory -/

def eramBase : UInt32 := 0x300000

def eramSize : UInt32 := 0x100000

def inRam (a : UInt32) : Prop := ramBase ≤ a ∧ a < ramBase + ramSize

def inEram (a : UInt32) : Prop := eramBase ≤ a ∧ a < eramBase + eramSize

instance decidableInRam (a : UInt32) : Decidable (inRam a) := inferInstanceAs (Decidable (_ ∧ _))

instance decidableInEram (a : UInt32) : Decidable (inEram a) := inferInstanceAs (Decidable (_ ∧ _))

/-- The memories of the bus. Both RAMs are read by the offset. A capture card that is inserted takes the
writes to the second one. -/
structure Memory where
  eprom : BootFlash.Eprom
  ram : UInt32 → UInt8
  eram : UInt32 → UInt8
  captureInserted : Bool

namespace Memory

variable (m : Memory)

def part (cells : UInt32 → UInt8) (size offset : UInt32) (n : Nat) : Option (List UInt8) :=
  if offset.toNat + n ≤ size.toNat then
    some ((List.range n).map fun i => cells (offset + UInt32.ofNat i))
  else none

/-- Only memory is looked at, and nothing changes by it. -/
def peekBytes (a : UInt32) (n : Nat) : Option (List UInt8) :=
  if a.toNat < BootFlash.flashSize then
    if a.toNat + n ≤ m.eprom.chip.flash.length then some ((m.eprom.chip.flash.drop a.toNat).take n)
    else none
  else if inRam a then part m.ram ramSize (a - ramBase) n
  else if eramBase + 0x1000 ≤ a ∧ a < eramBase + eramSize then part m.eram eramSize (a - eramBase) n
  else none

/-- Zero outside of the RAM. -/
def ramWord (a : UInt32) : UInt16 :=
  if a < ramBase then 0
  else if (a - ramBase).toNat + 2 ≤ ramSize.toNat then
    (m.ram (a - ramBase)).toUInt16 <<< 8 ||| (m.ram (a - ramBase + 1)).toUInt16
  else 0

def setCell (cells : UInt32 → UInt8) (offset : UInt32) (v : UInt8) : UInt32 → UInt8 :=
  fun i => if i = offset then v else cells i

/-- A write to the memories. The devices are left out. -/
def writeByte (address : UInt32) (v : UInt8) : Memory :=
  let a := address &&& 0xffffff
  if inEram a ∧ m.captureInserted then m
  else if a.toNat < BootFlash.flashSize then { m with eprom := m.eprom.busByte address v }
  else if inRam a then { m with ram := setCell m.ram (a - ramBase) v }
  else if inEram a then { m with eram := setCell m.eram (a - eramBase) v }
  else m

def writeWord (address : UInt32) (v : UInt16) : Memory :=
  if inEram (address &&& 0xffffff) ∧ m.captureInserted then m
  else (m.writeByte address (v >>> 8).toUInt8).writeByte (address + 1) v.toUInt8

def writeLong (address v : UInt32) : Memory :=
  (m.writeWord address (v >>> 16).toUInt16).writeWord (address + 2) v.toUInt16

/-- What a stack can be in: a byte of one of the RAMs. -/
def stored (a : UInt32) : Option UInt8 :=
  if inRam a then some (m.ram (a - ramBase))
  else if inEram a then some (m.eram (a - eramBase))
  else none

end Memory

/-! ## The initialisation -/

/-- The word that the guest keeps of the inventory. -/
def flagWord : UInt32 := 0x1fbc10

/-- The routines of the guest: the pause of the kernel, the note of an attempt, and the loader. -/
inductive Routine where
  | wait
  | mark
  | loader
  deriving DecidableEq, Repr

def Routine.entry : Routine → UInt32
  | .wait => 0x126f6
  | .mark => 0x1d68c6
  | .loader => 0x1d8f46

structure GuestInit where
  registers : Vector UInt32 16
  sr : UInt16
  resume : UInt32
  started : Nat
  inventory : Bool
  markAttempt : Bool
  marked : Bool

namespace GuestInit

variable (i : GuestInit)

def sp : UInt32 := getElem i.registers 15 a7_lt

def look (m : Memory) : GuestInit :=
  let inventory := decide (m.ramWord flagWord &&& 2 ≠ 0)
  { i with inventory, markAttempt := inventory && !i.marked }

def routine : Routine := if i.markAttempt then .mark else if i.inventory then .loader else .wait

def callSp : UInt32 := i.sp - (if i.markAttempt then 6 else if i.inventory then 4 else 8)

/-- The argument and the return address. -/
def push (m : Memory) : Memory :=
  let m := if i.markAttempt then m.writeWord (i.sp - 2) 8 else m
  let m := if i.inventory then m else m.writeLong (i.sp - 4) 1
  m.writeLong i.callSp i.resume

/-- Where the stack is when the routine has returned. -/
def returnSp : UInt32 := i.sp - (if i.inventory then 0 else 4)

end GuestInit

/-- The result that starting the link has, and whether a trace is wanted. -/
structure Pending where
  start : Except String Unit
  transportTrace : Bool

/-- A routine that is called with these flags, or the report of the loader. -/
inductive Note where
  | call (r : Routine) (flags : UInt16)
  | loaded (result : UInt32) (flags : UInt16)
  deriving DecidableEq, Repr

/-- The bus, as far as the initialisation uses it, and in `notes` what has been done. -/
structure Bus where
  memory : Memory
  failureReason : Option String
  pendingCandi : Option Pending
  candiLink : Bool
  traceWriter : Bool
  openTrace : Except String Unit
  demandBootComplete : Bool
  demandGuestInit : Option GuestInit
  notes : List Note

structure Machine (φ : Type) where
  cpu : CpuCore φ
  bus : Bus

namespace Bus

variable (b : Bus)

def fail (reason : String) : Bus := { b with failureReason := some reason }

def startLink (p : Pending) : Bus :=
  match p.start with
  | .ok () => { b with pendingCandi := none, candiLink := true }
  | .error e => { b with pendingCandi := none }.fail ("CANdi initialization failed: " ++ e)

def startTrace (p : Pending) : Bus :=
  if p.transportTrace ∧ ¬ b.traceWriter then
    match b.openTrace with
    | .ok () => { b with traceWriter := true }
    | .error e => b.fail ("CANdi trace failed: " ++ e)
  else b

def ensureCandi : Bus :=
  match b.pendingCandi with
  | none => b
  | some p => (b.startLink p).startTrace p

end Bus

namespace Machine

variable {φ : Type} (s : Machine φ)

def fail (reason : String) : Machine φ := { s with bus := s.bus.fail reason }

def hold (i : Option GuestInit) : Machine φ := { s with bus := { s.bus with demandGuestInit := i } }

def note (n : Note) : Machine φ := { s with bus := { s.bus with notes := s.bus.notes ++ [n] } }

/-- `GuestInit::call`, and that the initialisation is kept. -/
def call (i : GuestInit) : Machine φ :=
  let i := i.look s.bus.memory
  { cpu := { s.cpu.setSp i.callSp with pc := i.routine.entry }
    bus :=
      { s.bus with
        memory := i.push s.bus.memory
        demandGuestInit := some i
        notes := s.bus.notes ++ [.call i.routine (s.bus.memory.ramWord flagWord)] } }

def second : Nat := 1000000000

def loaderFailed (result : UInt32) : String :=
  "CANdi guest loader failed (0x" ++ String.ofList (Nat.toDigits 16 result.toNat) ++
    "); original request not sent"

/-- What the loader leaves is looked at. -/
def finish (result : UInt32) : Machine φ :=
  let flags := s.bus.memory.ramWord flagWord
  if flags &&& 0xf000 = 0 ∨ ¬ (result.toUInt8 = 0 ∨ result.toUInt8 = 2) then
    s.fail (loaderFailed result)
  else s.note (.loaded result flags)

variable [M68k φ]

def restore (i : GuestInit) : Machine φ :=
  { s with cpu := { M68k.setSrNointNosp s.cpu i.sr with dar := i.registers } }

/-- A routine has returned. -/
def returned (i : GuestInit) : Machine φ :=
  let result := s.cpu.dar[0]
  let s := s.restore i
  if i.markAttempt then s.call { i with marked := true }
  else if i.inventory then s.finish result
  else s.call i

def timedOut : String :=
  "Deferred CANdi guest initialization timed out; original request not sent"

/-- An initialisation that is under way. -/
def continued (now : Nat) (i : GuestInit) : Machine φ :=
  let s := s.hold none
  if 60 * second < now - i.started then s.fail timedOut
  else if s.cpu.pc = i.resume ∧ s.cpu.activeSp = i.returnSp then s.returned i
  else s.hold (some i)

/-- The entry of the communication. -/
def atInit : Bool :=
  s.cpu.pc == 0x1ee5a6 && s.bus.memory.peekBytes s.cpu.pc 12 ==
    some [0x48, 0xe7, 0x3f, 0x3e, 0x4f, 0xef, 0xff, 0xee, 0x42, 0x43, 0x61, 0x00]

/-- A request to the adapter. -/
def atRequest : Bool :=
  s.cpu.pc == 0x1dbb96 && s.bus.memory.peekBytes s.cpu.pc 12 ==
      some [0x48, 0xe7, 0x0f, 0x0c, 0x4f, 0xef, 0xff, 0xe8, 0x2a, 0x6f, 0x00, 0x34] &&
    s.bus.memory.peekBytes (s.cpu.activeSp + 8) 4 == some [0, 0, 0, 7]

def loaderCode : List UInt8 :=
  [0x48, 0xe7, 0x03, 0x00, 0x4f, 0xef, 0xff, 0xce, 0x61, 0xff, 0xff, 0xff, 0xd9, 0x64, 0x4a, 0x00]

def waitCode : List UInt8 :=
  [0x4e, 0x56, 0, 0, 0x2f, 6, 0x2c, 0x2e, 0, 8, 0x70, 0x3c, 0x4e, 0x4b, 0x2c, 0x1f, 0x4e, 0x5e, 0x4e,
    0x75]

def markCode : List UInt8 :=
  [0x30, 0x39, 0, 0x1f, 0xbc, 0x10, 0x80, 0x6f, 0, 4, 0x33, 0xc0, 0, 0x1f, 0xbc, 0x10, 0x4e, 0x74, 0, 2,
    0x30, 0x2f]

def guestInit (now : Nat) : GuestInit where
  registers := s.cpu.dar
  sr := M68k.getSr s.cpu
  resume := s.cpu.pc
  started := now
  inventory := false
  markAttempt := false
  marked := false

/-- The first instruction that needs the link. -/
def triggered (now : Nat) : Machine φ :=
  let m := s.bus.memory
  if m.peekBytes 0x1d8f46 16 ≠ some loaderCode then
    s.fail "Unsupported deferred CANdi guest loader"
  else if m.peekBytes 0x126f6 20 ≠ some waitCode ∨ m.peekBytes 0x1d68c6 22 ≠ some markCode ∨
      (m.peekBytes (s.cpu.activeSp - 8) 8).isNone then
    s.fail "Unsupported deferred CANdi helper or stack"
  else
    let s' : Machine φ := { s with bus := s.bus.ensureCandi }
    if s'.bus.failureReason.isSome then s' else s'.call (s.guestInit now)

/-- `guest_dependency`. -/
def guestDependency (now : Nat) : Machine φ :=
  match s.bus.demandGuestInit with
  | some i => s.continued now i
  | none =>
    if s.bus.pendingCandi.isNone ∨ ¬ s.bus.demandBootComplete then s
    else if s.atInit ∨ s.atRequest then s.triggered now
    else s

end Machine

/-! ## A step of the guest -/

/-- What the guest, or the kernel of the host, leaves. -/
structure Turn (φ : Type) where
  cpu : CpuCore φ
  memory : Memory
  failure : Option String

/-- An instruction and all that it brings about, and then the next step. -/
structure Round (φ : Type) where
  guest : Turn φ
  kernel : Turn φ
  now : Nat
  screen : String

namespace Machine

variable {φ : Type}

section

variable (s : Machine φ)

def turn (t : Turn φ) : Machine φ where
  cpu := t.cpu
  bus := { s.bus with memory := t.memory, failureReason := s.bus.failureReason.or t.failure }

/-- The infinite loop in which the guest ends a failed assertion. -/
def atAssertionHalt : Bool :=
  (s.cpu.pc == 0x10cbe || s.cpu.pc == 0x110cbe) &&
    s.bus.memory.peekBytes s.cpu.pc 6 == some [0x60, 0xfe, 0x4f, 0xef, 0x00, 0x20]

/-- The machine that goes on to execute its instruction, unless it is stopped. -/
def handed : List (Machine φ) := if s.bus.failureReason.isSome then [] else [s]

end

variable [M68k φ] (s : Machine φ)

/-- `step_guest`, up to the instruction at the program counter. -/
def stepGuest (kernel : Turn φ) (now : Nat) (screen : String) : Machine φ :=
  if s.bus.failureReason.isSome then s
  else if s.atAssertionHalt then
    s.fail ("guest assertion at " ++ Text.hexWord s.cpu.pc ++ ": " ++ screen)
  else
    let s := s.turn kernel
    if s.bus.failureReason.isSome then s else s.guestDependency now

def step (r : Round φ) : Machine φ := (s.turn r.guest).stepGuest r.kernel r.now r.screen

end Machine

end OpenSaab.Candi.Demand
