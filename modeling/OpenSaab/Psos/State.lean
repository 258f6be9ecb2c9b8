import OpenSaab.Library.Table
import Mathlib.Algebra.Ring.Nat

/-!
# The state of the host pSOS kernel

The records of `psos.rs`, with the CPU and the guest bus that the kernel works on. Machine words
are fixed-width, so `+` and `-` wrap as they do in the release build.
-/

namespace OpenSaab.Psos

open Std

/-! ## CPU and bus -/

/-- The public fields of the m68k core, and in `flags` everything that it keeps to itself. -/
structure CpuCore (φ : Type) where
  dar : Vector UInt32 16
  sp : Vector UInt32 8
  pc : UInt32
  vbr : UInt32
  sFlag : UInt32
  mFlag : UInt32
  stopped : UInt32
  prefetchCount : UInt32
  flags : φ

/-- The accessors of the core that go through its private flags. -/
class M68k (φ : Type) where
  getSr : CpuCore φ → UInt16
  setSr : CpuCore φ → UInt16 → CpuCore φ
  setSrNointNosp : CpuCore φ → UInt16 → CpuCore φ

namespace CpuCore

variable {φ : Type}

/-- The bank of the stack pointer that the status register selects. -/
def stackBank (cpu : CpuCore φ) : Nat :=
  (cpu.sFlag ||| ((cpu.sFlag >>> 1) &&& cpu.mFlag)).toNat

/-- The stack that is in use is the one that the status register selects. -/
def Sound [M68k φ] (cpu : CpuCore φ) : Prop :=
  ∀ cpu' : CpuCore φ, (M68k.setSrNointNosp cpu' (M68k.getSr cpu)).stackBank = cpu.stackBank

end CpuCore

/-- The accessors keep and return what is written. -/
class LawfulM68k (φ : Type) [M68k φ] : Prop where
  getSr_congr {cpu cpu' : CpuCore φ} : cpu'.flags = cpu.flags → cpu'.sFlag = cpu.sFlag →
    cpu'.mFlag = cpu.mFlag → M68k.getSr cpu' = M68k.getSr cpu
  getSr_setSrNointNosp (cpu cpu' : CpuCore φ) :
    M68k.getSr (M68k.setSrNointNosp cpu (M68k.getSr cpu')) = M68k.getSr cpu'
  sound_setSr (cpu : CpuCore φ) (sr : UInt16) : (M68k.setSr cpu sr).Sound
  sound_setSrNointNosp (cpu : CpuCore φ) (sr : UInt16) : (M68k.setSrNointNosp cpu sr).Sound

/-- What the kernel uses of the guest's memory and of the host around it. -/
class GuestBus (β : Type) where
  u8 : β → UInt32 → Option UInt8
  u16 : β → UInt32 → Option UInt16
  u32 : β → UInt32 → Option UInt32
  bytes : β → UInt32 → Nat → Option (List UInt8)
  writeByte : β → UInt32 → UInt8 → β
  writeWord : β → UInt32 → UInt16 → β
  writeLong : β → UInt32 → UInt32 → β
  flashLen : β → Nat
  flash : β → Nat → UInt8
  currentInsns : β → UInt64
  /-- Records `failure_reason`, which stops the guest. -/
  fail : β → String → β

def ramBase : UInt32 := 0x100000
def ramSize : UInt32 := 0x100000
def pcmciaBankReg : UInt32 := 0x600600

def ramRange (address bytes : UInt32) : Prop :=
  ramBase ≤ address ∧ address.toNat + bytes.toNat ≤ ramBase.toNat + ramSize.toNat

instance (address bytes : UInt32) : Decidable (ramRange address bytes) :=
  inferInstanceAs (Decidable (_ ∧ _))

/-- `u64::saturating_add`. -/
def satAdd (a b : UInt64) : UInt64 :=
  if a.toNat + b.toNat < 2 ^ 64 then a + b else UInt64.ofNat (2 ^ 64 - 1)

/-- `u64::saturating_sub`. -/
def satSub (a b : UInt64) : UInt64 := if a < b then 0 else a - b

/-- `u64::MAX`, the deadline of a task that waits for ever. -/
def noDeadline : UInt64 := UInt64.ofNat (2 ^ 64 - 1)

/-! The eight data registers are followed in `dar` by the address registers, of which `A7` is the
last. -/

instance instNeZeroDataRegisters : NeZero 8 := ⟨by decide⟩

instance instNeZeroRegisters : NeZero 16 := ⟨by decide⟩

theorem register_lt (n : Fin 16) : n.val < 16 := n.isLt

theorem d0_lt : 0 < 16 := by decide

theorem a7_lt : 15 < 16 := by decide

namespace CpuCore

variable {φ : Type}

def setDar (cpu : CpuCore φ) (n : Fin 16) (v : UInt32) : CpuCore φ :=
  { cpu with dar := cpu.dar.set n v }

/-- `set_d`: the data registers are the first eight of `dar`. -/
def setD (cpu : CpuCore φ) (n : Fin 8) (v : UInt32) : CpuCore φ :=
  cpu.setDar (n.castLE (by decide)) v

/-- `sp()`: the active stack pointer is `A7`. -/
def activeSp (cpu : CpuCore φ) : UInt32 := cpu.dar[15]

def setSp (cpu : CpuCore φ) (v : UInt32) : CpuCore φ := cpu.setDar 15 v

end CpuCore

/-! ## Tasks -/

inductive State where
  | created
  | ready
  | running
  | blocked
  | dead
  deriving DecidableEq, Repr

inductive Wait where
  | none
  | events
  | semaphore
  | queue
  | sleep
  deriving DecidableEq, Repr

structure Context where
  dar : Vector UInt32 16 := Vector.replicate 16 0
  sp : Vector UInt32 8 := Vector.replicate 8 0
  pc : UInt32 := 0
  sr : UInt16 := 0
  vbr : UInt32 := 0
  deriving DecidableEq

namespace Context

variable {φ : Type} [M68k φ]

def capture (cpu : CpuCore φ) : Context where
  dar := cpu.dar
  sp := cpu.sp.setIfInBounds (cpu.sFlag ||| ((cpu.sFlag >>> 1) &&& cpu.mFlag)).toNat cpu.activeSp
  pc := cpu.pc
  sr := M68k.getSr cpu
  vbr := cpu.vbr

def restore (c : Context) (cpu : CpuCore φ) : CpuCore φ :=
  { M68k.setSrNointNosp cpu c.sr with
    sp := c.sp, dar := c.dar, pc := c.pc, vbr := c.vbr, stopped := 0, prefetchCount := 0 }

def setDar (c : Context) (n : Fin 16) (v : UInt32) : Context := { c with dar := c.dar.set n v }

end Context

structure Task where
  id : UInt32 := 0
  name : UInt32 := 0
  priority : UInt32 := 0
  mode : UInt32 := 0
  events : UInt32 := 0
  mask : UInt32 := 0
  waitFlags : UInt32 := 0
  waitObject : UInt32 := 0
  state : State := .created
  wait : Wait := .none
  untilTick : UInt64 := 0
  suspended : Bool := false
  cpu : Context := {}
  regs : Vector UInt32 17 := Vector.replicate 17 0
  stack : UInt32 := 0
  stackSize : UInt32 := 0
  superStack : UInt32 := 0
  superSize : UInt32 := 0
  entry : UInt32 := 0
  deriving DecidableEq

/-! ## Objects -/

abbrev Table (ν : Type) := TreeMap UInt32 ν

/-- Free and allocated segments, as sizes under their base addresses. -/
structure Region where
  name : UInt32
  unit : UInt32
  free : Table UInt32
  used : Table UInt32

structure Semaphore where
  name : UInt32
  count : UInt32
  deriving DecidableEq

abbrev Message := Vector UInt32 4

structure Queue where
  name : UInt32
  flags : UInt32
  capacity : UInt32
  messages : List Message
  deriving DecidableEq

structure Timer where
  task : UInt32
  events : UInt32
  due : UInt64
  period : UInt64
  deriving DecidableEq

/-! ## The kernel -/

structure Kernel where
  active : Bool := false
  kernelEntry : UInt32 := 0
  error : Option String := none
  calls : UInt64 := 0
  scanned : Bool := false
  kernelHeader : UInt32 := 0
  kernelConfig : UInt32 := 0
  current : UInt32 := 0
  nextTask : UInt32 := 1
  nextObject : UInt32 := 1
  nextQueue : UInt32 := 1
  nextTimer : UInt32 := 1
  returnEntry : UInt32 := 0
  pageTable : UInt32 := 0
  pageTaskWord : UInt32 := 0
  ticks : UInt64 := 0
  lastHostTick : UInt64 := 0
  switches : UInt64 := 0
  date : UInt32 := 0
  time : UInt32 := 0
  tasks : Table Task := ∅
  regions : Table Region := ∅
  semaphores : Table Semaphore := ∅
  queues : Table Queue := ∅
  timers : Table Timer := ∅
  counts : Table UInt64 := ∅

/-- The kernel with the CPU and the bus that its services are handed. -/
structure Machine (φ β : Type) where
  kernel : Kernel
  cpu : CpuCore φ
  bus : β

end OpenSaab.Psos
