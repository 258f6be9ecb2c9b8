import OpenSaab.Psos.Services
import OpenSaab.Library.Runs

/-!
# The trap handler and the runs of the machine

`trap` decodes a service, runs it and schedules. A run interleaves guest code, which may change the
CPU and the bus in any way, with the hook before an instruction and with traps.
-/

namespace OpenSaab.Psos

open Std OpenSaab.Table OpenSaab.Runs

inductive Service where
  | tCreate
  | tIdent
  | tStart
  | tRestart
  | tDelete
  | tSuspend
  | tResume
  | tSetpri
  | tMode
  | tGetreg
  | tSetreg
  | rnCreate
  | rnIdent
  | rnDelete
  | rnGetseg
  | rnRetseg
  | qCreate
  | qIdent
  | qDelete
  | qSend (kind : SendKind)
  | qReceive
  | evSend
  | evReceive
  | smCreate
  | smIdent
  | smDelete
  | smP
  | smV
  | tmTick
  | tmSet
  | tmGet
  | tmWkafter
  | tmEvent (every : Bool)
  | tmCancel
  | fileStub (args : Nat)
  | fileError (code : UInt32)
  | unimplemented (op : UInt32)
  deriving DecidableEq, Repr

/-- The service that `d0` selects. Operation 12 is not here: `trap` answers it on its own. -/
def decode (op : UInt32) : Service :=
  match op.toNat with
  | 1 => .tCreate
  | 2 => .tIdent
  | 3 => .tStart
  | 4 => .tRestart
  | 5 => .tDelete
  | 6 => .tSuspend
  | 7 => .tResume
  | 8 => .tSetpri
  | 9 => .tMode
  | 10 => .tGetreg
  | 11 => .tSetreg
  | 0xe => .rnCreate
  | 0xf => .rnIdent
  | 0x10 => .rnDelete
  | 0x11 => .rnGetseg
  | 0x12 => .rnRetseg
  | 0x24 => .qCreate
  | 0x25 => .qIdent
  | 0x26 => .qDelete
  | 0x27 => .qSend .normal
  | 0x28 => .qSend .urgent
  | 0x29 => .qSend .broadcast
  | 0x2a => .qReceive
  | 0x2c => .evSend
  | 0x2d => .evReceive
  | 0x33 => .smCreate
  | 0x34 => .smIdent
  | 0x35 => .smDelete
  | 0x36 => .smP
  | 0x37 => .smV
  | 0x39 => .tmTick
  | 0x3a => .tmSet
  | 0x3b => .tmGet
  | 0x3c => .tmWkafter
  | 0x3e => .tmEvent false
  | 0x41 => .tmEvent true
  | 0x40 => .tmCancel
  | 0x204 => .fileStub 1
  | 0x20c => .fileStub 1
  | 0x21c => .fileStub 2
  | 0x208 => .fileError 0x2011
  | 0x20d => .fileError 0x2002
  | 0x20e => .fileError 0x2002
  | 0x20f => .fileError 0x2002
  | 0x210 => .fileError 0x2002
  | 0x214 => .fileError 0x2002
  | _ => .unimplemented op

variable {φ β : Type} [M68k φ] [GuestBus β]

namespace Machine

def perform (m : Machine φ β) : Service → Machine φ β × UInt32
  | .tCreate => m.tCreate
  | .tIdent => m.tIdent
  | .tStart => m.tStart
  | .tRestart => m.tRestart
  | .tDelete => m.tDelete
  | .tSuspend => m.tSuspend
  | .tResume => m.tResume
  | .tSetpri => m.tSetpri
  | .tMode => m.tMode
  | .tGetreg => m.tGetreg
  | .tSetreg => m.tSetreg
  | .rnCreate => m.rnCreate
  | .rnIdent => m.rnIdent
  | .rnDelete => m.rnDelete
  | .rnGetseg => m.rnGetseg
  | .rnRetseg => m.rnRetseg
  | .qCreate => m.qCreate
  | .qIdent => m.qIdent
  | .qDelete => m.qDelete
  | .qSend kind => m.qSendAs kind
  | .qReceive => m.qReceive
  | .evSend => m.evSend
  | .evReceive => m.evReceive
  | .smCreate => m.smCreate
  | .smIdent => m.smIdent
  | .smDelete => m.smDelete
  | .smP => m.smP
  | .smV => m.smV
  | .tmTick => m.tmTick
  | .tmSet => m.tmSet
  | .tmGet => m.tmGet
  | .tmWkafter => m.tmWkafter
  | .tmEvent every => m.tmEvent every
  | .tmCancel => m.tmCancel
  | .fileStub args => m.fileStub args
  | .fileError code => (m, code)
  | .unimplemented op => m.unimplemented op

/-- The call and service counters. -/
def counted (m : Machine φ β) : Machine φ β :=
  let op := m.reg 0
  let count := (m.kernel.counts[op]?).getD 0
  { m with
    kernel :=
      { m.kernel with
        calls := m.kernel.calls + 1
        counts := m.kernel.counts.insert op (count + 1) } }

/-- The current task, if it has just blocked, keeps its registers as they are now. -/
def saveBlocked (m : Machine φ β) : Machine φ β :=
  match m.kernel.tasks[m.kernel.current]? with
  | none => m
  | some t =>
    if t.state = .blocked then
      let t := { t with cpu := Context.capture m.cpu }
      { m with kernel := m.kernel.setTask m.kernel.current t }
    else m

/-- The current task can not go on. -/
def mustSwitch (m : Machine φ β) : Bool :=
  match m.kernel.tasks[m.kernel.current]? with
  | none => false
  | some t => !t.runnable

def selectPage (m : Machine φ β) : Machine φ β := { m with bus := m.kernel.selectPage m.bus }

/-- The end of every service: the status goes to `d0`, and the scheduler runs. -/
def finish (r : Machine φ β × UInt32) : Machine φ β :=
  let m := (r.1.setD 0 r.2).saveBlocked
  (m.schedule m.mustSwitch).selectPage

/-- TRAP 11. -/
def service (m : Machine φ β) (fileResult : Option UInt32) : Machine φ β :=
  let m := m.counted
  match fileResult with
  | some code => finish (m, code)
  | none =>
    if m.reg 0 = 12 then (m.setD 0 m.kernel.current).selectPage
    else finish (m.perform (decode (m.reg 0)))

/-- The exception frame that a TRAP 13 returns through: status, program counter and length. -/
def rteFrame (m : Machine φ β) : Option (UInt16 × UInt32 × UInt32) := do
  let sp := m.cpu.activeSp
  let sr ← GuestBus.u16 m.bus sp
  if 2 ^ 32 ≤ sp.toNat + 2 then none
  let pc ← GuestBus.u32 m.bus (sp + 2)
  if 2 ^ 32 ≤ sp.toNat + 6 then none
  let format ← GuestBus.u16 m.bus (sp + 6)
  let len ←
    match (format >>> 12).toNat with
    | 0 => some 8
    | 2 => some 12
    | 12 => some 24
    | _ => none
  let _ ← GuestBus.bytes m.bus sp len
  return (sr, pc, UInt32.ofNat len)

/-- TRAP 13, which ends an interrupt handler. -/
def returnFromException (m : Machine φ β) : Machine φ β :=
  match m.rteFrame with
  | some (sr, pc, len) =>
    let cpu := M68k.setSr (m.cpu.setSp (m.cpu.activeSp + len)) sr
    (schedule { m with cpu := { cpu with pc := pc, prefetchCount := 0 } } false).selectPage
  | none =>
    let e := "Unsupported pSOS TRAP13 RTE frame"
    { m with kernel := { m.kernel with error := some e }, bus := GuestBus.fail m.bus e }

/-- The machine after a trap, and whether the kernel has handled it. -/
def trap (m : Machine φ β) (number : UInt8) (fileResult : Option UInt32) : Machine φ β × Bool :=
  if ¬ m.kernel.active then (m, false)
  else if number = 13 then (m.returnFromException, true)
  else if number ≠ 11 then (m, false)
  else (m.service fileResult, true)

end Machine

/-! ## Runs -/

inductive Action (φ β : Type) where
  /-- The guest executes, up to the next entry into the kernel. -/
  | guest (cpu : CpuCore φ) (bus : β)
  /-- The hook before an instruction, which drives the host tick. -/
  | instruction
  | trap (number : UInt8) (fileResult : Option UInt32)

def step (m : Machine φ β) : Action φ β → Machine φ β
  | .guest cpu bus => { m with cpu, bus }
  | .instruction => m.beforeInstruction
  | .trap number fileResult => (m.trap number fileResult).1

/-- The machine before the first instruction. -/
def reset (cpu : CpuCore φ) (bus : β) : Machine φ β := { kernel := {}, cpu, bus }

/-- Reached from a reset by some run. -/
def Reachable (m : Machine φ β) : Prop :=
  ∃ cpu bus acts, m = run step (reset cpu bus) acts

/-- The service that an action performs, if it is one. -/
def called (m : Machine φ β) : Action φ β → Option Service
  | .trap number none =>
    if m.kernel.active ∧ number = 11 ∧ m.reg 0 ≠ 12 then some (decode (m.reg 0)) else none
  | _ => none

/-- The machine after the service and its status, before the scheduler runs. -/
def performed (m : Machine φ β) (s : Service) : Machine φ β × UInt32 := m.counted.perform s

end OpenSaab.Psos
