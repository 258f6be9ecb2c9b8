import OpenSaab.Psos.State

/-!
# The internal operations of the kernel

`allocate`, `create`, `start`, `schedule`, `block`, `send_event` and `tick` of `psos.rs`.
-/

namespace OpenSaab.Psos

open Std OpenSaab.Table

variable {φ β : Type}

/-! ## Memory -/

/-- `bytes` rounded up to whole units. -/
def segmentSize (bytes unit : UInt32) : Nat :=
  (bytes.toNat + unit.toNat - 1) / unit.toNat * unit.toNat

/-- The first free block that is large enough, by address. -/
def Region.fit (r : Region) (n : UInt32) : Option (UInt32 × UInt32) :=
  r.free.toList.find? fun block => n ≤ block.2

/-- Takes `n` bytes from the front of the free block at `base`. -/
def Region.take (r : Region) (base size n : UInt32) : Region :=
  let free := r.free.erase base
  { r with
    free := if n < size then free.insert (base + n) (size - n) else free
    used := r.used.insert base n }

/-- `none` is the source's 0. -/
def Region.allocate (r : Region) (bytes : UInt32) : Option (Region × UInt32) :=
  if bytes = 0 ∨ r.unit = 0 then none
  else if 0x1000000 < segmentSize bytes r.unit then none
  else
    let n := UInt32.ofNat (segmentSize bytes r.unit)
    match r.fit n with
    | none => none
    | some (base, size) => some (r.take base size n, base)

namespace Kernel

def allocate (k : Kernel) (region bytes : UInt32) : Kernel × UInt32 :=
  match k.regions[region]? with
  | none => (k, 0)
  | some r =>
    match r.allocate bytes with
    | none => (k, 0)
    | some (r', base) => ({ k with regions := k.regions.insert region r' }, base)

/-- A stack of a new task: nothing is allocated for size 0. -/
def allocateStack (k : Kernel) (size : UInt32) : Kernel × UInt32 :=
  if size = 0 then (k, 0) else k.allocate 0 size

/-! ## Tasks -/

def create [GuestBus β] (k : Kernel) (name priority user superSize : UInt32) (bus : β)
    (vbr : UInt32) : Kernel × UInt32 × UInt32 :=
  if 255 < priority then (k, 0x11, 0)
  else if superSize ≠ 0 ∧ superSize < 21 then (k, 0x10, 0)
  else if 255 < k.nextTask ∨
      ((GuestBus.u32 bus (k.kernelConfig + 0x10)).getD 0).toNat + 2 < k.tasks.size then
    (k, 0x0e, 0)
  else
    let id := k.nextTask <<< 16
    let k := { k with nextTask := k.nextTask + 1 }
    let (k, stack) := k.allocateStack user
    let (k, superStack) := k.allocateStack superSize
    if (user ≠ 0 ∧ stack = 0) ∨ (superSize ≠ 0 ∧ superStack = 0) then (k, 0x0f, 0)
    else
      let task : Task :=
        { id, name, priority, stack, stackSize := user, superStack, superSize, cpu := { vbr } }
      ({ k with tasks := k.tasks.insert id task }, 0, id)

def taskId (k : Kernel) (id : UInt32) : UInt32 := if id = 0 then k.current else id

end Kernel

/-- The top of the stack that a task starts on in `mode`, aligned to a long word. -/
def Task.stackTop (t : Task) (mode : UInt32) : UInt32 :=
  let top := if mode &&& 0x2000 ≠ 0 then t.stack + t.stackSize else t.superStack + t.superSize
  (if top = 0 then t.stack + t.stackSize else top) &&& ~~~3

/-- The task as `start` leaves it, with `top` the stack pointer below the argument frame. -/
def Task.started (t : Task) (mode pc top : UInt32) : Task :=
  { t with
    entry := pc
    mode := mode
    cpu :=
      { t.cpu with
        sr := (mode &&& 0xa71f).toUInt16
        pc := pc
        dar := t.cpu.dar.set 15 top a7_lt
        sp := (t.cpu.sp.set 4 (if mode &&& 0x2000 ≠ 0 then top else t.stack + t.stackSize)).set 0
          (if mode &&& 0x2000 ≠ 0 then t.superStack + t.superSize else top) }
    state := .ready }

/-- Writes `v` below `top`. -/
def pushLong [GuestBus β] (frame : UInt32 × β) (v : UInt32) : UInt32 × β :=
  (frame.1 - 4, GuestBus.writeLong frame.2 (frame.1 - 4) v)

namespace Kernel

def start [GuestBus β] (k : Kernel) (id mode pc : UInt32) (args : List UInt32) (bus : β) :
    Kernel × β × UInt32 :=
  let id := k.taskId id
  match k.tasks[id]? with
  | none => (k, bus, 5)
  | some t =>
    if pc = 0 then (k, bus, 0x18)
    else if (t.stackTop mode).toNat < 20 ∨ ¬ ramRange (t.stackTop mode - 20) 20 then
      (k, bus, 0x0f)
    else
      let (top, bus) := (args.reverse ++ [k.returnEntry]).foldl pushLong (t.stackTop mode, bus)
      ({ k with tasks := k.tasks.insert id (t.started mode pc top) }, bus, 0)

/-! ## Scheduling -/

def selectPage [GuestBus β] (k : Kernel) (bus : β) : β :=
  if k.current = 0 ∨ k.pageTable = 0 then bus
  else
    let index := k.current >>> 16
    match GuestBus.u8 bus (k.pageTable + index) with
    | none => bus
    | some bank =>
      GuestBus.writeWord (GuestBus.writeByte bus pcmciaBankReg bank) k.pageTaskWord index.toUInt16

end Kernel

/-- The better of the best task so far and `t`: a tie goes to the earlier one. -/
def better (best : Option (UInt32 × UInt32)) (t : Task) : Option (UInt32 × UInt32) :=
  match best with
  | some (id, priority) =>
    if t.priority ≤ priority then some (id, priority) else some (t.id, t.priority)
  | none => some (t.id, t.priority)

/-- The first task of the highest priority, with its priority. -/
def highest (ts : List Task) : Option (UInt32 × UInt32) := ts.foldl better none

def Task.runnable (t : Task) : Bool :=
  !t.suspended && (t.state == .ready || t.state == .running)

/-- The running task's context, saved when the CPU is taken from it. -/
def Task.switchedOut [M68k φ] (t : Task) (cpu : CpuCore φ) : Task :=
  if t.state = .dead then t
  else
    { t with
      cpu := Context.capture cpu
      state := if t.state = .running then .ready else t.state }

namespace Kernel

def switchOut [M68k φ] (k : Kernel) (cpu : CpuCore φ) : Kernel :=
  match k.tasks[k.current]? with
  | none => k
  | some now => { k with tasks := k.tasks.insert k.current (now.switchedOut cpu) }

/-- The current task goes on, whatever else is ready. -/
def keepsCpu [M68k φ] (k : Kernel) (cpu : CpuCore φ) (force : Bool) (priority : UInt32) : Bool :=
  match k.tasks[k.current]? with
  | none => false
  | some now =>
    now.runnable && !force &&
      (M68k.getSr cpu &&& 0x700 != 0 || now.mode &&& 1 != 0 || priority ≤ now.priority)

def schedule [M68k φ] [GuestBus β] (k : Kernel) (cpu : CpuCore φ) (bus : β) (force : Bool) :
    Kernel × CpuCore φ × β :=
  match highest ((values k.tasks).filter Task.runnable) with
  | none => (k, cpu, bus)
  | some (id, priority) =>
    if k.keepsCpu cpu force priority ∨ id = k.current then (k, cpu, bus)
    else
      let k := { k.switchOut cpu with current := id }
      match k.tasks[id]? with
      | none => (k, cpu, bus)
      | some next =>
        let cpu := next.cpu.restore cpu
        let k := { k with tasks := k.tasks.insert id { next with state := .running } }
        ({ k with switches := k.switches + 1 }, cpu, k.selectPage bus)

end Kernel

/-! ## Waiting and waking -/

def Task.blockedOn (t : Task) (wait : Wait) (object : UInt32) (untilTick : UInt64) : Task :=
  { t with state := .blocked, wait := wait, waitObject := object, untilTick := untilTick }

/-- Made ready by the service or tick that it waited for, which sets its `d0`. -/
def Task.wake (t : Task) (d0 : UInt32) : Task :=
  { t with cpu := t.cpu.setDar 0 d0, state := .ready, wait := .none }

/-- Enough of the events of `mask` have arrived: one of them, or all. -/
def eventsMet (flags mask arrived : UInt32) : Bool :=
  if flags &&& 2 ≠ 0 then arrived != 0 else arrived == mask

/-- The events waited for that have arrived. -/
def Task.matched (t : Task) : UInt32 := t.events &&& t.mask

/-- The events of a task after `bits` were sent to it. -/
def Task.receiveEvents (t : Task) (bits : UInt32) : Task :=
  let t := { t with events := t.events ||| bits }
  if t.wait = .events ∧ eventsMet t.waitFlags t.mask t.matched then
    { t.wake 0 with
      events := t.events &&& ~~~t.matched
      cpu := (t.cpu.setDar 0 0).setDar 4 t.matched
      untilTick := 0 }
  else t

/-- A blocked task whose deadline has come goes on with a timeout, or with success after a sleep. -/
def Task.expire (ticks : UInt64) (t : Task) : Task :=
  if t.state = .blocked ∧ t.untilTick ≠ noDeadline ∧ t.untilTick ≤ ticks then
    { t.wake (if t.wait = .sleep then 0 else 1) with untilTick := 0 }
  else t

namespace Kernel

def block (k : Kernel) (wait : Wait) (object timeout : UInt32) : Kernel :=
  match k.tasks[k.current]? with
  | none => k
  | some t =>
    let untilTick := if timeout = 0 then noDeadline else satAdd k.ticks timeout.toUInt64
    { k with tasks := k.tasks.insert k.current (t.blockedOn wait object untilTick) }

def sendEvent (k : Kernel) (id bits : UInt32) : Kernel × UInt32 :=
  let id := k.taskId id
  match k.tasks[id]? with
  | none => (k, 5)
  | some t => ({ k with tasks := k.tasks.insert id (t.receiveEvents bits) }, 0)

/-- One due timer: its events are sent, and it is dropped or set for its next period. -/
def fire (k : Kernel) (due : UInt32 × Timer) : Kernel :=
  let k := (k.sendEvent due.2.task due.2.events).1
  { k with
    timers :=
      if due.2.period = 0 then k.timers.erase due.1
      else k.timers.insert due.1 { due.2 with due := satAdd due.2.due due.2.period } }

/-- The clock advances, and every wait whose deadline has come ends. -/
def advance (k : Kernel) : Kernel :=
  let ticks := satAdd k.ticks 1
  { k with ticks := ticks, tasks := mapValues (Task.expire ticks) k.tasks }

def dueTimers (k : Kernel) : List (UInt32 × Timer) :=
  k.timers.toList.filter fun p => p.2.due ≤ k.ticks

def tick (k : Kernel) : Kernel := k.advance.dueTimers.foldl fire k.advance

end Kernel

end OpenSaab.Psos
