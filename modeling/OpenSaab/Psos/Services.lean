import OpenSaab.Psos.Boot
import Mathlib.Data.List.Sort

/-!
# The TRAP 11 services

One definition for each arm of the `match` in `Kernel::trap`. A service reads its arguments from the
registers and returns the machine with the status that goes to `d0`.
-/

namespace OpenSaab.Psos

open Std OpenSaab.Table

variable {φ β : Type} [M68k φ] [GuestBus β]

/-! ## Kernel parts of the services -/

/-- The segment at `base` goes back to the free blocks, as it is. -/
def Region.release (r : Region) (base size : UInt32) : Region :=
  { r with free := r.free.insert base size, used := r.used.erase base }

/-- The tasks registered as waiting in this way on this object. -/
def Kernel.waiters (k : Kernel) (wait : Wait) (object : UInt32) : List Task :=
  (values k.tasks).filter fun t => t.wait = wait ∧ t.waitObject = object

/-- A message put into the registers of a task that waited for it. -/
def Task.deliver (t : Task) (message : Message) : Task :=
  { t.wake 0 with
    cpu :=
      ((((t.cpu.setDar 0 0).setDar 2 message[0]).setDar 3 message[1]).setDar 4 message[2]).setDar 5
        message[3]
    untilTick := 0 }

inductive SendKind where
  | normal
  | urgent
  | broadcast
  deriving DecidableEq, Repr

/-- The order in which waiters are served: by priority when the queue has that flag. -/
def Queue.order (q : Queue) (waiters : List Task) : List Task :=
  if q.flags &&& 2 ≠ 0 then waiters.insertionSort fun a b => b.priority ≤ a.priority else waiters

def Queue.full (q : Queue) : Bool :=
  (q.capacity != 0 && q.capacity.toNat ≤ q.messages.length) || 65536 ≤ q.messages.length

def Queue.push (q : Queue) (kind : SendKind) (message : Message) : Queue :=
  { q with
    messages := if kind = .urgent then message :: q.messages else q.messages ++ [message] }

namespace Kernel

def deliverTo (message : Message) (k : Kernel) (t : Task) : Kernel :=
  match k.tasks[t.id]? with
  | none => k
  | some t' => { k with tasks := k.tasks.insert t.id (t'.deliver message) }

/-- `q_send`, `q_urgent` and `q_broadcast`: a message is handed over to a waiter or is queued. -/
def send (k : Kernel) (kind : SendKind) (queue : UInt32) (message : Message) : Kernel × UInt32 :=
  match k.queues[queue]? with
  | none => (k, 5)
  | some q =>
    let waiters := q.order (k.waiters .queue queue)
    if waiters ≠ [] then
      let count := if kind = .broadcast then waiters.length else 1
      ((waiters.take count).foldl (deliverTo message) k, 0)
    else if kind = .broadcast then (k, 0)
    else if q.full then (k, 0x35)
    else ({ k with queues := k.queues.insert queue (q.push kind message) }, 0)

/-- A waiter of a queue that is deleted. -/
def dropWaiter (queue : UInt32) (t : Task) : Task :=
  if t.wait = .queue ∧ t.waitObject = queue then t.wake 0x36 else t

def deleteQueue (k : Kernel) (queue : UInt32) : Kernel × UInt32 :=
  if queue ∈ k.queues then
    ({ k with queues := k.queues.erase queue, tasks := mapValues (dropWaiter queue) k.tasks }, 0)
  else (k, 5)

/-- The unit goes to the first waiter of the highest priority, or to the count. -/
def post (k : Kernel) (semaphore : UInt32) : Kernel × UInt32 :=
  match k.semaphores[semaphore]? with
  | none => (k, 5)
  | some s =>
    match highest (k.waiters .semaphore semaphore) with
    | some (id, _) =>
      match k.tasks[id]? with
      | none => (k, 0)
      | some t => ({ k with tasks := k.tasks.insert id (t.wake 0) }, 0)
    | none =>
      let count := if s.count.toNat + 1 < 2 ^ 32 then s.count + 1 else s.count
      ({ k with semaphores := k.semaphores.insert semaphore { s with count } }, 0)

/-- The record of one task replaced. -/
def setTask (k : Kernel) (id : UInt32) (t : Task) : Kernel :=
  { k with tasks := k.tasks.insert id t }

end Kernel

namespace Machine

def reg (m : Machine φ β) (n : Fin 16) : UInt32 := getElem m.cpu.dar n (register_lt n)

/-- The task that `d1` names. -/
def target (m : Machine φ β) : UInt32 := m.kernel.taskId (m.reg 1)

def setD (m : Machine φ β) (n : Fin 8) (v : UInt32) : Machine φ β :=
  { m with cpu := m.cpu.setD n v }

/-- `d2` to `d5`. -/
def setMessage (m : Machine φ β) (message : Message) : Machine φ β :=
  (((m.setD 2 message[0]).setD 3 message[1]).setD 4 message[2]).setD 5 message[3]

def messageArg (m : Machine φ β) : Message := #v[m.reg 2, m.reg 3, m.reg 4, m.reg 5]

/-! ## Tasks -/

def tCreate (m : Machine φ β) : Machine φ β × UInt32 :=
  let (kernel, status, task) :=
    m.kernel.create (m.reg 1) (m.reg 2) (m.reg 3) (m.reg 4) m.bus m.cpu.vbr
  (setD { m with kernel } 1 task, status)

/-- What an `ident` service answers: no remote node, and 0 stands for nothing found. -/
def identStatus (node found : UInt32) : UInt32 :=
  if node ≠ 0 then 4 else if found = 0 then 9 else 0

def tIdent (m : Machine φ β) : Machine φ β × UInt32 :=
  let task :=
    if m.reg 1 = 0 then m.kernel.current
    else
      match (values m.kernel.tasks).find? fun t => t.name = m.reg 1 ∧ t.state ≠ .dead with
      | none => 0
      | some t => t.id
  (m.setD 1 task, identStatus (m.reg 2) task)

def tStart (m : Machine φ β) : Machine φ β × UInt32 :=
  let (kernel, bus, code) :=
    m.kernel.start m.target (m.reg 2) (m.reg 8) [m.reg 3, m.reg 4, m.reg 5, m.reg 6] m.bus
  ({ m with kernel, bus }, code)

def tRestart (m : Machine φ β) : Machine φ β × UInt32 :=
  match m.kernel.tasks[m.target]? with
  | none => (m, 5)
  | some t =>
    let (kernel, bus, code) :=
      m.kernel.start m.target t.mode t.entry [m.reg 2, m.reg 3, m.reg 4, m.reg 5] m.bus
    ({ m with kernel, bus }, code)

def tDelete (m : Machine φ β) : Machine φ β × UInt32 :=
  match m.kernel.tasks[m.target]? with
  | none => (m, 5)
  | some t => ({ m with kernel := m.kernel.setTask m.target { t with state := .dead } }, 0)

/-- `t_suspend` and `t_resume`. -/
def setSuspended (suspend : Bool) (m : Machine φ β) : Machine φ β × UInt32 :=
  match m.kernel.tasks[m.target]? with
  | none => (m, 5)
  | some t =>
    if t.suspended = suspend then (m, if suspend then 0x14 else 0x15)
    else ({ m with kernel := m.kernel.setTask m.target { t with suspended := suspend } }, 0)

def tSuspend : Machine φ β → Machine φ β × UInt32 := setSuspended true
def tResume : Machine φ β → Machine φ β × UInt32 := setSuspended false

def tSetpri (m : Machine φ β) : Machine φ β × UInt32 :=
  match m.kernel.tasks[m.target]? with
  | none => (m, 5)
  | some t =>
    if 255 < m.reg 2 then (m, 0x16)
    else
      let priority := if m.reg 2 ≠ 0 then m.reg 2 else t.priority
      (setD { m with kernel := m.kernel.setTask m.target { t with priority } } 2 t.priority, 0)

def tMode (m : Machine φ β) : Machine φ β × UInt32 :=
  match m.kernel.tasks[m.kernel.current]? with
  | none => (m, 5)
  | some t =>
    let m' := m.setD 2 t.mode
    if m.reg 1 &&& 0x2000 ≠ 0 then (m', 99)
    else
      let mode := (t.mode &&& ~~~m.reg 1) ||| (m.reg 1 &&& m.reg 2)
      let cpu :=
        if m.reg 1 &&& 0x700 ≠ 0 then
          M68k.setSr m'.cpu ((M68k.getSr m'.cpu &&& ~~~0x700) ||| (mode.toUInt16 &&& 0x700))
        else m'.cpu
      ({ m with kernel := m.kernel.setTask m.kernel.current { t with mode }, cpu }, 0)

def tGetreg (m : Machine φ β) : Machine φ β × UInt32 :=
  match m.kernel.tasks[m.target]? with
  | none => (m, 5)
  | some t =>
    if 16 < m.reg 2 then (m, 0x17)
    else (m.setD 3 (t.regs[(m.reg 2).toNat]?.getD 0), 0)

def tSetreg (m : Machine φ β) : Machine φ β × UInt32 :=
  match m.kernel.tasks[m.target]? with
  | none => (m, 5)
  | some t =>
    if 16 < m.reg 2 then (m, 0x17)
    else
      let regs := t.regs.setIfInBounds (m.reg 2).toNat (m.reg 3)
      ({ m with kernel := m.kernel.setTask m.target { t with regs } }, 0)

/-! ## Regions -/

def rnCreate (m : Machine φ β) : Machine φ β × UInt32 :=
  let base := m.reg 9
  let size := m.reg 2
  let unit := m.reg 3
  if base &&& 3 ≠ 0 ∨ unit = 0 then (m, 0x1b)
  else if size < unit then (m, 0x1e)
  else if ¬ ramRange base size then (m, 0x1b)
  else
    let region := UInt32.ofNat m.kernel.regions.size
    let record : Region :=
      { name := m.reg 1, unit, free := (∅ : Table UInt32).insert base size, used := ∅ }
    let kernel := { m.kernel with regions := m.kernel.regions.insert region record }
    ((setD { m with kernel } 1 region).setD 2 size, 0)

def rnIdent (m : Machine φ β) : Machine φ β × UInt32 :=
  match m.kernel.regions.toList.find? fun p => p.2.name = m.reg 1 with
  | none => (m.setD 1 0, 9)
  | some (id, _) => (m.setD 1 id, 0)

def rnDelete (m : Machine φ β) : Machine φ β × UInt32 :=
  if m.reg 1 = 0 ∨ m.reg 1 ∉ m.kernel.regions then (m, 5)
  else ({ m with kernel := { m.kernel with regions := m.kernel.regions.erase (m.reg 1) } }, 0)

def rnGetseg (m : Machine φ β) : Machine φ β × UInt32 :=
  let (kernel, pointer) := m.kernel.allocate (m.reg 1) (m.reg 3)
  ({ m with kernel, cpu := m.cpu.setDar 8 pointer }, if pointer = 0 then 0x21 else 0)

def rnRetseg (m : Machine φ β) : Machine φ β × UInt32 :=
  match m.kernel.regions[m.reg 1]? with
  | none => (m, 5)
  | some region =>
    match region.used[m.reg 8]? with
    | none => (m, 0x1f)
    | some size =>
      let regions := m.kernel.regions.insert (m.reg 1) (region.release (m.reg 8) size)
      ({ m with kernel := { m.kernel with regions } }, 0)

/-! ## Queues -/

def qCreate (m : Machine φ β) : Machine φ β × UInt32 :=
  let limit := (GuestBus.u32 m.bus (m.kernel.kernelConfig + 0x14)).getD 0
  if limit.toNat < m.kernel.queues.size ∨ 1024 ≤ m.kernel.queues.size then (m, 0x33)
  else
    let queue := m.kernel.nextQueue
    let capacity := if m.reg 5 &&& 4 ≠ 0 then m.reg 2 else 0
    let record : Queue := { name := m.reg 1, flags := m.reg 5, capacity, messages := [] }
    let kernel :=
      { m.kernel with nextQueue := queue + 1, queues := m.kernel.queues.insert queue record }
    (setD { m with kernel } 1 queue, 0)

def qIdent (m : Machine φ β) : Machine φ β × UInt32 :=
  let queue :=
    match m.kernel.queues.toList.find? fun p => p.2.name = m.reg 1 with
    | none => 0
    | some (id, _) => id
  (m.setD 1 queue, identStatus (m.reg 2) queue)

def qDelete (m : Machine φ β) : Machine φ β × UInt32 :=
  let (kernel, code) := m.kernel.deleteQueue (m.reg 1)
  ({ m with kernel }, code)

/-- `q_send`, `q_urgent` and `q_broadcast`. A broadcast also clears the sender's `d2`. -/
def qSendAs (kind : SendKind) (m : Machine φ β) : Machine φ β × UInt32 :=
  let (kernel, code) := m.kernel.send kind (m.reg 1) m.messageArg
  let m' := { m with kernel }
  (if kind = .broadcast ∧ m.reg 1 ∈ m.kernel.queues then m'.setD 2 0 else m', code)

def qReceive (m : Machine φ β) : Machine φ β × UInt32 :=
  match m.kernel.queues[m.reg 1]? with
  | none => (m, 5)
  | some q =>
    match q.messages with
    | message :: messages =>
      let queues := m.kernel.queues.insert (m.reg 1) { q with messages }
      (setMessage { m with kernel := { m.kernel with queues } } message, 0)
    | [] =>
      let m' := m.setMessage (Vector.replicate 4 0)
      if m.reg 5 &&& 1 ≠ 0 then (m', 0x37)
      else ({ m' with kernel := m.kernel.block .queue (m.reg 1) (m.reg 6) }, 0)

/-! ## Events -/

def evSend (m : Machine φ β) : Machine φ β × UInt32 :=
  let (kernel, code) := m.kernel.sendEvent (m.reg 1) (m.reg 4)
  ({ m with kernel }, code)

def evReceive (m : Machine φ β) : Machine φ β × UInt32 :=
  match m.kernel.tasks[m.kernel.current]? with
  | none => (m, 5)
  | some t =>
    if m.reg 4 = 0 then (m.setD 4 t.events, 0)
    else
      let bits := t.events &&& m.reg 4
      if eventsMet (m.reg 5) (m.reg 4) bits then
        let kernel := m.kernel.setTask m.kernel.current { t with events := t.events &&& ~~~bits }
        (setD { m with kernel } 4 bits, 0)
      else if m.reg 5 &&& 1 ≠ 0 then (m, 0x3c)
      else
        let kernel :=
          m.kernel.setTask m.kernel.current { t with mask := m.reg 4, waitFlags := m.reg 5 }
        (setD { m with kernel := kernel.block .events 0 (m.reg 6) } 4 0, 0)

/-! ## Semaphores -/

def smCreate (m : Machine φ β) : Machine φ β × UInt32 :=
  if 1024 ≤ m.kernel.semaphores.size then (m, 0x41)
  else
    let semaphore := m.kernel.nextObject
    let record : Semaphore := { name := m.reg 1, count := m.reg 2 }
    let kernel :=
      { m.kernel with
        nextObject := semaphore + 1
        semaphores := m.kernel.semaphores.insert semaphore record }
    (setD { m with kernel } 1 semaphore, 0)

def smIdent (m : Machine φ β) : Machine φ β × UInt32 :=
  let sem :=
    match m.kernel.semaphores.toList.find? fun p => p.2.name = m.reg 1 with
    | none => 0
    | some (id, _) => id
  (m.setD 1 sem, identStatus (m.reg 2) sem)

/-- Unlike `q_delete`, this leaves the waiters as they are. -/
def smDelete (m : Machine φ β) : Machine φ β × UInt32 :=
  if m.reg 1 ∉ m.kernel.semaphores then (m, 5)
  else
    let semaphores := m.kernel.semaphores.erase (m.reg 1)
    ({ m with kernel := { m.kernel with semaphores } }, 0)

def smP (m : Machine φ β) : Machine φ β × UInt32 :=
  match m.kernel.semaphores[m.reg 1]? with
  | none => (m, 5)
  | some s =>
    if s.count ≠ 0 then
      let semaphores := m.kernel.semaphores.insert (m.reg 1) { s with count := s.count - 1 }
      ({ m with kernel := { m.kernel with semaphores } }, 0)
    else if m.reg 5 &&& 1 ≠ 0 then (m, 0x42)
    else ({ m with kernel := m.kernel.block .semaphore (m.reg 1) (m.reg 6) }, 0)

def smV (m : Machine φ β) : Machine φ β × UInt32 :=
  let (kernel, code) := m.kernel.post (m.reg 1)
  ({ m with kernel }, code)

/-! ## Time -/

def tmTick (m : Machine φ β) : Machine φ β × UInt32 := ({ m with kernel := m.kernel.tick }, 0)

def tmSet (m : Machine φ β) : Machine φ β × UInt32 :=
  ({ m with kernel := { m.kernel with date := m.reg 1, time := m.reg 2 } }, 0)

def tmGet (m : Machine φ β) : Machine φ β × UInt32 :=
  (((m.setD 1 m.kernel.date).setD 2 m.kernel.time).setD 3 (m.kernel.ticks % 100).toUInt32, 0)

/-- A sleep; with zero ticks the task stays ready, and keeps the CPU against all but higher
priorities. -/
def tmWkafter (m : Machine φ β) : Machine φ β × UInt32 :=
  if m.reg 6 ≠ 0 then ({ m with kernel := m.kernel.block .sleep 0 (m.reg 6) }, 0)
  else
    match m.kernel.tasks[m.kernel.current]? with
    | none => (m, 0)
    | some t =>
      let t := { t with state := .ready, cpu := Context.capture m.cpu }
      ({ m with kernel := m.kernel.setTask m.kernel.current t }, 0)

/-- `tm_evafter` and `tm_evevery`. -/
def tmEvent (every : Bool) (m : Machine φ β) : Machine φ β × UInt32 :=
  if 1024 ≤ m.kernel.timers.size then (m, 0x45)
  else
    let timer := m.kernel.nextTimer
    let record : Timer :=
      { task := m.kernel.current
        events := m.reg 4
        due := satAdd m.kernel.ticks (m.reg 6).toUInt64
        period := if every then (m.reg 6).toUInt64 else 0 }
    let kernel :=
      { m.kernel with nextTimer := timer + 1, timers := m.kernel.timers.insert timer record }
    (setD { m with kernel } 1 timer, 0)

def tmCancel (m : Machine φ β) : Machine φ β × UInt32 :=
  if m.reg 1 ∉ m.kernel.timers then (m, 5)
  else ({ m with kernel := { m.kernel with timers := m.kernel.timers.erase (m.reg 1) } }, 0)

/-! ## Files -/

/-- A file service without a store: only that its `count` arguments can be read is checked. -/
def fileStub (count : Nat) (m : Machine φ β) : Machine φ β × UInt32 :=
  let sp := m.cpu.activeSp
  let readable (i : Nat) : Bool :=
    sp.toNat + 4 + 4 * i < 2 ^ 32 && (GuestBus.u32 m.bus (sp + 4 + UInt32.ofNat (4 * i))).isSome
  (m, if (List.range count).all readable then 0 else 0x2002)

/-- `{:#x}`. -/
def hexText (n : UInt32) : String := "0x" ++ String.ofList (Nat.toDigits 16 n.toNat)

def unimplemented (op : UInt32) (m : Machine φ β) : Machine φ β × UInt32 :=
  let e := "Unimplemented pSOS service " ++ hexText op
  ({ m with kernel := { m.kernel with error := some e }, bus := GuestBus.fail m.bus e }, 0xffffffff)

end Machine

end OpenSaab.Psos
