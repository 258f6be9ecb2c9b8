import OpenSaab.Psos.Trap

/-!
# What an operation does to the tasks

A task's `Core` is what the kernel's wake and scheduling decisions look at. Every operation changes
the core of a task in one of a few ways, and the invariants of the kernel follow from these alone.
-/

namespace OpenSaab.Psos

open Std OpenSaab.Table OpenSaab.Runs

variable {φ β : Type}

/-! ## Relations between the tasks of two states -/

structure Core where
  id : UInt32
  state : State
  wait : Wait
  object : UInt32

def Task.core (t : Task) : Core := ⟨t.id, t.state, t.wait, t.waitObject⟩

/-- Registered for a wake-up by another task. -/
def Task.listening (t : Task) : Prop := t.wait = .events ∨ t.wait = .semaphore ∨ t.wait = .queue

/-- The core and the saved registers are as they were. -/
def Kept (t t' : Task) : Prop := t'.core = t.core ∧ t'.cpu = t.cpu

/-- Taken off whatever it waited for, and ready. Unless a unit or a message is being handed over, a
task that waited for one does not find the status of a success in `d0`. -/
def Woken (handing : Wait → Prop) (t t' : Task) : Prop :=
  (t.state = .blocked ∨ t.listening) ∧ t'.id = t.id ∧ t'.state = .ready ∧ t'.wait = .none ∧
    (t.wait = .semaphore ∨ t.wait = .queue → handing t.wait ∨ getElem t'.cpu.dar 0 d0_lt ≠ 0)

def noHanding : Wait → Prop := fun _ => False

def KeptOrWoken (handing : Wait → Prop) (t t' : Task) : Prop := Kept t t' ∨ Woken handing t t'

/-- What the scheduler does to a task: ready and running may change places. -/
def Settled (t t' : Task) : Prop :=
  t'.id = t.id ∧ t'.wait = t.wait ∧ t'.waitObject = t.waitObject ∧ t'.suspended = t.suspended ∧
    (t'.state = t.state ∨
      (t.state = .ready ∨ t.state = .running) ∧ (t'.state = .ready ∨ t'.state = .running))

theorem core_eq {t t' : Task} (h : t'.core = t.core) :
    t'.id = t.id ∧ t'.state = t.state ∧ t'.wait = t.wait ∧ t'.waitObject = t.waitObject := by
  simpa only [Task.core, Core.mk.injEq] using h

theorem keptOrWoken_refl (handing : Wait → Prop) (t : Task) : KeptOrWoken handing t t :=
  Or.inl ⟨rfl, rfl⟩

theorem settled_refl (t : Task) : Settled t t := ⟨rfl, rfl, rfl, rfl, Or.inl rfl⟩

theorem settled_trans (a b c : Task) (h : Settled a b) (h' : Settled b c) : Settled a c := by
  obtain ⟨h1, h2, h3, h4, h5⟩ := h
  obtain ⟨g1, g2, g3, g4, g5⟩ := h'
  refine ⟨g1.trans h1, g2.trans h2, g3.trans h3, g4.trans h4, ?_⟩
  grind

/-- Nothing is left to wake in a task that is ready and waits for nothing. -/
theorem woken_not_woken {handing : Wait → Prop} {a b c : Task} (h : Woken handing a b) :
    ¬ Woken handing b c := by
  rintro ⟨hb | hb, -⟩
  · exact absurd (h.2.2.1.symm.trans hb) (by decide)
  · simp [Task.listening, h.2.2.2.1] at hb

theorem keptOrWoken_trans (handing : Wait → Prop) (a b c : Task) (h : KeptOrWoken handing a b)
    (h' : KeptOrWoken handing b c) : KeptOrWoken handing a c := by
  rcases h with h | h
  · rcases h' with h' | ⟨hreg, hid, hs, hw, hd⟩
    · exact Or.inl ⟨h'.1.trans h.1, h'.2.trans h.2⟩
    · obtain ⟨gid, gs, gw, -⟩ := core_eq h.1
      refine Or.inr ⟨?_, hid.trans gid, hs, hw, ?_⟩
      · simpa only [Task.listening, gs, gw] using hreg
      · simpa only [gw] using hd
  · rcases h' with h' | h'
    · obtain ⟨hreg, hid, hs, hw, hd⟩ := h
      obtain ⟨gid, gs, gw, -⟩ := core_eq h'.1
      exact Or.inr ⟨hreg, gid.trans hid, gs.trans hs, gw.trans hw, by rwa [h'.2]⟩
    · exact absurd h' (woken_not_woken h)

theorem keptOrWoken_id {handing : Wait → Prop} {t t' : Task} (h : KeptOrWoken handing t t') :
    t'.id = t.id := by
  rcases h with h | h
  · exact congrArg Core.id h.1
  · exact h.2.1

/-- Every task is stored under its own identifier. -/
def Keyed (k : Kernel) : Prop := ∀ (id : UInt32) (t : Task), k.tasks[id]? = some t → t.id = id

/-! ## Waking -/

@[simp] theorem Context.setDar_dar (c : Context) (n : Fin 16) (v : UInt32) :
    (c.setDar n v).dar = c.dar.set n v (register_lt n) := rfl

theorem receiveEvents_keptOrWoken (t : Task) (bits : UInt32) :
    KeptOrWoken noHanding t (t.receiveEvents bits) := by
  unfold Task.receiveEvents
  dsimp only
  split
  · next h => exact Or.inr ⟨Or.inr (Or.inl h.1), rfl, rfl, rfl, by simp [h.1]⟩
  · exact Or.inl ⟨rfl, rfl⟩

theorem expire_keptOrWoken (ticks : UInt64) (t : Task) :
    KeptOrWoken noHanding t (t.expire ticks) := by
  unfold Task.expire
  split
  · next h =>
    refine Or.inr ⟨Or.inl h.1, rfl, rfl, rfl, fun hw => Or.inr ?_⟩
    have hsleep : t.wait ≠ .sleep := by rcases hw with hw | hw <;> simp [hw]
    simp [Task.wake, hsleep]
  · exact Or.inl ⟨rfl, rfl⟩

theorem dropWaiter_keptOrWoken (queue : UInt32) (t : Task) :
    KeptOrWoken noHanding t (Kernel.dropWaiter queue t) := by
  unfold Kernel.dropWaiter
  split
  · next h =>
    exact Or.inr ⟨Or.inr (Or.inr (Or.inr h.1)), rfl, rfl, rfl, fun _ => Or.inr (by simp [Task.wake])⟩
  · exact Or.inl ⟨rfl, rfl⟩

namespace Kernel

section Pointwise

variable {R : Task → Task → Prop} (hrefl : ∀ t, R t t) (htrans : ∀ a b c, R a b → R b c → R a c)
  (hevents : ∀ t bits, R t (t.receiveEvents bits)) (hexpire : ∀ ticks t, R t (t.expire ticks))

include hrefl hevents in
theorem sendEvent_pointwise (k : Kernel) (id bits : UInt32) :
    Pointwise R k.tasks (k.sendEvent id bits).1.tasks := by
  unfold sendEvent
  dsimp only
  split
  · exact .refl hrefl _
  · next t ht => exact .insert hrefl ht (hevents t bits)

include hrefl htrans hevents in
theorem foldl_fire_pointwise (due : List (UInt32 × Timer)) (k : Kernel) :
    Pointwise R k.tasks (due.foldl fire k).tasks := by
  induction due generalizing k with
  | nil => exact .refl hrefl _
  | cons d due ih =>
    have hfire : Pointwise R k.tasks (k.fire d).tasks :=
      sendEvent_pointwise hrefl hevents k d.2.task d.2.events
    exact hfire.trans htrans (ih (k.fire d))

include hrefl htrans hevents hexpire in
theorem tick_pointwise (k : Kernel) : Pointwise R k.tasks k.tick.tasks := by
  have hadvance : Pointwise R k.tasks k.advance.tasks := .mapValues (hexpire _) _
  exact hadvance.trans htrans (foldl_fire_pointwise hrefl htrans hevents _ _)

end Pointwise

theorem sendEvent_tasks (k : Kernel) (id bits : UInt32) :
    Pointwise (KeptOrWoken noHanding) k.tasks (k.sendEvent id bits).1.tasks :=
  sendEvent_pointwise (keptOrWoken_refl _) receiveEvents_keptOrWoken k id bits

theorem tick_tasks (k : Kernel) : Pointwise (KeptOrWoken noHanding) k.tasks k.tick.tasks :=
  tick_pointwise (keptOrWoken_refl _) (keptOrWoken_trans _) receiveEvents_keptOrWoken
    expire_keptOrWoken k

theorem mem_waiters {k : Kernel} {wait : Wait} {object : UInt32} {t : Task} :
    t ∈ k.waiters wait object ↔
      t ∈ values k.tasks ∧ t.wait = wait ∧ t.waitObject = object := by
  simp [waiters]

theorem mem_order {q : Queue} {ts : List Task} {t : Task} : t ∈ q.order ts ↔ t ∈ ts := by
  unfold Queue.order
  split
  · exact List.mem_insertionSort _
  · rfl

theorem order_eq_nil {q : Queue} {ts : List Task} : q.order ts = [] ↔ ts = [] := by
  simp only [List.eq_nil_iff_forall_not_mem, mem_order]

theorem get_of_mem_values {k : Kernel} (hk : Keyed k) {t : Task} (h : t ∈ values k.tasks) :
    k.tasks[t.id]? = some t := by
  obtain ⟨id, hid⟩ := mem_values.mp h
  rw [hk id t hid]
  exact hid

section Pointwise

variable {R : Task → Task → Prop} (hrefl : ∀ t, R t t) {message : Message}
  (hdeliver : ∀ t t', t.wait = .queue → R t t' → R t (t'.deliver message))

include hdeliver in
/-- A waiter that the table still holds may get the message, whatever was delivered before. -/
theorem deliverTo_pointwise {ts : Table Task} {k : Kernel} {t : Task}
    (h : Pointwise R ts k.tasks) (ht : ts[t.id]? = some t) (hw : t.wait = .queue) :
    Pointwise R ts (deliverTo message k t).tasks := by
  unfold deliverTo
  split
  · exact h
  · next t' ht' =>
    obtain ⟨t0, ht0, hr⟩ := h.after ht'
    obtain rfl : t = t0 := by simpa [ht] using ht0
    intro id
    simp only [get_insert]
    split
    · next ha =>
      rw [ha, ht]
      exact .some (hdeliver t t' hw hr)
    · exact h id

include hdeliver in
theorem foldl_deliverTo_pointwise {ts : Table Task} (ws : List Task)
    (hws : ∀ t ∈ ws, ts[t.id]? = some t ∧ t.wait = .queue) {k : Kernel}
    (h : Pointwise R ts k.tasks) : Pointwise R ts (ws.foldl (deliverTo message) k).tasks := by
  induction ws generalizing k with
  | nil => exact h
  | cons w ws ih =>
    obtain ⟨hw, hq⟩ := hws w List.mem_cons_self
    exact ih (fun t ht => hws t (List.mem_cons_of_mem _ ht)) (deliverTo_pointwise hdeliver h hw hq)

include hrefl hdeliver in
theorem send_pointwise {k : Kernel} (hk : Keyed k) (kind : SendKind) (queue : UInt32) :
    Pointwise R k.tasks (k.send kind queue message).1.tasks := by
  unfold send
  split
  · exact .refl hrefl _
  · next q hq =>
    dsimp only
    split
    · apply foldl_deliverTo_pointwise hdeliver _ _ (.refl hrefl _)
      intro t ht
      obtain ⟨hv, hw, -⟩ := mem_waiters.mp (mem_order.mp (List.mem_of_mem_take ht))
      exact ⟨get_of_mem_values hk hv, hw⟩
    · split
      · exact .refl hrefl _
      · split <;> exact .refl hrefl _

include hrefl in
theorem deleteQueue_pointwise {queue : UInt32} (hdrop : ∀ t, R t (dropWaiter queue t))
    (k : Kernel) : Pointwise R k.tasks (k.deleteQueue queue).1.tasks := by
  unfold deleteQueue
  split
  · exact .mapValues hdrop _
  · exact .refl hrefl _

end Pointwise

theorem deliver_keptOrWoken {message : Message} {t t' : Task} (hw : t.wait = .queue)
    (h : KeptOrWoken (· = .queue) t t') : KeptOrWoken (· = .queue) t (t'.deliver message) := by
  have hid : t'.id = t.id := keptOrWoken_id h
  exact Or.inr ⟨Or.inr (Or.inr (Or.inr hw)), hid, rfl, rfl, fun _ => Or.inl hw⟩

theorem send_tasks {k : Kernel} (hk : Keyed k) (kind : SendKind) (queue : UInt32)
    (message : Message) :
    Pointwise (KeptOrWoken (· = .queue)) k.tasks (k.send kind queue message).1.tasks :=
  send_pointwise (keptOrWoken_refl _) (fun _ _ hw h => deliver_keptOrWoken hw h) hk kind queue

theorem deleteQueue_tasks (k : Kernel) (queue : UInt32) :
    Pointwise (KeptOrWoken noHanding) k.tasks (k.deleteQueue queue).1.tasks :=
  deleteQueue_pointwise (keptOrWoken_refl _) (dropWaiter_keptOrWoken queue) k

end Kernel

/-! ## The fold that looks for the highest priority -/

theorem better_eq (best : Option (UInt32 × UInt32)) (t : Task) :
    better best t = best ∨ better best t = some (t.id, t.priority) := by
  unfold better
  split
  · split
    · exact Or.inl rfl
    · exact Or.inr rfl
  · exact Or.inr rfl

theorem foldl_better_eq (ts : List Task) (best : Option (UInt32 × UInt32)) :
    ts.foldl better best = best ∨ ∃ t ∈ ts, ts.foldl better best = some (t.id, t.priority) := by
  induction ts generalizing best with
  | nil => exact Or.inl rfl
  | cons t ts ih =>
    rcases ih (better best t) with h | ⟨u, hu, h⟩
    · rcases better_eq best t with hb | hb
      · exact Or.inl (h.trans hb)
      · exact Or.inr ⟨t, List.mem_cons_self, h.trans hb⟩
    · exact Or.inr ⟨u, List.mem_cons_of_mem _ hu, h⟩

theorem highest_mem {ts : List Task} {id priority : UInt32} (h : highest ts = some (id, priority)) :
    ∃ t ∈ ts, t.id = id ∧ t.priority = priority := by
  rcases foldl_better_eq ts none with hn | ⟨t, ht, hs⟩
  · cases hn.symm.trans h
  · obtain ⟨hid, hp⟩ : t.id = id ∧ t.priority = priority := by simpa using hs.symm.trans h
    exact ⟨t, ht, hid, hp⟩

theorem highest_eq_none {ts : List Task} : highest ts = none ↔ ts = [] := by
  cases ts with
  | nil => simp [highest]
  | cons t ts =>
    simp only [reduceCtorEq, iff_false]
    intro h
    rcases foldl_better_eq ts (better none t) with hb | ⟨u, -, hb⟩ <;> cases hb.symm.trans h

namespace Kernel

theorem post_pointwise {R : Task → Task → Prop} (hrefl : ∀ t, R t t)
    (hwake : ∀ t, t.wait = .semaphore → R t (t.wake 0)) {k : Kernel} (hk : Keyed k)
    (semaphore : UInt32) : Pointwise R k.tasks (k.post semaphore).1.tasks := by
  unfold post
  split
  · exact .refl hrefl _
  · split
    · next id p hw =>
      split
      · exact .refl hrefl _
      · next t ht =>
        obtain ⟨w, hmem, rfl, -⟩ := highest_mem hw
        obtain ⟨hv, hsem, -⟩ := mem_waiters.mp hmem
        obtain rfl : t = w := by simpa [get_of_mem_values hk hv] using ht.symm
        exact .insert hrefl ht (hwake t hsem)
    · exact .refl hrefl _

theorem post_tasks {k : Kernel} (hk : Keyed k) (semaphore : UInt32) :
    Pointwise (KeptOrWoken (· = .semaphore)) k.tasks (k.post semaphore).1.tasks :=
  post_pointwise (keptOrWoken_refl _)
    (fun _ hs => Or.inr ⟨Or.inr (Or.inr (Or.inl hs)), rfl, rfl, rfl, fun _ => Or.inl hs⟩) hk
    semaphore

end Kernel

/-! ## Changes of state -/

/-- `t'` is `t` in another state. -/
def InState (state : State) (t t' : Task) : Prop := t'.core = { t.core with state }

/-- `t'` is `t` blocked on `object`. -/
def BlockedOn (wait : Wait) (object : UInt32) (t t' : Task) : Prop :=
  t'.core = ⟨t.id, .blocked, wait, object⟩

theorem started_inState (t : Task) (mode pc top : UInt32) :
    InState .ready t (t.started mode pc top) := rfl

/-- What a service is about to do to the state of a task. -/
inductive Change where
  /-- Tasks are woken, or are left alone. -/
  | wake
  | create
  | restart
  | delete
  | block (wait : Wait) (object : UInt32)
  | yield
  deriving DecidableEq, Repr

/-- The identifier that the next task gets. -/
def Kernel.nextId (k : Kernel) : UInt32 := k.nextTask <<< 16

/-- `start` finds the task, a program counter and room for the argument frame. -/
def Kernel.startable (k : Kernel) (id mode pc : UInt32) : Bool :=
  match k.tasks[k.taskId id]? with
  | none => false
  | some t =>
    pc != 0 && 20 ≤ (t.stackTop mode).toNat && decide (ramRange (t.stackTop mode - 20) 20)

namespace Machine

/-- The change that a service is about to make, by the checks that it makes itself. -/
def change (m : Machine φ β) : Service → Change
  | .tCreate => .create
  | .tStart => if m.kernel.startable m.target (m.reg 2) (m.reg 8) then .restart else .wake
  | .tRestart =>
    match m.kernel.tasks[m.target]? with
    | none => .wake
    | some t => if m.kernel.startable m.target t.mode t.entry then .restart else .wake
  | .tDelete => if m.target ∈ m.kernel.tasks then .delete else .wake
  | .qReceive =>
    match m.kernel.queues[m.reg 1]? with
    | none => .wake
    | some q =>
      if q.messages = [] ∧ m.reg 5 &&& 1 = 0 then .block .queue (m.reg 1) else .wake
  | .evReceive =>
    match m.kernel.tasks[m.kernel.current]? with
    | none => .wake
    | some t =>
      if m.reg 4 ≠ 0 ∧ eventsMet (m.reg 5) (m.reg 4) (t.events &&& m.reg 4) = false ∧
          m.reg 5 &&& 1 = 0 then
        .block .events 0
      else .wake
  | .smP =>
    match m.kernel.semaphores[m.reg 1]? with
    | none => .wake
    | some s => if s.count = 0 ∧ m.reg 5 &&& 1 = 0 then .block .semaphore (m.reg 1) else .wake
  | .tmWkafter => if m.reg 6 ≠ 0 then .block .sleep 0 else .yield
  | _ => .wake

end Machine

/-- The tasks that a service hands something to: they wait in this way. -/
def Service.hands : Service → Wait → Prop
  | .qSend _ => (· = .queue)
  | .smV => (· = .semaphore)
  | _ => noHanding

/-- What a change means for the task table. -/
def Change.Effect (m : Machine φ β) (s : Service) (tasks : Table Task) : Change → Prop
  | .wake => Pointwise (KeptOrWoken s.hands) m.kernel.tasks tasks
  | .create =>
    tasks = m.kernel.tasks ∨
      m.kernel.nextTask ≤ 255 ∧ ∃ t : Task, t.core = ⟨m.kernel.nextId, .created, .none, 0⟩ ∧
        Updated m.kernel.tasks m.kernel.nextId t tasks
  | .restart =>
    ∃ t t', m.kernel.tasks[m.target]? = some t ∧ InState .ready t t' ∧
      Updated m.kernel.tasks m.target t' tasks
  | .delete =>
    ∃ t t', m.kernel.tasks[m.target]? = some t ∧ InState .dead t t' ∧
      Updated m.kernel.tasks m.target t' tasks
  | .block wait object =>
    ∃ t t', m.kernel.tasks[m.kernel.current]? = some t ∧ BlockedOn wait object t t' ∧
      Updated m.kernel.tasks m.kernel.current t' tasks
  | .yield =>
    ∃ t t', m.kernel.tasks[m.kernel.current]? = some t ∧ InState .ready t t' ∧
      Updated m.kernel.tasks m.kernel.current t' tasks

namespace Kernel

/-- An allocation changes the regions only. -/
theorem allocate_frame (k : Kernel) (region bytes : UInt32) :
    ∃ regions, (k.allocate region bytes).1 = { k with regions } := by
  unfold allocate
  split
  · exact ⟨k.regions, rfl⟩
  · split
    · exact ⟨k.regions, rfl⟩
    · exact ⟨_, rfl⟩

theorem allocateStack_frame (k : Kernel) (size : UInt32) :
    ∃ regions, (k.allocateStack size).1 = { k with regions } := by
  unfold allocateStack
  split
  · exact ⟨k.regions, rfl⟩
  · exact k.allocate_frame 0 size

/-- The kernel after the identifier and the stacks of a new task were taken. -/
def reserve (k : Kernel) (user superSize : UInt32) : Kernel :=
  (({ k with nextTask := k.nextTask + 1 }.allocateStack user).1.allocateStack superSize).1

theorem reserve_frame (k : Kernel) (user superSize : UInt32) :
    ∃ regions, k.reserve user superSize = { k with nextTask := k.nextTask + 1, regions } := by
  unfold reserve
  obtain ⟨r1, h1⟩ := { k with nextTask := k.nextTask + 1 }.allocateStack_frame user
  rw [h1]
  obtain ⟨r2, h2⟩ :=
    { k with nextTask := k.nextTask + 1, regions := r1 }.allocateStack_frame superSize
  exact ⟨r2, h2⟩

variable [GuestBus β]

theorem create_cases (k : Kernel) (name priority user superSize vbr : UInt32) (bus : β) :
    (k.create name priority user superSize bus vbr).1 = k ∨
      k.nextTask ≤ 255 ∧
        ((k.create name priority user superSize bus vbr).1 = k.reserve user superSize ∨
          ∃ t : Task, t.core = ⟨k.nextId, .created, .none, 0⟩ ∧ t.suspended = false ∧
            k.create name priority user superSize bus vbr =
              ((k.reserve user superSize).setTask k.nextId t, 0, k.nextId)) := by
  unfold create
  split
  · exact Or.inl rfl
  · split
    · exact Or.inl rfl
    · split
      · exact Or.inl rfl
      · next hroom =>
        refine Or.inr ⟨by simpa using (not_or.mp hroom).1, ?_⟩
        dsimp only
        split
        · exact Or.inl rfl
        · let task (stack superStack : UInt32) : Task :=
            { id := k.nextId, name, priority, stack, stackSize := user, superStack, superSize,
              cpu := { vbr } }
          exact Or.inr ⟨task _ _, rfl, rfl, rfl⟩

@[simp] theorem taskId_taskId (k : Kernel) (id : UInt32) :
    k.taskId (k.taskId id) = k.taskId id := by
  unfold taskId
  split <;> simp

theorem start_unstartable {k : Kernel} {id mode pc : UInt32} (h : k.startable id mode pc = false)
    (args : List UInt32) (bus : β) :
    (k.start id mode pc args bus).1 = k ∧ (k.start id mode pc args bus).2.2 ≠ 0 := by
  unfold start
  unfold startable at h
  dsimp only
  split
  · exact ⟨rfl, by simp⟩
  · next t ht =>
    rw [ht] at h
    split
    · exact ⟨rfl, by simp⟩
    · next hpc =>
      split
      · exact ⟨rfl, by simp⟩
      · next hroom =>
        obtain ⟨htop, hram⟩ := not_or.mp hroom
        simp [hpc, Nat.not_lt.mp htop, not_not.mp hram] at h

theorem start_startable {k : Kernel} {id mode pc : UInt32} (h : k.startable id mode pc = true)
    (args : List UInt32) (bus : β) :
    (k.start id mode pc args bus).2.2 = 0 ∧ ∃ t top, k.tasks[k.taskId id]? = some t ∧
      (k.start id mode pc args bus).1 = k.setTask (k.taskId id) (t.started mode pc top) := by
  unfold startable at h
  split at h
  · cases h
  · next t ht =>
    simp only [Bool.and_eq_true, bne_iff_ne, ne_eq, decide_eq_true_eq] at h
    obtain ⟨⟨hpc, htop⟩, hram⟩ := h
    have hroom : ¬ ((t.stackTop mode).toNat < 20 ∨ ¬ ramRange (t.stackTop mode - 20) 20) := by
      simp [hram, htop]
    unfold start
    dsimp only
    simp only [ht, if_neg hpc, if_neg hroom]
    exact ⟨trivial, t, _, rfl, rfl⟩

theorem block_eq {k : Kernel} {t : Task} (ht : k.tasks[k.current]? = some t) (wait : Wait)
    (object timeout : UInt32) :
    ∃ t', BlockedOn wait object t t' ∧ k.block wait object timeout = k.setTask k.current t' := by
  unfold block
  rw [ht]
  refine ⟨_, ?_, rfl⟩
  unfold BlockedOn Task.core Task.blockedOn
  rfl

end Kernel

/-! ## Every service makes the change that it announces -/

section Services

variable {m : Machine φ β}

theorem wake_same {s : Service} {tasks : Table Task} (h : tasks = m.kernel.tasks) :
    Change.wake.Effect m s tasks := by
  rw [h]
  exact .refl (keptOrWoken_refl _) _

theorem wake_kept {s : Service} {id : UInt32} {t t' : Task} (ht : m.kernel.tasks[id]? = some t)
    (h : Kept t t') : Change.wake.Effect m s (m.kernel.setTask id t').tasks :=
  .insert (keptOrWoken_refl _) ht (Or.inl h)

/-- What wakes tasks without handing anything over is a wake-up by any service. -/
theorem wake_unhanded {s : Service} {tasks : Table Task}
    (h : Pointwise (KeptOrWoken noHanding) m.kernel.tasks tasks) :
    Change.wake.Effect m s tasks := by
  refine h.mono fun t t' hr => ?_
  rcases hr with hr | ⟨h1, h2, h3, h4, h5⟩
  · exact Or.inl hr
  · exact Or.inr ⟨h1, h2, h3, h4, fun hw => Or.inr ((h5 hw).resolve_left id)⟩

theorem tCreate_effect [GuestBus β] : Change.create.Effect m .tCreate m.tCreate.1.kernel.tasks := by
  obtain ⟨regions, hr⟩ := m.kernel.reserve_frame (m.reg 3) (m.reg 4)
  rcases m.kernel.create_cases (m.reg 1) (m.reg 2) (m.reg 3) (m.reg 4) m.cpu.vbr m.bus with
    h | ⟨hroom, h | ⟨t, hcore, -, h⟩⟩
  · exact Or.inl (congrArg Kernel.tasks h)
  · exact Or.inl ((congrArg Kernel.tasks h).trans (by rw [hr]))
  · refine Or.inr ⟨hroom, t, hcore, ?_⟩
    have htasks : m.tCreate.1.kernel.tasks = m.kernel.tasks.insert m.kernel.nextId t := by
      unfold Machine.tCreate
      rw [h, hr]
      rfl
    rw [htasks]
    exact .insert _ _ _

/-- `t_start` and `t_restart`, with the mode and the program counter that they start the task on. -/
theorem start_effect [GuestBus β] {s : Service} (mode pc : UInt32) (args : List UInt32) (bus : β) :
    (if m.kernel.startable m.target mode pc then Change.restart else .wake).Effect m s
      (m.kernel.start m.target mode pc args bus).1.tasks := by
  split
  · next h =>
    obtain ⟨-, t, top, ht, hk⟩ := Kernel.start_startable h args bus
    rw [hk]
    simp only [Machine.target, Kernel.taskId_taskId] at ht ⊢
    exact ⟨t, _, ht, started_inState t mode pc top, .insert _ _ _⟩
  · next h => exact wake_same (by rw [(Kernel.start_unstartable (by simpa using h) _ _).1])

theorem tStart_effect [GuestBus β] :
    (m.change .tStart).Effect m .tStart m.tStart.1.kernel.tasks := by
  have hm : m.tStart.1.kernel = (m.kernel.start m.target (m.reg 2) (m.reg 8)
      [m.reg 3, m.reg 4, m.reg 5, m.reg 6] m.bus).1 := rfl
  rw [hm]
  exact start_effect _ _ _ _

theorem tRestart_effect [GuestBus β] :
    (m.change .tRestart).Effect m .tRestart m.tRestart.1.kernel.tasks := by
  cases ht : m.kernel.tasks[m.target]? with
  | none =>
    have hm : m.tRestart.1 = m := by simp only [Machine.tRestart, ht]
    simp only [Machine.change, ht, hm]
    exact wake_same rfl
  | some t =>
    have hm : m.tRestart.1.kernel = (m.kernel.start m.target t.mode t.entry
        [m.reg 2, m.reg 3, m.reg 4, m.reg 5] m.bus).1 := by simp only [Machine.tRestart, ht]
    simp only [Machine.change, ht, hm]
    exact start_effect _ _ _ _

theorem tDelete_effect : (m.change .tDelete).Effect m .tDelete m.tDelete.1.kernel.tasks := by
  unfold Machine.change Machine.tDelete
  dsimp only
  simp only [TreeMap.mem_iff_isSome_getElem?]
  cases ht : m.kernel.tasks[m.target]? with
  | none => exact wake_same rfl
  | some t => exact ⟨t, { t with state := .dead }, ht, rfl, .insert _ _ _⟩

theorem setSuspended_effect (suspend : Bool) (s : Service) :
    Change.wake.Effect m s (m.setSuspended suspend).1.kernel.tasks := by
  unfold Machine.setSuspended
  split
  · exact wake_same rfl
  · next t ht =>
    split
    · exact wake_same rfl
    · exact wake_kept ht ⟨rfl, rfl⟩

theorem tSetpri_effect : Change.wake.Effect m .tSetpri m.tSetpri.1.kernel.tasks := by
  unfold Machine.tSetpri
  split
  · exact wake_same rfl
  · next t ht =>
    split
    · exact wake_same rfl
    · exact wake_kept ht ⟨rfl, rfl⟩

theorem tMode_effect [M68k φ] : Change.wake.Effect m .tMode m.tMode.1.kernel.tasks := by
  unfold Machine.tMode
  split
  · exact wake_same rfl
  · next t ht =>
    dsimp only
    split
    · exact wake_same rfl
    · exact wake_kept ht ⟨rfl, rfl⟩

theorem tSetreg_effect : Change.wake.Effect m .tSetreg m.tSetreg.1.kernel.tasks := by
  unfold Machine.tSetreg
  split
  · exact wake_same rfl
  · next t ht =>
    split
    · exact wake_same rfl
    · exact wake_kept ht ⟨rfl, rfl⟩

theorem qReceive_effect (hc : m.kernel.current ∈ m.kernel.tasks) :
    (m.change .qReceive).Effect m .qReceive m.qReceive.1.kernel.tasks := by
  rw [TreeMap.mem_iff_isSome_getElem?, Option.isSome_iff_exists] at hc
  obtain ⟨t, ht⟩ := hc
  unfold Machine.change Machine.qReceive
  dsimp only
  cases hq : m.kernel.queues[m.reg 1]? with
  | none => exact wake_same rfl
  | some q =>
    dsimp only
    cases hm : q.messages with
    | cons message messages => exact wake_same rfl
    | nil =>
      by_cases hwait : m.reg 5 &&& 1 = 0
      · simp only [hwait, and_self, if_true, ne_eq, not_true_eq_false, if_false]
        obtain ⟨t', hb, hk⟩ := Kernel.block_eq ht .queue (m.reg 1) (m.reg 6)
        rw [hk]
        exact ⟨t, t', ht, hb, .insert _ _ _⟩
      · simp only [hwait, and_false, if_false, ne_eq, not_false_eq_true, if_true]
        exact wake_same rfl

theorem smP_effect (hc : m.kernel.current ∈ m.kernel.tasks) :
    (m.change .smP).Effect m .smP m.smP.1.kernel.tasks := by
  rw [TreeMap.mem_iff_isSome_getElem?, Option.isSome_iff_exists] at hc
  obtain ⟨t, ht⟩ := hc
  unfold Machine.change Machine.smP
  dsimp only
  cases hs : m.kernel.semaphores[m.reg 1]? with
  | none => exact wake_same rfl
  | some s =>
    dsimp only
    by_cases hcount : s.count = 0
    · by_cases hwait : m.reg 5 &&& 1 = 0
      · simp only [hcount, hwait, and_self, if_true, ne_eq, not_true_eq_false, if_false]
        obtain ⟨t', hb, hk⟩ := Kernel.block_eq ht .semaphore (m.reg 1) (m.reg 6)
        rw [hk]
        exact ⟨t, t', ht, hb, .insert _ _ _⟩
      · simp only [hcount, hwait, and_false, if_false, ne_eq, not_true_eq_false, not_false_eq_true,
          if_true]
        exact wake_same rfl
    · simp only [hcount, false_and, if_false, ne_eq, not_false_eq_true, if_true]
      exact wake_same rfl

theorem evReceive_effect (hc : m.kernel.current ∈ m.kernel.tasks) :
    (m.change .evReceive).Effect m .evReceive m.evReceive.1.kernel.tasks := by
  rw [TreeMap.mem_iff_isSome_getElem?, Option.isSome_iff_exists] at hc
  obtain ⟨t, ht⟩ := hc
  unfold Machine.change Machine.evReceive
  simp only [ht]
  by_cases hask : m.reg 4 = 0
  · simp only [hask, ne_eq, not_true_eq_false, false_and, if_false, if_true]
    exact wake_same rfl
  · cases hmet : eventsMet (m.reg 5) (m.reg 4) (t.events &&& m.reg 4) with
    | true =>
      simp only [hask, Bool.true_eq_false, false_and, and_false, if_false, if_true]
      exact wake_kept ht ⟨rfl, rfl⟩
    | false =>
      by_cases hwait : m.reg 5 &&& 1 = 0
      · simp only [hask, hwait, ne_eq, not_false_eq_true, and_self, if_true, if_false,
          not_true_eq_false, Bool.false_eq_true]
        let asking : Task := { t with mask := m.reg 4, waitFlags := m.reg 5 }
        have hasking : (m.kernel.setTask m.kernel.current asking).tasks[m.kernel.current]? =
            some asking := TreeMap.getElem?_insert_self
        obtain ⟨t', hb, hk⟩ := Kernel.block_eq hasking .events 0 (m.reg 6)
        refine ⟨t, t', ht, hb, ?_⟩
        exact (Updated.insert m.kernel.tasks m.kernel.current asking).again
          (by rw [hk]; exact .insert _ _ _)
      · simp only [hask, hwait, and_false, if_false, Bool.false_eq_true, ne_eq, not_false_eq_true,
          if_true]
        exact wake_same rfl

theorem tmWkafter_effect [M68k φ] (hc : m.kernel.current ∈ m.kernel.tasks) :
    (m.change .tmWkafter).Effect m .tmWkafter m.tmWkafter.1.kernel.tasks := by
  rw [TreeMap.mem_iff_isSome_getElem?, Option.isSome_iff_exists] at hc
  obtain ⟨t, ht⟩ := hc
  unfold Machine.change Machine.tmWkafter
  dsimp only
  by_cases hsleep : m.reg 6 = 0
  · simp only [hsleep, ne_eq, not_true_eq_false, if_false, ht]
    exact ⟨t, { t with state := .ready, cpu := Context.capture m.cpu }, ht, rfl, .insert _ _ _⟩
  · simp only [hsleep, ne_eq, not_false_eq_true, if_true]
    obtain ⟨t', hb, hk⟩ := Kernel.block_eq ht .sleep 0 (m.reg 6)
    rw [hk]
    exact ⟨t, t', ht, hb, .insert _ _ _⟩

end Services

end OpenSaab.Psos
