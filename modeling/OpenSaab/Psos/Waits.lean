import OpenSaab.Psos.Contexts
import OpenSaab.Psos.Queues
import OpenSaab.Psos.Timing

/-!
# Wake-ups and deadlines

What a step does to what a task waits for. No wake-up is lost, and nobody waits beyond a deadline.
-/

namespace OpenSaab.Psos

open Std OpenSaab.Table OpenSaab.Runs

variable {φ β : Type}

/-! ## What a service does to a task's wait -/

/-- The events that have arrived, and those that are waited for. -/
def Task.letters (t : Task) : UInt32 × UInt32 × UInt32 := (t.events, t.mask, t.waitFlags)

def Unmoved (t t' : Task) : Prop :=
  t'.core = t.core ∧ t'.untilTick = t.untilTick ∧ t'.letters = t.letters

/-- Woken by what it waited for, which was no event. -/
structure Served (t t' : Task) : Prop where
  waited : t.wait = .semaphore ∨ t.wait = .queue
  letters : t'.letters = t.letters
  ready : t'.state = .ready
  wait : t'.wait = .none

def UnmovedOrServed (t t' : Task) : Prop := Unmoved t t' ∨ Served t t'

theorem unmoved_refl (t : Task) : Unmoved t t := ⟨rfl, rfl, rfl⟩

theorem unmovedOrServed_refl (t : Task) : UnmovedOrServed t t := .inl (unmoved_refl t)

theorem unmovedOrServed_letters {t t' : Task} (h : UnmovedOrServed t t') : t'.letters = t.letters := by
  rcases h with h | h
  · exact h.2.2
  · exact h.letters

theorem deliver_served {message : Message} {t t' : Task} (hw : t.wait = .queue)
    (h : UnmovedOrServed t t') : UnmovedOrServed t (t'.deliver message) := by
  have hletters : t'.letters = t.letters := unmovedOrServed_letters h
  exact .inr ⟨.inr hw, hletters, rfl, rfl⟩

theorem dropWaiter_served (queue : UInt32) (t : Task) :
    UnmovedOrServed t (Kernel.dropWaiter queue t) := by
  unfold Kernel.dropWaiter
  split
  · next h => exact .inr ⟨.inr h.1, rfl, rfl, rfl⟩
  · exact unmovedOrServed_refl t

theorem wake_served {t : Task} (h : t.wait = .semaphore) : UnmovedOrServed t (t.wake 0) :=
  .inr ⟨.inl h, rfl, rfl, rfl⟩

namespace Machine

/-- When a wait that begins now with the timeout in `d6` ends. -/
def deadline (m : Machine φ β) : UInt64 :=
  if m.reg 6 = 0 then noDeadline else satAdd m.kernel.ticks (m.reg 6).toUInt64

/-- The task as the service that blocks it leaves it, but for its registers. -/
def blocks (m : Machine φ β) (wait : Wait) (object : UInt32) (t : Task) : Task :=
  let t := if wait = .events then { t with mask := m.reg 4, waitFlags := m.reg 5 } else t
  t.blockedOn wait object m.deadline

/-- The service starts, deletes or passes over this task. -/
def Moves (m : Machine φ β) (s : Service) (id : UInt32) : Prop :=
  (m.change s = .restart ∨ m.change s = .delete) ∧ id = m.target ∨
    m.change s = .yield ∧ id = m.kernel.current

end Machine

/-- What a service makes of the record of a task. -/
inductive Handled (m : Machine φ β) (s : Service) (id : UInt32) (t t' : Task) : Prop where
  | unmoved (h : Unmoved t t')
  | served (h : Served t t')
  | moved (hmoves : m.Moves s id) (hstate : t'.state = .ready ∨ t'.state = .dead)
      (hrest : Unmoved { t with state := t'.state } t')
  | sent (hs : s = .evSend) (hid : id = m.target) (h : t' = t.receiveEvents (m.reg 4))
  | took (hs : s = .evReceive) (hid : id = m.kernel.current) (hasked : m.reg 4 ≠ 0)
      (hmet : eventsMet (m.reg 5) (m.reg 4) (t.events &&& m.reg 4) = true)
      (h : t' = { t with events := t.events &&& ~~~(t.events &&& m.reg 4) })
  | blocked (wait : Wait) (object : UInt32) (hchange : m.change s = .block wait object)
      (hid : id = m.kernel.current) (h : t' = m.blocks wait object t)

/-- A change of the table, task by task. -/
def Handles (m : Machine φ β) (s : Service) (tasks : Table Task) : Prop :=
  ∀ (id : UInt32) (t : Task), m.kernel.tasks[id]? = some t →
    ∃ t', tasks[id]? = some t' ∧ Handled m s id t t'

section Services

variable {m : Machine φ β} {s : Service}

theorem handles_same {tasks : Table Task} (h : tasks = m.kernel.tasks) : Handles m s tasks :=
  fun _ t ht => ⟨t, by rw [h, ht], .unmoved (unmoved_refl t)⟩

theorem handles_one {id : UInt32} {t t' : Task} (ht : m.kernel.tasks[id]? = some t)
    (h : Handled m s id t t') : Handles m s (m.kernel.tasks.insert id t') := by
  intro i u hu
  rw [get_insert]
  split
  · next hi =>
    subst hi
    obtain rfl := Option.some.inj (ht.symm.trans hu)
    exact ⟨t', rfl, h⟩
  · exact ⟨u, hu, .unmoved (unmoved_refl u)⟩

theorem handles_quiet {tasks : Table Task}
    (h : Pointwise UnmovedOrServed m.kernel.tasks tasks) : Handles m s tasks := by
  intro id t ht
  obtain ⟨t', ht', hr⟩ := h.before ht
  exact ⟨t', ht', hr.elim .unmoved .served⟩

theorem start_handles [GuestBus β] {mode pc : UInt32}
    (hchange : m.kernel.startable m.target mode pc = true → m.change s = .restart)
    (args : List UInt32) (bus : β) :
    Handles m s (m.kernel.start m.target mode pc args bus).1.tasks := by
  cases hs : m.kernel.startable m.target mode pc with
  | false => exact handles_same (by rw [(Kernel.start_unstartable hs args bus).1])
  | true =>
    obtain ⟨-, t, top, ht, hk⟩ := Kernel.start_startable hs args bus
    rw [hk]
    simp only [Machine.target, Kernel.taskId_taskId] at ht ⊢
    exact handles_one ht (.moved (.inl ⟨.inl (hchange hs), rfl⟩) (.inl rfl) ⟨rfl, rfl, rfl⟩)

theorem tStart_handles [GuestBus β] : Handles m .tStart m.tStart.1.kernel.tasks := by
  have hm : m.tStart.1.kernel = (m.kernel.start m.target (m.reg 2) (m.reg 8)
      [m.reg 3, m.reg 4, m.reg 5, m.reg 6] m.bus).1 := rfl
  rw [hm]
  exact start_handles (fun h => by simp [Machine.change, h]) _ _

theorem tRestart_handles [GuestBus β] : Handles m .tRestart m.tRestart.1.kernel.tasks := by
  unfold Machine.tRestart
  split
  · exact handles_same rfl
  · next t ht => exact start_handles (fun h => by simp [Machine.change, ht, h]) _ _

theorem tDelete_handles : Handles m .tDelete m.tDelete.1.kernel.tasks := by
  unfold Machine.tDelete
  split
  · exact handles_same rfl
  · next t ht =>
    have hmem : m.target ∈ m.kernel.tasks := by
      rw [TreeMap.mem_iff_isSome_getElem?, ht]
      rfl
    exact handles_one ht (.moved (.inl ⟨.inr (if_pos hmem), rfl⟩) (.inr rfl) ⟨rfl, rfl, rfl⟩)

/-- A wait for anything but events. -/
theorem block_handles {wait : Wait} {object : UInt32} (hwait : wait ≠ .events)
    (hchange : m.change s = .block wait object) :
    Handles m s (m.kernel.block wait object (m.reg 6)).tasks := by
  unfold Kernel.block
  split
  · exact handles_same rfl
  · next t ht =>
    refine handles_one ht (.blocked wait object hchange rfl ?_)
    simp only [Machine.blocks, if_neg hwait, Machine.deadline]

theorem qReceive_handles : Handles m .qReceive m.qReceive.1.kernel.tasks := by
  unfold Machine.qReceive
  split
  · exact handles_same rfl
  · next q hq =>
    split
    · exact handles_same rfl
    · next hmessages =>
      dsimp only
      split
      · exact handles_same rfl
      · next hask =>
        refine block_handles (by decide) ?_
        simp [Machine.change, hq, hmessages, not_not.mp hask]

theorem smP_handles : Handles m .smP m.smP.1.kernel.tasks := by
  unfold Machine.smP
  split
  · exact handles_same rfl
  · next v hv =>
    split
    · exact handles_same rfl
    · next hcount =>
      split
      · exact handles_same rfl
      · next hask =>
        refine block_handles (by decide) ?_
        simp [Machine.change, hv, not_not.mp hcount, not_not.mp hask]

theorem tmWkafter_handles [M68k φ] : Handles m .tmWkafter m.tmWkafter.1.kernel.tasks := by
  unfold Machine.tmWkafter
  split
  · next hsleep => exact block_handles (by decide) (if_pos hsleep)
  · next hsleep =>
    split
    · exact handles_same rfl
    · next t ht =>
      exact handles_one ht (.moved (.inr ⟨if_neg hsleep, rfl⟩) (.inl rfl) ⟨rfl, rfl, rfl⟩)

theorem evSend_handles : Handles m .evSend m.evSend.1.kernel.tasks := by
  have hm : m.evSend.1.kernel = (m.kernel.sendEvent (m.reg 1) (m.reg 4)).1 := rfl
  rw [hm]
  unfold Kernel.sendEvent
  dsimp only
  split
  · exact handles_same rfl
  · next t ht => exact handles_one ht (.sent rfl rfl rfl)

theorem evReceive_handles : Handles m .evReceive m.evReceive.1.kernel.tasks := by
  unfold Machine.evReceive
  split
  · exact handles_same rfl
  · next t ht =>
    split
    · exact handles_same rfl
    · next hasked =>
      dsimp only
      split
      · next hmet => exact handles_one ht (.took rfl rfl hasked hmet rfl)
      · next hmet =>
        split
        · exact handles_same rfl
        · next hask =>
          have hchange : m.change .evReceive = .block .events 0 := by
            simp [Machine.change, ht, hasked, not_not.mp hask, hmet]
          let asking : Task := { t with mask := m.reg 4, waitFlags := m.reg 5 }
          have hasking : (m.kernel.setTask m.kernel.current asking).tasks[
              (m.kernel.setTask m.kernel.current asking).current]? = some asking :=
            TreeMap.getElem?_insert_self
          intro id u hu
          unfold Kernel.block
          rw [hasking]
          simp only [Machine.setD, Kernel.setTask, get_insert]
          split
          · next hid =>
            subst hid
            obtain rfl := Option.some.inj (ht.symm.trans hu)
            exact ⟨_, rfl, .blocked .events 0 hchange rfl rfl⟩
          · exact ⟨u, hu, .unmoved (unmoved_refl u)⟩

/-- Every service but a tick handles each task in one of these ways. -/
theorem perform_handles [M68k φ] [GuestBus β] (hk : Keyed m.kernel) (hn : Numbered m.kernel)
    {s : Service} (hs : s ≠ .tmTick) : Handles m s (m.perform s).1.kernel.tasks := by
  by_cases htouches : .tasks ∉ s.touches
  · exact handles_same ((m.perform_frame s).tasks htouches)
  · rw [not_not] at htouches
    cases s with
    | tmTick => exact absurd rfl hs
    | tCreate =>
      intro id t ht
      have heffect : Change.create.Effect m .tCreate m.tCreate.1.kernel.tasks := tCreate_effect
      rcases heffect with heq | ⟨hroom, new, -, hup⟩
      · exact ⟨t, (congrArg (fun tasks : Table Task => tasks[id]?) heq).trans ht,
          .unmoved (unmoved_refl t)⟩
      · refine ⟨t, (hup.2 id ?_).trans ht, .unmoved (unmoved_refl t)⟩
        rintro rfl
        rw [nextId_absent hn hroom] at ht
        cases ht
    | tStart => exact tStart_handles
    | tRestart => exact tRestart_handles
    | tDelete => exact tDelete_handles
    | tSuspend | tResume | tSetpri | tMode | tSetreg =>
      simp only [Machine.perform, Machine.tSuspend, Machine.tResume, Machine.setSuspended, Machine.tSetpri,
        Machine.tMode, Machine.tSetreg]
      repeat' split
      all_goals first
        | exact handles_same rfl
        | apply handles_one
          · assumption
          · exact .unmoved ⟨rfl, rfl, rfl⟩
    | qDelete =>
      exact handles_quiet
        (Kernel.deleteQueue_pointwise unmovedOrServed_refl (dropWaiter_served _) m.kernel)
    | qSend kind =>
      simp only [Machine.perform, Machine.qSendAs_kernel]
      exact handles_quiet (Kernel.send_pointwise unmovedOrServed_refl
        (fun _ _ hw h => deliver_served hw h) hk kind (m.reg 1))
    | qReceive => exact qReceive_handles
    | evSend => exact evSend_handles
    | evReceive => exact evReceive_handles
    | smP => exact smP_handles
    | smV =>
      exact handles_quiet
        (Kernel.post_pointwise unmovedOrServed_refl (fun _ => wake_served) hk (m.reg 1))
    | tmWkafter => exact tmWkafter_handles
    | _ => exact absurd htouches (by simp [Service.touches])

end Services

/-! ## Ticks -/

namespace Kernel

/-- Of what is due, the events for this task. -/
def eventsFor (k : Kernel) (due : List (UInt32 × Timer)) (id : UInt32) : List UInt32 :=
  (due.filter fun d => k.taskId d.2.task = id).map fun d => d.2.events

theorem fire_current (k : Kernel) (d : UInt32 × Timer) : (k.fire d).current = k.current :=
  (k.fire_frame d).current (by simp)

theorem fire_tasks (k : Kernel) (d : UInt32 × Timer) (id : UInt32) :
    (k.fire d).tasks[id]? = k.tasks[id]?.map fun t =>
      (k.eventsFor [d] id).foldl Task.receiveEvents t := by
  have htasks : (k.fire d).tasks = (k.sendEvent d.2.task d.2.events).1.tasks := rfl
  rw [htasks]
  unfold sendEvent eventsFor
  dsimp only
  by_cases hid : k.taskId d.2.task = id
  · rw [hid]
    cases ht : k.tasks[id]? with
    | none => simp [ht]
    | some t => simp [hid]
  · have hother : id ≠ k.taskId d.2.task := Ne.symm hid
    split
    · simp [hid]
    · simp [get_insert, hother, hid]

theorem foldl_fire_tasks (due : List (UInt32 × Timer)) (k : Kernel) (id : UInt32) :
    (due.foldl fire k).tasks[id]? = k.tasks[id]?.map fun t =>
      (k.eventsFor due id).foldl Task.receiveEvents t := by
  induction due generalizing k with
  | nil => simp [eventsFor]
  | cons d due ih =>
    have htaskId : (k.fire d).taskId = k.taskId := by
      unfold taskId
      rw [fire_current]
    have hsplit : k.eventsFor (d :: due) id = k.eventsFor [d] id ++ (k.fire d).eventsFor due id := by
      unfold eventsFor
      rw [htaskId, ← List.map_append, ← List.filter_append]
      rfl
    rw [List.foldl_cons, ih, fire_tasks, hsplit, Option.map_map]
    congr 1
    funext t
    rw [Function.comp_apply, List.foldl_append]

theorem tick_tasks_get (k : Kernel) (id : UInt32) : k.tick.tasks[id]? = k.tasks[id]?.map fun t =>
    (k.eventsFor k.advance.dueTimers id).foldl Task.receiveEvents (t.expire (satAdd k.ticks 1)) := by
  have hadvance : k.advance.tasks[id]? = k.tasks[id]?.map (Task.expire (satAdd k.ticks 1)) :=
    get_mapValues _ _ _
  unfold tick
  rw [foldl_fire_tasks, hadvance, Option.map_map]
  rfl

end Kernel

/-! ## No lost wake-up -/

/-- A task that waits for events has not got those that it asked for. -/
def Task.Missing (t : Task) : Prop :=
  t.wait = .events → eventsMet t.waitFlags t.mask t.matched = false

/-- The deadline of a blocked task is still to come. -/
def Task.InTime (ticks : UInt64) (t : Task) : Prop :=
  t.state = .blocked → t.untilTick = noDeadline ∨ ticks < t.untilTick

/-- Nobody waits for what is there, or beyond a deadline. -/
structure Alert (k : Kernel) : Prop where
  missing : ∀ (id : UInt32) (t : Task), k.tasks[id]? = some t → t.Missing
  inTime : ∀ (id : UInt32) (t : Task), k.tasks[id]? = some t → t.InTime k.ticks
  unheard : ∀ (queue : UInt32) (q : Queue), k.queues[queue]? = some q → q.messages ≠ [] →
    Unheard k queue

/-- Fewer events meet no more. -/
theorem eventsMet_fewer {flags mask arrived kept : UInt32} (hmask : arrived &&& mask = arrived)
    (h : eventsMet flags mask arrived = false) : eventsMet flags mask (arrived &&& kept) = false := by
  unfold eventsMet at h ⊢
  split at h
  · next hany =>
    rw [if_pos hany]
    have hnone : arrived = 0 := by simpa using h
    simp [hnone]
  · next hall =>
    rw [if_neg hall, beq_eq_false_iff_ne]
    intro heq
    refine absurd h ?_
    rw [Bool.not_eq_false, beq_iff_eq, ← hmask, ← heq, ← UInt32.and_assoc, UInt32.and_self]

/-- The task with the events that it asked for, of those that have arrived. -/
def Task.granted (t : Task) (arrived : UInt32) : Task :=
  { t with
    events := arrived &&& ~~~(arrived &&& t.mask)
    cpu := (t.cpu.setDar 0 0).setDar 4 (arrived &&& t.mask)
    state := .ready
    wait := .none
    untilTick := 0 }

/-- Events that a task waits for are granted as soon as they meet what it asked for. -/
def Task.grantable (t : Task) (arrived : UInt32) : Prop :=
  t.wait = .events ∧ eventsMet t.waitFlags t.mask (arrived &&& t.mask) = true

instance (t : Task) (arrived : UInt32) : Decidable (t.grantable arrived) :=
  inferInstanceAs (Decidable (_ ∧ _))

theorem receiveEvents_eq (t : Task) (bits : UInt32) : t.receiveEvents bits =
    if t.grantable (t.events ||| bits) then t.granted (t.events ||| bits)
    else { t with events := t.events ||| bits } := rfl

theorem receiveEvents_missing (t : Task) (bits : UInt32) : (t.receiveEvents bits).Missing := by
  rw [receiveEvents_eq]
  split
  · exact fun hw => Wait.noConfusion hw
  · next hunmet =>
    intro hwait
    exact Bool.eq_false_iff.mpr fun hmet => hunmet ⟨hwait, hmet⟩

theorem receiveEvents_wait (t : Task) (bits : UInt32) :
    ((t.receiveEvents bits).wait = t.wait ∧ (t.receiveEvents bits).waitObject = t.waitObject ∧
        (t.receiveEvents bits).state = t.state ∧ (t.receiveEvents bits).untilTick = t.untilTick) ∨
      (t.receiveEvents bits).wait = .none ∧ (t.receiveEvents bits).state = .ready := by
  rw [receiveEvents_eq]
  split
  · exact .inr ⟨rfl, rfl⟩
  · exact .inl ⟨rfl, rfl, rfl, rfl⟩

theorem receiveEvents_inTime {ticks : UInt64} {t : Task} (h : t.InTime ticks) (bits : UInt32) :
    (t.receiveEvents bits).InTime ticks := by
  intro hblocked
  rcases receiveEvents_wait t bits with ⟨-, -, hstate, huntil⟩ | ⟨-, hready⟩
  · rw [huntil]
    exact h (hstate.symm.trans hblocked)
  · cases hready.symm.trans hblocked

theorem expire_missing {t : Task} (h : t.Missing) (ticks : UInt64) : (t.expire ticks).Missing := by
  unfold Task.expire
  split
  · exact fun hw => absurd hw (by simp [Task.wake])
  · exact h

theorem expire_inTime (ticks : UInt64) (t : Task) : (t.expire ticks).InTime ticks := by
  unfold Task.expire
  split
  · exact fun hb => absurd hb (by simp [Task.wake])
  · next hrunning =>
    intro hblocked
    by_cases hnever : t.untilTick = noDeadline
    · exact .inl hnever
    · refine .inr (UInt64.not_le.mp fun hdue => hrunning ⟨hblocked, hnever, hdue⟩)

theorem deadline_later (m : Machine φ β) :
    m.deadline = noDeadline ∨ m.kernel.ticks < m.deadline := by
  unfold Machine.deadline
  split
  · exact .inl rfl
  · next htimeout =>
    by_cases hroom : m.kernel.ticks.toNat + (m.reg 6).toUInt64.toNat < 2 ^ 64
    · refine .inr (UInt64.lt_iff_toNat_lt.mpr ?_)
      have hpositive : (m.reg 6).toNat ≠ 0 := fun h => htimeout (UInt32.toNat_inj.mp h)
      rw [satAdd_toNat hroom, UInt32.toNat_toUInt64]
      omega
    · exact .inl (if_neg hroom)

section Handled

variable {m : Machine φ β} {s : Service} {id : UInt32} {t t' : Task}

theorem change_block_events {object : UInt32} (h : m.change s = .block .events object) :
    s = .evReceive ∧ m.reg 4 ≠ 0 ∧ ∀ t, m.kernel.tasks[m.kernel.current]? = some t →
      eventsMet (m.reg 5) (m.reg 4) (t.events &&& m.reg 4) = false := by
  cases s <;> simp only [Machine.change] at h <;> (repeat' split at h) <;>
    first
      | cases h; done
      | skip
  next t ht hwhy =>
    refine ⟨rfl, hwhy.1, fun t' ht' => ?_⟩
    obtain rfl := Option.some.inj (ht.symm.trans ht')
    exact hwhy.2.1

theorem Handled.missing (h : Handled m s id t t') (ht : m.kernel.tasks[id]? = some t)
    (hmissing : t.Missing) : t'.Missing := by
  have hsame : t'.wait = t.wait → t'.letters = t.letters → t'.Missing := by
    intro hwait hletters
    obtain ⟨hevents, hmask, hflags⟩ :
        t'.events = t.events ∧ t'.mask = t.mask ∧ t'.waitFlags = t.waitFlags := by
      simpa only [Task.letters, Prod.mk.injEq] using hletters
    intro hw
    have h := hmissing (hwait.symm.trans hw)
    simpa only [Task.matched, hevents, hmask, hflags] using h
  cases h with
  | unmoved h => exact hsame (core_eq h.1).2.2.1 h.2.2
  | served h => exact fun hw => absurd (h.wait.symm.trans hw) (by decide)
  | moved hmoves hstate hrest => exact hsame (core_eq hrest.1).2.2.1 hrest.2.2
  | sent hs hid h =>
    rw [h]
    exact receiveEvents_missing t _
  | took hs hid hasked hmet h =>
    intro hw
    rw [h] at hw ⊢
    have hmatched : t.events &&& ~~~(t.events &&& m.reg 4) &&& t.mask =
        t.matched &&& ~~~(t.events &&& m.reg 4) := by
      rw [Task.matched, UInt32.and_assoc, UInt32.and_comm (~~~_), ← UInt32.and_assoc]
    show eventsMet t.waitFlags t.mask (t.events &&& ~~~(t.events &&& m.reg 4) &&& t.mask) = false
    rw [hmatched]
    refine eventsMet_fewer ?_ (hmissing hw)
    rw [Task.matched, UInt32.and_assoc, UInt32.and_self]
  | blocked wait object hchange hid h =>
    intro hw
    rw [h] at hw ⊢
    obtain rfl : wait = .events := hw
    obtain ⟨-, -, hunmet⟩ := change_block_events hchange
    exact hunmet t (hid ▸ ht)

theorem Handled.inTime (h : Handled m s id t t') (hin : t.InTime m.kernel.ticks) :
    t'.InTime m.kernel.ticks := by
  cases h with
  | unmoved h =>
    intro hb
    rw [h.2.1]
    exact hin ((core_eq h.1).2.1.symm.trans hb)
  | served h => exact fun hb => absurd (h.ready.symm.trans hb) (by decide)
  | moved hmoves hstate hrest =>
    intro hb
    rcases hstate with hready | hdead
    · cases hready.symm.trans hb
    · cases hdead.symm.trans hb
  | sent hs hid h => exact h ▸ receiveEvents_inTime hin _
  | took hs hid hasked hmet h => exact h ▸ hin
  | blocked wait object hchange hid h => exact fun _ => h ▸ deadline_later m

/-- Who waits for a message after a service did so before, or is the caller. -/
theorem Handled.listens (h : Handled m s id t t') (hw : t'.wait = .queue) :
    t.wait = .queue ∧ t'.waitObject = t.waitObject ∨ m.change s = .block .queue t'.waitObject := by
  cases h with
  | unmoved h => exact .inl ⟨(core_eq h.1).2.2.1.symm.trans hw, (core_eq h.1).2.2.2⟩
  | served h => cases h.wait.symm.trans hw
  | moved hmoves hstate hrest =>
    exact .inl ⟨(core_eq hrest.1).2.2.1.symm.trans hw, (core_eq hrest.1).2.2.2⟩
  | sent hs hid h =>
    subst h
    rcases receiveEvents_wait t (m.reg 4) with ⟨hwait, hobject, -⟩ | ⟨hnone, -⟩
    · exact .inl ⟨hwait.symm.trans hw, hobject⟩
    · cases hnone.symm.trans hw
  | took hs hid hasked hmet h =>
    subst h
    exact .inl ⟨hw, rfl⟩
  | blocked wait object hchange hid h =>
    subst h
    obtain rfl : wait = .queue := hw
    exact .inr hchange

end Handled

/-- A task that was not there before a creation awaits nothing. -/
theorem create_silent [GuestBus β] {k : Kernel} {name priority user superSize vbr : UInt32} {bus : β}
    {id : UInt32} {t : Task}
    (ht : (k.create name priority user superSize bus vbr).1.tasks[id]? = some t) :
    k.tasks[id]? = some t ∨ t.wait = .none ∧ t.state = .created := by
  obtain ⟨regions, hr⟩ := k.reserve_frame user superSize
  have htasks : (k.reserve user superSize).tasks = k.tasks := by rw [hr]
  rcases k.create_cases name priority user superSize vbr bus with h | ⟨-, h | ⟨new, hcore, -, h⟩⟩
  · rw [h] at ht
    exact .inl ht
  · rw [h, htasks] at ht
    exact .inl ht
  · rw [h] at ht
    simp only [Kernel.setTask, get_insert, htasks] at ht
    split at ht
    · obtain rfl := Option.some.inj ht
      exact .inr ⟨congrArg (fun c => c.wait) hcore, congrArg (fun c => c.state) hcore⟩
    · exact .inl ht

section Steps

variable [M68k φ] [GuestBus β] {m : Machine φ β}

omit [M68k φ] [GuestBus β] in
theorem counted_change {s : Service} : m.counted.change s = m.change s := by cases s <;> rfl

/-- Where the tasks after a service come from. -/
theorem performed_handled (hwf : WF m.kernel) (ha : m.kernel.active = true) {s : Service}
    (hs : s ≠ .tmTick) {id : UInt32} {t' : Task} (ht' : (performed m s).1.kernel.tasks[id]? = some t') :
    (∃ t, m.kernel.tasks[id]? = some t ∧ Handled m.counted s id t t') ∨
      m.kernel.tasks[id]? = none ∧ t'.wait = .none ∧ t'.state = .created := by
  cases ht : m.kernel.tasks[id]? with
  | some t =>
    obtain ⟨u, hu, h⟩ := @perform_handles _ _ m.counted _ _ hwf.keyed hwf.numbered s hs id t ht
    obtain rfl := Option.some.inj (hu.symm.trans ht')
    exact .inl ⟨t, rfl, h⟩
  | none =>
    rcases effect_origin (performed_effect hwf.keyed (hwf.current ha) s) ht' with
      ⟨t, ht0, -⟩ | ⟨hcreate, -⟩
    · cases ht.symm.trans ht0
    · obtain rfl := Machine.change_create hcreate
      have hcreated : (m.counted.kernel.create (m.reg 1) (m.reg 2) (m.reg 3) (m.reg 4) m.bus
          m.cpu.vbr).1.tasks[id]? = some t' := ht'
      rcases create_silent hcreated with h | h
      · cases ht.symm.trans h
      · exact .inr ⟨rfl, h⟩

/-- Nobody waits for a message that a service leaves in a queue. -/
theorem performed_unheard (hwf : WF m.kernel) (ha : m.kernel.active = true) {s : Service}
    (hs : s ≠ .tmTick) (h : Alert m.kernel) {queue : UInt32} {q : Queue}
    (hq : (performed m s).1.kernel.queues[queue]? = some q) (hmessages : q.messages ≠ []) :
    Unheard (performed m s).1.kernel queue := by
  have hchange := performed_queue hwf.keyed s queue
  rw [hq] at hchange
  have hkept : Unheard m.kernel queue → m.change s ≠ .block .queue queue →
      Unheard (performed m s).1.kernel queue := by
    rintro hunheard hblock id t' ht' hw rfl
    rcases performed_handled hwf ha hs ht' with ⟨t, ht, hhandled⟩ | ⟨-, hnone, -⟩
    · rcases hhandled.listens hw with ⟨hwait, hobject⟩ | hcounted
      · exact hunheard id t ht hwait hobject.symm
      · exact hblock (counted_change.symm.trans hcounted)
    · cases hnone.symm.trans hw
  have hempty : m.change s = .block .queue queue →
      ∃ q0, m.kernel.queues[queue]? = some q0 ∧ q0.messages = [] := by
    intro hblock
    obtain ⟨-, -, -, q0, hq0, hempty⟩ := change_block_queue hblock
    exact ⟨q0, hq0, hempty⟩
  cases hchange with
  | same hsame =>
    refine hkept (h.unheard queue q hsame.symm hmessages) fun hblock => ?_
    obtain ⟨q0, hq0, hnone⟩ := hempty hblock
    obtain rfl := Option.some.inj (hsame.trans hq0)
    exact hmessages hnone
  | made ho hafter hnone => exact absurd (Option.some.inj hafter ▸ hnone) hmessages
  | gone ho hafter => cases hafter
  | received ho hbefore hfull hafter =>
    refine hkept (h.unheard queue _ hbefore (by simp [hfull])) fun hblock => ?_
    obtain ⟨q0, hq0, hnone⟩ := hempty hblock
    obtain rfl := Option.some.inj (hbefore.symm.trans hq0)
    simp [hfull] at hnone
  | sent ho hkind hbefore hunheard hafter => exact hkept hunheard fun hblock => by cases hblock

omit [M68k φ] [GuestBus β] in
theorem settles_alert {k k' : Kernel} (hs : Settles k k') (h : Alert k) : Alert k' where
  missing id t' ht' := by
    obtain ⟨t, ht, cpu, state, rfl, -⟩ := hs.tasks.after ht'
    exact h.missing id t ht
  inTime id t' ht' := by
    obtain ⟨t, ht, cpu, state, rfl, hstate⟩ := hs.tasks.after ht'
    rw [hs.ticks]
    intro hblocked
    rcases hstate with hsame | ⟨-, hready | hrunning⟩
    · exact h.inTime id t ht (hsame.symm.trans hblocked)
    · cases hready.symm.trans hblocked
    · cases hrunning.symm.trans hblocked
  unheard queue q hq hmessages id t' ht' hw := by
    obtain ⟨t, ht, cpu, state, rfl, -⟩ := hs.tasks.after ht'
    rw [(hs.scheduled.frame.queues (by simp)).1] at hq
    exact h.unheard queue q hq hmessages id t ht hw

omit [M68k φ] [GuestBus β] in
theorem blank_alert {k : Kernel} (h : Blank k) : Alert k where
  missing id t ht hw := by cases (h.fresh id t ht).2.1.symm.trans hw
  inTime id t ht hb := by
    rcases (h.fresh id t ht).2.2 with hs | hs | hs <;> cases hs.symm.trans hb
  unheard queue q hq := by cases (h.queues queue).symm.trans hq

omit [M68k φ] [GuestBus β] in
theorem foldl_receiveEvents_keeps {P : Task → Prop} (h : ∀ t bits, P t → P (t.receiveEvents bits))
    {t : Task} (ht : P t) (bits : List UInt32) : P (bits.foldl Task.receiveEvents t) := by
  induction bits generalizing t with
  | nil => exact ht
  | cons b bits ih => exact ih (h t b ht)

omit [M68k φ] [GuestBus β] in
theorem tick_alert {k : Kernel} (h : Alert k) : Alert k.tick := by
  have hticks : k.tick.ticks = satAdd k.ticks 1 := k.tick_ticks
  have hafter : ∀ {id : UInt32} {t' : Task}, k.tick.tasks[id]? = some t' →
      ∃ t, k.tasks[id]? = some t ∧
        t' = (k.eventsFor k.advance.dueTimers id).foldl Task.receiveEvents
          (t.expire (satAdd k.ticks 1)) := by
    intro id t' ht'
    rw [Kernel.tick_tasks_get, Option.map_eq_some_iff] at ht'
    obtain ⟨t, ht, heq⟩ := ht'
    exact ⟨t, ht, heq.symm⟩
  refine ⟨fun id t' ht' => ?_, fun id t' ht' => ?_, fun queue q hq hmessages id t' ht' hw => ?_⟩
  · obtain ⟨t, ht, rfl⟩ := hafter ht'
    exact foldl_receiveEvents_keeps (fun t bits _ => receiveEvents_missing t bits)
      (expire_missing (h.missing id t ht) _) _
  · obtain ⟨t, ht, rfl⟩ := hafter ht'
    rw [hticks]
    exact foldl_receiveEvents_keeps (P := Task.InTime (satAdd k.ticks 1))
      (fun _ bits h => receiveEvents_inTime h bits) (expire_inTime _ t) _
  · obtain ⟨t, ht, hr⟩ := k.tick_tasks.after ht'
    rw [(k.tick_frame.queues (by simp)).1] at hq
    rcases hr with hkept | hwoken
    · obtain ⟨-, -, hwait, hobject⟩ := core_eq hkept.1
      rw [hobject]
      exact h.unheard queue q hq hmessages id t ht (hwait.symm.trans hw)
    · cases hwoken.2.2.2.1.symm.trans hw

theorem step_alert (hwf : WF m.kernel) (h : Alert m.kernel) (a : Action φ β) :
    Alert (step m a).kernel := by
  cases step_works hwf a with
  | tick k hticks hframe hsettles =>
    refine settles_alert hsettles (tick_alert ?_)
    have htasks : k.tasks = m.kernel.tasks := hframe.tasks (by simp)
    refine ⟨?_, ?_, ?_⟩
    · rw [htasks]
      exact h.missing
    · rw [htasks, hticks]
      exact h.inTime
    · unfold Unheard
      rw [(hframe.queues (by simp)).1, htasks]
      exact h.unheard
  | service s hs hactive hsettles =>
    refine settles_alert hsettles ⟨fun id t' ht' => ?_, fun id t' ht' => ?_, fun queue q hq hm =>
      performed_unheard hwf hactive hs h hq hm⟩
    · rcases performed_handled hwf hactive hs ht' with ⟨t, ht, hhandled⟩ | ⟨-, hnone, -⟩
      · exact hhandled.missing ht (h.missing id t ht)
      · exact fun hw => by cases hnone.symm.trans hw
    · rw [show (performed m s).1.kernel.ticks = m.kernel.ticks from perform_ticks m.counted hs]
      rcases performed_handled hwf hactive hs ht' with ⟨t, ht, hhandled⟩ | ⟨-, -, hcreated⟩
      · exact hhandled.inTime (h.inTime id t ht)
      · exact fun hb => by cases hcreated.symm.trans hb
  | rest hsettles => exact settles_alert hsettles h
  | start hactive k hframe hstep =>
    rw [hstep]
    have hblank := blank_frame (hwf.blank hactive) hframe
    exact blank_alert (@initialize_blank _ _ _ _ { m with kernel := k } hblank
      (hframe.active.trans hactive)).1

theorem alert_reachable (hm : Reachable m) : Alert m.kernel := by
  obtain ⟨cpu, bus, acts, rfl⟩ := hm
  exact (run_invariant (I := fun m : Machine φ β => WF m.kernel ∧ Alert m.kernel)
    (fun m a h => ⟨wf_step h.1 a, step_alert h.1 h.2 a⟩) acts
    ⟨wf_reset cpu bus, blank_alert ((wf_reset cpu bus).blank rfl)⟩).2

/-- In no state that the machine can reach has a wake-up been lost: who waits for events has not got
what it asked for, who waits for a message waits on an empty queue, and who is blocked with a
timeout is so until a tick that is still to come. -/
theorem no_lost_wakeup (hm : Reachable m) {id : UInt32} {t : Task}
    (ht : m.kernel.tasks[id]? = some t) :
    (t.wait = .events → eventsMet t.waitFlags t.mask (t.events &&& t.mask) = false) ∧
      (∀ q, t.wait = .queue → m.kernel.queues[t.waitObject]? = some q → q.messages = []) ∧
      (t.state = .blocked → t.untilTick = noDeadline ∨ m.kernel.ticks < t.untilTick) := by
  have halert := alert_reachable hm
  refine ⟨halert.missing id t ht, fun q hw hq => ?_, halert.inTime id t ht⟩
  by_contra hmessages
  exact halert.unheard t.waitObject q hq hmessages id t ht hw rfl

end Steps

/-- ROOT is about to ask for event 1, for five ticks at most. -/
def asking : Machine UInt16 Board := step booted (loading booted [(0, 0x2d), (4, 1), (5, 0), (6, 5)])

theorem root_waits_for_event :
    ∃ t, (step asking (.trap 11 none)).kernel.tasks[(0x10000 : UInt32)]? = some t ∧
      t.wait = .events ∧ eventsMet t.waitFlags t.mask (t.events &&& t.mask) = false ∧
      (step asking (.trap 11 none)).kernel.ticks < t.untilTick := by
  have hreach : Reachable (step asking (.trap 11 none)) :=
    reachable_step (reachable_step booted_reachable _) _
  have hget : ((step asking (.trap 11 none)).kernel.tasks[(0x10000 : UInt32)]?).map
      (fun t => (t.wait, t.state, t.untilTick)) = some (.events, .blocked, 5) := by
    simp only [asking, booted_eq]
    decide +kernel
  obtain ⟨t, ht, hfields⟩ := Option.map_eq_some_iff.mp hget
  simp only [Prod.mk.injEq] at hfields
  obtain ⟨hwait, hblocked, huntil⟩ := hfields
  obtain ⟨hunmet, -, hdeadline⟩ := no_lost_wakeup hreach ht
  refine ⟨t, ht, hwait, hunmet hwait, (hdeadline hblocked).resolve_left ?_⟩
  rw [huntil]
  decide

end OpenSaab.Psos
