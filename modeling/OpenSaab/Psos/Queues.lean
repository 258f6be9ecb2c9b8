import OpenSaab.Psos.Registration
import OpenSaab.Library.Deque

/-!
# Conservation of messages

Every queue of the kernel keeps the order of an abstract queue, and every message that a send has
accepted is stored in it, was taken from it by a receiver, or was dropped with the queue. As for
semaphores, this rests on the waiters being left to wait.
-/

namespace OpenSaab.Psos

open Std OpenSaab.Table OpenSaab.Runs OpenSaab.Deque

variable {φ β : Type}

/-! ## What the services do -/

/-- Nobody is registered as waiting for a message of this queue. -/
def Unheard (k : Kernel) (queue : UInt32) : Prop :=
  ∀ (id : UInt32) (t : Task), k.tasks[id]? = some t → t.wait = .queue → t.waitObject ≠ queue

theorem waiters_eq_nil {k : Kernel} {queue : UInt32} (h : k.waiters .queue queue = []) :
    Unheard k queue := by
  intro id t ht hw ho
  have hmem : t ∈ k.waiters .queue queue := Kernel.mem_waiters.mpr ⟨value_mem ht, hw, ho⟩
  rw [h] at hmem
  cases hmem

theorem send_gone {k : Kernel} (kind : SendKind) {queue : UInt32} (message : Message)
    (hq : k.queues[queue]? = none) : k.send kind queue message = (k, 5) := by
  unfold Kernel.send
  rw [hq]

/-- A send or an urgent send serves a waiter, is refused, or stores the message. -/
theorem send_cases {k : Kernel} (hk : Keyed k) {kind : SendKind} (hkind : kind ≠ .broadcast)
    {queue : UInt32} (message : Message) {q : Queue} (hq : k.queues[queue]? = some q) :
    (∃ t : Task, k.tasks[t.id]? = some t ∧ t.wait = .queue ∧ t.waitObject = queue ∧
        k.send kind queue message = (k.setTask t.id (t.deliver message), 0)) ∨
      k.send kind queue message = (k, 0x35) ∨
      Unheard k queue ∧ k.send kind queue message =
        ({ k with queues := k.queues.insert queue (q.push kind message) }, 0) := by
  unfold Kernel.send
  rw [hq]
  dsimp only
  cases hw : q.order (k.waiters .queue queue) with
  | cons t ts =>
    have hmem : t ∈ k.waiters .queue queue := Kernel.mem_order.mp (hw ▸ List.mem_cons_self)
    obtain ⟨hv, hwait, hobj⟩ := Kernel.mem_waiters.mp hmem
    have ht := Kernel.get_of_mem_values hk hv
    refine Or.inl ⟨t, ht, hwait, hobj, ?_⟩
    simp only [ne_eq, reduceCtorEq, not_false_eq_true, if_true, hkind, if_false, List.take_succ_cons,
      List.take_zero, List.foldl_cons, List.foldl_nil, Kernel.deliverTo, ht, Kernel.setTask]
  | nil =>
    have hnone := waiters_eq_nil (Kernel.order_eq_nil.mp hw)
    simp only [ne_eq, not_true_eq_false, if_false, hkind]
    cases q.full with
    | true => exact Or.inr (Or.inl rfl)
    | false => exact Or.inr (Or.inr ⟨hnone, rfl⟩)

theorem foldl_deliverTo_get (message : Message) (ws : List Task) (k : Kernel) {id : UInt32}
    (hid : ∀ t ∈ ws, t.id ≠ id) :
    (ws.foldl (Kernel.deliverTo message) k).tasks[id]? = k.tasks[id]? := by
  induction ws generalizing k with
  | nil => rfl
  | cons w ws ih =>
    rw [List.foldl_cons, ih _ fun t ht => hid t (List.mem_cons_of_mem _ ht)]
    unfold Kernel.deliverTo
    split
    · rfl
    · exact get_insert_ne _ _ (hid w List.mem_cons_self).symm

/-- No send touches a task that does not wait on the queue. -/
theorem send_spares {k : Kernel} (hk : Keyed k) (kind : SendKind) {queue : UInt32}
    (message : Message) {id : UInt32} {t : Task} (ht : k.tasks[id]? = some t)
    (hw : ¬ (t.wait = .queue ∧ t.waitObject = queue)) :
    (k.send kind queue message).1.tasks[id]? = some t := by
  unfold Kernel.send
  split
  · exact ht
  · next q hq =>
    dsimp only
    split
    · rw [foldl_deliverTo_get _ _ _ ?_, ht]
      rintro w hmem rfl
      obtain ⟨hv, hwait, hobj⟩ :=
        Kernel.mem_waiters.mp (Kernel.mem_order.mp (List.mem_of_mem_take hmem))
      obtain rfl : w = t := by simpa [ht] using (Kernel.get_of_mem_values hk hv).symm
      exact hw ⟨hwait, hobj⟩
    · split
      · exact ht
      · split <;> exact ht

/-- All that a service can do to a queue. -/
inductive QueueChange (m : Machine φ β) (o : UInt32) (after : Option Queue) : Service → Prop where
  | same {s : Service} (h : after = m.kernel.queues[o]?) : QueueChange m o after s
  | made {q : Queue} (ho : o = m.kernel.nextQueue) (h : after = some q) (hq : q.messages = []) :
      QueueChange m o after .qCreate
  | gone (ho : o = m.reg 1) (h : after = none) : QueueChange m o after .qDelete
  | received {q : Queue} {message : Message} {messages : List Message} (ho : o = m.reg 1)
      (hq : m.kernel.queues[o]? = some q) (hm : q.messages = message :: messages)
      (h : after = some { q with messages }) : QueueChange m o after .qReceive
  | sent {q : Queue} {kind : SendKind} (ho : o = m.reg 1) (hkind : kind ≠ .broadcast)
      (hq : m.kernel.queues[o]? = some q) (hn : Unheard m.kernel o)
      (h : after = some (q.push kind m.messageArg)) : QueueChange m o after (.qSend kind)

theorem qCreate_change [GuestBus β] (m : Machine φ β) (o : UInt32) :
    QueueChange m o m.qCreate.1.kernel.queues[o]? .qCreate := by
  unfold Machine.qCreate
  dsimp only
  split
  · exact .same rfl
  · by_cases ho : o = m.kernel.nextQueue
    · subst ho
      exact .made rfl TreeMap.getElem?_insert_self rfl
    · exact .same (get_insert_ne _ _ ho)

theorem qDelete_change (m : Machine φ β) (o : UInt32) :
    QueueChange m o m.qDelete.1.kernel.queues[o]? .qDelete := by
  unfold Machine.qDelete Kernel.deleteQueue
  dsimp only
  split
  · by_cases ho : o = m.reg 1
    · subst ho
      exact .gone rfl TreeMap.getElem?_erase_self
    · refine .same ?_
      simp only [get_erase, if_neg ho]
  · exact .same rfl

theorem qReceive_change (m : Machine φ β) (o : UInt32) :
    QueueChange m o m.qReceive.1.kernel.queues[o]? .qReceive := by
  unfold Machine.qReceive
  split
  · exact .same rfl
  · next q hq =>
    split
    · next message messages hm =>
      by_cases ho : o = m.reg 1
      · subst ho
        exact .received rfl hq hm TreeMap.getElem?_insert_self
      · exact .same (get_insert_ne _ _ ho)
    · dsimp only
      split
      · exact .same rfl
      · refine .same ?_
        rw [block_queues]

theorem qSendAs_change {m : Machine φ β} (hk : Keyed m.kernel) (kind : SendKind) (o : UInt32) :
    QueueChange m o (m.qSendAs kind).1.kernel.queues[o]? (.qSend kind) := by
  rw [Machine.qSendAs_kernel]
  cases hq : m.kernel.queues[m.reg 1]? with
  | none =>
    rw [send_gone kind m.messageArg hq]
    exact .same rfl
  | some q =>
    by_cases hkind : kind = .broadcast
    · subst hkind
      refine .same ?_
      unfold Kernel.send
      rw [hq]
      dsimp only
      split
      · rw [((Kernel.foldl_deliverTo_frame _ _ _).queues (by simp)).1]
      · rfl
    · rcases send_cases hk hkind m.messageArg hq with ⟨t, -, -, -, h⟩ | h | ⟨hnone, h⟩
      · rw [h]
        exact .same rfl
      · rw [h]
        exact .same rfl
      · rw [h]
        by_cases ho : o = m.reg 1
        · subst ho
          exact .sent rfl hkind hq hnone TreeMap.getElem?_insert_self
        · exact .same (get_insert_ne _ _ ho)

theorem performed_queue [M68k φ] [GuestBus β] {m : Machine φ β} (hk : Keyed m.kernel) (s : Service)
    (o : UInt32) : QueueChange m o (performed m s).1.kernel.queues[o]? s := by
  by_cases hn : .queues ∉ s.touches
  · exact .same (by rw [((performed_frame m s).queues hn).1])
  · rw [not_not] at hn
    have hk' : Keyed m.counted.kernel := hk
    cases s with
    | qCreate =>
      cases qCreate_change m.counted o with
      | same h => exact .same h
      | made ho h hq => exact .made ho h hq
    | qDelete =>
      cases qDelete_change m.counted o with
      | same h => exact .same h
      | gone ho h => exact .gone ho h
    | qReceive =>
      cases qReceive_change m.counted o with
      | same h => exact .same h
      | received ho hq hm h => exact .received ho hq hm h
    | qSend kind =>
      cases qSendAs_change hk' kind o with
      | same h => exact .same h
      | sent ho hkind hq hnone h => exact .sent ho hkind hq hnone h
    | _ => exact absurd hn (by simp [Service.touches])

/-! ## The invariant -/

/-- The tasks that wait for a message are registered, with a queue that is there and empty. -/
structure MessagesOwed (k : Kernel) : Prop where
  registered : Registered .queue k
  empty : ∀ (id : UInt32) (t : Task), k.tasks[id]? = some t → t.wait = .queue →
    ∃ q, k.queues[t.waitObject]? = some q ∧ q.messages = []

/-- No waiter is started or deleted, a task that is to wait leaves the CPU to another, and a new
queue gets an identifier that no queue has. -/
def MessagesOrderly (m : Machine φ β) (a : Action φ β) : Prop :=
  ∀ s, called m a = some s →
    Orderly .queue m (m.change s) ∧ (s = .qCreate → m.kernel.nextQueue ∉ m.kernel.queues)

theorem messagesOwed_unheard {k : Kernel} (h : MessagesOwed k) {o : UInt32} {q : Queue}
    (hq : k.queues[o]? = some q) (hm : q.messages ≠ []) : Unheard k o := by
  rintro id t ht hw rfl
  obtain ⟨q', hq', hm'⟩ := h.empty id t ht hw
  obtain rfl : q = q' := by simpa [hq] using hq'
  exact hm hm'

theorem gone_unheard {k : Kernel} (h : MessagesOwed k) {o : UInt32} (hq : o ∉ k.queues) :
    Unheard k o := by
  rintro id t ht hw rfl
  obtain ⟨q, hq', -⟩ := h.empty id t ht hw
  rw [TreeMap.mem_iff_isSome_getElem?, hq'] at hq
  exact hq rfl

variable [M68k φ] [GuestBus β]

/-- Those who wait right after a service have an empty queue to wait on. -/
theorem performed_waits {m : Machine φ β} {s : Service} (hwf : WF m.kernel)
    (ha : m.kernel.active = true) (hm : MessagesOwed m.kernel)
    (horder : Orderly .queue m (m.change s))
    (hnew : s = .qCreate → m.kernel.nextQueue ∉ m.kernel.queues)
    (id : UInt32) (t' : Task) (ht' : (performed m s).1.kernel.tasks[id]? = some t')
    (hw : t'.wait = .queue) :
    ∃ q, (performed m s).1.kernel.queues[t'.waitObject]? = some q ∧ q.messages = [] := by
  have heff := performed_effect hwf.keyed (hwf.current ha) s
  have hchange := performed_queue hwf.keyed s t'.waitObject
  rcases effect_waiting heff hm.registered horder (by decide) ht' hw with
    ⟨t, ht, hk⟩ | ⟨hblock, -, -⟩
  · obtain ⟨-, gs, gw, go⟩ := core_eq hk.1
    have htw : t.wait = .queue := gw.symm.trans hw
    have hheard : ¬ Unheard m.kernel t'.waitObject := fun hn => hn id t ht htw go.symm
    obtain ⟨q, hq, hempty⟩ := hm.empty id t ht htw
    rw [← go] at hq
    cases hchange with
    | same h => exact ⟨q, h.trans hq, hempty⟩
    | made ho h hq' => exact absurd (ho ▸ gone_unheard hm (hnew rfl)) hheard
    | gone ho h =>
      have hlive : m.reg 1 ∈ m.kernel.queues := by
        rw [← ho, TreeMap.mem_iff_isSome_getElem?, hq]
        rfl
      have hwoken := qDelete_wakes ht htw (go.symm.trans ho) hlive
      rw [ht'] at hwoken
      obtain rfl : t' = t.wake 0x36 := by simpa using hwoken
      cases hw
    | received ho hq' hm' h =>
      exact absurd (messagesOwed_unheard hm hq' (by simp [hm'])) hheard
    | sent ho hkind hq' hnone h => exact absurd hnone hheard
  · obtain ⟨rfl, ho, -, q, hq, hempty⟩ := change_block_queue hblock
    cases hchange with
    | same h => exact ⟨q, h.trans hq, hempty⟩
    | received ho' hq' hm' h =>
      obtain rfl : q = _ := by simpa [hq] using hq'
      simp [hempty] at hm'

theorem step_messagesOwed {m : Machine φ β} (hwf : WF m.kernel) (hm : MessagesOwed m.kernel)
    (a : Action φ β) (horder : MessagesOrderly m a) : MessagesOwed (step m a).kernel := by
  cases step_cases hwf a with
  | service s hcalled ha hs =>
    obtain ⟨hord, hnew⟩ := horder s hcalled
    have hsched := Machine.finish_scheduled (performed_keyed hwf ha s)
    rw [hs]
    refine ⟨service_registered hwf ha hm.registered (by decide) hord, fun id t'' ht'' hw => ?_⟩
    obtain ⟨t', ht', hset⟩ := hsched.tasks.after ht''
    rw [hset.2.2.1, (hsched.frame.queues (by simp)).1]
    exact performed_waits hwf ha hm hord hnew id t' ht' (hset.2.1.symm.trans hw)
  | rest hcalled hr hidle =>
    refine ⟨rests_registered hr hm.registered (by decide), fun id t'' ht'' hw => ?_⟩
    obtain ⟨k1, hframe, htasks, hsched, -⟩ := hr
    obtain ⟨t', ht', hset⟩ := hsched.tasks.after ht''
    obtain ⟨t, ht, hk⟩ := htasks.after ht'
    rw [hset.2.2.1, (hsched.frame.queues (by simp)).1, (hframe.queues (by simp)).1]
    have hw' : t'.wait = .queue := hset.2.1.symm.trans hw
    rcases hk with hk | ⟨-, -, -, hn, -⟩
    · obtain ⟨-, -, gw, go⟩ := core_eq hk.1
      rw [go]
      exact hm.empty id t ht (gw.symm.trans hw')
    · cases hw'.symm.trans hn
  | start hcalled ha hblank hwf' =>
    refine ⟨blank_registered hblank (by decide), fun id t ht hw => ?_⟩
    cases hw.symm.trans (hblank.fresh id t ht).2.1

/-! ## The ledger of a queue -/

/-- `d2` to `d5`. -/
def message (regs : Vector UInt32 16) : Message := #v[regs[2], regs[3], regs[4], regs[5]]

omit [M68k φ] [GuestBus β] in
/-- The messages that are stored. -/
def contents (queue : UInt32) (m : Machine φ β) : List Message :=
  match m.kernel.queues[queue]? with
  | none => []
  | some q => q.messages

/-- A call of `q_receive` that returns a message to its caller, who goes on. -/
def receivedAtOnce (queue : UInt32) (m : Machine φ β) (a : Action φ β) : Bool :=
  called m a == some .qReceive && m.reg 1 == queue && (performed m .qReceive).2 == 0 &&
    !parked m (step m a) .queue queue

/-- The message that a send or an urgent send has accepted. -/
def sentMoves (queue : UInt32) (m : Machine φ β) (a : Action φ β) : List (Move Message) :=
  match called m a with
  | some (.qSend kind) =>
    if kind ≠ .broadcast ∧ m.reg 1 = queue ∧ (performed m (.qSend kind)).2 = 0 then
      [if kind = .urgent then .jump m.messageArg else .put m.messageArg]
    else []
  | _ => []

/-- The messages in the registers of the receivers that return with success. What a broadcast hands
out was not accepted by a send. -/
def takenMoves (queue : UInt32) (m : Machine φ β) (a : Action φ β) : List (Move Message) :=
  (if receivedAtOnce queue m a then [.take (message (performed m .qReceive).1.cpu.dar)] else []) ++
    if called m a = some (.qSend .broadcast) then []
    else
      (released m (step m a) .queue queue).map fun id => .take (message ((step m a).registers id))

def clearedMoves (queue : UInt32) (m : Machine φ β) (a : Action φ β) : List (Move Message) :=
  if called m a = some .qDelete ∧ m.reg 1 = queue ∧ (performed m .qDelete).2 = 0 then [.clear]
  else []

/-- What a step does to the messages of a queue, as its callers see it. -/
def moves (queue : UInt32) (m : Machine φ β) (a : Action φ β) : List (Move Message) :=
  sentMoves queue m a ++ takenMoves queue m a ++ clearedMoves queue m a

omit [M68k φ] [GuestBus β] in
theorem message_deliver (t : Task) (v : Message) : message (t.deliver v).cpu.dar = v := by
  apply Vector.ext
  intro i hi
  match i, hi with
  | 0, _ | 1, _ | 2, _ | 3, _ => simp [message, Task.deliver, Context.setDar]

omit [M68k φ] [GuestBus β] in
theorem message_setMessage (m : Machine φ β) (v : Message) :
    message (m.setMessage v).cpu.dar = v := by
  apply Vector.ext
  intro i hi
  match i, hi with
  | 0, _ | 1, _ | 2, _ | 3, _ =>
    simp [message, Machine.setMessage, Machine.setD, CpuCore.setD, CpuCore.setDar]

omit [M68k φ] [GuestBus β] in
theorem push_messages (q : Queue) (kind : SendKind) (v : Message) :
    (q.push kind v).messages = if kind = .urgent then v :: q.messages else q.messages ++ [v] := rfl

section

variable {m : Machine φ β} {a : Action φ β} {queue : UInt32} {l : Ledger Message}

theorem finish_queues (hwf : WF m.kernel) (ha : m.kernel.active = true) (s : Service) :
    (Machine.finish (performed m s)).kernel.queues = (performed m s).1.kernel.queues :=
  ((Machine.finish_scheduled (performed_keyed hwf ha s)).frame.queues (by simp)).1

/-- A step in which the callers see nothing, and the queue is left alone. -/
theorem silent_ledger (hmoves : moves queue m a = [])
    (hsame : contents queue (step m a) = contents queue m) (hl : l.values = contents queue m) :
    ∃ l', l.replay (moves queue m a) = some l' ∧ l'.values = contents queue (step m a) := by
  rw [hmoves, hsame]
  exact ⟨l, rfl, hl⟩

/-- The step is a call of a send or of an urgent send. -/
structure Sends (kind : SendKind) (m : Machine φ β) (a : Action φ β) : Prop where
  wf : WF m.kernel
  owed : MessagesOwed m.kernel
  active : m.kernel.active = true
  single : kind ≠ .broadcast
  called : called m a = some (.qSend kind)
  steps : step m a = Machine.finish (performed m (.qSend kind))

namespace Sends

variable {kind : SendKind}

theorem kernel_eq (m : Machine φ β) :
    (performed m (.qSend kind)).1.kernel =
      (m.counted.kernel.send kind (m.reg 1) m.messageArg).1 :=
  m.counted.qSendAs_kernel kind

theorem status_eq (m : Machine φ β) :
    (performed m (.qSend kind)).2 = (m.counted.kernel.send kind (m.reg 1) m.messageArg).2 := rfl

theorem queues (h : Sends kind m a) :
    (step m a).kernel.queues = (m.counted.kernel.send kind (m.reg 1) m.messageArg).1.queues := by
  rw [h.steps, finish_queues h.wf h.active, kernel_eq]

theorem scheduled (h : Sends kind m a) :
    Scheduled (performed m (.qSend kind)).1.kernel (step m a).kernel := by
  rw [h.steps]
  exact Machine.finish_scheduled (performed_keyed h.wf h.active _)

/-- Nobody takes a message but a waiter that is released, and nothing is cleared. -/
theorem moves_eq (h : Sends kind m a) : moves queue m a =
    sentMoves queue m a ++
      (released m (step m a) .queue queue).map fun id => .take (message ((step m a).registers id)) := by
  have honce : receivedAtOnce queue m a = false := by simp [receivedAtOnce, h.called]
  have hcleared : clearedMoves queue m a = [] := by simp [clearedMoves, h.called]
  simp [moves, takenMoves, honce, hcleared, h.called, h.single]

/-- A send that is refused changes nothing. -/
theorem refused (h : Sends kind m a) (hl : l.values = contents queue m) {code : UInt32}
    (hcode : code ≠ 0)
    (heq : m.counted.kernel.send kind (m.reg 1) m.messageArg = (m.counted.kernel, code)) :
    ∃ l', l.replay (moves queue m a) = some l' ∧ l'.values = contents queue (step m a) := by
  refine silent_ledger ?_ ?_ hl
  · rw [h.moves_eq, released_kept h.scheduled (by rw [kernel_eq, heq]; rfl)]
    simp [sentMoves, h.called, status_eq, heq, hcode]
  · unfold contents
    rw [h.queues, heq]
    rfl

/-- A message that is handed over is sent and taken, and the waiter was alone with an empty
queue. -/
theorem handed (h : Sends kind m a) (hl : l.values = contents queue m) {t : Task}
    (ht : m.kernel.tasks[t.id]? = some t) (hwait : t.wait = .queue)
    (hobject : t.waitObject = m.reg 1)
    (heq : m.counted.kernel.send kind (m.reg 1) m.messageArg =
      (m.counted.kernel.setTask t.id (t.deliver m.messageArg), 0)) :
    ∃ l', l.replay (moves queue m a) = some l' ∧ l'.values = contents queue (step m a) := by
  have hsame : contents queue (step m a) = contents queue m := by
    unfold contents
    rw [h.queues, heq]
    rfl
  have hcarries : Carries (performed m (.qSend kind)).1.kernel (step m a) := by
    rw [h.steps]
    exact Machine.finish_carries _
  have hwoken : (performed m (.qSend kind)).1.kernel.tasks[t.id]? =
      some (t.deliver m.messageArg) := by
    rw [kernel_eq, heq]
    exact TreeMap.getElem?_insert_self
  have hreleased := released_handed h.scheduled hcarries (performed_current m _) h.owed.registered ht
    hwait (fun id hid => by rw [kernel_eq, heq]; exact get_insert_ne _ _ hid) hwoken rfl
    (by simp [Task.deliver, Context.setDar]) queue
  by_cases hreg : m.reg 1 = queue
  · subst hreg
    rw [if_pos hobject] at hreleased
    have hcurrent : t.id ≠ (performed m (.qSend kind)).1.kernel.current := by
      rw [performed_current]
      exact fun hid => h.owed.registered.offCpu t (hid ▸ ht) hwait
    have hregs : message ((step m a).registers t.id) = m.messageArg := by
      rw [hcarries t.id _ hwoken hcurrent, message_deliver]
    have hempty : l.values = [] := by
      obtain ⟨q, hq, hmessages⟩ := h.owed.empty _ t ht hwait
      rw [hobject] at hq
      simp [hl, contents, hq, hmessages]
    have hmoves : moves (m.reg 1) m a =
        [if kind = .urgent then .jump m.messageArg else .put m.messageArg, .take m.messageArg] := by
      simp [h.moves_eq, sentMoves, h.called, h.single, status_eq, heq, hreleased, hregs]
    rw [hmoves, hsame, ← hl, hempty]
    exact replay_hand (by split <;> simp) hempty
  · rw [hobject, if_neg hreg] at hreleased
    refine silent_ledger ?_ hsame hl
    simp [h.moves_eq, sentMoves, h.called, hreg, hreleased]

/-- A message that nobody waits for is stored, in front if it is urgent. -/
theorem stored (h : Sends kind m a) (hl : l.values = contents queue m) {q : Queue}
    (hq : m.kernel.queues[m.reg 1]? = some q)
    (heq : m.counted.kernel.send kind (m.reg 1) m.messageArg =
      ({ m.counted.kernel with
        queues := m.counted.kernel.queues.insert (m.reg 1) (q.push kind m.messageArg) }, 0)) :
    ∃ l', l.replay (moves queue m a) = some l' ∧ l'.values = contents queue (step m a) := by
  have hreleased : released m (step m a) .queue queue = [] :=
    released_kept h.scheduled (by rw [kernel_eq, heq]; rfl) _ _
  by_cases hreg : m.reg 1 = queue
  · subst hreg
    have hafter : contents (m.reg 1) (step m a) = (q.push kind m.messageArg).messages := by
      unfold contents
      rw [h.queues, heq]
      dsimp only
      rw [TreeMap.getElem?_insert_self]
    have hbefore : contents (m.reg 1) m = q.messages := by simp [contents, hq]
    have hmoves : moves (m.reg 1) m a =
        [if kind = .urgent then .jump m.messageArg else .put m.messageArg] := by
      simp [h.moves_eq, sentMoves, h.called, h.single, status_eq, heq, hreleased]
    rw [hmoves, hafter, push_messages, ← hbefore, ← hl]
    split
    · exact ⟨_, replay_jump l _, rfl⟩
    · exact ⟨_, replay_put l _, by simp [Ledger.values]⟩
  · refine silent_ledger ?_ ?_ hl
    · simp [h.moves_eq, sentMoves, h.called, hreg, hreleased]
    · unfold contents
      rw [h.queues, heq]
      dsimp only
      rw [get_insert_ne _ _ (Ne.symm hreg)]
      rfl

/-- The ledger over a send or an urgent send. -/
theorem ledger (h : Sends kind m a) (hl : l.values = contents queue m) :
    ∃ l', l.replay (moves queue m a) = some l' ∧ l'.values = contents queue (step m a) := by
  cases hq : m.kernel.queues[m.reg 1]? with
  | none => exact h.refused hl (by decide) (send_gone kind m.messageArg hq)
  | some q =>
    have hkeyed : Keyed m.counted.kernel := h.wf.keyed
    rcases send_cases hkeyed h.single m.messageArg hq with ⟨t, ht, hwait, hobject, heq⟩ | heq | ⟨-, heq⟩
    · exact h.handed hl ht hwait hobject heq
    · exact h.refused hl (by decide) heq
    · exact h.stored hl hq heq

end Sends

omit [M68k φ] [GuestBus β] in
/-- `q_receive` on a queue with messages. -/
theorem qReceive_takes {q : Queue} {v : Message} {messages : List Message}
    (hq : m.kernel.queues[m.reg 1]? = some q) (hm : q.messages = v :: messages) :
    m.qReceive.2 = 0 ∧ m.change .qReceive = .wake ∧ message m.qReceive.1.cpu.dar = v ∧
      m.qReceive.1.kernel.queues = m.kernel.queues.insert (m.reg 1) { q with messages } := by
  refine ⟨?_, by simp [Machine.change, hq, hm], ?_, ?_⟩
  · simp [Machine.qReceive, hq, hm]
  · simp only [Machine.qReceive, hq, hm]
    exact message_setMessage _ v
  · simp only [Machine.qReceive, hq, hm]
    rfl

omit [M68k φ] [GuestBus β] in
/-- `q_receive` on an empty queue: it blocks the caller, or it fails. -/
theorem qReceive_waits {q : Queue} (hq : m.kernel.queues[m.reg 1]? = some q)
    (hm : q.messages = []) :
    m.qReceive.1.kernel.queues = m.kernel.queues ∧
      (m.change .qReceive = .block .queue (m.reg 1) ∨ m.qReceive.2 ≠ 0) := by
  by_cases hflag : m.reg 5 &&& 1 = 0
  · refine ⟨?_, Or.inl (by simp [Machine.change, hq, hm, hflag])⟩
    simp only [Machine.qReceive, hq, hm, hflag, ne_eq, not_true_eq_false, if_false]
    exact ((m.kernel.block_frame _ _ _).queues (by simp)).1
  · simp only [Machine.qReceive, hq, hm, hflag, ne_eq, not_false_eq_true, if_true]
    exact ⟨rfl, Or.inr (by decide)⟩

omit [M68k φ] [GuestBus β] in
theorem qReceive_gone (hq : m.kernel.queues[m.reg 1]? = none) : m.qReceive = (m, 5) := by
  simp [Machine.qReceive, hq]

/-- The ledger over a call of `q_receive`. -/
theorem qReceive_ledger (hwf : WF m.kernel) (hm : MessagesOwed m.kernel)
    (ha : m.kernel.active = true) (hcalled : called m a = some .qReceive)
    (hs : step m a = Machine.finish (performed m .qReceive))
    (horder : Orderly .queue m (m.change .qReceive)) (hl : l.values = contents queue m) :
    ∃ l', l.replay (moves queue m a) = some l' ∧ l'.values = contents queue (step m a) := by
  have hreleased : released m (step m a) .queue queue = [] := by
    rw [hs]
    exact service_released_nil hwf ha hm.registered (Or.inr rfl) horder
      (by simp [Service.hands, noHanding]) queue
  have hqueues : (step m a).kernel.queues = (performed m .qReceive).1.kernel.queues := by
    rw [hs, finish_queues hwf ha]
  have hsilent : receivedAtOnce queue m a = false → moves queue m a = [] := by
    intro honce
    simp [moves, sentMoves, takenMoves, clearedMoves, hcalled, hreleased, honce]
  by_cases hreg : m.reg 1 = queue
  · subst hreg
    cases hq : m.kernel.queues[m.reg 1]? with
    | none =>
      have hgone : performed m .qReceive = (m.counted, 5) := @qReceive_gone _ _ m.counted hq
      refine silent_ledger (hsilent (by simp [receivedAtOnce, hgone])) ?_ hl
      unfold contents
      rw [hqueues, hgone]
      rfl
    | some q =>
      cases hmess : q.messages with
      | nil =>
        obtain ⟨hsame, hwait⟩ : (performed m .qReceive).1.kernel.queues = m.kernel.queues ∧
            (m.change .qReceive = .block .queue (m.reg 1) ∨ (performed m .qReceive).2 ≠ 0) :=
          @qReceive_waits _ _ m.counted q hq hmess
        refine silent_ledger (hsilent ?_) ?_ hl
        · rcases hwait with hblock | hstatus
          · have hother : OtherReady m := by
              rw [hblock] at horder
              exact horder rfl
            have hpark := block_parked hwf ha hblock hother
            rw [← hs] at hpark
            simp [receivedAtOnce, hpark]
          · simp [receivedAtOnce, hstatus]
        · unfold contents
          rw [hqueues, hsame]
      | cons v messages =>
        obtain ⟨hstatus, hwake, hdelivered, hafter⟩ : (performed m .qReceive).2 = 0 ∧
            m.change .qReceive = .wake ∧ message (performed m .qReceive).1.cpu.dar = v ∧
              (performed m .qReceive).1.kernel.queues =
                m.kernel.queues.insert (m.reg 1) { q with messages } :=
          @qReceive_takes _ _ m.counted q v messages hq hmess
        have hpark : parked m (step m a) .queue (m.reg 1) = false := by
          rw [hs]
          exact not_parked hwf ha hm.registered (by decide) horder (by simp [hwake])
        have hmoves : moves (m.reg 1) m a = [.take v] := by
          simp [moves, sentMoves, takenMoves, clearedMoves, receivedAtOnce, hcalled, hstatus, hpark,
            hdelivered, hreleased]
        have hbefore : l.values = v :: messages := by simp [hl, contents, hq, hmess]
        have hcontents : contents (m.reg 1) (step m a) = messages := by
          unfold contents
          rw [hqueues, hafter, TreeMap.getElem?_insert_self]
        rw [hmoves, hcontents]
        exact replay_take hbefore
  · refine silent_ledger (hsilent (by simp [receivedAtOnce, hreg])) ?_ hl
    unfold contents
    rw [hqueues]
    cases performed_queue hwf.keyed .qReceive queue with
    | same h => rw [h]
    | received ho => exact absurd ho.symm hreg

omit [M68k φ] [GuestBus β] in
theorem qDelete_live (h : m.reg 1 ∈ m.kernel.queues) :
    m.qDelete.2 = 0 ∧ m.qDelete.1.kernel.queues[m.reg 1]? = none := by
  simp only [Machine.qDelete, Kernel.deleteQueue, h, if_true]
  exact ⟨trivial, TreeMap.getElem?_erase_self⟩

omit [M68k φ] [GuestBus β] in
theorem qDelete_gone (h : m.reg 1 ∉ m.kernel.queues) : m.qDelete.2 ≠ 0 := by
  simp [Machine.qDelete, Kernel.deleteQueue, h]

/-- The ledger over a call of `q_delete`. -/
theorem qDelete_ledger (hwf : WF m.kernel) (hm : MessagesOwed m.kernel)
    (ha : m.kernel.active = true) (hcalled : called m a = some .qDelete)
    (hs : step m a = Machine.finish (performed m .qDelete))
    (horder : Orderly .queue m (m.change .qDelete)) (hl : l.values = contents queue m) :
    ∃ l', l.replay (moves queue m a) = some l' ∧ l'.values = contents queue (step m a) := by
  have hreleased : released m (step m a) .queue queue = [] := by
    rw [hs]
    exact service_released_nil hwf ha hm.registered (Or.inr rfl) horder
      (by simp [Service.hands, noHanding]) queue
  have hqueues : (step m a).kernel.queues = (performed m .qDelete).1.kernel.queues := by
    rw [hs, finish_queues hwf ha]
  have hmoves : moves queue m a = clearedMoves queue m a := by
    simp [moves, sentMoves, takenMoves, receivedAtOnce, hcalled, hreleased]
  have hchange := performed_queue hwf.keyed .qDelete queue
  by_cases hreg : m.reg 1 = queue
  · subst hreg
    by_cases hlive : m.reg 1 ∈ m.kernel.queues
    · obtain ⟨hstatus, hafter⟩ : (performed m .qDelete).2 = 0 ∧
          (performed m .qDelete).1.kernel.queues[m.reg 1]? = none :=
        @qDelete_live _ _ m.counted hlive
      have hcleared : clearedMoves (m.reg 1) m a = [.clear] := by
        simp [clearedMoves, hcalled, hstatus]
      rw [hmoves, hcleared]
      refine ⟨_, replay_clear l, ?_⟩
      unfold contents
      rw [hqueues, hafter]
      rfl
    · have hstatus : (performed m .qDelete).2 ≠ 0 := @qDelete_gone _ _ m.counted hlive
      have hnone : m.kernel.queues[m.reg 1]? = none := by
        rw [TreeMap.mem_iff_isSome_getElem?, Option.not_isSome_iff_eq_none] at hlive
        exact hlive
      refine silent_ledger ?_ ?_ hl
      · rw [hmoves]
        simp [clearedMoves, hstatus]
      · unfold contents
        rw [hqueues, hnone]
        cases hchange with
        | same h => rw [h, hnone]
        | gone ho h => rw [h]
  · refine silent_ledger ?_ ?_ hl
    · rw [hmoves]
      simp [clearedMoves, hreg]
    · unfold contents
      rw [hqueues]
      cases hchange with
      | same h => rw [h]
      | gone ho => exact absurd ho.symm hreg

/-- The ledger over the services that neither store, take nor drop a message. -/
theorem other_ledger {s : Service} (hwf : WF m.kernel) (hm : MessagesOwed m.kernel)
    (ha : m.kernel.active = true) (hcalled : called m a = some s)
    (hs : step m a = Machine.finish (performed m s)) (horder : Orderly .queue m (m.change s))
    (hnew : s = .qCreate → m.kernel.nextQueue ∉ m.kernel.queues) (hreceive : s ≠ .qReceive)
    (hdelete : s ≠ .qDelete) (hsend : ∀ kind, s = .qSend kind → kind = .broadcast)
    (hl : l.values = contents queue m) :
    ∃ l', l.replay (moves queue m a) = some l' ∧ l'.values = contents queue (step m a) := by
  refine silent_ledger ?_ ?_ hl
  · have honce : receivedAtOnce queue m a = false := by simp [receivedAtOnce, hcalled, hreceive]
    by_cases hbroadcast : s = .qSend .broadcast
    · subst hbroadcast
      simp [moves, sentMoves, takenMoves, clearedMoves, hcalled, honce]
    · have hnosend : ∀ kind, s ≠ .qSend kind := by
        rintro kind rfl
        exact hbroadcast (by rw [hsend kind rfl])
      have hreleased : released m (step m a) .queue queue = [] := by
        rw [hs]
        refine service_released_nil hwf ha hm.registered (Or.inr rfl) horder ?_ queue
        cases s <;> simp [Service.hands, noHanding] at hnosend ⊢
      have hsent : sentMoves queue m a = [] := by
        unfold sentMoves
        rw [hcalled]
        cases s <;> simp at hnosend ⊢
      simp [moves, hsent, takenMoves, clearedMoves, hcalled, honce, hreleased, hdelete]
  · unfold contents
    rw [hs, finish_queues hwf ha]
    cases performed_queue hwf.keyed s queue with
    | same h => rw [h]
    | made ho h hq =>
      have hnone : m.kernel.queues[queue]? = none := by
        have := ho ▸ hnew rfl
        rwa [TreeMap.mem_iff_isSome_getElem?, Option.not_isSome_iff_eq_none] at this
      rw [h, hnone]
      exact hq
    | gone => exact absurd rfl hdelete
    | received => exact absurd rfl hreceive
    | sent ho hkind => exact absurd (hsend _ rfl) hkind

/-- The ledger over one step. -/
theorem step_ledger (hwf : WF m.kernel) (hm : MessagesOwed m.kernel) (horder : MessagesOrderly m a)
    (hl : l.values = contents queue m) :
    ∃ l', l.replay (moves queue m a) = some l' ∧ l'.values = contents queue (step m a) := by
  cases step_cases hwf a with
  | service s hcalled ha hs =>
    obtain ⟨hord, hnew⟩ := horder s hcalled
    by_cases hreceive : s = .qReceive
    · subst hreceive
      exact qReceive_ledger hwf hm ha hcalled hs hord hl
    · by_cases hdelete : s = .qDelete
      · subst hdelete
        exact qDelete_ledger hwf hm ha hcalled hs hord hl
      · by_cases hsend : ∃ kind, kind ≠ .broadcast ∧ s = .qSend kind
        · obtain ⟨kind, hkind, rfl⟩ := hsend
          exact Sends.ledger ⟨hwf, hm, ha, hkind, hcalled, hs⟩ hl
        · refine other_ledger hwf hm ha hcalled hs hord hnew hreceive hdelete (fun kind h => ?_) hl
          by_contra hkind
          exact hsend ⟨kind, hkind, h⟩
  | rest hcalled hr hidle =>
    refine silent_ledger ?_ ?_ hl
    · have hreleased := rests_released_nil hr hm.registered (Or.inr rfl) queue
      simp [moves, sentMoves, takenMoves, clearedMoves, receivedAtOnce, hcalled, hreleased]
    · obtain ⟨k1, hframe, -, hsched, -⟩ := hr
      unfold contents
      rw [(hsched.frame.queues (by simp)).1, (hframe.queues (by simp)).1]
  | start hcalled ha hblank hwf' =>
    refine silent_ledger ?_ ?_ hl
    · have hreleased : released m (step m a) .queue queue = [] :=
        blank_released_nil (hwf.blank ha) queue
      simp [moves, sentMoves, takenMoves, clearedMoves, receivedAtOnce, hcalled, hreleased]
    · unfold contents
      rw [hblank.queues, (hwf.blank ha).queues]


end

/-! ## Runs -/

/-- A send changes the registers of no task but those that wait on its queue. The caller finds its
own registers unchanged, but for the status in `d0` and the `d2` that a broadcast clears. -/
def SendSpares (m : Machine φ β) (a : Action φ β) : Prop :=
  ∀ kind, called m a = some (.qSend kind) →
    (∀ (id : UInt32) (t : Task), m.kernel.tasks[id]? = some t → id ≠ m.kernel.current →
        t.waitsOn .queue (m.reg 1) = false → (step m a).registers id = m.registers id) ∧
      ∀ i : Fin 16, (kind = .broadcast → i ≠ 2) → (performed m (.qSend kind)).1.reg i = m.reg i

theorem step_sendSpares {m : Machine φ β} {a : Action φ β} (hwf : WF m.kernel)
    (hm : MessagesOwed m.kernel) : SendSpares m a := by
  intro kind hcalled
  cases step_cases hwf a with
  | service s hcalled' ha hs =>
    obtain rfl : Service.qSend kind = s := by simpa [hcalled] using hcalled'
    have hperf : (performed m (.qSend kind)).1.kernel =
        (m.counted.kernel.send kind (m.reg 1) m.messageArg).1 := m.counted.qSendAs_kernel kind
    refine ⟨fun id t ht hid hwaits => ?_, fun i hi => ?_⟩
    · have hnot : ¬ (t.wait = .queue ∧ t.waitObject = m.reg 1) := by
        rintro ⟨hw, ho⟩
        have := waitsOn_iff.mpr ⟨hm.registered.blocked id t ht hw, hw, ho⟩
        simp [hwaits] at this
      have hk' : Keyed m.counted.kernel := hwf.keyed
      have ht' : (performed m (.qSend kind)).1.kernel.tasks[id]? = some t := by
        rw [hperf]
        exact send_spares hk' kind m.messageArg ht hnot
      rw [hs, Machine.finish_carries _ id t ht' (by rwa [performed_current])]
      simp [Machine.registers, hid, ht]
    · have hservice : (performed m (.qSend kind)).1 = (m.counted.qSendAs kind).1 := rfl
      rw [hservice]
      unfold Machine.qSendAs
      dsimp only
      split
      · next hb =>
        have hval : 2 ≠ i.val := fun h => hi hb.1 (Fin.ext h.symm)
        exact Vector.getElem_set_ne (by decide) i.isLt hval
      · rfl
  | rest hcalled' => simp [hcalled] at hcalled'
  | start hcalled' => simp [hcalled] at hcalled'

omit [M68k φ] [GuestBus β] in
theorem messagesOwed_reset (cpu : CpuCore φ) (bus : β) : MessagesOwed (reset cpu bus).kernel :=
  ⟨⟨fun id t ht => by simp [reset] at ht, fun t ht => by simp [reset] at ht⟩,
    fun id t ht => by simp [reset] at ht⟩

/-- The moves of a run are those of an abstract queue, whose store is the store of the kernel. -/
theorem run_ledger {m : Machine φ β} {acts : List (Action φ β)} {queue : UInt32}
    {l : Ledger Message} (hwf : WF m.kernel) (hm : MessagesOwed m.kernel)
    (horder : Each step MessagesOrderly m acts) (hl : l.values = contents queue m) :
    ∃ l', l.replay (log step (moves queue) m acts) = some l' ∧
      l'.values = contents queue (run step m acts) := by
  induction acts generalizing m l with
  | nil => exact ⟨l, rfl, hl⟩
  | cons a acts ih =>
    obtain ⟨ha, hrest⟩ := horder
    obtain ⟨l1, h1, hl1⟩ := step_ledger hwf hm ha hl
    obtain ⟨l2, h2, hl2⟩ := ih (wf_step hwf a) (step_messagesOwed hwf hm a ha) hrest hl1
    refine ⟨l2, ?_, hl2⟩
    rw [log, replay_append, h1]
    exact h2

/-- In an orderly run every accepted message is exactly once stored, taken or dropped; messages
leave in the order of their acceptance but for urgent ones; and a send disturbs no bystander. -/
theorem messages_conserved (cpu : CpuCore φ) (bus : β) (acts : List (Action φ β))
    (horder : Each step MessagesOrderly (reset cpu bus) acts) :
    (∀ queue : UInt32, ∃ l : Ledger Message,
        ({} : Ledger Message).replay (log step (moves queue) (reset cpu bus) acts) = some l ∧
          l.values = contents queue (run step (reset cpu bus) acts) ∧
            l.entries.Perm (accepted 0 (log step (moves queue) (reset cpu bus) acts)) ∧
              l.Ordered) ∧
      Each step SendSpares (reset cpu bus) acts := by
  constructor
  · intro queue
    have hstart : ({} : Ledger Message).values = contents queue (reset cpu bus) := rfl
    obtain ⟨l, hreplay, hvalues⟩ :=
      run_ledger (wf_reset cpu bus) (messagesOwed_reset cpu bus) horder hstart
    refine ⟨l, hreplay, hvalues, ?_, replay_ordered hreplay ordered_empty⟩
    simpa [Ledger.entries] using replay_entries hreplay
  · have hkeep : ∀ (m : Machine φ β) (a : Action φ β), MessagesOrderly m a →
        WF m.kernel ∧ MessagesOwed m.kernel →
          WF (step m a).kernel ∧ MessagesOwed (step m a).kernel :=
      fun m a ha h => ⟨wf_step h.1 a, step_messagesOwed h.1 h.2 a ha⟩
    have hinv := always_of_each hkeep horder ⟨wf_reset cpu bus, messagesOwed_reset cpu bus⟩
    exact Each.of_always (fun (m : Machine φ β) a (h : WF m.kernel) => wf_step h a)
      (fun m a hwf h _ => step_sendSpares hwf h.2) (wf_reset cpu bus) hinv horder

omit [M68k φ] [GuestBus β] in
theorem messagesOrderly_silent {m : Machine φ β} {a : Action φ β} (h : called m a = none) :
    MessagesOrderly m a := fun s hs => by simp [h] at hs

omit [M68k φ] [GuestBus β] in
/-- A service that only wakes tasks is orderly, unless it makes a queue. -/
theorem messagesOrderly_wake {m : Machine φ β} {a : Action φ β} {s : Service}
    (h : called m a = some s) (hchange : m.change s = .wake)
    (hs : s = .qCreate → m.kernel.nextQueue ∉ m.kernel.queues) : MessagesOrderly m a := by
  intro s' hs'
  obtain rfl : s = s' := by simpa [h] using hs'
  exact ⟨by rw [hchange]; trivial, hs⟩

/-- ROOT makes a queue, sends a message to it and receives the message. -/
def sendAndReceive : List (Action UInt16 Board) :=
  .instruction :: script booted
    [[(0, 0x24), (1, 1), (2, 0), (5, 0)], [(0, 0x27), (1, 1), (2, 7)], [(0, 0x2a), (1, 1)]]

theorem sent_message_received :
    (∀ queue : UInt32, ∃ l : Ledger Message,
        ({} : Ledger Message).replay (log step (moves queue) (reset bootCpu bootBoard)
            sendAndReceive) = some l ∧
          l.values = contents queue (run step (reset bootCpu bootBoard) sendAndReceive) ∧
            l.entries.Perm
                (accepted 0 (log step (moves queue) (reset bootCpu bootBoard) sendAndReceive)) ∧
              l.Ordered) ∧
      Each step SendSpares (reset bootCpu bootBoard) sendAndReceive := by
  let m1 := step booted (loading booted [(0, 0x24), (1, 1), (2, 0), (5, 0)])
  let m2 := step m1 (.trap 11 none)
  let m3 := step m2 (loading m2 [(0, 0x27), (1, 1), (2, 7)])
  let m4 := step m3 (.trap 11 none)
  let m5 := step m4 (loading m4 [(0, 0x2a), (1, 1)])
  obtain ⟨hcreate, hsend, ⟨hreceive, hwake⟩, hfresh⟩ :
      called m1 (.trap 11 none) = some .qCreate ∧
        called m3 (.trap 11 none) = some (.qSend .normal) ∧
          (called m5 (.trap 11 none) = some .qReceive ∧ m5.change .qReceive = .wake) ∧
            m1.kernel.nextQueue ∉ m1.kernel.queues := by
    simp only [m1, m2, m3, m4, m5, booted_eq]
    decide +kernel
  refine messages_conserved bootCpu bootBoard sendAndReceive
    ⟨messagesOrderly_silent rfl, messagesOrderly_silent rfl,
      messagesOrderly_wake hcreate rfl fun _ => hfresh, messagesOrderly_silent rfl,
      messagesOrderly_wake hsend rfl (by simp), messagesOrderly_silent rfl,
      messagesOrderly_wake hreceive hwake (by simp), trivial⟩

/-- A message that is sent to a deleted receiver is neither stored nor received. -/
theorem send_to_deleted_loses_message :
    ¬ ∀ (cpu : CpuCore UInt16) (bus : Board) (acts : List (Action UInt16 Board)) (queue : UInt32),
      ∃ l : Ledger Message,
        ({} : Ledger Message).replay (log step (moves queue) (reset cpu bus) acts) = some l ∧
          l.values = contents queue (run step (reset cpu bus) acts) := by
  intro h
  let lostMessage : List (Action UInt16 Board) :=
    .instruction :: script booted ([(0, 0x24), (1, 1), (2, 0), (5, 0)] :: startTask 200 ++
      [[(0, 0x2a), (1, 1), (5, 0), (6, 0)], [(0, 5), (1, 0x30000)],
        [(0, 0x27), (1, 1), (2, 7), (3, 8), (4, 9), (5, 10)]])
  obtain ⟨hlog, hlost⟩ :
      log step (moves 1) (reset bootCpu bootBoard) lostMessage = [.put #v[7, 8, 9, 10]] ∧
        contents 1 (run step (reset bootCpu bootBoard) lostMessage) = [] := by
    simp only [lostMessage, run_cons, log, step_boot, booted_eq]
    decide +kernel
  obtain ⟨l, hreplay, hvalues⟩ := h bootCpu bootBoard lostMessage 1
  rw [hlog, replay_put] at hreplay
  obtain rfl := Option.some.inj hreplay
  rw [hlost] at hvalues
  cases hvalues

end OpenSaab.Psos
