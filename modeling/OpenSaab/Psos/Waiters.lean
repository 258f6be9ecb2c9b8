import OpenSaab.Psos.Coherence

/-!
# Waiters and the objects that they wait on

A blocked task names its queue or semaphore by identifier. `q_delete` sweeps the task table for the
waiters of the queue; `sm_delete` does not.
-/

namespace OpenSaab.Psos

open Std OpenSaab.Table OpenSaab.Runs

variable {φ β : Type}

/-- The queue or semaphore that a blocked task waits on is there. -/
def Attached (k : Kernel) : Prop :=
  ∀ (id : UInt32) (t : Task), k.tasks[id]? = some t → t.state = .blocked →
    (t.wait = .queue → t.waitObject ∈ k.queues) ∧ (t.wait = .semaphore → t.waitObject ∈ k.semaphores)

/-- The step does not delete a semaphore that a blocked task waits on. -/
def SparesWaiters (m : Machine φ β) (a : Action φ β) : Prop :=
  called m a = some .smDelete →
    ∀ (id : UInt32) (t : Task), m.kernel.tasks[id]? = some t →
      t.state = .blocked → t.wait = .semaphore → t.waitObject ≠ m.reg 1

/-- The object of a wait is what the service deletes. -/
def Deletes (m : Machine φ β) (s : Service) (t : Task) : Prop :=
  (s = .qDelete ∧ t.wait = .queue ∨ s = .smDelete ∧ t.wait = .semaphore) ∧ t.waitObject = m.reg 1

/-- A deletion takes every task that is blocked on the object off its wait. -/
def WakesWaiters [M68k φ] [GuestBus β] (m : Machine φ β) (a : Action φ β) : Prop :=
  ∀ s, called m a = some s → ∀ (id : UInt32) (t : Task), m.kernel.tasks[id]? = some t →
    t.state = .blocked → Deletes m s t →
      ∃ t', (step m a).kernel.tasks[id]? = some t' ∧ t'.state ≠ .blocked ∧ t'.wait = .none

/-! ## What becomes of a blocked task -/

/-- A task that is blocked after a service was blocked in the same way before, unless the service
has just blocked it. -/
theorem effect_blocked {m : Machine φ β} {s : Service} {tasks : Table Task} {c : Change}
    (h : c.Effect m s tasks) {id : UInt32} {t' : Task} (ht' : tasks[id]? = some t')
    (hb : t'.state = .blocked) :
    (∃ t, m.kernel.tasks[id]? = some t ∧ t.state = .blocked ∧ t'.wait = t.wait ∧
        t'.waitObject = t.waitObject) ∨
      c = .block t'.wait t'.waitObject := by
  have hother : ∀ {a : UInt32} {u : Task}, Updated m.kernel.tasks a u tasks → u.state ≠ .blocked →
      ∃ t, m.kernel.tasks[id]? = some t ∧ t.state = .blocked ∧ t'.wait = t.wait ∧
        t'.waitObject = t.waitObject := by
    intro a u hup hne
    by_cases ha : id = a
    · subst ha
      obtain rfl : u = t' := by simpa [hup.1] using ht'
      exact absurd hb hne
    · rw [hup.2 id ha] at ht'
      exact ⟨t', ht', hb, rfl, rfl⟩
  cases c with
  | wake =>
    obtain ⟨t, ht, hr⟩ := Pointwise.after h ht'
    rcases hr with hr | ⟨-, -, hs, -⟩
    · obtain ⟨-, gs, gw, go⟩ := core_eq hr.1
      exact Or.inl ⟨t, ht, gs.symm.trans hb, gw, go⟩
    · rw [hs] at hb
      cases hb
  | create =>
    rcases h with rfl | ⟨-, new, hcore, hup⟩
    · exact Or.inl ⟨t', ht', hb, rfl, rfl⟩
    · have hs : new.state = .created := congrArg Core.state hcore
      exact Or.inl (hother hup (by simp [hs]))
  | restart =>
    obtain ⟨t, u, -, hin, hup⟩ := h
    have hs : u.state = .ready := congrArg Core.state hin
    exact Or.inl (hother hup (by simp [hs]))
  | delete =>
    obtain ⟨t, u, -, hin, hup⟩ := h
    have hs : u.state = .dead := congrArg Core.state hin
    exact Or.inl (hother hup (by simp [hs]))
  | yield =>
    obtain ⟨t, u, -, hin, hup⟩ := h
    have hs : u.state = .ready := congrArg Core.state hin
    exact Or.inl (hother hup (by simp [hs]))
  | block wait object =>
    obtain ⟨t, u, -, hblk, hup⟩ := h
    by_cases ha : id = m.kernel.current
    · subst ha
      obtain rfl : u = t' := by simpa [hup.1] using ht'
      obtain ⟨-, -, hw, ho⟩ : u.id = t.id ∧ u.state = .blocked ∧ u.wait = wait ∧
          u.waitObject = object := by
        simpa only [BlockedOn, Task.core, Core.mk.injEq] using hblk
      exact Or.inr (by rw [hw, ho])
    · rw [hup.2 id ha] at ht'
      exact Or.inl ⟨t', ht', hb, rfl, rfl⟩

/-- A service that blocks its caller on a queue has found the queue, and has found it empty. -/
theorem change_block_queue {m : Machine φ β} {s : Service} {object : UInt32}
    (h : m.change s = .block .queue object) :
    s = .qReceive ∧ object = m.reg 1 ∧ m.reg 5 &&& 1 = 0 ∧
      ∃ q, m.kernel.queues[object]? = some q ∧ q.messages = [] := by
  cases s <;> simp only [Machine.change] at h <;> (repeat' split at h) <;> try cases h
  next q hq hcond => exact ⟨rfl, rfl, hcond.2, q, hq, hcond.1⟩

/-- A service that blocks its caller on a semaphore has found it without units. -/
theorem change_block_semaphore {m : Machine φ β} {s : Service} {object : UInt32}
    (h : m.change s = .block .semaphore object) :
    s = .smP ∧ object = m.reg 1 ∧ m.reg 5 &&& 1 = 0 ∧
      ∃ sem, m.kernel.semaphores[object]? = some sem ∧ sem.count = 0 := by
  cases s <;> simp only [Machine.change] at h <;> (repeat' split at h) <;> try cases h
  next sem hsem hcond => exact ⟨rfl, rfl, hcond.2, sem, hsem, hcond.1⟩

/-! ## What becomes of the objects -/

theorem mem_insert_of_mem {ν : Type} {t : Table ν} {id : UInt32} (h : id ∈ t) (k : UInt32) (v : ν) :
    id ∈ t.insert k v := by
  rw [TreeMap.mem_insert]
  exact Or.inr h

section

variable [GuestBus β] (m : Machine φ β)

theorem qCreate_mem {id : UInt32} (h : id ∈ m.kernel.queues) : id ∈ m.qCreate.1.kernel.queues := by
  unfold Machine.qCreate
  dsimp only
  split
  · exact h
  · exact mem_insert_of_mem h _ _

omit [GuestBus β] in
theorem qDelete_mem {id : UInt32} (h : id ∈ m.kernel.queues) (hid : id ≠ m.reg 1) :
    id ∈ m.qDelete.1.kernel.queues := by
  unfold Machine.qDelete Kernel.deleteQueue
  dsimp only
  split
  · rw [TreeMap.mem_erase]
    exact ⟨by simpa using Ne.symm hid, h⟩
  · exact h

theorem foldl_deliverTo_queues (message : Message) (ws : List Task) (k : Kernel) :
    (ws.foldl (Kernel.deliverTo message) k).queues = k.queues :=
  ((Kernel.foldl_deliverTo_frame message ws k).queues (by simp)).1

omit [GuestBus β] in
theorem qSendAs_mem (kind : SendKind) {id : UInt32} (h : id ∈ m.kernel.queues) :
    id ∈ (m.qSendAs kind).1.kernel.queues := by
  rw [Machine.qSendAs_kernel]
  unfold Kernel.send
  split
  · exact h
  · dsimp only
    split
    · rwa [foldl_deliverTo_queues]
    · split
      · exact h
      · split
        · exact h
        · exact mem_insert_of_mem h _ _

omit [GuestBus β] in
theorem block_queues (k : Kernel) (wait : Wait) (object timeout : UInt32) :
    (k.block wait object timeout).queues = k.queues :=
  ((k.block_frame wait object timeout).queues (by simp)).1

omit [GuestBus β] in
theorem qReceive_mem {id : UInt32} (h : id ∈ m.kernel.queues) :
    id ∈ m.qReceive.1.kernel.queues := by
  unfold Machine.qReceive
  split
  · exact h
  · split
    · exact mem_insert_of_mem h _ _
    · dsimp only
      split
      · exact h
      · rwa [block_queues]

omit [GuestBus β] in
theorem smCreate_mem {id : UInt32} (h : id ∈ m.kernel.semaphores) :
    id ∈ m.smCreate.1.kernel.semaphores := by
  unfold Machine.smCreate
  split
  · exact h
  · exact mem_insert_of_mem h _ _

omit [GuestBus β] in
theorem smDelete_mem {id : UInt32} (h : id ∈ m.kernel.semaphores) (hid : id ≠ m.reg 1) :
    id ∈ m.smDelete.1.kernel.semaphores := by
  unfold Machine.smDelete
  split
  · exact h
  · rw [TreeMap.mem_erase]
    exact ⟨by simpa using Ne.symm hid, h⟩

omit [GuestBus β] in
theorem smP_mem {id : UInt32} (h : id ∈ m.kernel.semaphores) : id ∈ m.smP.1.kernel.semaphores := by
  unfold Machine.smP
  split
  · exact h
  · split
    · exact mem_insert_of_mem h _ _
    · split
      · exact h
      · rwa [((m.kernel.block_frame _ _ _).semaphores (by simp)).1]

omit [GuestBus β] in
theorem smV_mem {id : UInt32} (h : id ∈ m.kernel.semaphores) : id ∈ m.smV.1.kernel.semaphores := by
  unfold Machine.smV Kernel.post
  dsimp only
  split
  · exact h
  · split
    · split <;> exact h
    · exact mem_insert_of_mem h _ _

end

variable [M68k φ] [GuestBus β] {m : Machine φ β}

/-- Only its own deletion takes a queue out of the table. -/
theorem queue_kept {s : Service} {id : UInt32} (h : id ∈ m.kernel.queues)
    (hs : s = .qDelete → id ≠ m.reg 1) : id ∈ (performed m s).1.kernel.queues := by
  by_cases hn : .queues ∉ s.touches
  · rwa [((performed_frame m s).queues hn).1]
  · rw [not_not] at hn
    cases s with
    | qCreate => exact qCreate_mem m.counted h
    | qDelete => exact qDelete_mem m.counted h (hs rfl)
    | qSend kind => exact qSendAs_mem m.counted kind h
    | qReceive => exact qReceive_mem m.counted h
    | _ => exact absurd hn (by simp [Service.touches])

/-- Only its own deletion takes a semaphore out of the table. -/
theorem semaphore_kept {s : Service} {id : UInt32} (h : id ∈ m.kernel.semaphores)
    (hs : s = .smDelete → id ≠ m.reg 1) : id ∈ (performed m s).1.kernel.semaphores := by
  by_cases hn : .semaphores ∉ s.touches
  · rwa [((performed_frame m s).semaphores hn).1]
  · rw [not_not] at hn
    cases s with
    | smCreate => exact smCreate_mem m.counted h
    | smDelete => exact smDelete_mem m.counted h (hs rfl)
    | smP => exact smP_mem m.counted h
    | smV => exact smV_mem m.counted h
    | _ => exact absurd hn (by simp [Service.touches])

/-- Everything that waited on a deleted queue is ready. -/
theorem qDelete_wakes {id : UInt32} {t : Task} (ht : m.kernel.tasks[id]? = some t)
    (hw : t.wait = .queue) (ho : t.waitObject = m.reg 1) (hlive : m.reg 1 ∈ m.kernel.queues) :
    (performed m .qDelete).1.kernel.tasks[id]? = some (t.wake 0x36) := by
  have hk : (performed m .qDelete).1.kernel = (m.counted.kernel.deleteQueue (m.reg 1)).1 := rfl
  have hlive' : m.reg 1 ∈ m.counted.kernel.queues := hlive
  have ht' : m.counted.kernel.tasks[id]? = some t := ht
  rw [hk]
  unfold Kernel.deleteQueue
  rw [if_pos hlive']
  simp [ht', Kernel.dropWaiter, hw, ho]

/-! ## Runs -/

theorem scheduled_attached {k k' : Kernel} (h : Scheduled k k') : Attached k' ↔ Attached k := by
  unfold Attached
  rw [(h.frame.queues (by simp)).1, (h.frame.semaphores (by simp)).1]
  constructor
  · intro hk id t ht hb
    obtain ⟨t', ht', hset⟩ := h.tasks.before ht
    rw [← hset.2.1, ← hset.2.2.1]
    exact hk id t' ht' ((settled_state hset).1.mpr hb)
  · intro hk id t' ht' hb
    obtain ⟨t, ht, hset⟩ := h.tasks.after ht'
    rw [hset.2.1, hset.2.2.1]
    exact hk id t ht ((settled_state hset).1.mp hb)

theorem service_attached (hwf : WF m.kernel) (ha : m.kernel.active = true)
    (hm : Attached m.kernel) (s : Service) (hs : s = .smDelete →
      ∀ (id : UInt32) (t : Task), m.kernel.tasks[id]? = some t →
        t.state = .blocked → t.wait = .semaphore → t.waitObject ≠ m.reg 1) :
    Attached (performed m s).1.kernel := by
  intro id t' ht' hb
  have heff := performed_effect hwf.keyed (hwf.current ha) s
  rcases effect_blocked heff ht' hb with ⟨t, ht, hblk, hw, ho⟩ | hchange
  · obtain ⟨hq, hsem⟩ := hm id t ht hblk
    rw [hw, ho]
    constructor
    · intro hwait
      refine queue_kept (hq hwait) ?_
      rintro rfl hobj
      have hlive : m.reg 1 ∈ m.kernel.queues := hobj ▸ hq hwait
      have := qDelete_wakes ht hwait hobj hlive
      rw [ht'] at this
      obtain rfl : t' = t.wake 0x36 := by simpa using this
      cases hb
    · intro hwait
      exact semaphore_kept (hsem hwait) fun hdel => hs hdel id t ht hblk hwait
  · constructor
    · intro hwait
      rw [hwait] at hchange
      obtain ⟨rfl, -, -, q, hq, -⟩ := change_block_queue hchange
      refine queue_kept ?_ (by simp)
      rw [TreeMap.mem_iff_isSome_getElem?, hq]
      rfl
    · intro hwait
      rw [hwait] at hchange
      obtain ⟨rfl, -, -, sem, hsem, -⟩ := change_block_semaphore hchange
      refine semaphore_kept ?_ (by simp)
      rw [TreeMap.mem_iff_isSome_getElem?, hsem]
      rfl

/-- A waiter of a semaphore that is deleted is left blocked on nothing. -/
theorem smDelete_detaches {id : UInt32} {t : Task} (ht : m.kernel.tasks[id]? = some t)
    (hb : t.state = .blocked) (hw : t.wait = .semaphore) (ho : t.waitObject = m.reg 1) :
    ¬ Attached (performed m .smDelete).1.kernel := by
  intro h
  have hk : (performed m .smDelete).1.kernel = m.counted.smDelete.1.kernel := rfl
  have htasks : (performed m .smDelete).1.kernel.tasks[id]? = some t := by
    rw [(performed_frame m .smDelete).tasks (by simp [Service.touches])]
    exact ht
  have hlive := (h id t htasks hb).2 hw
  have hreg : m.counted.reg 1 = m.reg 1 := rfl
  rw [hk, ho] at hlive
  unfold Machine.smDelete at hlive
  rw [hreg] at hlive
  split at hlive
  · next hn => exact hn hlive
  · simp at hlive

theorem step_attached (hwf : WF m.kernel) (hm : Attached m.kernel) (a : Action φ β) :
    Attached (step m a).kernel ↔ SparesWaiters m a := by
  cases step_cases hwf a with
  | service s hcalled ha hs =>
    rw [hs, scheduled_attached (Machine.finish_scheduled (performed_keyed hwf ha s))]
    constructor
    · rintro hatt hdel id t ht hb hw ho
      obtain rfl : s = .smDelete := by simpa [hcalled] using hdel
      exact smDelete_detaches ht hb hw ho hatt
    · intro hspares
      exact service_attached hwf ha hm s fun hs => hspares (by rw [hcalled, hs])
  | rest hcalled hr hidle =>
    obtain ⟨k1, hframe, htasks, hsched, -⟩ := hr
    refine iff_of_true ((scheduled_attached hsched).mpr ?_) (by simp [SparesWaiters, hcalled])
    intro id t' ht' hb
    rw [(hframe.queues (by simp)).1, (hframe.semaphores (by simp)).1]
    obtain ⟨t, ht, hr⟩ := htasks.after ht'
    rcases hr with hr | ⟨-, -, hs, -⟩
    · obtain ⟨-, gs, gw, go⟩ := core_eq hr.1
      rw [gw, go]
      exact hm id t ht (gs.symm.trans hb)
    · rw [hs] at hb
      cases hb
  | start hcalled ha hblank hwf =>
    refine iff_of_true (fun id t ht hb => ?_) (by simp [SparesWaiters, hcalled])
    rcases (hblank.fresh id t ht).2.2 with hs | hs | hs <;> rw [hs] at hb <;> cases hb

theorem step_wakes (hwf : WF m.kernel) (hm : Attached m.kernel) (a : Action φ β)
    (hspares : SparesWaiters m a) : WakesWaiters m a := by
  intro s hcalled id t ht hb hdel
  cases step_cases hwf a with
  | service s' hcalled' ha hs =>
    obtain rfl : s = s' := by simpa [hcalled] using hcalled'
    obtain ⟨⟨rfl, hw⟩ | ⟨rfl, hw⟩, ho⟩ := hdel
    · have hlive : m.reg 1 ∈ m.kernel.queues := ho ▸ (hm id t ht hb).1 hw
      have hwoken := qDelete_wakes ht hw ho hlive
      obtain ⟨t', ht', hset⟩ :=
        (Machine.finish_scheduled (performed_keyed hwf ha .qDelete)).tasks.before hwoken
      refine ⟨t', hs ▸ ht', ?_, hset.2.1⟩
      rw [ne_eq, (settled_state hset).1]
      simp [Task.wake]
    · exact absurd ho (hspares hcalled id t ht hb hw)
  | rest hcalled' hr hidle => simp [hcalled] at hcalled'
  | start hcalled' ha hblank hwf => simp [hcalled] at hcalled'

/-- In a run from a reset no task is left waiting on a deleted object, and every deletion wakes its
waiters, exactly as long as no semaphore is deleted that a task waits on. -/
theorem attached_iff_spares (cpu : CpuCore φ) (bus : β) (acts : List (Action φ β)) :
    Always step (fun m : Machine φ β => Attached m.kernel) (reset cpu bus) acts ∧
        Each step WakesWaiters (reset cpu bus) acts ↔
      Each step SparesWaiters (reset cpu bus) acts := by
  have h0 : Attached (reset cpu bus).kernel := fun id t ht => by simp [reset] at ht
  have hiff : Always step (fun m : Machine φ β => Attached m.kernel) (reset cpu bus) acts ↔
      Each step SparesWaiters (reset cpu bus) acts :=
    @always_iff_each _ _ step SparesWaiters _ (fun m : Machine φ β => WF m.kernel)
      (fun m a hm => wf_step hm a) (fun m a hm ha => step_attached hm ha a) _ acts
      (wf_reset cpu bus) h0
  constructor
  · rintro ⟨hall, -⟩
    exact hiff.mp hall
  · intro hspares
    have hall := hiff.mpr hspares
    refine ⟨hall, ?_⟩
    exact Each.of_always (fun m a hm => wf_step hm a) (fun m a hm ha hs => step_wakes hm ha a hs)
      (wf_reset cpu bus) hall hspares

/-- ROOT deletes the semaphore that the task it has started waits on. -/
def deleteSemaphore : List (List (Fin 16 × UInt32)) := startWaiter ++ [[(0, 0x35), (1, 1)]]

theorem sm_delete_leaves_waiter :
    ¬ ∀ m : Machine UInt16 Board, Reachable m → Attached m.kernel := by
  intro h
  obtain ⟨hwaits, hgone⟩ :
      ((deleteSemaphore.foldl serve booted).kernel.tasks[(0x30000 : UInt32)]?).map
        (fun t => (t.state, t.wait, t.waitObject)) = some (.blocked, .semaphore, 1) ∧
      (1 : UInt32) ∉ (deleteSemaphore.foldl serve booted).kernel.semaphores := by
    rw [booted_eq]
    decide +kernel
  obtain ⟨t, ht, hst⟩ := Option.map_eq_some_iff.mp hwaits
  simp only [Prod.mk.injEq] at hst
  obtain ⟨hs, hw, ho⟩ := hst
  have hlive := (h _ (serve_reachable booted_reachable deleteSemaphore) _ t ht hs).2 hw
  rw [ho] at hlive
  exact hgone hlive

end OpenSaab.Psos
