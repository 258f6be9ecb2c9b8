import OpenSaab.Psos.Semaphores
import OpenSaab.Psos.Queues

/-!
# The limits on kernel objects

How many tasks, queues, semaphores and timers there are, how many messages a queue holds, and what
becomes of a task that can not be made.
-/

namespace OpenSaab.Psos

open Std OpenSaab.Table OpenSaab.Runs

variable {φ β : Type}

/-! ## Limits -/

/-- A limit of the node configuration table. -/
def Machine.configured [GuestBus β] (m : Machine φ β) (offset : UInt32) : Nat :=
  ((GuestBus.u32 m.bus (m.kernel.kernelConfig + offset)).getD 0).toNat

/-- The tasks that have not been deleted. -/
def Kernel.liveTasks (k : Kernel) : Nat :=
  ((values k.tasks).filter fun t => t.state ≠ .dead).length

/-- A queue made with the limit flag holds no more messages than its limit. -/
def Queue.Fits (q : Queue) : Prop := q.flags &&& 4 ≠ 0 → q.messages.length ≤ q.capacity.toNat

/-- ROOT and IDLE come on top of the configured tasks. Deleted tasks count. -/
structure Within (tasks queues : Nat) (k : Kernel) : Prop where
  tasks : k.tasks.size ≤ tasks + 2
  queues : k.queues.size ≤ queues
  semaphores : k.semaphores.size ≤ 1024
  messages : ∀ (id : UInt32) (q : Queue), k.queues[id]? = some q → q.Fits

theorem liveTasks_le (k : Kernel) : k.liveTasks ≤ k.tasks.size := by
  rw [← TreeMap.length_toList, ← List.length_map (f := Prod.snd)]
  exact List.length_filter_le _ _

theorem Within.live {tasks queues : Nat} {k : Kernel} (h : Within tasks queues k) :
    k.liveTasks ≤ tasks + 2 := Nat.le_trans (liveTasks_le k) h.tasks

/-! ## Tasks -/

namespace Kernel

/-- Both stacks of a new task can be had. -/
def roomForStacks (k : Kernel) (user superSize : UInt32) : Prop :=
  let (k, stack) := { k with nextTask := k.nextTask + 1 }.allocateStack user
  let (_, superStack) := k.allocateStack superSize
  ¬ ((user ≠ 0 ∧ stack = 0) ∨ (superSize ≠ 0 ∧ superStack = 0))

/-- Nothing but the number of tasks can speak against a new task. -/
def Accepts (k : Kernel) (priority user superSize : UInt32) : Prop :=
  priority ≤ 255 ∧ (superSize = 0 ∨ 21 ≤ superSize) ∧ k.nextTask ≤ 255 ∧
    k.roomForStacks user superSize

theorem allocateStack_congr {k k' : Kernel} (h : k.regions = k'.regions) (size : UInt32) :
    (k.allocateStack size).2 = (k'.allocateStack size).2 ∧
      (k.allocateStack size).1.regions = (k'.allocateStack size).1.regions := by
  unfold allocateStack allocate
  rw [h]
  split
  · exact ⟨rfl, h⟩
  · split
    · exact ⟨rfl, h⟩
    · split
      · exact ⟨rfl, h⟩
      · exact ⟨rfl, rfl⟩

theorem roomForStacks_congr {k k' : Kernel} (h : k.regions = k'.regions) (user superSize : UInt32) :
    k.roomForStacks user superSize ↔ k'.roomForStacks user superSize := by
  have hregions : { k with nextTask := k.nextTask + 1 }.regions =
      { k' with nextTask := k'.nextTask + 1 }.regions := h
  obtain ⟨hstack, hrest⟩ := allocateStack_congr hregions user
  obtain ⟨hsuper, -⟩ := allocateStack_congr hrest superSize
  unfold roomForStacks
  dsimp only
  rw [hstack, hsuper]

variable [GuestBus β]

/-- A creation adds a task only where the table holds no more than two above the configured. -/
theorem create_tasks (k : Kernel) (name priority user superSize vbr : UInt32) (bus : β) :
    (k.create name priority user superSize bus vbr).1.tasks.size ≤ k.tasks.size ∨
      k.Accepts priority user superSize ∧
        k.tasks.size ≤ ((GuestBus.u32 bus (k.kernelConfig + 0x10)).getD 0).toNat + 2 ∧
        (k.create name priority user superSize bus vbr).1.tasks.size ≤ k.tasks.size + 1 := by
  obtain ⟨regions, hr⟩ := k.reserve_frame user superSize
  have hreserve : (k.reserve user superSize).tasks.size = k.tasks.size := by rw [hr]
  unfold create
  split
  · exact .inl (Nat.le_refl _)
  · next hpriority =>
    split
    · exact .inl (Nat.le_refl _)
    · next hsuper =>
      split
      · exact .inl (Nat.le_refl _)
      · next hroom =>
        obtain ⟨hnext, hsize⟩ := not_or.mp hroom
        dsimp only
        split
        · exact .inl (Nat.le_of_eq hreserve)
        · next hstacks =>
          refine .inr ⟨⟨UInt32.not_lt.mp hpriority, ?_, UInt32.not_lt.mp hnext, hstacks⟩,
            Nat.not_lt.mp hsize, ?_⟩
          · rw [not_and_or, not_not, UInt32.not_lt] at hsuper
            exact hsuper
          · rw [← hreserve]
            exact TreeMap.size_insert_le

theorem create_size (k : Kernel) (name priority user superSize vbr : UInt32) (bus : β) :
    (k.create name priority user superSize bus vbr).1.tasks.size ≤ k.tasks.size + 1 := by
  rcases k.create_tasks name priority user superSize vbr bus with h | ⟨-, -, h⟩
  · exact Nat.le_succ_of_le h
  · exact h

theorem start_size (k : Kernel) (id mode pc : UInt32) (args : List UInt32) (bus : β) :
    (k.start id mode pc args bus).1.tasks.size ≤ k.tasks.size := by
  cases h : k.startable id mode pc with
  | false => rw [(start_unstartable h args bus).1]
  | true =>
    obtain ⟨-, t, top, ht, hk⟩ := start_startable h args bus
    rw [hk]
    refine size_le_of_mem fun a ha => ?_
    rw [setTask, TreeMap.mem_insert, LawfulEqCmp.compare_eq_iff_eq] at ha
    rcases ha with rfl | ha
    · rw [TreeMap.mem_iff_isSome_getElem?, ht]
      rfl
    · exact ha

theorem allocate_size (k : Kernel) (region bytes : UInt32) :
    (k.allocate region bytes).1.tasks.size = k.tasks.size := by
  obtain ⟨regions, h⟩ := k.allocate_frame region bytes
  rw [h]

/-- A start of the kernel makes two tasks at most. -/
theorem startSystemTasks_size (k : Kernel) (idle : UInt32) (cpu : CpuCore φ) (bus : β) :
    (k.startSystemTasks idle cpu bus).1.tasks.size ≤ k.tasks.size + 2 := by
  unfold startSystemTasks
  dsimp only
  have hroot := k.create_size 0x524f4f54 255 (configWord bus k.kernelConfig 0x40)
    (configWord bus k.kernelConfig 0x44) cpu.vbr bus
  have hidle := create_size (k.create 0x524f4f54 255 (configWord bus k.kernelConfig 0x40)
    (configWord bus k.kernelConfig 0x44) bus cpu.vbr).1 0x49444c45 0
      (configWord bus k.kernelConfig 0x40) 0 cpu.vbr bus
  have htwo := Nat.le_trans hidle (Nat.succ_le_succ hroot)
  split
  · exact htwo
  · split
    · exact Nat.le_trans (start_size _ _ _ _ _ _) htwo
    · split
      · exact Nat.le_trans (start_size _ _ _ _ _ _) (Nat.le_trans (start_size _ _ _ _ _ _) htwo)
      · exact Nat.le_trans (start_size _ _ _ _ _ _) (Nat.le_trans (start_size _ _ _ _ _ _) htwo)

theorem setUp_size (k : Kernel) (cpu : CpuCore φ) (bus : β) :
    (k.setUp cpu bus).1.tasks.size ≤ k.tasks.size + 2 := by
  unfold setUp
  split
  · exact Nat.le_add_right _ _
  · dsimp only
    split
    · exact Nat.le_add_right _ _
    · split
      · exact Nat.le_add_right _ _
      · unfold startMemory
        dsimp only
        split
        · exact Nat.le_add_right _ _
        · split
          · rw [allocate_size]
            exact Nat.le_trans (Nat.le_of_eq (allocate_size _ _ _)) (Nat.le_add_right _ _)
          · refine Nat.le_trans (startSystemTasks_size _ _ _ _) (Nat.add_le_add_right ?_ 2)
            rw [allocate_size]
            exact Nat.le_of_eq (allocate_size _ _ _)

end Kernel

theorem pointwise_size {R : Task → Task → Prop} {ts us : Table Task} (h : Pointwise R ts us) :
    us.size ≤ ts.size := by
  refine size_le_of_mem fun id hid => ?_
  obtain ⟨t', ht'⟩ := Option.isSome_iff_exists.mp (TreeMap.mem_iff_isSome_getElem?.mp hid)
  obtain ⟨t, ht, -⟩ := h.after ht'
  rw [TreeMap.mem_iff_isSome_getElem?, ht]
  rfl

/-- A service other than `t_create` adds no task. -/
theorem effect_size {m : Machine φ β} {s : Service} {tasks : Table Task} {c : Change}
    (h : c.Effect m s tasks) (hc : c ≠ .create) : tasks.size ≤ m.kernel.tasks.size := by
  refine size_le_of_mem fun id hid => ?_
  obtain ⟨t', ht'⟩ := Option.isSome_iff_exists.mp (TreeMap.mem_iff_isSome_getElem?.mp hid)
  rcases effect_origin h ht' with ⟨t, ht, -⟩ | ⟨hcreate, -⟩
  · rw [TreeMap.mem_iff_isSome_getElem?, ht]
    rfl
  · exact absurd hcreate hc

/-! ## Timers -/

namespace Kernel

theorem sendEvent_timers (k : Kernel) (id bits : UInt32) :
    (k.sendEvent id bits).1.timers = k.timers := by
  unfold sendEvent
  dsimp only
  split <;> rfl

/-- Firing timers adds none. -/
theorem foldl_fire_timers {timers : Table Timer} (due : List (UInt32 × Timer))
    (hdue : ∀ p ∈ due, p.1 ∈ timers) {k : Kernel} (h : ∀ id : UInt32, id ∈ k.timers → id ∈ timers) :
    ∀ id : UInt32, id ∈ (due.foldl fire k).timers → id ∈ timers := by
  induction due generalizing k with
  | nil => exact h
  | cons p due ih =>
    refine ih (fun q hq => hdue q (List.mem_cons_of_mem _ hq)) fun id hid => ?_
    unfold fire at hid
    dsimp only at hid
    rw [sendEvent_timers] at hid
    split at hid
    · exact h id (TreeMap.mem_of_mem_erase hid)
    · rw [TreeMap.mem_insert, LawfulEqCmp.compare_eq_iff_eq] at hid
      rcases hid with rfl | hid
      · exact hdue p List.mem_cons_self
      · exact h id hid

theorem tick_timers (k : Kernel) : k.tick.timers.size ≤ k.timers.size := by
  refine size_le_of_mem (foldl_fire_timers _ (fun p hp => ?_) fun id hid => hid)
  have hmem := get_of_mem (List.mem_filter.mp hp).1
  rw [TreeMap.mem_iff_isSome_getElem?, show k.timers = k.advance.timers from rfl, hmem]
  rfl

theorem deleteQueue_timers (k : Kernel) (queue : UInt32) :
    (k.deleteQueue queue).1.timers = k.timers := by
  unfold deleteQueue
  split <;> rfl

theorem post_timers (k : Kernel) (semaphore : UInt32) :
    (k.post semaphore).1.timers = k.timers := by
  unfold post
  repeat' split
  all_goals rfl

theorem foldl_deliverTo_timers (message : Message) (ws : List Task) (k : Kernel) :
    (ws.foldl (deliverTo message) k).timers = k.timers := by
  induction ws generalizing k with
  | nil => rfl
  | cons w ws ih =>
    rw [List.foldl_cons, ih, deliverTo]
    split <;> rfl

theorem block_timers (k : Kernel) (wait : Wait) (object timeout : UInt32) :
    (k.block wait object timeout).timers = k.timers := by
  unfold block
  split <;> rfl

variable [GuestBus β]

theorem create_timers (k : Kernel) (name priority user superSize vbr : UInt32) (bus : β) :
    (k.create name priority user superSize bus vbr).1.timers = k.timers := by
  obtain ⟨regions, hr⟩ := k.reserve_frame user superSize
  rcases k.create_cases name priority user superSize vbr bus with h | ⟨-, h | ⟨t, -, -, h⟩⟩
  · rw [h]
  · rw [h, hr]
  · rw [h, hr]
    rfl

theorem start_timers (k : Kernel) (id mode pc : UInt32) (args : List UInt32) (bus : β) :
    (k.start id mode pc args bus).1.timers = k.timers := by
  cases h : k.startable id mode pc with
  | false => rw [(start_unstartable h args bus).1]
  | true =>
    obtain ⟨-, t, top, -, hk⟩ := start_startable h args bus
    rw [hk]
    rfl

theorem schedule_timers [M68k φ] (k : Kernel) (cpu : CpuCore φ) (bus : β) (force : Bool) :
    (k.schedule cpu bus force).1.timers = k.timers := by
  have hout : (k.switchOut cpu).timers = k.timers := by
    unfold switchOut
    split <;> rfl
  unfold schedule
  split
  · rfl
  · split
    · rfl
    · dsimp only
      split
      · exact hout
      · exact hout

theorem allocate_timers (k : Kernel) (region bytes : UInt32) :
    (k.allocate region bytes).1.timers = k.timers := by
  obtain ⟨regions, h⟩ := k.allocate_frame region bytes
  rw [h]

theorem setUp_timers (k : Kernel) (cpu : CpuCore φ) (bus : β) :
    (k.setUp cpu bus).1.timers = k.timers := by
  refine setUp_keeps (P := fun k' => k'.timers = k.timers) ?_ ?_ ?_ rfl cpu bus
  · rintro k1 k2 ⟨_, _, _, _, _, rfl, -⟩ h
    exact h
  · intro k1 name priority user superSize vbr bus h
    exact (k1.create_timers name priority user superSize vbr bus).trans h
  · intro k1 id mode pc args bus h
    exact (k1.start_timers id mode pc args bus).trans h

end Kernel

section Services

variable (m : Machine φ β)

/-- Only the services that make timers add any, and those stop at 1024. -/
theorem tmEvent_timers (every : Bool) (h : m.kernel.timers.size ≤ 1024) :
    (m.tmEvent every).1.kernel.timers.size ≤ 1024 := by
  unfold Machine.tmEvent
  split
  · exact h
  · next hroom => exact Nat.le_trans TreeMap.size_insert_le (Nat.not_le.mp hroom)

theorem tmCancel_timers : m.tmCancel.1.kernel.timers.size ≤ m.kernel.timers.size := by
  unfold Machine.tmCancel
  split
  · exact Nat.le_refl _
  · exact TreeMap.size_erase_le

theorem send_timers (kind : SendKind) (queue : UInt32) (message : Message) :
    (m.kernel.send kind queue message).1.timers = m.kernel.timers := by
  unfold Kernel.send
  split
  · rfl
  · dsimp only
    split
    · exact Kernel.foldl_deliverTo_timers _ _ _
    · repeat' split
      all_goals rfl

theorem perform_timers [M68k φ] [GuestBus β] (s : Service) (h : m.kernel.timers.size ≤ 1024) :
    (m.perform s).1.kernel.timers.size ≤ 1024 := by
  have hsame : (m.perform s).1.kernel.timers = m.kernel.timers →
      (m.perform s).1.kernel.timers.size ≤ 1024 := fun heq => heq ▸ h
  cases s with
  | tmTick => exact Nat.le_trans m.kernel.tick_timers h
  | tmEvent every => exact tmEvent_timers m every h
  | tmCancel => exact Nat.le_trans (tmCancel_timers m) h
  | tCreate => exact hsame (m.kernel.create_timers _ _ _ _ _ _)
  | tStart =>
    exact hsame (m.kernel.start_timers _ _ _ [m.reg 3, m.reg 4, m.reg 5, m.reg 6] m.bus)
  | tRestart =>
    refine hsame ?_
    simp only [Machine.perform, Machine.tRestart]
    split
    · rfl
    · exact m.kernel.start_timers _ _ _ _ _
  | qSend kind =>
    refine hsame ?_
    simp only [Machine.perform, Machine.qSendAs_kernel]
    exact send_timers m kind _ _
  | smV => exact hsame (m.kernel.post_timers _)
  | qDelete => exact hsame (m.kernel.deleteQueue_timers _)
  | evSend => exact hsame (m.kernel.sendEvent_timers _ _)
  | evReceive =>
    refine hsame ?_
    simp only [Machine.perform, Machine.evReceive]
    repeat' split
    all_goals first | rfl | exact Kernel.block_timers _ _ _ _
  | qReceive | smP | tmWkafter =>
    refine hsame ?_
    simp only [Machine.perform, Machine.qReceive, Machine.smP, Machine.tmWkafter]
    repeat' split
    all_goals first | rfl | exact Kernel.block_timers _ _ _ _
  | rnGetseg => exact hsame (m.kernel.allocate_timers _ _)
  | _ =>
    refine hsame ?_
    simp only [Machine.perform, Machine.tIdent, Machine.tDelete, Machine.tSuspend, Machine.tResume,
      Machine.setSuspended, Machine.tSetpri, Machine.tMode, Machine.tGetreg, Machine.tSetreg,
      Machine.rnCreate, Machine.rnIdent, Machine.rnDelete, Machine.rnRetseg, Machine.qCreate,
      Machine.qIdent, Machine.smCreate, Machine.smIdent, Machine.smDelete, Machine.tmSet,
      Machine.tmGet, Machine.fileStub, Machine.unimplemented]
    try repeat' split
    all_goals rfl

end Services

section Timers

variable [M68k φ] [GuestBus β]

omit [GuestBus β] in
theorem saveBlocked_timers (m : Machine φ β) :
    m.saveBlocked.kernel.timers = m.kernel.timers := by
  unfold Machine.saveBlocked
  split
  · rfl
  · split <;> rfl

theorem schedule_timers (m : Machine φ β) (force : Bool) :
    (m.schedule force).kernel.timers = m.kernel.timers := Kernel.schedule_timers _ _ _ _

theorem finish_timers (r : Machine φ β × UInt32) :
    (Machine.finish r).kernel.timers = r.1.kernel.timers :=
  (Kernel.schedule_timers _ _ _ _).trans (saveBlocked_timers (r.1.setD 0 r.2))

theorem initializeKernel_timers (m : Machine φ β) :
    m.initializeKernel.kernel.timers = m.kernel.timers := by
  have hset := m.kernel.setUp_timers m.cpu m.bus
  unfold Machine.initializeKernel
  revert hset
  generalize m.kernel.setUp m.cpu m.bus = r
  obtain ⟨k, bus, e⟩ := r
  intro hset
  cases e with
  | some e => exact hset
  | none => exact (schedule_timers _ _).trans hset

omit [M68k φ] in
theorem hostTick_timers (m : Machine φ β) :
    m.hostTick.kernel.timers.size ≤ m.kernel.timers.size := by
  unfold Machine.hostTick
  dsimp only
  split
  · exact Kernel.tick_timers _
  · exact Nat.le_refl _

omit [M68k φ] in
theorem scanned_timers (m : Machine φ β) : m.scanned.timers = m.kernel.timers := by
  unfold Machine.scanned Kernel.scan
  split
  · cases findModule m.bus <;> rfl
  · rfl

theorem beforeInstruction_timers (m : Machine φ β) :
    m.beforeInstruction.kernel.timers.size ≤ m.kernel.timers.size := by
  rw [m.beforeInstruction_eq, ← scanned_timers m]
  dsimp only
  split
  · rw [initializeKernel_timers]
  · split
    · rw [schedule_timers]
      exact hostTick_timers { m with kernel := m.scanned }
    · exact Nat.le_refl _

theorem trap_timers {m : Machine φ β} (h : m.kernel.timers.size ≤ 1024) (number : UInt8)
    (fileResult : Option UInt32) : (m.trap number fileResult).1.kernel.timers.size ≤ 1024 := by
  unfold Machine.trap
  split
  · exact h
  · split
    · unfold Machine.returnFromException
      split
      · refine Nat.le_trans (Nat.le_of_eq (congrArg _ (schedule_timers _ false))) h
      · exact h
    · split
      · exact h
      · unfold Machine.service
        dsimp only
        split
        · rw [finish_timers]
          exact h
        · split
          · exact h
          · rw [finish_timers]
            exact perform_timers m.counted _ h

theorem step_timers {m : Machine φ β} (h : m.kernel.timers.size ≤ 1024) (a : Action φ β) :
    (step m a).kernel.timers.size ≤ 1024 := by
  cases a with
  | guest cpu bus => exact h
  | instruction => exact Nat.le_trans (beforeInstruction_timers m) h
  | trap number fileResult => exact trap_timers h number fileResult

end Timers

/-! ## Semaphores and queues -/

section Objects

variable [M68k φ] [GuestBus β] {m : Machine φ β}

theorem performed_semaphores (hk : Keyed m.kernel) (s : Service)
    (h : m.kernel.semaphores.size ≤ 1024) :
    (performed m s).1.kernel.semaphores.size ≤ 1024 := by
  by_cases hs : s = .smCreate
  · subst hs
    unfold performed Machine.perform Machine.smCreate
    dsimp only
    split
    · exact h
    · next hroom => exact Nat.le_trans TreeMap.size_insert_le (Nat.not_le.mp hroom)
  · refine Nat.le_trans (size_le_of_mem fun id hid => ?_) h
    rw [TreeMap.mem_iff_isSome_getElem?] at hid ⊢
    have hchange := performed_change hk s id
    generalize (performed m s).1.kernel.semaphores[id]? = after at hid hchange
    cases hchange with
    | same h => rwa [h] at hid
    | made ho h => exact absurd rfl hs
    | gone ho h => rw [h] at hid; cases hid
    | taken ho hv hcount h => rw [hv]; rfl
    | given ho hv hn h => rw [hv]; rfl

theorem performed_queues_size (hk : Keyed m.kernel) {s : Service} (hs : s ≠ .qCreate) :
    (performed m s).1.kernel.queues.size ≤ m.kernel.queues.size := by
  refine size_le_of_mem fun id hid => ?_
  rw [TreeMap.mem_iff_isSome_getElem?] at hid ⊢
  have hchange := performed_queue hk s id
  generalize (performed m s).1.kernel.queues[id]? = after at hid hchange
  cases hchange with
  | same h => rwa [h] at hid
  | made ho h hq => exact absurd rfl hs
  | gone ho h => rw [h] at hid; cases hid
  | received ho hq hm h => rw [hq]; rfl
  | sent ho hkind hq hn h => rw [hq]; rfl

/-- A message is only put into a queue that is not full. -/
theorem send_fits {k : Kernel} {kind : SendKind} {queue : UInt32} {message : Message}
    (h : ∀ (id : UInt32) (q : Queue), k.queues[id]? = some q → q.Fits)
    (hzero : kind ≠ .broadcast → ∀ q, k.queues[queue]? = some q → q.flags &&& 4 ≠ 0 →
      q.capacity = 0 → k.waiters .queue queue ≠ []) (id : UInt32) (q : Queue)
    (hq : (k.send kind queue message).1.queues[id]? = some q) : q.Fits := by
  unfold Kernel.send at hq
  split at hq
  · exact h id q hq
  · next q0 hq0 =>
    dsimp only at hq
    split at hq
    · rw [((Kernel.foldl_deliverTo_frame _ _ _).queues (by simp)).1] at hq
      exact h id q hq
    · next hwaiters =>
      rw [not_not, Kernel.order_eq_nil] at hwaiters
      split at hq
      · exact h id q hq
      · next hkind =>
        split at hq
        · exact h id q hq
        · next hfull =>
          dsimp only at hq
          rw [get_insert] at hq
          split at hq
          · obtain rfl := Option.some.inj hq
            intro hlimited
            have hcapacity : q0.capacity ≠ 0 := fun hc =>
              hzero hkind q0 hq0 hlimited hc hwaiters
            simp only [Queue.full, Bool.or_eq_true, Bool.and_eq_true, bne_iff_ne, ne_eq, hcapacity,
              not_false_eq_true, true_and, decide_eq_true_eq, not_or, Nat.not_le] at hfull
            have hlen : (q0.push kind message).messages.length = q0.messages.length + 1 := by
              unfold Queue.push
              dsimp only
              split <;> simp
            rw [hlen]
            exact hfull.1
          · exact h id q hq

end Objects

/-! ## Runs -/

section Runs

variable [M68k φ] [GuestBus β] {m : Machine φ β} {tasks queues : Nat}

/-- No step makes one more object than there is room for: a task where two above the configured
number are there, a queue where the configured number is there, or a queue without room a message.
-/
structure Admitted (tasks queues : Nat) (m : Machine φ β) (a : Action φ β) : Prop where
  task : called m a = some .tCreate → m.configured 0x10 ≤ tasks ∧
    (m.kernel.Accepts (m.reg 2) (m.reg 3) (m.reg 4) → m.kernel.tasks.size ≠ m.configured 0x10 + 2)
  queue : called m a = some .qCreate → m.configured 0x14 ≤ queues ∧
    (m.kernel.queues.size = m.configured 0x14 → 1024 ≤ m.configured 0x14)
  message : ∀ kind, called m a = some (.qSend kind) → kind ≠ .broadcast →
    ∀ q, m.kernel.queues[m.reg 1]? = some q → q.flags &&& 4 ≠ 0 → q.capacity = 0 →
      m.kernel.waiters .queue (m.reg 1) ≠ []
  /-- The kernel starts with two tasks to go. -/
  start : called m a = none → m.kernel.active = false → m.kernel.tasks.size ≤ tasks

theorem performed_fits (hk : Keyed m.kernel) {s : Service} {a : Action φ β}
    (hcalled : called m a = some s) (ha : Admitted tasks queues m a)
    (h : ∀ (id : UInt32) (q : Queue), m.kernel.queues[id]? = some q → q.Fits) (id : UInt32)
    (q : Queue) (hq : (performed m s).1.kernel.queues[id]? = some q) : q.Fits := by
  by_cases hs : ∃ kind, s = .qSend kind
  · obtain ⟨kind, rfl⟩ := hs
    rw [performed, Machine.perform, Machine.qSendAs_kernel] at hq
    exact @send_fits m.counted.kernel kind _ _ h (ha.message kind hcalled) id q hq
  · have hchange := performed_queue hk s id
    rw [hq] at hchange
    cases hchange with
    | same heq => exact h id q heq.symm
    | made ho heq hempty =>
      obtain rfl := Option.some.inj heq
      intro _
      rw [hempty]
      exact Nat.zero_le _
    | gone ho heq => cases heq
    | received ho hold hmessages heq =>
      obtain rfl := Option.some.inj heq
      intro hlimited
      have hfits := h id _ hold hlimited
      rw [hmessages] at hfits
      exact Nat.le_of_succ_le hfits
    | sent ho hkind hold hn heq => exact absurd ⟨_, rfl⟩ hs

theorem performed_within (hwf : WF m.kernel) (hactive : m.kernel.active = true)
    (h : Within tasks queues m.kernel) {s : Service} {a : Action φ β}
    (hcalled : called m a = some s) (ha : Admitted tasks queues m a) :
    Within tasks queues (performed m s).1.kernel where
  tasks := by
    by_cases hs : s = .tCreate
    · subst hs
      have ha := ha.task hcalled
      rcases m.counted.kernel.create_tasks (m.reg 1) (m.reg 2) (m.reg 3) (m.reg 4) m.cpu.vbr m.bus
        with hsame | ⟨haccepts, hroom, hone⟩
      · exact Nat.le_trans hsame h.tasks
      · have haccepts' : m.kernel.Accepts (m.reg 2) (m.reg 3) (m.reg 4) :=
          ⟨haccepts.1, haccepts.2.1, haccepts.2.2.1,
            (@Kernel.roomForStacks_congr m.counted.kernel m.kernel rfl _ _).mp haccepts.2.2.2⟩
        have hne := ha.2 haccepts'
        have hroom : m.kernel.tasks.size ≤ m.configured 0x10 + 2 := hroom
        have hone : (performed m .tCreate).1.kernel.tasks.size ≤ m.kernel.tasks.size + 1 := hone
        omega
    · refine Nat.le_trans (effect_size (performed_effect hwf.keyed (hwf.current hactive) s) ?_)
        h.tasks
      exact fun hcreate => hs (Machine.change_create hcreate)
  queues := by
    by_cases hs : s = .qCreate
    · subst hs
      obtain ⟨hconfigured, hfull⟩ := ha.queue hcalled
      unfold performed Machine.perform Machine.qCreate
      dsimp only
      split
      · exact h.queues
      · next hroom =>
        obtain ⟨hlimit, hmost⟩ := not_or.mp hroom
        have hlimit : ¬ m.configured 0x14 < m.kernel.queues.size := hlimit
        have hmost : ¬ 1024 ≤ m.kernel.queues.size := hmost
        refine Nat.le_trans TreeMap.size_insert_le ?_
        change m.kernel.queues.size + 1 ≤ queues
        omega
    · exact Nat.le_trans (performed_queues_size hwf.keyed hs) h.queues
  semaphores := performed_semaphores hwf.keyed s h.semaphores
  messages := performed_fits hwf.keyed hcalled ha h.messages

theorem within_scheduled {k k' : Kernel} (h : Scheduled k k')
    (hk : Within tasks queues k) : Within tasks queues k' where
  tasks := Nat.le_trans (pointwise_size h.tasks) hk.tasks
  queues := by
    rw [(h.frame.queues (by simp)).1]
    exact hk.queues
  semaphores := by
    rw [(h.frame.semaphores (by simp)).1]
    exact hk.semaphores
  messages := by
    rw [(h.frame.queues (by simp)).1]
    exact hk.messages

theorem initializeKernel_size (hk : Blank m.kernel) :
    m.initializeKernel.kernel.tasks.size ≤ m.kernel.tasks.size + 2 := by
  have hset := m.kernel.setUp_size m.cpu m.bus
  have hblank := Kernel.setUp_blank hk m.cpu m.bus
  unfold Machine.initializeKernel
  revert hset hblank
  generalize m.kernel.setUp m.cpu m.bus = r
  obtain ⟨k, bus, e⟩ := r
  intro hset hblank
  cases e with
  | some e => exact hset
  | none =>
    let k' := { k with active := true, lastHostTick := GuestBus.currentInsns bus }
    have hkeyed : Keyed k' := hblank.keyed
    have hs := Kernel.schedule_scheduled hkeyed m.cpu bus true
    exact Nat.le_trans (pointwise_size hs.tasks) hset

/-- A machine without a running kernel gets its two system tasks at most. -/
theorem start_tasks_size (hwf : WF m.kernel) (hactive : m.kernel.active = false)
    (a : Action φ β) : (step m a).kernel.tasks.size ≤ m.kernel.tasks.size + 2 := by
  cases a with
  | guest cpu bus => exact Nat.le_add_right _ _
  | instruction =>
    have hframe := scanned_frame m
    have hstep : step m .instruction = m.beforeInstruction := rfl
    rw [hstep, m.beforeInstruction_eq, ← hframe.tasks (by simp)]
    dsimp only
    split
    · exact initializeKernel_size (blank_frame (hwf.blank hactive) hframe)
    · rw [if_neg (by simp [hframe.active, hactive])]
      exact Nat.le_add_right _ _
  | trap number fileResult =>
    rw [step, Machine.trap, if_pos (by simp [hactive])]
    exact Nat.le_add_right _ _

/-- One step keeps within the limits. -/
theorem step_within (hwf : WF m.kernel) (h : Within tasks queues m.kernel) {a : Action φ β}
    (ha : Admitted tasks queues m a) : Within tasks queues (step m a).kernel := by
  cases step_cases hwf a with
  | service s hcalled hactive hs =>
    rw [hs]
    exact within_scheduled (Machine.finish_scheduled (performed_keyed hwf hactive s))
      (performed_within hwf hactive h hcalled ha)
  | rest hcalled hr hidle =>
    obtain ⟨k1, hframe, htasks, hsched, -⟩ := hr
    refine within_scheduled hsched ⟨Nat.le_trans (pointwise_size htasks) h.tasks, ?_, ?_, ?_⟩
    · rw [(hframe.queues (by simp)).1]
      exact h.queues
    · rw [(hframe.semaphores (by simp)).1]
      exact h.semaphores
    · rw [(hframe.queues (by simp)).1]
      exact h.messages
  | start hcalled hactive hblank hwf' hregions =>
    have htwo := start_tasks_size hwf hactive a
    have hnone : ∀ {ν : Type} (t : Table ν), (∀ id : UInt32, t[id]? = none) → t.size = 0 := by
      intro ν t ht
      refine Nat.le_zero.mp (size_le_of_mem (t := (∅ : Table ν)) fun id hid => ?_)
      rw [TreeMap.mem_iff_isSome_getElem?, ht] at hid
      cases hid
    refine ⟨Nat.le_trans htwo (Nat.add_le_add_right (ha.start hcalled hactive) 2), ?_, ?_, ?_⟩
    · rw [hnone _ hblank.queues]
      exact Nat.zero_le _
    · rw [hnone _ hblank.semaphores]
      exact Nat.zero_le _
    · intro id q hq
      rw [hblank.queues] at hq
      cases hq

/-- In every run that makes no more objects than there is room for, all the limits are kept. -/
theorem limits_kept (cpu : CpuCore φ) (bus : β) (acts : List (Action φ β)) (tasks queues : Nat)
    (h : Each step (Admitted tasks queues) (reset cpu bus) acts) :
    Always step (fun m => Within tasks queues m.kernel ∧ m.kernel.liveTasks ≤ tasks + 2 ∧
      m.kernel.timers.size ≤ 1024) (reset cpu bus) acts := by
  have hstart : WF (reset cpu bus).kernel ∧ Within tasks queues (reset cpu bus).kernel ∧
      (reset cpu bus).kernel.timers.size ≤ 1024 := by
    refine ⟨wf_reset cpu bus, ⟨?_, ?_, ?_, ?_⟩, ?_⟩ <;> simp [reset]
  refine Always.mono ?_ (always_of_each (I := fun m : Machine φ β => WF m.kernel ∧
    Within tasks queues m.kernel ∧ m.kernel.timers.size ≤ 1024) ?_ h hstart)
  · rintro m ⟨-, hwithin, htimers⟩
    exact ⟨hwithin, hwithin.live, htimers⟩
  · rintro m a ha ⟨hwf, hwithin, htimers⟩
    exact ⟨wf_step hwf a, step_within hwf hwithin ha, step_timers htimers a⟩

end Runs

/-- ROOT makes a task and a queue, and sends to the queue. -/
def makeAndSend : List (Action UInt16 Board) :=
  .instruction :: script booted
    [[(0, 1), (1, 2), (2, 10), (3, 0), (4, 0x100)], [(0, 0x24), (1, 1), (2, 5), (5, 4)],
      [(0, 0x27), (1, 1), (2, 7)]]

theorem limits_kept_by_root :
    Always step (fun m => Within 32 32 m.kernel ∧ m.kernel.liveTasks ≤ 34 ∧
      m.kernel.timers.size ≤ 1024) (reset bootCpu bootBoard) makeAndSend := by
  let m1 := step booted (loading booted [(0, 1), (1, 2), (2, 10), (3, 0), (4, 0x100)])
  let m2 := step m1 (.trap 11 none)
  let m3 := step m2 (loading m2 [(0, 0x24), (1, 1), (2, 5), (5, 4)])
  let m4 := step m3 (.trap 11 none)
  let m5 := step m4 (loading m4 [(0, 0x27), (1, 1), (2, 7)])
  have hidle : ∀ {m : Machine UInt16 Board} {a : Action UInt16 Board}, called m a = none →
      m.kernel.tasks.size ≤ 32 → Admitted 32 32 m a := by
    intro m a hcalled hsize
    constructor <;> simp [hcalled, hsize]
  obtain ⟨h0, ⟨hcreate, hlimit, hsize⟩, h2, ⟨hqueue, hqueues, hnone⟩, h4, hsend, hcapacity⟩ :
      booted.kernel.tasks.size ≤ 32 ∧
        (called m1 (.trap 11 none) = some .tCreate ∧ m1.configured 0x10 = 32 ∧
          m1.kernel.tasks.size = 2) ∧
        m2.kernel.tasks.size ≤ 32 ∧
        (called m3 (.trap 11 none) = some .qCreate ∧ m3.configured 0x14 = 32 ∧
          m3.kernel.queues.size = 0) ∧
        m4.kernel.tasks.size ≤ 32 ∧
        called m5 (.trap 11 none) = some (.qSend .normal) ∧
        (m5.kernel.queues[m5.reg 1]?).map Queue.capacity = some 5 := by
    simp only [m1, m2, m3, m4, m5, booted_eq]
    decide +kernel
  have htask : Admitted 32 32 m1 (.trap 11 none) := by
    constructor <;> simp [hcreate, hlimit, hsize]
  have hmade : Admitted 32 32 m3 (.trap 11 none) := by
    constructor <;> simp [hqueue, hqueues, hnone]
  have hsent : Admitted 32 32 m5 (.trap 11 none) := by
    refine ⟨by simp [hsend], by simp [hsend], ?_, by simp [hsend]⟩
    intro _ _ _ q hq _ hzero
    rw [hq] at hcapacity
    exact absurd (Option.some.inj hcapacity) (by rw [hzero]; decide)
  have hboot : Admitted 32 32 (reset bootCpu bootBoard) .instruction := hidle rfl (Nat.zero_le 32)
  have hfirst : Admitted 32 32 booted
      (loading booted [(0, 1), (1, 2), (2, 10), (3, 0), (4, 0x100)]) := hidle rfl h0
  have hsecond : Admitted 32 32 m2 (loading m2 [(0, 0x24), (1, 1), (2, 5), (5, 4)]) := hidle rfl h2
  have hthird : Admitted 32 32 m4 (loading m4 [(0, 0x27), (1, 1), (2, 7)]) := hidle rfl h4
  exact limits_kept bootCpu bootBoard makeAndSend 32 32
    ⟨hboot, hfirst, htask, hsecond, hmade, hthird, hsent, trivial⟩

/-- A board that is configured for one task and one queue. -/
def tightBoard : Board := (bootBoard.writeLong 0x100210 1).writeLong 0x100214 1

/-- ROOT makes two tasks and two queues without room for any message, and sends one. -/
def overrun : List (List (Fin 16 × UInt32)) :=
  [[(0, 1), (1, 2), (2, 10), (3, 0), (4, 0x100)], [(0, 1), (1, 3), (2, 10), (3, 0), (4, 0x100)],
    [(0, 0x24), (1, 1), (2, 0), (5, 4)], [(0, 0x24), (1, 2), (2, 0), (5, 4)],
    [(0, 0x27), (1, 1), (2, 7)]]

def tightBooted : Machine UInt16 Board := step (reset bootCpu tightBoard) .instruction

theorem limits_overrun : ∃ m : Machine UInt16 Board, Reachable m ∧
    m.configured 0x10 + 2 < m.kernel.liveTasks ∧ m.configured 0x14 < m.kernel.queues.size ∧
      ∃ q, m.kernel.queues[(1 : UInt32)]? = some q ∧ ¬ q.Fits := by
  have htight : Reachable tightBooted :=
    ⟨bootCpu, tightBoard, [.instruction], by rw [run_cons, run_nil, tightBooted]⟩
  obtain ⟨htasks, hqueues, hmessages⟩ :
      (overrun.foldl serve tightBooted).configured 0x10 + 2 <
          (overrun.foldl serve tightBooted).kernel.liveTasks ∧
        (overrun.foldl serve tightBooted).configured 0x14 <
            (overrun.foldl serve tightBooted).kernel.queues.size ∧
          ((overrun.foldl serve tightBooted).kernel.queues[(1 : UInt32)]?).map
            (fun q => (q.flags, q.capacity, q.messages.length)) = some (4, 0, 1) := by
    rw [tightBooted, step_boot]
    decide +kernel
  obtain ⟨q, hq, hfields⟩ := Option.map_eq_some_iff.mp hmessages
  simp only [Prod.mk.injEq] at hfields
  obtain ⟨hflags, hcapacity, hlength⟩ := hfields
  refine ⟨_, serve_reachable htight overrun, htasks, hqueues, q, hq, fun hfits => ?_⟩
  have hle := hfits (by rw [hflags]; decide)
  rw [hlength, hcapacity] at hle
  exact absurd hle (by decide)

end OpenSaab.Psos

/-!
## Tasks that are not made

`create` tests its arguments, takes an identifier and then the two stacks. What it leaves when the stacks
cannot be had.
-/

namespace OpenSaab.Psos

open Std OpenSaab.Table

variable {φ β : Type}

/-- What a creation is about is as it was. -/
structure Untouched (k k' : Kernel) : Prop where
  regions : k'.regions = k.regions
  tasks : k'.tasks = k.tasks
  nextTask : k'.nextTask = k.nextTask

namespace Kernel

variable [GuestBus β]

/-- The tests that a creation makes before it takes anything. -/
def Checks (k : Kernel) (priority superSize : UInt32) (bus : β) : Prop :=
  priority ≤ 255 ∧ (superSize = 0 ∨ 21 ≤ superSize) ∧ k.nextTask ≤ 255 ∧
    k.tasks.size ≤ ((GuestBus.u32 bus (k.kernelConfig + 0x10)).getD 0).toNat + 2

variable (k : Kernel) (name priority user superSize vbr : UInt32) (bus : β)

theorem create_refused (h : ¬ k.Checks priority superSize bus) :
    (k.create name priority user superSize bus vbr).1 = k := by
  unfold create
  split
  · rfl
  · next hpriority =>
    split
    · rfl
    · next hsuper =>
      split
      · rfl
      · next hroom =>
        rw [not_and_or, not_not, UInt32.not_lt] at hsuper
        obtain ⟨hnext, hsize⟩ := not_or.mp hroom
        exact absurd ⟨UInt32.not_lt.mp hpriority, hsuper, UInt32.not_lt.mp hnext,
          Nat.not_lt.mp hsize⟩ h

/-- Once the tests have passed, the identifier is gone, and the status says whether the stacks fit. -/
theorem create_passed (h : k.Checks priority superSize bus) :
    (k.create name priority user superSize bus vbr).1.nextTask = k.nextTask + 1 ∧
      ((k.create name priority user superSize bus vbr).2.1 = 0 ↔
        k.roomForStacks user superSize) := by
  obtain ⟨hpriority, hsuper, hnext, hsize⟩ := h
  obtain ⟨regions, hr⟩ := k.reserve_frame user superSize
  have hreserve : (k.reserve user superSize).nextTask = k.nextTask + 1 := by rw [hr]
  unfold create
  rw [if_neg (UInt32.not_lt.mpr hpriority), if_neg, if_neg]
  · dsimp only
    split
    · next hfull =>
      have hne : (0x0f : UInt32) ≠ 0 := by decide
      exact ⟨hreserve, iff_of_false hne fun hroom => hroom hfull⟩
    · next hroom => exact ⟨hreserve, iff_of_true rfl hroom⟩
  · exact not_or.mpr ⟨UInt32.not_lt.mpr hnext, Nat.not_lt.mpr hsize⟩
  · rw [not_and_or, not_not, UInt32.not_lt]
    exact hsuper

end Kernel

/-- A creation that fails leaves everything as it was exactly if it fails before the stacks: what the
tests let through finds room for both. -/
theorem create_atomic_iff [M68k φ] [GuestBus β] (m : Machine φ β) :
    ((performed m .tCreate).2 ≠ 0 → Untouched m.kernel (performed m .tCreate).1.kernel) ↔
      (m.kernel.Checks (m.reg 2) (m.reg 4) m.bus → m.kernel.roomForStacks (m.reg 3) (m.reg 4)) := by
  have hcounted : m.counted.kernel.Checks (m.reg 2) (m.reg 4) m.bus ↔
      m.kernel.Checks (m.reg 2) (m.reg 4) m.bus := Iff.rfl
  have hroom : m.counted.kernel.roomForStacks (m.reg 3) (m.reg 4) ↔
      m.kernel.roomForStacks (m.reg 3) (m.reg 4) := by
    have hregions : m.counted.kernel.regions = m.kernel.regions := rfl
    exact Kernel.roomForStacks_congr hregions _ _
  rw [← hcounted, ← hroom]
  change ((m.counted.kernel.create (m.reg 1) (m.reg 2) (m.reg 3) (m.reg 4) m.bus m.cpu.vbr).2.1 ≠ 0 →
    Untouched m.kernel
      (m.counted.kernel.create (m.reg 1) (m.reg 2) (m.reg 3) (m.reg 4) m.bus m.cpu.vbr).1) ↔ _
  by_cases hchecks : m.counted.kernel.Checks (m.reg 2) (m.reg 4) m.bus
  · obtain ⟨hnext, hstatus⟩ := m.counted.kernel.create_passed (m.reg 1) _ (m.reg 3) _ m.cpu.vbr _
      hchecks
    constructor
    · intro h _
      by_contra hfull
      have hsame := (h fun hzero => hfull (hstatus.mp hzero)).nextTask
      have hone : m.kernel.nextTask + 1 = m.kernel.nextTask := hnext.symm.trans hsame
      have hlt : m.kernel.nextTask.toNat ≤ 255 := UInt32.le_iff_toNat_le.mp hchecks.2.2.1
      have hnat := congrArg UInt32.toNat hone
      rw [UInt32.toNat_add, Nat.mod_eq_of_lt (by change m.kernel.nextTask.toNat + 1 < 2 ^ 32; omega)]
        at hnat
      exact Nat.succ_ne_self _ hnat
    · intro h hfailed
      exact absurd (hstatus.mpr (h hchecks)) hfailed
  · refine iff_of_true (fun _ => ?_) fun h => absurd h hchecks
    rw [Kernel.create_refused _ _ _ _ _ _ _ hchecks]
    exact ⟨rfl, rfl, rfl⟩

/-- ROOT asks for a task with a stack of 256 bytes and a system stack of 16 MiB. -/
def greedy : Machine UInt16 Board :=
  step booted (loading booted [(0, 1), (1, 2), (2, 10), (3, 0x100), (4, 0xffffff)])

/-- The first stack is lost. -/
theorem create_leaks : ¬ ∀ m : Machine UInt16 Board, (performed m .tCreate).2 ≠ 0 →
    Untouched m.kernel (performed m .tCreate).1.kernel := by
  intro h
  have hstatus : (performed greedy .tCreate).2 ≠ 0 := by
    rw [greedy, booted_eq]
    decide +kernel
  have hregions := (h greedy hstatus).regions
  have hused := congrArg (fun t => (t[(0 : UInt32)]?).map fun r => r.used.size) hregions
  rw [greedy, booted_eq] at hused
  exact absurd hused (by decide +kernel)

end OpenSaab.Psos
