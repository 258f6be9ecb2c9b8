import OpenSaab.Psos.Effects

/-!
# What a service leaves alone

Each service is framed by the few parts of the kernel that it touches. With this, every service is
shown to make the change that it announces.
-/

namespace OpenSaab.Psos

open Std OpenSaab.Table OpenSaab.Runs

variable {φ β : Type}

/-- The parts of the kernel that the invariants speak of. -/
inductive Part where
  | current
  | tasks
  | nextTask
  | regions
  | semaphores
  | queues
  deriving DecidableEq, Repr

/-- Nothing but the touched parts is changed. -/
structure Frame (touched : List Part) (k k' : Kernel) : Prop where
  active : k'.active = k.active
  current : .current ∉ touched → k'.current = k.current
  tasks : .tasks ∉ touched → k'.tasks = k.tasks
  nextTask : .nextTask ∉ touched → k'.nextTask = k.nextTask
  regions : .regions ∉ touched → k'.regions = k.regions
  semaphores : .semaphores ∉ touched →
    k'.semaphores = k.semaphores ∧ k'.nextObject = k.nextObject
  queues : .queues ∉ touched → k'.queues = k.queues ∧ k'.nextQueue = k.nextQueue

namespace Frame

variable {a b : List Part} {k k' k'' : Kernel}

theorem refl (a : List Part) (k : Kernel) : Frame a k k :=
  ⟨rfl, fun _ => rfl, fun _ => rfl, fun _ => rfl, fun _ => rfl, fun _ => ⟨rfl, rfl⟩, fun _ => ⟨rfl, rfl⟩⟩

theorem trans (h : Frame a k k') (h' : Frame a k' k'') : Frame a k k'' where
  active := h'.active.trans h.active
  current hn := (h'.current hn).trans (h.current hn)
  tasks hn := (h'.tasks hn).trans (h.tasks hn)
  nextTask hn := (h'.nextTask hn).trans (h.nextTask hn)
  regions hn := (h'.regions hn).trans (h.regions hn)
  semaphores hn := ⟨(h'.semaphores hn).1.trans (h.semaphores hn).1,
    (h'.semaphores hn).2.trans (h.semaphores hn).2⟩
  queues hn := ⟨(h'.queues hn).1.trans (h.queues hn).1, (h'.queues hn).2.trans (h.queues hn).2⟩

theorem mono (hab : ∀ p ∈ a, p ∈ b) (h : Frame a k k') : Frame b k k' where
  active := h.active
  current hn := h.current fun hm => hn (hab _ hm)
  tasks hn := h.tasks fun hm => hn (hab _ hm)
  nextTask hn := h.nextTask fun hm => hn (hab _ hm)
  regions hn := h.regions fun hm => hn (hab _ hm)
  semaphores hn := h.semaphores fun hm => hn (hab _ hm)
  queues hn := h.queues fun hm => hn (hab _ hm)

end Frame

def Service.touches : Service → List Part
  | .tCreate => [.tasks, .nextTask, .regions]
  | .tStart | .tRestart | .tDelete | .tSuspend | .tResume | .tSetpri | .tMode | .tSetreg => [.tasks]
  | .rnCreate | .rnDelete | .rnGetseg | .rnRetseg => [.regions]
  | .qCreate => [.queues]
  | .qDelete | .qSend _ | .qReceive => [.tasks, .queues]
  | .evSend | .evReceive | .tmTick | .tmWkafter => [.tasks]
  | .smCreate | .smDelete => [.semaphores]
  | .smP | .smV => [.tasks, .semaphores]
  | _ => []

theorem frame_tasks {k : Kernel} (tasks : Table Task) : Frame [.tasks] k { k with tasks } := by
  constructor <;> simp

theorem frame_regions {k : Kernel} (regions : Table Region) :
    Frame [.regions] k { k with regions } := by
  constructor <;> simp

namespace Kernel

theorem sendEvent_frame (k : Kernel) (id bits : UInt32) :
    Frame [.tasks] k (k.sendEvent id bits).1 := by
  unfold sendEvent
  dsimp only
  split
  · exact .refl _ _
  · exact frame_tasks _

theorem fire_frame (k : Kernel) (due : UInt32 × Timer) : Frame [.tasks] k (k.fire due) := by
  obtain ⟨h1, h2, h3, h4, h5, h6, h7⟩ := k.sendEvent_frame due.2.task due.2.events
  exact ⟨h1, h2, h3, h4, h5, h6, h7⟩

theorem foldl_fire_frame (due : List (UInt32 × Timer)) (k : Kernel) :
    Frame [.tasks] k (due.foldl fire k) := by
  induction due generalizing k with
  | nil => exact .refl _ _
  | cons d due ih => exact (k.fire_frame d).trans (ih (k.fire d))

theorem tick_frame (k : Kernel) : Frame [.tasks] k k.tick := by
  have hadvance : Frame [.tasks] k k.advance := by constructor <;> simp [advance]
  exact hadvance.trans (foldl_fire_frame _ _)

theorem deliverTo_frame (message : Message) (k : Kernel) (t : Task) :
    Frame [.tasks] k (deliverTo message k t) := by
  unfold deliverTo
  split
  · exact .refl _ _
  · exact frame_tasks _

theorem foldl_deliverTo_frame (message : Message) (ws : List Task) (k : Kernel) :
    Frame [.tasks] k (ws.foldl (deliverTo message) k) := by
  induction ws generalizing k with
  | nil => exact .refl _ _
  | cons w ws ih => exact (deliverTo_frame message k w).trans (ih (deliverTo message k w))

theorem send_frame (k : Kernel) (kind : SendKind) (queue : UInt32) (message : Message) :
    Frame [.tasks, .queues] k (k.send kind queue message).1 := by
  unfold send
  split
  · exact .refl _ _
  · dsimp only
    split
    · exact (foldl_deliverTo_frame _ _ _).mono (by simp)
    · split
      · exact .refl _ _
      · split
        · exact .refl _ _
        · constructor <;> simp

theorem deleteQueue_frame (k : Kernel) (queue : UInt32) :
    Frame [.tasks, .queues] k (k.deleteQueue queue).1 := by
  unfold deleteQueue
  split
  · constructor <;> simp
  · exact .refl _ _

theorem post_frame (k : Kernel) (semaphore : UInt32) :
    Frame [.tasks, .semaphores] k (k.post semaphore).1 := by
  unfold post
  split
  · exact .refl _ _
  · split
    · split
      · exact .refl _ _
      · constructor <;> simp
    · constructor <;> simp

theorem block_frame (k : Kernel) (wait : Wait) (object timeout : UInt32) :
    Frame [.tasks] k (k.block wait object timeout) := by
  unfold block
  split
  · exact .refl _ _
  · exact frame_tasks _

theorem start_frame [GuestBus β] (k : Kernel) (id mode pc : UInt32) (args : List UInt32) (bus : β) :
    Frame [.tasks] k (k.start id mode pc args bus).1 := by
  cases h : k.startable id mode pc with
  | false =>
    rw [(start_unstartable h args bus).1]
    exact .refl _ _
  | true =>
    obtain ⟨-, t, top, -, hk⟩ := start_startable h args bus
    rw [hk]
    exact frame_tasks _

theorem create_frame [GuestBus β] (k : Kernel) (name priority user superSize vbr : UInt32)
    (bus : β) :
    Frame [.tasks, .nextTask, .regions] k (k.create name priority user superSize bus vbr).1 := by
  obtain ⟨regions, hr⟩ := k.reserve_frame user superSize
  rcases k.create_cases name priority user superSize vbr bus with h | ⟨-, h | ⟨t, -, -, h⟩⟩
  · rw [h]
    exact .refl _ _
  · rw [h, hr]
    constructor <;> simp
  · rw [h, hr]
    constructor <;> simp [setTask]

end Kernel

namespace Machine

section

variable (m : Machine φ β)

theorem setSuspended_frame (suspend : Bool) :
    Frame [.tasks] m.kernel (m.setSuspended suspend).1.kernel := by
  unfold setSuspended
  split
  · exact .refl _ _
  · split
    · exact .refl _ _
    · exact frame_tasks _

theorem tRestart_frame [GuestBus β] : Frame [.tasks] m.kernel m.tRestart.1.kernel := by
  unfold tRestart
  split
  · exact .refl _ _
  · exact m.kernel.start_frame _ _ _ _ _

theorem tDelete_frame : Frame [.tasks] m.kernel m.tDelete.1.kernel := by
  unfold tDelete
  split
  · exact .refl _ _
  · exact frame_tasks _

theorem tSetpri_frame : Frame [.tasks] m.kernel m.tSetpri.1.kernel := by
  unfold tSetpri
  split
  · exact .refl _ _
  · split
    · exact .refl _ _
    · exact frame_tasks _

theorem tMode_frame [M68k φ] : Frame [.tasks] m.kernel m.tMode.1.kernel := by
  unfold tMode
  split
  · exact .refl _ _
  · dsimp only
    split
    · exact .refl _ _
    · exact frame_tasks _

theorem tGetreg_frame : Frame [] m.kernel m.tGetreg.1.kernel := by
  unfold tGetreg
  split
  · exact .refl _ _
  · split <;> exact .refl _ _

theorem tSetreg_frame : Frame [.tasks] m.kernel m.tSetreg.1.kernel := by
  unfold tSetreg
  split
  · exact .refl _ _
  · split
    · exact .refl _ _
    · exact frame_tasks _

theorem rnCreate_frame : Frame [.regions] m.kernel m.rnCreate.1.kernel := by
  unfold rnCreate
  dsimp only
  split
  · exact .refl _ _
  · split
    · exact .refl _ _
    · split
      · exact .refl _ _
      · exact frame_regions _

theorem rnIdent_frame : Frame [] m.kernel m.rnIdent.1.kernel := by
  unfold rnIdent
  split <;> exact .refl _ _

theorem rnDelete_frame : Frame [.regions] m.kernel m.rnDelete.1.kernel := by
  unfold rnDelete
  split
  · exact .refl _ _
  · exact frame_regions _

theorem rnGetseg_frame : Frame [.regions] m.kernel m.rnGetseg.1.kernel := by
  obtain ⟨regions, h⟩ := m.kernel.allocate_frame (m.reg 1) (m.reg 3)
  have hk : m.rnGetseg.1.kernel = { m.kernel with regions } := h
  rw [hk]
  exact frame_regions _

theorem rnRetseg_frame : Frame [.regions] m.kernel m.rnRetseg.1.kernel := by
  unfold rnRetseg
  split
  · exact .refl _ _
  · split
    · exact .refl _ _
    · exact frame_regions _

theorem qCreate_frame [GuestBus β] : Frame [.queues] m.kernel m.qCreate.1.kernel := by
  unfold qCreate
  dsimp only
  split
  · exact .refl _ _
  · constructor <;> simp [setD]

theorem qReceive_frame : Frame [.tasks, .queues] m.kernel m.qReceive.1.kernel := by
  unfold qReceive
  split
  · exact .refl _ _
  · split
    · constructor <;> simp [setMessage, setD]
    · dsimp only
      split
      · exact .refl _ _
      · exact (m.kernel.block_frame _ _ _).mono (by simp)

theorem qSendAs_kernel (kind : SendKind) :
    (m.qSendAs kind).1.kernel = (m.kernel.send kind (m.reg 1) m.messageArg).1 := by
  unfold qSendAs
  dsimp only
  split <;> rfl

theorem evReceive_frame : Frame [.tasks] m.kernel m.evReceive.1.kernel := by
  unfold evReceive
  split
  · exact .refl _ _
  · split
    · exact .refl _ _
    · dsimp only
      split
      · exact frame_tasks _
      · split
        · exact .refl _ _
        · exact (frame_tasks _).trans (Kernel.block_frame _ _ _ _)

theorem smCreate_frame : Frame [.semaphores] m.kernel m.smCreate.1.kernel := by
  unfold smCreate
  split
  · exact .refl _ _
  · constructor <;> simp [setD]

theorem smDelete_frame : Frame [.semaphores] m.kernel m.smDelete.1.kernel := by
  unfold smDelete
  split
  · exact .refl _ _
  · constructor <;> simp

theorem smP_frame : Frame [.tasks, .semaphores] m.kernel m.smP.1.kernel := by
  unfold smP
  split
  · exact .refl _ _
  · split
    · constructor <;> simp
    · split
      · exact .refl _ _
      · exact (m.kernel.block_frame _ _ _).mono (by simp)

theorem tmWkafter_frame [M68k φ] : Frame [.tasks] m.kernel m.tmWkafter.1.kernel := by
  unfold tmWkafter
  split
  · exact m.kernel.block_frame _ _ _
  · split
    · exact .refl _ _
    · exact frame_tasks _

theorem tmEvent_frame (every : Bool) : Frame [] m.kernel (m.tmEvent every).1.kernel := by
  unfold tmEvent
  split
  · exact .refl _ _
  · constructor <;> simp [setD]

theorem tmCancel_frame : Frame [] m.kernel m.tmCancel.1.kernel := by
  unfold tmCancel
  split
  · exact .refl _ _
  · constructor <;> simp

/-- A service changes the parts that it touches and no others. -/
theorem perform_frame [M68k φ] [GuestBus β] (s : Service) :
    Frame s.touches m.kernel (m.perform s).1.kernel := by
  cases s with
  | tCreate => exact m.kernel.create_frame _ _ _ _ _ _
  | tIdent => exact .refl _ _
  | tStart => exact m.kernel.start_frame _ _ _ [m.reg 3, m.reg 4, m.reg 5, m.reg 6] m.bus
  | tRestart => exact m.tRestart_frame
  | tDelete => exact m.tDelete_frame
  | tSuspend => exact m.setSuspended_frame true
  | tResume => exact m.setSuspended_frame false
  | tSetpri => exact m.tSetpri_frame
  | tMode => exact m.tMode_frame
  | tGetreg => exact m.tGetreg_frame
  | tSetreg => exact m.tSetreg_frame
  | rnCreate => exact m.rnCreate_frame
  | rnIdent => exact m.rnIdent_frame
  | rnDelete => exact m.rnDelete_frame
  | rnGetseg => exact m.rnGetseg_frame
  | rnRetseg => exact m.rnRetseg_frame
  | qCreate => exact m.qCreate_frame
  | qIdent => exact .refl _ _
  | qDelete => exact m.kernel.deleteQueue_frame _
  | qSend kind =>
    simp only [perform, qSendAs_kernel]
    exact m.kernel.send_frame _ _ _
  | qReceive => exact m.qReceive_frame
  | evSend => exact m.kernel.sendEvent_frame _ _
  | evReceive => exact m.evReceive_frame
  | smCreate => exact m.smCreate_frame
  | smIdent => exact .refl _ _
  | smDelete => exact m.smDelete_frame
  | smP => exact m.smP_frame
  | smV => exact m.kernel.post_frame _
  | tmTick => exact m.kernel.tick_frame
  | tmSet => constructor <;> simp [perform, tmSet]
  | tmGet => exact .refl _ _
  | tmWkafter => exact m.tmWkafter_frame
  | tmEvent every => exact m.tmEvent_frame every
  | tmCancel => exact m.tmCancel_frame
  | fileStub args => exact .refl _ _
  | fileError code => exact .refl _ _
  | unimplemented op => constructor <;> simp [perform, unimplemented]

end

/-- Every service does to the tasks what its change says. -/
theorem perform_effect [M68k φ] [GuestBus β] {m : Machine φ β} (hk : Keyed m.kernel)
    (hc : m.kernel.current ∈ m.kernel.tasks) (s : Service) :
    (m.change s).Effect m s (m.perform s).1.kernel.tasks := by
  by_cases hn : .tasks ∉ s.touches
  · have htasks := (m.perform_frame s).tasks hn
    have hchange : m.change s = .wake := by
      cases s with
      | qSend kind => rfl
      | _ => first | rfl | exact absurd hn (by simp [Service.touches])
    rw [hchange]
    exact wake_same htasks
  · rw [not_not] at hn
    cases s with
    | tCreate => exact tCreate_effect
    | tStart => exact tStart_effect
    | tRestart => exact tRestart_effect
    | tDelete => exact tDelete_effect
    | tSuspend => exact setSuspended_effect true _
    | tResume => exact setSuspended_effect false _
    | tSetpri => exact tSetpri_effect
    | tMode => exact tMode_effect
    | tSetreg => exact tSetreg_effect
    | qDelete => exact wake_unhanded (m.kernel.deleteQueue_tasks (m.reg 1))
    | qSend kind =>
      simp only [perform, qSendAs_kernel]
      exact Kernel.send_tasks hk kind (m.reg 1) m.messageArg
    | qReceive => exact qReceive_effect hc
    | evSend => exact wake_unhanded (m.kernel.sendEvent_tasks (m.reg 1) (m.reg 4))
    | evReceive => exact evReceive_effect hc
    | smP => exact smP_effect hc
    | smV => exact Kernel.post_tasks hk (m.reg 1)
    | tmTick => exact wake_unhanded m.kernel.tick_tasks
    | tmWkafter => exact tmWkafter_effect hc
    | _ => exact absurd hn (by simp [Service.touches])

end Machine

end OpenSaab.Psos
