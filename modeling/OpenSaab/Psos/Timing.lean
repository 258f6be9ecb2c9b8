import OpenSaab.Psos.Steps
import OpenSaab.Psos.Board

/-!
# The clock

A step ticks the clock once, performs another service, starts the kernel, or does nothing but let the
scheduler run.
-/

namespace OpenSaab.Psos

open Std OpenSaab.Table OpenSaab.Runs

variable {φ β : Type}

/-! ## What touches the clock -/

namespace Kernel

theorem sendEvent_ticks (k : Kernel) (id bits : UInt32) :
    (k.sendEvent id bits).1.ticks = k.ticks := by
  unfold sendEvent
  dsimp only
  split <;> rfl

theorem foldl_deliverTo_ticks (message : Message) (ws : List Task) (k : Kernel) :
    (ws.foldl (deliverTo message) k).ticks = k.ticks := by
  induction ws generalizing k with
  | nil => rfl
  | cons w ws ih =>
    rw [List.foldl_cons, ih, deliverTo]
    split <;> rfl

theorem send_ticks (k : Kernel) (kind : SendKind) (queue : UInt32) (message : Message) :
    (k.send kind queue message).1.ticks = k.ticks := by
  unfold send
  split
  · rfl
  · dsimp only
    split
    · exact foldl_deliverTo_ticks _ _ _
    · split
      · rfl
      · split <;> rfl

theorem deleteQueue_ticks (k : Kernel) (queue : UInt32) :
    (k.deleteQueue queue).1.ticks = k.ticks := by
  unfold deleteQueue
  split <;> rfl

theorem post_ticks (k : Kernel) (semaphore : UInt32) : (k.post semaphore).1.ticks = k.ticks := by
  unfold post
  split
  · rfl
  · split
    · split <;> rfl
    · rfl

theorem block_ticks (k : Kernel) (wait : Wait) (object timeout : UInt32) :
    (k.block wait object timeout).ticks = k.ticks := by
  unfold block
  split <;> rfl

theorem allocate_ticks (k : Kernel) (region bytes : UInt32) :
    (k.allocate region bytes).1.ticks = k.ticks := by
  obtain ⟨regions, h⟩ := k.allocate_frame region bytes
  rw [h]

variable [GuestBus β]

theorem create_ticks (k : Kernel) (name priority user superSize vbr : UInt32) (bus : β) :
    (k.create name priority user superSize bus vbr).1.ticks = k.ticks := by
  obtain ⟨regions, hr⟩ := k.reserve_frame user superSize
  rcases k.create_cases name priority user superSize vbr bus with h | ⟨-, h | ⟨t, -, -, h⟩⟩
  · rw [h]
  · rw [h, hr]
  · rw [h, hr]
    rfl

theorem start_ticks (k : Kernel) (id mode pc : UInt32) (args : List UInt32) (bus : β) :
    (k.start id mode pc args bus).1.ticks = k.ticks := by
  cases h : k.startable id mode pc with
  | false => rw [(start_unstartable h args bus).1]
  | true =>
    obtain ⟨-, t, top, -, hk⟩ := start_startable h args bus
    rw [hk]
    rfl

theorem scan_ticks (k : Kernel) (bus : β) : (k.scan bus).ticks = k.ticks := by
  unfold scan
  cases findModule bus <;> rfl

theorem schedule_ticks [M68k φ] (k : Kernel) (cpu : CpuCore φ) (bus : β) (force : Bool) :
    (k.schedule cpu bus force).1.ticks = k.ticks := by
  have hout : (k.switchOut cpu).ticks = k.ticks := by
    unfold switchOut
    split <;> rfl
  unfold schedule
  split
  · rfl
  · split
    · rfl
    · dsimp only
      split
      · exact hout
      · exact hout

end Kernel

/-- Only `tm_tick` ticks the clock. -/
theorem perform_ticks [M68k φ] [GuestBus β] (m : Machine φ β) {s : Service} (hs : s ≠ .tmTick) :
    (m.perform s).1.kernel.ticks = m.kernel.ticks := by
  cases s with
  | tmTick => exact absurd rfl hs
  | tCreate => exact m.kernel.create_ticks _ _ _ _ _ _
  | tStart => exact m.kernel.start_ticks _ _ _ [m.reg 3, m.reg 4, m.reg 5, m.reg 6] m.bus
  | tRestart =>
    simp only [Machine.perform, Machine.tRestart]
    split
    · rfl
    · exact m.kernel.start_ticks _ _ _ _ _
  | rnGetseg => exact m.kernel.allocate_ticks _ _
  | qDelete => exact m.kernel.deleteQueue_ticks _
  | qSend kind =>
    simp only [Machine.perform, Machine.qSendAs_kernel]
    exact m.kernel.send_ticks kind _ _
  | evSend => exact m.kernel.sendEvent_ticks _ _
  | smV => exact m.kernel.post_ticks _
  | evReceive =>
    simp only [Machine.perform, Machine.evReceive]
    repeat' split
    all_goals first | rfl | exact Kernel.block_ticks _ _ _ _
  | qReceive | smP | tmWkafter =>
    simp only [Machine.perform, Machine.qReceive, Machine.smP, Machine.tmWkafter]
    repeat' split
    all_goals first | rfl | exact Kernel.block_ticks _ _ _ _
  | _ =>
    simp only [Machine.perform, Machine.tIdent, Machine.tDelete, Machine.tSuspend, Machine.tResume,
      Machine.setSuspended, Machine.tSetpri, Machine.tMode, Machine.tGetreg, Machine.tSetreg,
      Machine.rnCreate, Machine.rnIdent, Machine.rnDelete, Machine.rnRetseg, Machine.qCreate,
      Machine.qIdent, Machine.smCreate, Machine.smIdent, Machine.smDelete, Machine.tmSet,
      Machine.tmGet, Machine.tmEvent, Machine.tmCancel, Machine.fileStub, Machine.unimplemented]
    try repeat' split
    all_goals rfl

/-! ## The end of a step -/

/-- The registers may be saved, and ready and running may change places. -/
def Turned (t t' : Task) : Prop :=
  ∃ cpu state, t' = { t with cpu, state } ∧ (state = t.state ∨
    (t.state = .ready ∨ t.state = .running) ∧ (state = .ready ∨ state = .running))

theorem turned_refl (t : Task) : Turned t t := ⟨t.cpu, t.state, rfl, .inl rfl⟩

theorem turned_trans (a b c : Task) (h : Turned a b) (h' : Turned b c) : Turned a c := by
  obtain ⟨cpu, state, rfl, h⟩ := h
  obtain ⟨cpu', state', rfl, h'⟩ := h'
  refine ⟨cpu', state', rfl, ?_⟩
  dsimp only at h'
  grind

/-- The scheduler has run, which touches neither the clock nor what a task waits for. -/
structure Settles (k k' : Kernel) : Prop where
  scheduled : Scheduled k k'
  ticks : k'.ticks = k.ticks
  tasks : Pointwise Turned k.tasks k'.tasks

theorem Settles.refl (k : Kernel) : Settles k k := ⟨.refl k, rfl, .refl turned_refl _⟩

theorem Settles.trans {k k' k'' : Kernel} (h : Settles k k') (h' : Settles k' k'') :
    Settles k k'' :=
  ⟨h.scheduled.trans h'.scheduled, h'.ticks.trans h.ticks, h.tasks.trans turned_trans h'.tasks⟩

theorem settles_of_frame {k k' : Kernel} (h : Frame [] k k') (hticks : k'.ticks = k.ticks) :
    Settles k k' := by
  have htasks : k'.tasks = k.tasks := h.tasks (by simp)
  refine ⟨⟨h.mono (by simp), ?_, .inl (h.current (by simp))⟩, hticks, ?_⟩
  · rw [htasks]
    exact .refl settled_refl _
  · rw [htasks]
    exact .refl turned_refl _

section Steps

variable [M68k φ] [GuestBus β]

theorem schedule_settles {k : Kernel} (hk : Keyed k) (cpu : CpuCore φ) (bus : β) (force : Bool) :
    Settles k (k.schedule cpu bus force).1 := by
  refine ⟨Kernel.schedule_scheduled hk cpu bus force, k.schedule_ticks cpu bus force, ?_⟩
  have hcases := Kernel.schedule_cases hk cpu bus force
  revert hcases
  generalize k.schedule cpu bus force = r
  intro hcases
  cases hcases with
  | idle => exact .refl turned_refl _
  | keep => exact .refl turned_refl _
  | @switch id next hother hnext hrunnable hbest hgo =>
    have hout : Pointwise Turned k.tasks (k.switchOut cpu).tasks := by
      unfold Kernel.switchOut
      split
      · exact .refl turned_refl _
      · next now hnow =>
        refine .insert turned_refl hnow ?_
        unfold Task.switchedOut
        split
        · exact turned_refl now
        · refine ⟨_, _, rfl, ?_⟩
          split
          · next hrunning => exact .inr ⟨.inr hrunning, .inl rfl⟩
          · exact .inl rfl
    exact hout.trans turned_trans (.insert turned_refl ((Kernel.switchOut_get hother).trans hnext)
      ⟨next.cpu, .running, rfl, .inr ⟨(runnable_iff.mp hrunnable).2, .inr rfl⟩⟩)

omit [GuestBus β] in
theorem saveBlocked_settles (m : Machine φ β) : Settles m.kernel m.saveBlocked.kernel := by
  refine ⟨m.saveBlocked_scheduled, ?_, ?_⟩
  · unfold Machine.saveBlocked
    split
    · rfl
    · split <;> rfl
  · unfold Machine.saveBlocked
    split
    · exact .refl turned_refl _
    · next t ht =>
      split
      · exact .insert turned_refl ht ⟨_, t.state, rfl, .inl rfl⟩
      · exact .refl turned_refl _

theorem finish_settles {r : Machine φ β × UInt32} (hk : Keyed r.1.kernel) :
    Settles r.1.kernel (Machine.finish r).kernel := by
  have hsave := saveBlocked_settles (r.1.setD 0 r.2)
  exact hsave.trans (schedule_settles (scheduled_keyed hsave.scheduled hk) _ _ _)

omit [M68k φ] in
theorem scanned_ticks (m : Machine φ β) : m.scanned.ticks = m.kernel.ticks := by
  unfold Machine.scanned
  split
  · exact m.kernel.scan_ticks m.bus
  · rfl

/-- What a step does before the scheduler runs. -/
inductive Works (m : Machine φ β) (a : Action φ β) : Prop where
  | tick (k : Kernel) (hticks : k.ticks = m.kernel.ticks) (hframe : Frame [] m.kernel k)
      (h : Settles k.tick (step m a).kernel)
  | service (s : Service) (hs : s ≠ .tmTick) (hactive : m.kernel.active = true)
      (h : Settles (performed m s).1.kernel (step m a).kernel)
  | rest (h : Settles m.kernel (step m a).kernel)
  | start (hactive : m.kernel.active = false) (k : Kernel) (hframe : Frame [] m.kernel k)
      (h : (step m a).kernel = (Machine.initializeKernel { m with kernel := k }).kernel)

theorem instruction_works {m : Machine φ β} (hwf : WF m.kernel) : Works m .instruction := by
  have hstep : step m .instruction = m.beforeInstruction := rfl
  have hticks := scanned_ticks m
  have hframe := scanned_frame m
  rw [m.beforeInstruction_eq] at hstep
  dsimp only at hstep
  rw [hframe.active] at hstep
  by_cases ha : m.kernel.active = true
  · simp only [ha, not_true_eq_false, false_and, if_false, if_true] at hstep
    let m1 : Machine φ β := { m with kernel := m.scanned }
    have hkeyed : Keyed m1.hostTick.kernel := by
      refine keyed_of_pointwise (fun _ _ => keptOrWoken_id) (hostTick_frame m1).2 ?_
      unfold Keyed
      rw [show m1.kernel.tasks = m.kernel.tasks from hframe.tasks (by simp)]
      exact hwf.keyed
    have hsettles : Settles m1.hostTick.kernel (step m .instruction).kernel := by
      rw [hstep]
      exact schedule_settles hkeyed _ _ _
    unfold Machine.hostTick at hsettles
    dsimp only [m1] at hsettles
    split at hsettles
    · refine .tick { m.scanned with lastHostTick := GuestBus.currentInsns m.bus } hticks ?_ hsettles
      exact hframe.trans (by constructor <;> simp)
    · exact .rest ((settles_of_frame hframe hticks).trans hsettles)
  · rw [Bool.not_eq_true] at ha
    simp only [ha, Bool.false_eq_true, not_false_eq_true, true_and, if_false] at hstep
    split at hstep
    · exact .start ha m.scanned hframe (by rw [hstep])
    · refine .rest ?_
      rw [hstep]
      exact settles_of_frame hframe hticks

theorem trap_works {m : Machine φ β} (hwf : WF m.kernel) (number : UInt8)
    (fileResult : Option UInt32) : Works m (.trap number fileResult) := by
  by_cases ha : m.kernel.active = true
  · by_cases h13 : number = 13
    · refine .rest ?_
      simp only [step, Machine.trap, ha, not_true_eq_false, if_false, h13, if_true,
        Machine.returnFromException]
      split
      · exact schedule_settles hwf.keyed _ _ _
      · exact settles_of_frame (by constructor <;> simp [ha]) rfl
    · by_cases h11 : number = 11
      · have hstep : step m (.trap number fileResult) = m.service fileResult := by
          simp [step, Machine.trap, ha, h11]
        have hcount : Settles m.kernel m.counted.kernel :=
          settles_of_frame (by constructor <;> simp [Machine.counted]) rfl
        cases fileResult with
        | some code =>
          refine .rest ?_
          rw [hstep]
          exact hcount.trans (@finish_settles _ _ _ _ (m.counted, code) hwf.keyed)
        | none =>
          by_cases h12 : m.reg 0 = 12
          · refine .rest ?_
            have hreg : m.counted.reg 0 = 12 := h12
            rw [hstep]
            simp only [Machine.service, if_pos hreg]
            exact hcount
          · have hfinish : step m (.trap number none) =
                Machine.finish (performed m (decode (m.reg 0))) := by
              have hreg : m.counted.reg 0 ≠ 12 := h12
              rw [hstep]
              simp only [Machine.service, if_neg hreg]
              rfl
            have hsettles : Settles (performed m (decode (m.reg 0))).1.kernel
                (step m (.trap number none)).kernel := by
              rw [hfinish]
              exact finish_settles (performed_keyed hwf ha _)
            by_cases htick : decode (m.reg 0) = .tmTick
            · rw [htick] at hsettles
              exact .tick m.counted.kernel rfl (by constructor <;> simp [Machine.counted]) hsettles
            · exact .service _ htick ha hsettles
      · refine .rest ?_
        simp only [step, Machine.trap, ha, not_true_eq_false, if_false, h13, h11,
          not_false_eq_true, if_true, ne_eq]
        exact .refl _
  · refine .rest ?_
    simp only [step, Machine.trap, ha, Bool.false_eq_true, not_false_eq_true, if_true]
    exact .refl _

/-- Every step ticks the clock once, performs another service, starts the kernel, or does nothing
but let the scheduler run. -/
theorem step_works {m : Machine φ β} (hwf : WF m.kernel) (a : Action φ β) : Works m a := by
  cases a with
  | guest cpu bus => exact .rest (.refl _)
  | instruction => exact instruction_works hwf
  | trap number fileResult => exact trap_works hwf number fileResult

end Steps

/-! ## The ticks -/

namespace Kernel

theorem tick_ticks (k : Kernel) : k.tick.ticks = satAdd k.ticks 1 := by
  have hfire (due : List (UInt32 × Timer)) (k : Kernel) : (due.foldl fire k).ticks = k.ticks := by
    induction due generalizing k with
    | nil => rfl
    | cons d due ih => exact (ih (k.fire d)).trans (k.sendEvent_ticks d.2.task d.2.events)
  exact hfire _ _

end Kernel

theorem satAdd_toNat {a b : UInt64} (h : a.toNat + b.toNat < 2 ^ 64) :
    (satAdd a b).toNat = a.toNat + b.toNat := by
  rw [satAdd, if_pos h, UInt64.toNat_add, Nat.mod_eq_of_lt h]

end OpenSaab.Psos
