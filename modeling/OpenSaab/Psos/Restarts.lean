import OpenSaab.Psos.Contexts
import OpenSaab.Psos.Stacks

/-!
# Restarting a task

`t_restart` writes the saved context of its target. The task that has the CPU goes on with what is
in the CPU.
-/

namespace OpenSaab.Psos

open Std OpenSaab.Table OpenSaab.Runs

variable {φ β : Type}

/-! ## A place in the program -/

structure Place where
  pc : UInt32
  sp : UInt32

def CpuCore.place (cpu : CpuCore φ) : Place := ⟨cpu.pc, cpu.activeSp⟩

def Context.place (c : Context) : Place := ⟨c.pc, getElem c.dar 15 a7_lt⟩

/-- Where a start in the task's mode begins: at the entry, below the argument frame. -/
def Task.beginning (t : Task) : Place := ⟨t.entry, t.stackTop t.mode - 20⟩

/-- The saved context of the task is at this place. -/
def Shelved (id : UInt32) (p : Place) (m : Machine φ β) : Prop :=
  ∃ t, m.kernel.tasks[id]? = some t ∧ t.cpu.place = p

theorem offCpu_place {t t' : Task} (h : OffCpu t t') : t'.cpu.place = t.cpu.place := by
  rcases h with (h | h) | rfl
  · rw [h.2]
  · have hsp := h.answered.dar 15 (by cases t.wait <;> simp [Wait.answers])
    exact congrArg₂ Place.mk h.answered.pc hsp
  · rfl

theorem entry_of_beginning {m m' : Machine φ β} {id : UInt32} {t : Task}
    (ht : m.kernel.tasks[id]? = some t) (h : m'.cpu.place = t.beginning) :
    (m.kernel.tasks[id]?).map Task.entry = some m'.cpu.pc := by
  rw [ht]
  exact congrArg some (congrArg Place.pc h).symm

variable [M68k φ]

theorem given_place {c : Context} {cpu : CpuCore φ} (h : Given c cpu) : cpu.place = c.place := by
  obtain ⟨cpu0, rfl⟩ := h
  rfl

variable [GuestBus β]

/-! ## Until the next turn -/

theorem step_shelved {m : Machine φ β} (hwf : WF m.kernel) (ha : m.kernel.active = true)
    {a : Action φ β} {id : UInt32} {p : Place} (hm : Shelved id p m)
    (hid : m.kernel.current ≠ id) (hs : LeavesUnstarted id m a) :
    Shelved id p (step m a) ∧ ((step m a).kernel.current = id → (step m a).cpu.place = p) := by
  obtain ⟨t, ht, rfl⟩ := hm
  obtain ⟨t', hoff, hstep⟩ := step_offCpu hwf ha ht hid.symm hs
  have hplace := offCpu_place hoff
  rcases hstep with ⟨hcurrent, ht'⟩ | ⟨-, -, hgiven, ht'⟩
  · exact ⟨⟨t', ht', hplace⟩, fun h => absurd h hcurrent⟩
  · exact ⟨⟨_, ht', hplace⟩, fun _ => (given_place hgiven).trans hplace⟩

/-- The task has the CPU after the actions, and not before. -/
def NextTurn (id : UInt32) (m : Machine φ β) (acts : List (Action φ β)) : Prop :=
  Each step (fun m _ => m.kernel.current ≠ id) m acts ∧ (run step m acts).kernel.current = id

theorem nextTurn_nil {id : UInt32} {m : Machine φ β} (h : m.kernel.current = id) :
    NextTurn id m [] := ⟨trivial, h⟩

/-- A task that is not started goes on where it was. -/
theorem run_shelved {m : Machine φ β} (hwf : WF m.kernel) (ha : m.kernel.active = true)
    {id : UInt32} {p : Place} (hshelved : m.kernel.current ≠ id → Shelved id p m)
    (hcpu : m.kernel.current = id → m.cpu.place = p) {acts : List (Action φ β)}
    (hs : Each step (LeavesUnstarted id) m acts) (hnext : NextTurn id m acts) :
    (run step m acts).cpu.place = p := by
  induction acts generalizing m with
  | nil => exact hcpu hnext.2
  | cons a acts ih =>
    obtain ⟨⟨hid, haway⟩, hreturns⟩ := hnext
    obtain ⟨hshelved', hcpu'⟩ := step_shelved hwf ha (hshelved hid) hid hs.1
    exact ih (wf_step hwf a) (step_active hwf ha a) (fun _ => hshelved') hcpu' hs.2
      ⟨haway, hreturns⟩

/-! ## The restart -/

/-- A restart that succeeds, by the record that it finds. -/
theorem tRestart_started {m : Machine φ β} {t : Task} (ht : m.kernel.tasks[m.target]? = some t)
    (h : (performed m .tRestart).2 = 0) :
    (performed m .tRestart).1.kernel.tasks[m.target]? =
        some (t.started t.mode t.entry (t.stackTop t.mode - 20)) ∧
      (performed m .tRestart).1.cpu = m.cpu ∧
      (performed m .tRestart).1.bus = writeLongs m.bus
        (m.kernel.frameLongs (t.stackTop t.mode) [m.reg 2, m.reg 3, m.reg 4, m.reg 5]) := by
  rw [tRestart_performed ht] at h ⊢
  obtain ⟨t', ht', -, heq⟩ := Kernel.start_started rfl h
  have htarget : m.counted.kernel.taskId m.target = m.target := Kernel.taskId_taskId m.kernel _
  rw [htarget] at ht' heq
  have hsame : t = t' := Option.some.inj (ht.symm.trans ht')
  subst hsame
  refine ⟨?_, rfl, ?_⟩
  · show (m.counted.kernel.start m.target t.mode t.entry _ m.bus).1.tasks[m.target]? = _
    rw [heq]
    exact TreeMap.getElem?_insert_self
  · show (m.counted.kernel.start m.target t.mode t.entry _ m.bus).2.1 = _
    rw [heq]
    rfl

theorem started_place (t : Task) (mode pc top : UInt32) :
    (t.started mode pc top).cpu.place = ⟨pc, top⟩ := by
  simp [Context.place, Task.started]

omit [M68k φ] in
theorem called_schedules {m : Machine φ β} {a : Action φ β} {s : Service}
    (hcalled : called m a = some s) : m.kernel.active = true ∧ m.schedules a := by
  unfold called at hcalled
  split at hcalled
  · split at hcalled
    · next h => exact ⟨h.1, Or.inr ⟨h.2.1, fun _ => h.2.2⟩⟩
    · cases hcalled
  · cases hcalled

/-- A service leaves its status in `d0`. -/
theorem called_leaving {m : Machine φ β} {a : Action φ β} {s : Service}
    (hcalled : called m a = some s) :
    m.leaving a = (performed m s).1.cpu.setD 0 (performed m s).2 := by
  unfold called at hcalled
  split at hcalled
  · split at hcalled
    · next h =>
      obtain rfl := Option.some.inj hcalled
      unfold Machine.leaving
      dsimp only
      rw [h.2.1, if_neg (by decide)]
    · cases hcalled
  · cases hcalled

/-- The restart is done when the scheduler is entered. -/
theorem restart_enters {m : Machine φ β} (hwf : WF m.kernel) {a : Action φ β}
    (hcalled : called m a = some .tRestart) :
    ∃ m1 force, Enters m a (performed m .tRestart).1.kernel m1 force := by
  obtain ⟨ha, hschedules⟩ := called_schedules hcalled
  obtain ⟨k, m1, force, hE, ⟨hnone, -⟩ | ⟨s, hcalled', rfl⟩⟩ := step_enters hwf ha hschedules
  · cases hcalled.symm.trans hnone
  · obtain rfl := Option.some.inj (hcalled.symm.trans hcalled')
    exact ⟨m1, force, hE⟩

/-- Where the restarted task goes on, if it does not have the CPU already: at its beginning. -/
theorem restart_other {m : Machine φ β} (hwf : WF m.kernel) {a : Action φ β} {t : Task}
    (hcalled : called m a = some .tRestart) (hstatus : (performed m .tRestart).2 = 0)
    (ht : m.kernel.tasks[m.target]? = some t) (hother : m.target ≠ m.kernel.current) :
    Shelved m.target t.beginning (step m a) ∧
      ((step m a).kernel.current = m.target → (step m a).cpu.place = t.beginning) := by
  obtain ⟨m1, force, hE⟩ := restart_enters hwf hcalled
  have hstarted := (hE.others m.target hother).trans (tRestart_started ht hstatus).1
  have hplace := started_place t t.mode t.entry (t.stackTop t.mode - 20)
  have hother' : m.target ≠ m1.kernel.current := hE.current.symm ▸ hother
  rw [Shelved, hE.kernel, hE.after]
  rcases schedule_offCpu hE.keyed hstarted hother' force with ⟨hcurrent, htask⟩ |
    ⟨-, -, hgiven, htask⟩
  · exact ⟨⟨_, htask, hplace⟩, fun h => absurd h hcurrent⟩
  · exact ⟨⟨_, htask, hplace⟩, fun _ => (given_place hgiven).trans hplace⟩

/-- The task that restarts itself goes on with what is in the CPU. -/
theorem restart_self {m : Machine φ β} (hwf : WF m.kernel) {a : Action φ β} {t : Task}
    (hcalled : called m a = some .tRestart) (hstatus : (performed m .tRestart).2 = 0)
    (ht : m.kernel.tasks[m.target]? = some t) (hself : m.target = m.kernel.current) :
    ((step m a).kernel.current ≠ m.target → Shelved m.target m.cpu.place (step m a)) ∧
      ((step m a).kernel.current = m.target → (step m a).cpu.place = m.cpu.place) := by
  obtain ⟨m1, force, hE⟩ := restart_enters hwf hcalled
  obtain ⟨hstarted, hcpu, -⟩ := tRestart_started ht hstatus
  have hplace : m1.cpu.place = m.cpu.place := by
    rw [hE.cpu, called_leaving hcalled, hcpu]
    simp [CpuCore.place, CpuCore.activeSp, CpuCore.setD, CpuCore.setDar]
  have hmem := step_mem hwf (called_schedules hcalled).1 a
    (hwf.current (called_schedules hcalled).1)
  rw [hE.kernel, Machine.schedule_eq, TreeMap.mem_iff_isSome_getElem?] at hmem
  rw [Shelved, hE.kernel, hE.after, Machine.schedule_eq, hself]
  rw [hself] at hstarted
  have hcases := Kernel.schedule_cases hE.keyed m1.cpu m1.bus force
  revert hcases hmem
  generalize m1.kernel.schedule m1.cpu m1.bus force = r
  intro hmem hcases
  cases hcases with
  | idle => exact ⟨fun h => absurd hE.current h, fun _ => hplace⟩
  | keep => exact ⟨fun h => absurd hE.current h, fun _ => hplace⟩
  | @switch id next hother hnext hrunnable =>
    have hne : id ≠ m.kernel.current := hE.current ▸ hother
    refine ⟨fun _ => ?_, fun h => absurd h hne⟩
    have hget : (m1.kernel.switchedTo m1.cpu id next).tasks[m.kernel.current]? =
        (m1.kernel.switchOut m1.cpu).tasks[m.kernel.current]? := get_insert_ne _ _ hne.symm
    cases hnow : m1.kernel.tasks[m.kernel.current]? with
    | none =>
      rw [Kernel.switchOut, hE.current, hnow] at hget
      rw [hget, hnow] at hmem
      cases hmem
    | some now =>
      obtain ⟨c, hc⟩ := hE.held now hnow
      have hstate : now.state = .ready := by
        have hrecord := Option.some.inj (hc.symm.trans hstarted)
        exact (congrArg Task.state hrecord :)
      refine ⟨now.switchedOut m1.cpu, ?_, ?_⟩
      · rw [hget, Kernel.switchOut, hE.current, hnow]
        exact TreeMap.getElem?_insert_self
      · rw [Task.switchedOut, if_neg (by simp [hstate])]
        exact hplace

/-- A restart writes the frame. The restarted task next executes its entry below that frame exactly
if it is not the one that calls, or if this one is there already. -/
theorem restart_begins_iff {m : Machine φ β} (hm : Reachable m) {a : Action φ β} {t : Task}
    (hcalled : called m a = some .tRestart) (hstatus : (performed m .tRestart).2 = 0)
    (ht : m.kernel.tasks[m.target]? = some t) {acts : List (Action φ β)}
    (hs : Each step (LeavesUnstarted m.target) (step m a) acts)
    (hnext : NextTurn m.target (step m a) acts) :
    (performed m .tRestart).1.bus = writeLongs m.bus
        (m.kernel.frameLongs (t.stackTop t.mode) [m.reg 2, m.reg 3, m.reg 4, m.reg 5]) ∧
      ((run step (step m a) acts).cpu.place = t.beginning ↔
        m.target ≠ m.kernel.current ∨ m.cpu.place = t.beginning) := by
  refine ⟨(tRestart_started ht hstatus).2.2, ?_⟩
  have hwf := wf_reachable hm
  have ha := (called_schedules hcalled).1
  have hwf' := wf_step hwf a
  have ha' := step_active hwf ha a
  by_cases hself : m.target = m.kernel.current
  · obtain ⟨hshelved, hcpu⟩ := restart_self hwf hcalled hstatus ht hself
    rw [run_shelved hwf' ha' hshelved hcpu hs hnext]
    exact ⟨Or.inr, fun h => h.resolve_left fun hne => hne hself⟩
  · obtain ⟨hshelved, hcpu⟩ := restart_other hwf hcalled hstatus ht hself
    exact iff_of_true (run_shelved hwf' ha' (fun _ => hshelved) hcpu hs hnext) (Or.inl hself)

/-! ## On the board -/

/-- ROOT is about to restart the task that waits on its queue. -/
def restartingWaiter : Machine UInt16 Board :=
  step (restartWaiter.dropLast.foldl serve booted)
    (loading (restartWaiter.dropLast.foldl serve booted) [(0, 4), (1, 0x30000)])

theorem waiter_begins :
    ∃ t, restartingWaiter.kernel.tasks[(0x30000 : UInt32)]? = some t ∧
      (step restartingWaiter (.trap 11 none)).cpu.place = t.beginning := by
  have hreachable : Reachable restartingWaiter :=
    reachable_step (serve_reachable booted_reachable restartWaiter.dropLast) _
  obtain ⟨hcalled, hstatus, htarget, hother, hreturns, hsome⟩ :
      called restartingWaiter (.trap 11 none) = some .tRestart ∧
        (performed restartingWaiter .tRestart).2 = 0 ∧ restartingWaiter.target = 0x30000 ∧
        restartingWaiter.target ≠ restartingWaiter.kernel.current ∧
        (step restartingWaiter (.trap 11 none)).kernel.current = restartingWaiter.target ∧
        (restartingWaiter.kernel.tasks[restartingWaiter.target]?).isSome := by
    rw [restartingWaiter, booted_eq]
    decide +kernel
  obtain ⟨t, ht⟩ := Option.isSome_iff_exists.mp hsome
  obtain ⟨-, hbegins⟩ := restart_begins_iff hreachable hcalled hstatus ht each_nil
    (nextTurn_nil hreturns)
  rw [run_nil] at hbegins
  exact ⟨t, htarget ▸ ht, hbegins.mpr (Or.inl hother)⟩

/-- ROOT is past its entry, and is about to restart itself. -/
def restartingSelf : Machine UInt16 Board :=
  step booted (.guest { (booted.cpu.setDar 0 4).setDar 1 0 with pc := 0x100804 } booted.bus)

theorem self_goes_on :
    ¬ ∀ (m : Machine UInt16 Board) (a : Action UInt16 Board) (t : Task)
        (acts : List (Action UInt16 Board)), Reachable m → called m a = some .tRestart →
      (performed m .tRestart).2 = 0 → m.kernel.tasks[m.target]? = some t →
      Each step (LeavesUnstarted m.target) (step m a) acts →
      NextTurn m.target (step m a) acts →
      (run step (step m a) acts).cpu.place = t.beginning := by
  intro h
  obtain ⟨hcalled, hstatus, hreturns, hsome, hpc⟩ :
      called restartingSelf (.trap 11 none) = some .tRestart ∧
        (performed restartingSelf .tRestart).2 = 0 ∧
        (step restartingSelf (.trap 11 none)).kernel.current = restartingSelf.target ∧
        (restartingSelf.kernel.tasks[restartingSelf.target]?).isSome ∧
        (restartingSelf.kernel.tasks[restartingSelf.target]?).map Task.entry ≠
          some (step restartingSelf (.trap 11 none)).cpu.pc := by
    rw [restartingSelf, booted_eq]
    decide +kernel
  obtain ⟨t, ht⟩ := Option.isSome_iff_exists.mp hsome
  have hplace := h restartingSelf (.trap 11 none) t [] (reachable_step booted_reachable _) hcalled
    hstatus ht each_nil (nextTurn_nil hreturns)
  rw [run_nil] at hplace
  exact hpc (entry_of_beginning ht hplace)

end OpenSaab.Psos
