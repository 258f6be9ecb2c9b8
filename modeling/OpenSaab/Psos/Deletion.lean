import OpenSaab.Psos.Coherence

/-!
# Deletion

`t_delete` sets the state of a task and nothing else. Whether the task stays deleted depends on what
it was waiting for, on there being another task to run, and on nobody starting it again.
-/

namespace OpenSaab.Psos

open Std OpenSaab.Table OpenSaab.Runs

variable {φ β : Type}

/-- The task is dead and does not have the CPU. -/
def Final (id : UInt32) (m : Machine φ β) : Prop :=
  m.kernel.current ≠ id ∧ ∃ t, m.kernel.tasks[id]? = some t ∧ t.state = .dead

/-- No other task can wake this one: at most it sleeps. -/
def Task.unregistered (t : Task) : Prop := t.wait = .none ∨ t.wait = .sleep

/-- The step does not start or restart the task. -/
def LeavesUnstarted (id : UInt32) (m : Machine φ β) (a : Action φ β) : Prop :=
  ∀ s, called m a = some s → m.change s = .restart → m.target ≠ id

instance decidableLeavesUnstarted (id : UInt32) (m : Machine φ β) (a : Action φ β) :
    Decidable (LeavesUnstarted id m a) :=
  match h : called m a with
  | none => isTrue fun s hs => by simp [h] at hs
  | some s => decidable_of_iff (m.change s = .restart → m.target ≠ id) (by
      simp [LeavesUnstarted, h])

/-- Dead, without the CPU, and unregistered. -/
def Buried (id : UInt32) (m : Machine φ β) : Prop :=
  m.kernel.current ≠ id ∧
    ∃ t, m.kernel.tasks[id]? = some t ∧ t.state = .dead ∧ t.unregistered

theorem unregistered_not_listening {t : Task} (h : t.unregistered) : ¬ t.listening := by
  rcases h with h | h <;> simp [Task.listening, h]

/-- Nothing wakes a dead task that is not registered. -/
theorem dead_kept {handing : Wait → Prop} {t t' : Task} (hs : t.state = .dead) (hu : t.unregistered)
    (h : KeptOrWoken handing t t') : t'.state = .dead ∧ t'.unregistered := by
  rcases h with h | ⟨hb | hl, -⟩
  · obtain ⟨-, gs, gw, -⟩ := core_eq h.1
    unfold Task.unregistered at hu ⊢
    rw [gs, gw]
    exact ⟨hs, hu⟩
  · rw [hs] at hb
    cases hb
  · exact absurd hl (unregistered_not_listening hu)

/-- The dead task after a service that does not start it. -/
theorem effect_buried {m : Machine φ β} {s : Service} {tasks : Table Task} {c : Change}
    (hn : Numbered m.kernel) (h : c.Effect m s tasks) {id : UInt32} (hm : Buried id m)
    (hstart : c = .restart → m.target ≠ id) :
    ∃ t, tasks[id]? = some t ∧ t.state = .dead ∧ t.unregistered := by
  obtain ⟨hcur, t, ht, hs, hu⟩ := hm
  cases c with
  | wake =>
    obtain ⟨t', ht', hr⟩ := Pointwise.before h ht
    exact ⟨t', ht', dead_kept hs hu hr⟩
  | create =>
    rcases h with rfl | ⟨hroom, new, -, hup⟩
    · exact ⟨t, ht, hs, hu⟩
    · have hnew : id ≠ m.kernel.nextId := by
        rintro rfl
        rw [nextId_absent hn hroom] at ht
        cases ht
      exact ⟨t, (hup.2 id hnew).trans ht, hs, hu⟩
  | restart =>
    obtain ⟨_, _, -, -, hup⟩ := h
    exact ⟨t, (hup.2 id (hstart rfl).symm).trans ht, hs, hu⟩
  | delete =>
    obtain ⟨t0, t', ht0, hin, hup⟩ := h
    by_cases hid : id = m.target
    · subst hid
      obtain rfl : t = t0 := by simpa [ht] using ht0
      obtain ⟨-, gs, gw, -⟩ : t'.id = t.id ∧ t'.state = .dead ∧ t'.wait = t.wait ∧
          t'.waitObject = t.waitObject := by
        simpa only [InState, Task.core, Core.mk.injEq] using hin
      exact ⟨t', hup.1, gs, by rwa [Task.unregistered, gw]⟩
    · exact ⟨t, (hup.2 id hid).trans ht, hs, hu⟩
  | block wait object =>
    obtain ⟨_, _, -, -, hup⟩ := h
    exact ⟨t, (hup.2 id hcur.symm).trans ht, hs, hu⟩
  | yield =>
    obtain ⟨_, _, -, -, hup⟩ := h
    exact ⟨t, (hup.2 id hcur.symm).trans ht, hs, hu⟩

/-- The scheduler does not bring a dead task back. -/
theorem scheduled_buried {k k' : Kernel} (h : Scheduled k k') {id : UInt32} (hcur : k.current ≠ id)
    (hk : ∃ t, k.tasks[id]? = some t ∧ t.state = .dead ∧ t.unregistered) :
    k'.current ≠ id ∧ ∃ t, k'.tasks[id]? = some t ∧ t.state = .dead ∧ t.unregistered := by
  obtain ⟨t, ht, hs, hu⟩ := hk
  obtain ⟨t', ht', hset⟩ := h.tasks.before ht
  refine ⟨?_, t', ht', (settled_state hset).2.mpr hs, ?_⟩
  · rcases h.current with hcur' | ⟨u, hu, hr⟩
    · rwa [hcur']
    · rintro rfl
      obtain rfl : t = u := by simpa [ht] using hu
      rcases (runnable_iff.mp hr).2 with hst | hst <;> rw [hs] at hst <;> cases hst
  · rwa [Task.unregistered, hset.2.1]

variable [M68k φ] [GuestBus β]

theorem step_buried {m : Machine φ β} (h : WF m.kernel) {id : UInt32} (hm : Buried id m)
    (a : Action φ β) (hstart : LeavesUnstarted id m a) : Buried id (step m a) := by
  have hactive : m.kernel.active = false → False := by
    intro ha
    obtain ⟨-, t, ht, hs, -⟩ := hm
    rcases ((h.blank ha).fresh id t ht).2.2 with hst | hst | hst <;> rw [hs] at hst <;> cases hst
  cases step_cases h a with
  | service s hcalled ha hs =>
    have hkeyed := performed_keyed h ha s
    have hdead := effect_buried h.numbered (performed_effect h.keyed (h.current ha) s) hm
      (hstart s hcalled)
    have hcur : (performed m s).1.kernel.current ≠ id := by
      rw [performed_current]
      exact hm.1
    unfold Buried
    rw [hs]
    exact scheduled_buried (Machine.finish_scheduled hkeyed) hcur hdead
  | rest hcalled hr hidle =>
    obtain ⟨k1, hframe, htasks, hsched, -⟩ := hr
    obtain ⟨hcur, t, ht, hs, hu⟩ := hm
    obtain ⟨t', ht', hr'⟩ := htasks.before ht
    refine scheduled_buried hsched ?_ ⟨t', ht', dead_kept hs hu hr'⟩
    rwa [hframe.current (by simp)]
  | start hcalled ha hblank hwf => exact (hactive ha).elim

/-- A start of the dead task brings it back. -/
theorem step_restarted {m : Machine φ β} (h : WF m.kernel) {id : UInt32} (a : Action φ β)
    (hstart : ¬ LeavesUnstarted id m a) : ¬ Final id (step m a) := by
  simp only [LeavesUnstarted, not_forall, not_not] at hstart
  obtain ⟨s, hcalled, hchange, rfl⟩ := hstart
  cases step_cases h a with
  | service s' hcalled' ha hs =>
    obtain rfl : s = s' := by simpa [hcalled] using hcalled'
    have heff := performed_effect h.keyed (h.current ha) s
    rw [hchange] at heff
    obtain ⟨t, t', -, hin, hup⟩ := heff
    have hready : t'.state = .ready := congrArg Core.state hin
    rintro ⟨-, u, hu, hdead⟩
    rw [hs] at hu
    obtain ⟨u', hu', hset⟩ := (Machine.finish_scheduled (performed_keyed h ha s)).tasks.after hu
    obtain rfl : t' = u' := by simpa [hup.1] using hu'
    rw [(settled_state hset).2, hready] at hdead
    cases hdead
  | rest hcalled' hr hidle => simp [hcalled] at hcalled'
  | start hcalled' ha hblank hwf => simp [hcalled] at hcalled'

/-- The step of a deletion itself: the deleted task is off the CPU, if another can take it. -/
theorem step_deletes {m : Machine φ β} (h : WF m.kernel) {a : Action φ β} {t : Task}
    (hcalled : called m a = some .tDelete) (ht : m.kernel.tasks[m.target]? = some t) :
    (∃ t', (step m a).kernel.tasks[m.target]? = some t' ∧ t'.state = .dead ∧ t'.wait = t.wait) ∧
      ((step m a).kernel.current ≠ m.target ↔ (m.target = m.kernel.current → OtherReady m)) := by
  cases step_cases h a with
  | service s hcalled' ha hs =>
    obtain rfl : Service.tDelete = s := by simpa [hcalled] using hcalled'
    have hchange : m.change .tDelete = .delete := by
      have hmem : m.target ∈ m.kernel.tasks := by
        rw [TreeMap.mem_iff_isSome_getElem?, ht]
        rfl
      simp [Machine.change, hmem]
    have heff := performed_effect h.keyed (h.current ha) .tDelete
    rw [hchange] at heff
    obtain ⟨t0, dead, ht0, hin, hup⟩ := heff
    obtain rfl : t = t0 := by simpa [ht] using ht0
    obtain ⟨-, gs, gw, -⟩ : dead.id = t.id ∧ dead.state = .dead ∧ dead.wait = t.wait ∧
        dead.waitObject = t.waitObject := by
      simpa only [InState, Task.core, Core.mk.injEq] using hin
    have hkeyed := performed_keyed h ha .tDelete
    have hsched := Machine.finish_scheduled hkeyed
    obtain ⟨t', ht', hset⟩ := hsched.tasks.before hup.1
    have hstop : dead.runnable = false := by simp [Task.runnable, gs]
    rw [hs]
    refine ⟨⟨t', ht', (settled_state hset).2.mpr gs, hset.2.1.trans gw⟩, ?_⟩
    have hready : OtherReady m → m.target = m.kernel.current →
        ∃ u ∈ values (performed m .tDelete).1.kernel.tasks, u.runnable := by
      rintro ⟨u, hv, hne, hr⟩ htarget
      have hu := Kernel.get_of_mem_values h.keyed hv
      rw [← htarget] at hne
      exact ⟨u, value_mem ((hup.2 u.id hne).trans hu), hr⟩
    constructor
    · intro hoff htarget
      rcases hsched.current with hcur | ⟨u, hu, hr⟩
      · rw [hcur, performed_current, ← htarget] at hoff
        exact absurd rfl hoff
      · rw [hup.2 _ hoff] at hu
        refine ⟨u, value_mem hu, ?_, hr⟩
        rw [h.keyed _ u hu, ← htarget]
        exact hoff
    · intro hother
      by_cases htarget : m.target = m.kernel.current
      · have hnow : (performed m .tDelete).1.kernel.tasks[
            (performed m .tDelete).1.kernel.current]? = some dead := by
          rw [performed_current, ← htarget]
          exact hup.1
        have := Machine.finish_gives_way hkeyed hnow hstop (hready (hother htarget) htarget)
        rwa [performed_current, ← htarget] at this
      · rcases hsched.current with hcur | ⟨u, hu, hr⟩
        · rw [hcur, performed_current]
          exact Ne.symm htarget
        · intro heq
          rw [heq, hup.1] at hu
          obtain rfl : dead = u := by simpa using hu
          simp [hstop] at hr
  | rest hcalled' hr hidle => simp [hcalled] at hcalled'
  | start hcalled' ha hblank hwf => simp [hcalled] at hcalled'

/-- A task that is deleted while it is not registered with another object stays deleted exactly as
long as nobody starts it, if there is a task to take the CPU from it. -/
theorem deletion_final {m : Machine φ β} (hm : Reachable m) {a : Action φ β} {t : Task}
    (hcalled : called m a = some .tDelete) (ht : m.kernel.tasks[m.target]? = some t)
    (hwait : t.unregistered) (later : List (Action φ β)) :
    Always step (Final m.target) (step m a) later ↔
      (m.target = m.kernel.current → OtherReady m) ∧
        Each step (LeavesUnstarted m.target) (step m a) later := by
  have hwf := wf_reachable hm
  obtain ⟨⟨t', ht', hdead, hw⟩, hcur⟩ := step_deletes hwf hcalled ht
  have hrun : Buried m.target (step m a) → (Always step (Final m.target) (step m a) later ↔
      Each step (LeavesUnstarted m.target) (step m a) later) := by
    intro hburied
    refine @always_iff_each_of _ _ step (LeavesUnstarted m.target) (Final m.target)
      (fun m => WF m.kernel) (Buried m.target) (fun m a hm => wf_step hm a)
      (fun m hb => ⟨hb.1, hb.2.imp fun _ h => ⟨h.1, h.2.1⟩⟩)
      (fun m a hm hb hs => step_buried hm hb a hs) (fun m a hm hb => ⟨fun hf => ?_, fun hs => ?_⟩)
      _ later (wf_step hwf a) hburied
    · by_contra hs
      exact step_restarted hm a hs hf
    · have hb' := step_buried hm hb a hs
      exact ⟨hb'.1, hb'.2.imp fun _ h => ⟨h.1, h.2.1⟩⟩
  have hburied : (step m a).kernel.current ≠ m.target → Buried m.target (step m a) :=
    fun hoff => ⟨hoff, t', ht', hdead, by rwa [Task.unregistered, hw]⟩
  constructor
  · intro hfinal
    have hoff := hfinal.first.1
    exact ⟨hcur.mp hoff, (hrun (hburied hoff)).mp hfinal⟩
  · rintro ⟨hother, hlater⟩
    exact (hrun (hburied (hcur.mpr hother))).mpr hlater

/-- ROOT deletes a task that it has started, before that task has run. -/
theorem unrun_task_stays_deleted :
    ∃ m : Machine UInt16 Board, Always step (Final 0x30000) (step m (.trap 11 none)) [.instruction] := by
  let m0 := ((startTask 200).take 2).foldl serve booted
  let m := step m0 (loading m0 [(0, 5), (1, 0x30000)])
  have hreach : Reachable m := reachable_step (serve_reachable booted_reachable _) _
  obtain ⟨hcalled, htarget, hother, hnew⟩ : called m (.trap 11 none) = some .tDelete ∧
      m.target = 0x30000 ∧ m.target ≠ m.kernel.current ∧
        (m.kernel.tasks[m.target]?).map Task.wait = some .none := by
    simp only [m, m0, booted_eq]
    decide +kernel
  obtain ⟨t, ht, hwait⟩ := Option.map_eq_some_iff.mp hnew
  refine ⟨m, ?_⟩
  rw [← htarget]
  exact (deletion_final hreach hcalled ht (Or.inl hwait) [.instruction]).mpr
    ⟨fun h => absurd h hother, ⟨fun s hs => absurd hs (by simp [called]), trivial⟩⟩

/-- A task that was deleted as it waited for a semaphore runs again when a unit comes. -/
theorem post_revives_deleted :
    ¬ ∀ (m : Machine UInt16 Board) (a : Action UInt16 Board) (later : List (Action UInt16 Board)),
      Reachable m → called m a = some .tDelete → m.target ∈ m.kernel.tasks →
        Always step (Final m.target) (step m a) later := by
  intro h
  let m0 := startWaiter.foldl serve booted
  let m := step m0 (loading m0 [(0, 5), (1, 0x30000)])
  have hreach : Reachable m := reachable_step (serve_reachable booted_reachable _) _
  obtain ⟨hcalled, hmem, hruns⟩ : called m (.trap 11 none) = some .tDelete ∧
      m.target ∈ m.kernel.tasks ∧
        ([[(0, 0x37), (1, 1)]].foldl serve (step m (.trap 11 none))).kernel.current = m.target := by
    simp only [m, m0, booted_eq]
    decide +kernel
  have hfinal := (h m (.trap 11 none) (script (step m (.trap 11 none)) [[(0, 0x37), (1, 1)]]) hreach
    hcalled hmem).last
  rw [run_script] at hfinal
  exact hfinal.1 hruns

end OpenSaab.Psos
