import OpenSaab.Psos.Frames

/-!
# The scheduler

What a switch does to the tasks, to the CPU and to the registers of each task.
-/

namespace OpenSaab.Psos

open Std OpenSaab.Table OpenSaab.Runs

variable {φ β : Type}

/-! ## Ready tasks change places -/

/-- The CPU may have gone to another task that was ready. -/
structure Scheduled (k k' : Kernel) : Prop where
  frame : Frame [.tasks, .current] k k'
  tasks : Pointwise Settled k.tasks k'.tasks
  current : k'.current = k.current ∨ ∃ t, k.tasks[k'.current]? = some t ∧ t.runnable

theorem Scheduled.refl (k : Kernel) : Scheduled k k :=
  ⟨.refl _ _, .refl settled_refl _, Or.inl rfl⟩

theorem runnable_iff {t : Task} :
    t.runnable ↔ t.suspended = false ∧ (t.state = .ready ∨ t.state = .running) := by
  simp [Task.runnable]

theorem settled_runnable {t t' : Task} (h : Settled t t') : t'.runnable ↔ t.runnable := by
  obtain ⟨-, -, -, hs, hst⟩ := h
  rw [runnable_iff, runnable_iff, hs]
  grind

theorem settled_state {t t' : Task} (h : Settled t t') :
    (t'.state = .blocked ↔ t.state = .blocked) ∧ (t'.state = .dead ↔ t.state = .dead) := by
  obtain ⟨-, -, -, -, hst⟩ := h
  grind

theorem switchedOut_settled [M68k φ] (t : Task) (cpu : CpuCore φ) :
    Settled t (t.switchedOut cpu) := by
  unfold Task.switchedOut
  split
  · exact settled_refl t
  · refine ⟨rfl, rfl, rfl, rfl, ?_⟩
    dsimp only
    split
    · next h => exact Or.inr ⟨Or.inr h, Or.inl rfl⟩
    · exact Or.inl rfl

theorem running_settled {t : Task} (h : t.runnable) : Settled t { t with state := .running } :=
  ⟨rfl, rfl, rfl, rfl, Or.inr ⟨(runnable_iff.mp h).2, Or.inr rfl⟩⟩

/-! ## The outcomes of the scheduler -/

theorem foldl_better_max (ts : List Task) (best : Option (UInt32 × UInt32)) {id priority : UInt32}
    (h : ts.foldl better best = some (id, priority)) :
    (∀ b, best = some b → b.2 ≤ priority) ∧ ∀ t ∈ ts, t.priority ≤ priority := by
  induction ts generalizing best with
  | nil =>
    refine ⟨?_, by simp⟩
    rintro b rfl
    rw [← Prod.mk.inj (Option.some.inj h) |>.2]
    exact UInt32.le_refl _
  | cons t ts ih =>
    obtain ⟨hbest, hrest⟩ := ih (better best t) h
    have hboth : (∀ b, best = some b → b.2 ≤ priority) ∧ t.priority ≤ priority := by
      unfold better at hbest
      cases best with
      | none => exact ⟨by simp, hbest _ rfl⟩
      | some b =>
        dsimp only at hbest
        split at hbest
        · next hle =>
          have hb := hbest _ rfl
          exact ⟨by rintro _ ⟨⟩; exact hb, UInt32.le_trans hle hb⟩
        · next hlt =>
          have ht := hbest _ rfl
          refine ⟨?_, ht⟩
          rintro _ ⟨⟩
          exact UInt32.le_trans (UInt32.le_of_lt (UInt32.not_le.mp hlt)) ht
    exact ⟨hboth.1, List.forall_mem_cons.mpr ⟨hboth.2, hrest⟩⟩

namespace Kernel

/-- No task that could run has a higher priority. -/
def Highest (k : Kernel) (t : Task) : Prop :=
  ∀ (id : UInt32) (u : Task), k.tasks[id]? = some u → u.runnable → u.priority ≤ t.priority

/-- The runnable task that the search for the highest priority finds. -/
theorem highest_runnable {k : Kernel} (hk : Keyed k) {id priority : UInt32}
    (h : highest ((values k.tasks).filter Task.runnable) = some (id, priority)) :
    ∃ t, k.tasks[id]? = some t ∧ t.runnable ∧ t.priority = priority ∧ k.Highest t := by
  obtain ⟨t, hmem, rfl, rfl⟩ := highest_mem h
  obtain ⟨hv, hr⟩ := List.mem_filter.mp hmem
  refine ⟨t, get_of_mem_values hk hv, hr, rfl, fun id u hu hrun => ?_⟩
  exact (foldl_better_max _ none h).2 u (List.mem_filter.mpr ⟨value_mem hu, hrun⟩)

/-- The kernel when the task `next` has been given the CPU. -/
def switchedTo [M68k φ] (k : Kernel) (cpu : CpuCore φ) (id : UInt32) (next : Task) : Kernel :=
  { k.switchOut cpu with
    current := id
    tasks := (k.switchOut cpu).tasks.insert id { next with state := .running }
    switches := (k.switchOut cpu).switches + 1 }

/-- Nothing can run, the current task goes on, or the best of the others gets the CPU. -/
inductive Scheduling [M68k φ] [GuestBus β] (k : Kernel) (cpu : CpuCore φ) (bus : β)
    (force : Bool) : Kernel × CpuCore φ × β → Prop where
  | idle (hnone : ∀ (id : UInt32) (t : Task), k.tasks[id]? = some t → t.runnable = false) :
    Scheduling k cpu bus force (k, cpu, bus)
  | keep {now : Task} (hnow : k.tasks[k.current]? = some now) (hrunnable : now.runnable)
      (hwhy : M68k.getSr cpu &&& 0x700 ≠ 0 ∨ now.mode &&& 1 ≠ 0 ∨ k.Highest now) :
    Scheduling k cpu bus force (k, cpu, bus)
  | switch {id : UInt32} {next : Task} (hother : id ≠ k.current)
      (hnext : k.tasks[id]? = some next) (hrunnable : next.runnable) (hbest : k.Highest next)
      (hgo : k.keepsCpu cpu force next.priority = false) :
    Scheduling k cpu bus force
      (k.switchedTo cpu id next, next.cpu.restore cpu, (k.switchedTo cpu id next).selectPage bus)

theorem switchOut_get [M68k φ] {k : Kernel} {cpu : CpuCore φ} {id : UInt32}
    (hid : id ≠ k.current) : (k.switchOut cpu).tasks[id]? = k.tasks[id]? := by
  unfold switchOut
  split
  · rfl
  · exact get_insert_ne _ _ hid

theorem schedule_cases [M68k φ] [GuestBus β] {k : Kernel} (hk : Keyed k) (cpu : CpuCore φ)
    (bus : β) (force : Bool) : Scheduling k cpu bus force (k.schedule cpu bus force) := by
  unfold schedule
  split
  · next hnone =>
    refine .idle fun id t ht => ?_
    rw [highest_eq_none, List.filter_eq_nil_iff] at hnone
    simpa using hnone t (value_mem ht)
  · next id priority hbest =>
    obtain ⟨t, ht, hr, rfl, hhighest⟩ := highest_runnable hk hbest
    split
    · next hkeep =>
      rcases hkeep with hkeep | rfl
      · unfold keepsCpu at hkeep
        split at hkeep
        · cases hkeep
        · next now hnow =>
          simp only [Bool.and_eq_true, Bool.or_eq_true, bne_iff_ne, decide_eq_true_eq] at hkeep
          obtain ⟨⟨hrun, -⟩, hwhy⟩ := hkeep
          refine .keep hnow hrun ?_
          rcases hwhy with (hmask | hmode) | hle
          · exact Or.inl hmask
          · exact Or.inr (Or.inl hmode)
          · exact Or.inr (Or.inr fun id' u hu hrun => UInt32.le_trans (hhighest id' u hu hrun) hle)
      · exact .keep ht hr (Or.inr (Or.inr hhighest))
    · next hgo =>
      obtain ⟨hgo, hother⟩ := not_or.mp hgo
      have hnext : (k.switchOut cpu).tasks[id]? = some t := (switchOut_get hother).trans ht
      dsimp only
      rw [hnext]
      exact .switch hother ht hr hhighest (by simpa using hgo)

/-! ## What it does to the tasks -/

theorem switchOut_tasks [M68k φ] (k : Kernel) (cpu : CpuCore φ) :
    Pointwise Settled k.tasks (k.switchOut cpu).tasks := by
  unfold switchOut
  split
  · exact .refl settled_refl _
  · next now hnow => exact .insert settled_refl hnow (switchedOut_settled now cpu)

theorem switchOut_frame [M68k φ] (k : Kernel) (cpu : CpuCore φ) :
    Frame [.tasks] k (k.switchOut cpu) := by
  unfold switchOut
  split
  · exact .refl _ _
  · exact frame_tasks _

variable [M68k φ] [GuestBus β]

theorem schedule_scheduled {k : Kernel} (hk : Keyed k) (cpu : CpuCore φ) (bus : β) (force : Bool) :
    Scheduled k (k.schedule cpu bus force).1 := by
  have h := schedule_cases hk cpu bus force
  revert h
  generalize k.schedule cpu bus force = r
  intro h
  cases h with
  | idle => exact .refl k
  | keep => exact .refl k
  | @switch id next hother hnext hrunnable =>
    refine ⟨((k.switchOut_frame cpu).mono (by simp)).trans ?_, ?_, Or.inr ⟨next, hnext, hrunnable⟩⟩
    · constructor <;> simp [switchedTo]
    · have hout : (k.switchOut cpu).tasks[id]? = some next := (switchOut_get hother).trans hnext
      exact (k.switchOut_tasks cpu).trans settled_trans
        (.insert settled_refl hout (running_settled hrunnable))

/-- Where there is a runnable task, a known task has the CPU afterwards. -/
theorem schedule_current_mem {k : Kernel} (hk : Keyed k) (cpu : CpuCore φ) (bus : β) (force : Bool)
    (h : ∃ t ∈ values k.tasks, t.runnable) :
    (k.schedule cpu bus force).1.current ∈ (k.schedule cpu bus force).1.tasks := by
  have hcases := schedule_cases hk cpu bus force
  revert hcases
  generalize k.schedule cpu bus force = r
  intro hcases
  obtain ⟨t, hv, hr⟩ := h
  cases hcases with
  | idle hnone => simp [hnone _ t (get_of_mem_values hk hv)] at hr
  | keep hnow =>
    rw [TreeMap.mem_iff_isSome_getElem?, hnow]
    rfl
  | switch =>
    rw [switchedTo, TreeMap.mem_insert]
    exact Or.inl compare_self

/-- A task that can not go on gives way as soon as any other task can. -/
theorem schedule_gives_way {k : Kernel} (hk : Keyed k) (cpu : CpuCore φ) (bus : β) {now : Task}
    (hnow : k.tasks[k.current]? = some now) (hstop : now.runnable = false)
    (h : ∃ t ∈ values k.tasks, t.runnable) :
    (k.schedule cpu bus true).1.current ≠ k.current := by
  have hcases := schedule_cases hk cpu bus true
  revert hcases
  generalize k.schedule cpu bus true = r
  intro hcases
  obtain ⟨t, hv, hr⟩ := h
  cases hcases with
  | idle hnone => simp [hnone _ t (get_of_mem_values hk hv)] at hr
  | keep hnow' hrunnable =>
    obtain rfl := Option.some.inj (hnow.symm.trans hnow')
    simp [hstop] at hrunnable
  | switch hother => exact hother

end Kernel

namespace Machine

variable [M68k φ]

theorem saveBlocked_scheduled (m : Machine φ β) : Scheduled m.kernel m.saveBlocked.kernel := by
  unfold saveBlocked
  split
  · exact .refl _
  · next t ht =>
    split
    · refine ⟨(frame_tasks _).mono (by simp), .insert settled_refl ht ?_, Or.inl rfl⟩
      exact ⟨rfl, rfl, rfl, rfl, Or.inl rfl⟩
    · exact .refl _

theorem saveBlocked_current (m : Machine φ β) :
    m.saveBlocked.kernel.current = m.kernel.current := by
  unfold saveBlocked
  split
  · rfl
  · split <;> rfl

end Machine

theorem scheduled_keyed {k k' : Kernel} (h : Scheduled k k') (hk : Keyed k) : Keyed k' := by
  intro id t' ht'
  obtain ⟨t, ht, hs⟩ := h.tasks.after ht'
  exact hs.1.trans (hk id t ht)

theorem Scheduled.trans {k k' k'' : Kernel} (h : Scheduled k k') (h' : Scheduled k' k'')  :
    Scheduled k k'' := by
  refine ⟨h.frame.trans h'.frame, h.tasks.trans settled_trans h'.tasks, ?_⟩
  rcases h'.current with hcur | ⟨t', ht', hr⟩
  · rw [hcur]
    exact h.current
  · obtain ⟨t, ht, hs⟩ := h.tasks.after ht'
    exact Or.inr ⟨t, ht, (settled_runnable hs).mp hr⟩

namespace Machine

variable [M68k φ] [GuestBus β]

theorem finish_scheduled {r : Machine φ β × UInt32} (hk : Keyed r.1.kernel) :
    Scheduled r.1.kernel (finish r).kernel := by
  have hsave := saveBlocked_scheduled (r.1.setD 0 r.2)
  have hkeyed : Keyed (r.1.setD 0 r.2).saveBlocked.kernel := scheduled_keyed hsave hk
  exact hsave.trans (Kernel.schedule_scheduled hkeyed _ _ _)

/-- A task that the service has stopped gives way as soon as any other task can go on. -/
theorem finish_gives_way {r : Machine φ β × UInt32} (hk : Keyed r.1.kernel) {now : Task}
    (hnow : r.1.kernel.tasks[r.1.kernel.current]? = some now) (hstop : now.runnable = false)
    (h : ∃ t ∈ values r.1.kernel.tasks, t.runnable) :
    (finish r).kernel.current ≠ r.1.kernel.current := by
  have hsave := saveBlocked_scheduled (r.1.setD 0 r.2)
  have hkeyed : Keyed (r.1.setD 0 r.2).saveBlocked.kernel := scheduled_keyed hsave hk
  have hcur : (r.1.setD 0 r.2).saveBlocked.kernel.current = r.1.kernel.current :=
    saveBlocked_current _
  obtain ⟨now', hnow', hs⟩ := hsave.tasks.before hnow
  rw [← hcur] at hnow' ⊢
  have hstop' : now'.runnable = false := by
    rw [← Bool.not_eq_true, settled_runnable hs, hstop]
    simp
  have hmust : (r.1.setD 0 r.2).saveBlocked.mustSwitch = true := by
    simp only [mustSwitch, hnow', hstop', Bool.not_false]
  have hready : ∃ t ∈ values (r.1.setD 0 r.2).saveBlocked.kernel.tasks, t.runnable := by
    obtain ⟨t, hv, hr⟩ := h
    obtain ⟨t', ht', hs'⟩ := hsave.tasks.before (Kernel.get_of_mem_values hk hv)
    exact ⟨t', value_mem ht', (settled_runnable hs').mpr hr⟩
  have := Kernel.schedule_gives_way hkeyed (r.1.setD 0 r.2).saveBlocked.cpu
    (r.1.setD 0 r.2).saveBlocked.bus hnow' hstop' hready
  rw [← hmust] at this
  exact this

end Machine

/-! ## Registers -/

/-- The registers of a task: those of the CPU while it runs, and else those that were saved. -/
def Machine.registers (m : Machine φ β) (id : UInt32) : Vector UInt32 16 :=
  if id = m.kernel.current then m.cpu.dar
  else
    match m.kernel.tasks[id]? with
    | none => Vector.replicate 16 0
    | some t => t.cpu.dar

/-- The tasks of `k` that are off the CPU find their saved registers in `m`. -/
def Carries (k : Kernel) (m : Machine φ β) : Prop :=
  ∀ (id : UInt32) (t : Task), k.tasks[id]? = some t → id ≠ k.current → m.registers id = t.cpu.dar

theorem carries_self (m : Machine φ β) : Carries m.kernel m := by
  intro id t ht hid
  simp [Machine.registers, hid, ht]

namespace Machine

variable [M68k φ]

theorem schedule_eq [GuestBus β] (m : Machine φ β) (force : Bool) :
    m.schedule force =
      { kernel := (m.kernel.schedule m.cpu m.bus force).1
        cpu := (m.kernel.schedule m.cpu m.bus force).2.1
        bus := (m.kernel.schedule m.cpu m.bus force).2.2 } := rfl

theorem schedule_carries [GuestBus β] (m : Machine φ β) (force : Bool) :
    Carries m.kernel (m.schedule force) := by
  intro id t ht hid
  rw [schedule_eq]
  unfold Kernel.schedule
  split
  · exact carries_self m id t ht hid
  · next id' priority hbest =>
    split
    · exact carries_self m id t ht hid
    · next hgo =>
      have hid' : id' ≠ m.kernel.current := fun h => hgo (Or.inr h)
      have ht' : (m.kernel.switchOut m.cpu).tasks[id]? = some t :=
        (Kernel.switchOut_get hid).trans ht
      dsimp only
      by_cases heq : id = id'
      · subst heq
        rw [ht']
        simp [registers, Context.restore]
      · split
        · simp [registers, heq, ht']
        · simp [registers, heq, get_insert_ne, ht']

theorem saveBlocked_get {m : Machine φ β} {id : UInt32} (hid : id ≠ m.kernel.current) :
    m.saveBlocked.kernel.tasks[id]? = m.kernel.tasks[id]? := by
  unfold saveBlocked
  split
  · rfl
  · split
    · exact get_insert_ne _ _ hid
    · rfl

/-- The tasks off the CPU keep their registers through the end of a service. -/
theorem finish_carries [GuestBus β] (r : Machine φ β × UInt32) : Carries r.1.kernel (finish r) := by
  intro id t ht hid
  have hid' : id ≠ (r.1.setD 0 r.2).kernel.current := hid
  have hsave : (r.1.setD 0 r.2).saveBlocked.kernel.tasks[id]? = some t :=
    (saveBlocked_get hid').trans ht
  have hcur : id ≠ (r.1.setD 0 r.2).saveBlocked.kernel.current := by
    rw [saveBlocked_current]
    exact hid
  exact schedule_carries _ _ id t hsave hcur

end Machine

end OpenSaab.Psos
