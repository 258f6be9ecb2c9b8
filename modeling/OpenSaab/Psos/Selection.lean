import OpenSaab.Psos.Coherence

/-!
# Which task gets the CPU

The steps that end with the scheduler, what it finds there, and what it leaves behind.
-/

namespace OpenSaab.Psos

open Std OpenSaab.Table OpenSaab.Runs

variable {φ β : Type} [M68k φ] [GuestBus β]

/-! ## Where the scheduler is entered -/

namespace Machine

/-- The step ends with the scheduler: operation 12 and a broken TRAP 13 frame do not. -/
def schedules (m : Machine φ β) : Action φ β → Prop
  | .guest _ _ => False
  | .instruction => True
  | .trap number fileResult =>
    number = 13 ∧ m.rteFrame.isSome ∨ number = 11 ∧ (fileResult = none → m.reg 0 ≠ 12)

/-- The CPU as the scheduler finds it at the end of a step. -/
def leaving (m : Machine φ β) : Action φ β → CpuCore φ
  | .guest cpu _ => cpu
  | .instruction => m.cpu
  | .trap number fileResult =>
    if number = 13 then
      match m.rteFrame with
      | some (sr, pc, len) =>
        { M68k.setSr (m.cpu.setSp (m.cpu.activeSp + len)) sr with pc := pc, prefetchCount := 0 }
      | none => m.cpu
    else
      match fileResult with
      | some code => m.cpu.setD 0 code
      | none =>
        let r := performed m (decode (m.reg 0))
        r.1.cpu.setD 0 r.2

end Machine

/-- The clock may have ticked once. -/
def Ticked (k k' : Kernel) : Prop :=
  k'.tasks = k.tasks ∨ ∃ k1 : Kernel, k1.tasks = k.tasks ∧ k'.tasks = k1.tick.tasks

/-- The scheduler is entered on `m1`, whose tasks are those of `k` but for the saved registers of
the current one. -/
structure Enters (m : Machine φ β) (a : Action φ β) (k : Kernel) (m1 : Machine φ β)
    (force : Bool) : Prop where
  keyed : Keyed m1.kernel
  active : m1.kernel.active = m.kernel.active
  current : m1.kernel.current = m.kernel.current
  cpu : m1.cpu = m.leaving a
  others : ∀ id : UInt32, id ≠ m.kernel.current → m1.kernel.tasks[id]? = k.tasks[id]?
  held : ∀ t, m1.kernel.tasks[m.kernel.current]? = some t →
    ∃ c, k.tasks[m.kernel.current]? = some { t with cpu := c }
  forced : force = true → ∀ t, m1.kernel.tasks[m.kernel.current]? = some t → t.runnable = false
  kernel : (step m a).kernel = (m1.schedule force).kernel
  after : (step m a).cpu = (m1.schedule force).cpu

omit [GuestBus β] in
theorem saveBlocked_held {m : Machine φ β} {t : Task}
    (h : m.saveBlocked.kernel.tasks[m.kernel.current]? = some t) :
    ∃ c, m.kernel.tasks[m.kernel.current]? = some { t with cpu := c } := by
  unfold Machine.saveBlocked at h
  split at h
  · next hnone => simp [hnone] at h
  · next now hnow =>
    split at h
    · simp only [Kernel.setTask, TreeMap.getElem?_insert_self, Option.some.injEq] at h
      subst h
      exact ⟨now.cpu, hnow⟩
    · exact ⟨t.cpu, h⟩

omit [GuestBus β] in
theorem saveBlocked_cpu (m : Machine φ β) : m.saveBlocked.cpu = m.cpu := by
  unfold Machine.saveBlocked
  split
  · rfl
  · split <;> rfl

omit [M68k φ] [GuestBus β] in
theorem mustSwitch_stops {m : Machine φ β} (h : m.mustSwitch = true) {t : Task}
    (ht : m.kernel.tasks[m.kernel.current]? = some t) : t.runnable = false := by
  unfold Machine.mustSwitch at h
  rw [ht] at h
  simpa using h

/-- The end of a service enters the scheduler. -/
theorem finish_enters {m : Machine φ β} {a : Action φ β} {r : Machine φ β × UInt32}
    (hk : Keyed r.1.kernel) (hactive : r.1.kernel.active = m.kernel.active)
    (hcurrent : r.1.kernel.current = m.kernel.current)
    (hcpu : r.1.cpu.setD 0 r.2 = m.leaving a) (hstep : step m a = Machine.finish r) :
    Enters m a r.1.kernel (r.1.setD 0 r.2).saveBlocked (r.1.setD 0 r.2).saveBlocked.mustSwitch := by
  have hsaved : (r.1.setD 0 r.2).saveBlocked.kernel.current = m.kernel.current :=
    (Machine.saveBlocked_current _).trans hcurrent
  have hkernel : (r.1.setD 0 r.2).kernel.current = m.kernel.current := hcurrent
  have hscheduled := Machine.saveBlocked_scheduled (r.1.setD 0 r.2)
  constructor
  · exact scheduled_keyed hscheduled hk
  · exact hscheduled.frame.active.trans hactive
  · exact hsaved
  · exact (saveBlocked_cpu _).trans hcpu
  · intro id hid
    exact Machine.saveBlocked_get (hkernel.symm ▸ hid)
  · intro t ht
    rw [← hkernel] at ht
    rw [← hcurrent]
    exact @saveBlocked_held _ _ _ (r.1.setD 0 r.2) t ht
  · intro hforce t ht
    rw [← hsaved] at ht
    exact mustSwitch_stops hforce ht
  · rw [hstep]
    rfl
  · rw [hstep]
    rfl

omit [M68k φ] in
theorem hostTick_ticked (m : Machine φ β) : Ticked m.kernel m.hostTick.kernel := by
  unfold Machine.hostTick
  dsimp only
  split
  · exact Or.inr ⟨{ m.kernel with lastHostTick := GuestBus.currentInsns m.bus }, rfl, rfl⟩
  · exact Or.inl rfl

omit [M68k φ] in
theorem hostTick_cpu (m : Machine φ β) : m.hostTick.cpu = m.cpu := by
  unfold Machine.hostTick
  dsimp only
  split <;> rfl

/-- What runs between a step's begin and the scheduler: a tick of the clock or a service. -/
theorem step_enters {m : Machine φ β} (hwf : WF m.kernel) (ha : m.kernel.active = true)
    {a : Action φ β} (hs : m.schedules a) :
    ∃ k m1 force, Enters m a k m1 force ∧
      (called m a = none ∧ Ticked m.kernel k ∨
        ∃ s, called m a = some s ∧ k = (performed m s).1.kernel) := by
  cases a with
  | guest => exact hs.elim
  | instruction =>
    have hframe := scanned_frame m
    let m1 : Machine φ β := { m with kernel := m.scanned }
    have hactive : m1.kernel.active = true := hframe.active.trans ha
    have htasks : m1.kernel.tasks = m.kernel.tasks := hframe.tasks (by simp)
    have hstep : step m .instruction = m1.hostTick.schedule false := by
      show m.beforeInstruction = _
      rw [m.beforeInstruction_eq]
      exact (if_neg fun h => h.1 hactive).trans (if_pos hactive)
    have hticked := hostTick_ticked m1
    have hkeyed : Keyed m1.hostTick.kernel := by
      refine keyed_of_pointwise (fun _ _ => keptOrWoken_id) (hostTick_frame m1).2 ?_
      unfold Keyed
      rw [htasks]
      exact hwf.keyed
    refine ⟨m1.hostTick.kernel, m1.hostTick, false, ?_, Or.inl ⟨rfl, ?_⟩⟩
    · refine ⟨hkeyed, (hostTick_frame m1).1.active.trans hframe.active, ?_, hostTick_cpu m1, fun _ _ => rfl, fun t ht => ⟨t.cpu, ?_⟩, by simp, ?_, ?_⟩
      · exact ((hostTick_frame m1).1.current (by simp)).trans (hframe.current (by simp))
      · exact ht
      · rw [hstep]
      · rw [hstep]
    · unfold Ticked at hticked ⊢
      rwa [htasks] at hticked
  | trap number fileResult =>
    rcases hs with ⟨rfl, hframe⟩ | ⟨rfl, hop⟩
    · obtain ⟨⟨sr, pc, len⟩, hf⟩ := Option.isSome_iff_exists.mp hframe
      have hstep : step m (.trap 13 fileResult) =
          (Machine.schedule { m with cpu := m.leaving (.trap 13 fileResult) } false).selectPage := by
        simp [step, Machine.trap, ha, Machine.returnFromException, Machine.leaving, hf]
      refine ⟨m.kernel, { m with cpu := m.leaving (.trap 13 fileResult) }, false, ?_,
        Or.inl ⟨by cases fileResult <;> simp [called], Or.inl rfl⟩⟩
      refine ⟨hwf.keyed, rfl, rfl, rfl, fun _ _ => rfl, fun t ht => ⟨t.cpu, ht⟩, by simp, ?_, ?_⟩
      · rw [hstep]
        rfl
      · rw [hstep]
        rfl
    · have hstep : step m (.trap 11 fileResult) = m.service fileResult := by
        simp [step, Machine.trap, ha]
      cases fileResult with
      | some code =>
        have h := @finish_enters _ _ _ _ m _ (m.counted, code) hwf.keyed rfl rfl rfl hstep
        exact ⟨_, _, _, h, Or.inl ⟨rfl, Or.inl rfl⟩⟩
      | none =>
        have h12 : m.reg 0 ≠ 12 := hop rfl
        have hcalled : called m (.trap 11 none) = some (decode (m.reg 0)) := by
          simp [called, ha, h12]
        have hfinish : step m (.trap 11 none) =
            Machine.finish (performed m (decode (m.reg 0))) := hstep.trans (if_neg h12)
        have h := finish_enters (performed_keyed hwf ha _) (performed_frame m _).active
          (performed_current m _) rfl hfinish
        exact ⟨_, _, _, h, Or.inr ⟨_, hcalled, rfl⟩⟩

/-- The other steps leave the tasks and the CPU's owner as they are. -/
theorem step_rests {m : Machine φ β} {a : Action φ β} (hs : ¬ m.schedules a) :
    Frame [] m.kernel (step m a).kernel := by
  cases a with
  | guest => exact .refl _ _
  | instruction => exact absurd trivial hs
  | trap number fileResult =>
    obtain ⟨h13, h11⟩ := not_or.mp hs
    unfold step Machine.trap
    dsimp only
    split
    · exact .refl _ _
    · split
      · next hnumber =>
        have hf : m.rteFrame = none := by simpa [hnumber] using h13
        unfold Machine.returnFromException
        rw [hf]
        constructor <;> simp
      · split
        · exact .refl _ _
        · next hnumber =>
          obtain ⟨rfl, h12⟩ : fileResult = none ∧ m.reg 0 = 12 := by
            simpa [not_not.mp hnumber] using h11
          have hreg : m.counted.reg 0 = 12 := h12
          simp only [Machine.service, if_pos hreg]
          constructor <;> simp [Machine.selectPage, Machine.setD, Machine.counted]

/-! ## The Running task -/

/-- A task that is Running has the CPU of a kernel that is active. -/
def Solo (k : Kernel) : Prop :=
  ∀ (id : UInt32) (t : Task), k.tasks[id]? = some t → t.state = .running →
    k.active = true ∧ id = k.current

omit [GuestBus β] in
theorem switchOut_running {k : Kernel} {cpu : CpuCore φ} {id : UInt32} {t : Task}
    (ht : (k.switchOut cpu).tasks[id]? = some t) (hrunning : t.state = .running) :
    id ≠ k.current ∧ k.tasks[id]? = some t := by
  by_cases hid : id = k.current
  · subst hid
    unfold Kernel.switchOut at ht
    split at ht
    · next hnone => simp [hnone] at ht
    · next now _ =>
      simp only [TreeMap.getElem?_insert_self, Option.some.injEq] at ht
      subst ht
      unfold Task.switchedOut at hrunning
      split at hrunning
      · next hdead => cases hdead.symm.trans hrunning
      · dsimp only at hrunning
        split at hrunning
        · cases hrunning
        · next hne => exact absurd hrunning hne
  · exact ⟨hid, (Kernel.switchOut_get hid).symm.trans ht⟩

theorem schedule_solo {k : Kernel} (hk : Keyed k) (ha : k.active = true) (h : Solo k)
    (cpu : CpuCore φ) (bus : β) (force : Bool) : Solo (k.schedule cpu bus force).1 := by
  have hactive := (Kernel.schedule_scheduled hk cpu bus force).frame.active.trans ha
  have hcases := Kernel.schedule_cases hk cpu bus force
  revert hcases hactive
  generalize k.schedule cpu bus force = r
  intro hactive hcases
  cases hcases with
  | idle => exact h
  | keep => exact h
  | @switch id next =>
    intro id' t ht hrunning
    refine ⟨hactive, ?_⟩
    simp only [Kernel.switchedTo, get_insert] at ht
    split at ht
    · next hid => exact hid
    · obtain ⟨hne, hbefore⟩ := switchOut_running ht hrunning
      exact absurd (h id' t hbefore hrunning).2 hne

omit [M68k φ] [GuestBus β] in
theorem pointwise_running {handing : Wait → Prop} {ts us : Table Task}
    (h : Pointwise (KeptOrWoken handing) ts us) {id : UInt32} {t' : Task}
    (ht' : us[id]? = some t') (hrunning : t'.state = .running) :
    ∃ t, ts[id]? = some t ∧ t.state = .running := by
  obtain ⟨t, ht, hr | hr⟩ := h.after ht'
  · exact ⟨t, ht, (core_eq hr.1).2.1.symm.trans hrunning⟩
  · cases hr.2.2.1.symm.trans hrunning

omit [M68k φ] [GuestBus β] in
/-- No service and no tick makes a task Running. -/
theorem effect_running {m : Machine φ β} {s : Service} {tasks : Table Task} {c : Change}
    (h : c.Effect m s tasks) {id : UInt32} {t' : Task} (ht' : tasks[id]? = some t')
    (hrunning : t'.state = .running) :
    ∃ t, m.kernel.tasks[id]? = some t ∧ t.state = .running := by
  have hother : ∀ {a : UInt32} {u : Task}, Updated m.kernel.tasks a u tasks → u.state ≠ .running →
      ∃ t, m.kernel.tasks[id]? = some t ∧ t.state = .running := by
    intro a u hup hne
    by_cases ha : id = a
    · subst ha
      obtain rfl : u = t' := by simpa [hup.1] using ht'
      exact absurd hrunning hne
    · rw [hup.2 id ha] at ht'
      exact ⟨t', ht', hrunning⟩
  cases c with
  | wake => exact pointwise_running h ht' hrunning
  | create =>
    rcases h with rfl | ⟨-, new, hcore, hup⟩
    · exact ⟨t', ht', hrunning⟩
    · have hs : new.state = .created := congrArg Core.state hcore
      exact hother hup (by simp [hs])
  | restart =>
    obtain ⟨_, u, -, hin, hup⟩ := h
    have hs : u.state = .ready := congrArg Core.state hin
    exact hother hup (by simp [hs])
  | delete =>
    obtain ⟨_, u, -, hin, hup⟩ := h
    have hs : u.state = .dead := congrArg Core.state hin
    exact hother hup (by simp [hs])
  | block wait object =>
    obtain ⟨_, u, -, hblk, hup⟩ := h
    have hs : u.state = .blocked := congrArg Core.state hblk
    exact hother hup (by simp [hs])
  | yield =>
    obtain ⟨_, u, -, hin, hup⟩ := h
    have hs : u.state = .ready := congrArg Core.state hin
    exact hother hup (by simp [hs])

/-- Who is Running where the scheduler is entered was Running before the step. -/
theorem enters_running {m m1 : Machine φ β} {a : Action φ β} {k : Kernel} {force : Bool}
    (hwf : WF m.kernel) (ha : m.kernel.active = true) (h : Enters m a k m1 force)
    (hfrom : called m a = none ∧ Ticked m.kernel k ∨
      ∃ s, called m a = some s ∧ k = (performed m s).1.kernel)
    {id : UInt32} {t : Task} (ht : m1.kernel.tasks[id]? = some t) (hrunning : t.state = .running) :
    ∃ t0, m.kernel.tasks[id]? = some t0 ∧ t0.state = .running := by
  obtain ⟨u, hu, hstate⟩ : ∃ u, k.tasks[id]? = some u ∧ u.state = .running := by
    by_cases hid : id = m.kernel.current
    · subst hid
      obtain ⟨c, hc⟩ := h.held t ht
      exact ⟨_, hc, hrunning⟩
    · exact ⟨t, (h.others id hid).symm.trans ht, hrunning⟩
  rcases hfrom with ⟨-, htick⟩ | ⟨s, -, rfl⟩
  · rcases htick with heq | ⟨k1, heq, htick⟩
    · exact ⟨u, heq ▸ hu, hstate⟩
    · rw [← heq]
      exact pointwise_running k1.tick_tasks (htick ▸ hu) hstate
  · exact effect_running (performed_effect hwf.keyed (hwf.current ha) s) hu hstate

/-- A machine without a running kernel starts one without a Running task, and then runs one. -/
theorem initialize_solo {m : Machine φ β} (hb : Blank m.kernel)
    (h : ∀ (id : UInt32) (t : Task), m.kernel.tasks[id]? = some t → t.state ≠ .running) :
    Solo m.initializeKernel.kernel := by
  have hunrun : ∀ (id : UInt32) (t : Task),
      (m.kernel.setUp m.cpu m.bus).1.tasks[id]? = some t → t.state ≠ .running := by
    refine Kernel.setUp_keeps (P := fun k : Kernel =>
      ∀ (id : UInt32) (t : Task), k.tasks[id]? = some t → t.state ≠ .running) ?_ ?_ ?_ h m.cpu m.bus
    · rintro k k' ⟨_, _, _, _, _, rfl, -⟩ hk
      exact hk
    · intro k name priority user superSize vbr bus hk
      obtain ⟨regions, hr⟩ := k.reserve_frame user superSize
      rcases k.create_cases name priority user superSize vbr bus with
        heq | ⟨-, heq | ⟨new, hcore, -, heq⟩⟩
      · rwa [heq]
      · rw [heq, hr]
        exact hk
      · have hs : new.state = .created := congrArg Core.state hcore
        rw [heq, hr]
        intro id t ht
        simp only [Kernel.setTask, get_insert] at ht
        split at ht
        · cases ht
          simp [hs]
        · exact hk id t ht
    · intro k id mode pc args bus hk
      cases hs : k.startable id mode pc with
      | false => rwa [(Kernel.start_unstartable hs args bus).1]
      | true =>
        obtain ⟨-, t, top, ht, heq⟩ := Kernel.start_startable hs args bus
        rw [heq]
        intro id' u hu
        simp only [Kernel.setTask, get_insert] at hu
        split at hu
        · cases hu
          simp [Task.started]
        · exact hk id' u hu
  have hblank := Kernel.setUp_blank hb m.cpu m.bus
  unfold Machine.initializeKernel
  revert hunrun hblank
  generalize m.kernel.setUp m.cpu m.bus = r
  obtain ⟨k, bus, e⟩ := r
  intro hunrun hblank
  cases e with
  | some e => exact fun id t ht hrunning => absurd hrunning (hunrun id t ht)
  | none =>
    let k' := { k with active := true, lastHostTick := GuestBus.currentInsns bus }
    have hkeyed : Keyed k' := hblank.keyed
    exact schedule_solo hkeyed rfl
      (fun id t ht hrunning => absurd hrunning (hunrun id t ht)) m.cpu bus true

theorem step_solo {m : Machine φ β} (hwf : WF m.kernel) (h : Solo m.kernel) (a : Action φ β) :
    Solo (step m a).kernel := by
  have hrest : ∀ {k : Kernel}, Frame [] m.kernel k → Solo k := by
    intro k hframe id t ht hrunning
    rw [hframe.active, hframe.current (by simp)]
    rw [hframe.tasks (by simp)] at ht
    exact h id t ht hrunning
  by_cases hs : m.schedules a
  · cases ha : m.kernel.active with
    | true =>
      obtain ⟨k, m1, force, hE, hfrom⟩ := step_enters hwf ha hs
      rw [hE.kernel]
      refine schedule_solo hE.keyed (hE.active.trans ha) ?_ _ _ _
      intro id t ht hrunning
      obtain ⟨t0, ht0, hrunning0⟩ := enters_running hwf ha hE hfrom ht hrunning
      exact ⟨hE.active.trans ha, (h id t0 ht0 hrunning0).2.trans hE.current.symm⟩
    | false =>
      cases a with
      | guest => exact hs.elim
      | trap number fileResult =>
        rw [step, Machine.trap, if_pos (by simp [ha])]
        exact h
      | instruction =>
        have hframe := scanned_frame m
        have hstep : step m .instruction = m.beforeInstruction := rfl
        rw [hstep, m.beforeInstruction_eq]
        dsimp only
        split
        · refine initialize_solo (blank_frame (hwf.blank ha) hframe) fun id t ht hrunning => ?_
          rw [hframe.tasks (by simp)] at ht
          exact absurd (h id t ht hrunning).1 (by simp [ha])
        · rw [if_neg (by simp [hframe.active, ha])]
          exact hrest hframe
  · exact hrest (step_rests hs)

theorem solo_reachable {m : Machine φ β} (h : Reachable m) : Solo m.kernel := by
  obtain ⟨cpu, bus, acts, rfl⟩ := h
  have hstart : WF (reset cpu bus).kernel ∧ Solo (reset cpu bus).kernel :=
    ⟨wf_reset cpu bus, fun id t ht => by simp [reset] at ht⟩
  exact (run_invariant (I := fun m : Machine φ β => WF m.kernel ∧ Solo m.kernel)
    (fun m a hm => ⟨wf_step hm.1 a, step_solo hm.1 hm.2 a⟩) acts hstart).2

/-! ## The choice -/

/-- The current task lets others in: no mode bit and no interrupt mask keeps them out. -/
def Machine.preemptible (m : Machine φ β) : Prop :=
  M68k.getSr m.cpu &&& 0x700 = 0 ∧
    ∀ now, m.kernel.tasks[m.kernel.current]? = some now → now.mode &&& 1 = 0

/-- The step makes the current task Ready, or that task had the CPU without being Running. -/
def Readied (m : Machine φ β) (a : Action φ β) : Prop :=
  ∃ now, m.kernel.tasks[m.kernel.current]? = some now ∧
    (now.state ≠ .running ∨ now.listening ∨ ∃ s, called m a = some s ∧
      (m.change s = .yield ∨ m.change s = .restart ∧ m.target = m.kernel.current))

/-- The step from `m` to `m'` leaves the CPU with the right task. -/
structure Chosen (m : Machine φ β) (a : Action φ β) (m' : Machine φ β) : Prop where
  runnable : ∃ now, m'.kernel.tasks[m'.kernel.current]? = some now ∧ now.runnable
  alone : ∀ (id : UInt32) (t : Task), m'.kernel.tasks[id]? = some t → t.state = .running →
    id = m'.kernel.current
  running : ∀ now, m'.kernel.tasks[m'.kernel.current]? = some now →
    now.state = .running ∨ m'.kernel.current = m.kernel.current ∧ Readied m a
  best : m'.kernel.current ≠ m.kernel.current ∨ m'.preemptible →
    ∀ now, m'.kernel.tasks[m'.kernel.current]? = some now → m'.kernel.Highest now
  tie : m'.kernel.current ≠ m.kernel.current →
    ∀ old now, m'.kernel.tasks[m.kernel.current]? = some old → old.runnable →
      m'.kernel.tasks[m'.kernel.current]? = some now → old.priority < now.priority

omit [M68k φ] [GuestBus β] in
theorem pointwise_readied {handing : Wait → Prop} {ts us : Table Task}
    (h : Pointwise (KeptOrWoken handing) ts us) {id : UInt32} {t' : Task}
    (ht' : us[id]? = some t') (hready : t'.state = .ready) :
    ∃ t, ts[id]? = some t ∧ (t.state ≠ .running ∨ t.listening) := by
  obtain ⟨t, ht, hr | ⟨hb | hl, -⟩⟩ := h.after ht'
  · exact ⟨t, ht, Or.inl (by rw [← (core_eq hr.1).2.1, hready]; decide)⟩
  · exact ⟨t, ht, Or.inl (by rw [hb]; decide)⟩
  · exact ⟨t, ht, Or.inr hl⟩

omit [M68k φ] [GuestBus β] in
/-- Who has been made ready by a service gave the CPU up, was woken or was started. -/
theorem effect_readied {m : Machine φ β} {s : Service} {tasks : Table Task} {c : Change}
    (h : c.Effect m s tasks) {t' : Task} (ht' : tasks[m.kernel.current]? = some t')
    (hready : t'.state = .ready) :
    ∃ now, m.kernel.tasks[m.kernel.current]? = some now ∧
      (now.state ≠ .running ∨ now.listening ∨ c = .yield ∨
        c = .restart ∧ m.target = m.kernel.current) := by
  have hother : ∀ {a : UInt32} {u : Task}, Updated m.kernel.tasks a u tasks →
      (a = m.kernel.current → u.state ≠ .ready) →
      ∃ now, m.kernel.tasks[m.kernel.current]? = some now ∧
        (now.state ≠ .running ∨ now.listening ∨ c = .yield ∨
          c = .restart ∧ m.target = m.kernel.current) := by
    intro a u hup hne
    by_cases ha : m.kernel.current = a
    · subst ha
      obtain rfl : u = t' := by simpa [hup.1] using ht'
      exact absurd hready (hne rfl)
    · rw [hup.2 _ ha] at ht'
      exact ⟨t', ht', Or.inl (by simp [hready])⟩
  cases c with
  | wake => exact (pointwise_readied h ht' hready).imp fun _ h => ⟨h.1, h.2.imp_right Or.inl⟩
  | create =>
    rcases h with rfl | ⟨-, new, hcore, hup⟩
    · exact ⟨t', ht', Or.inl (by simp [hready])⟩
    · have hs : new.state = .created := congrArg Core.state hcore
      exact hother hup fun _ => by simp [hs]
  | restart =>
    obtain ⟨now, u, hnow, -, hup⟩ := h
    by_cases htarget : m.target = m.kernel.current
    · exact ⟨now, htarget ▸ hnow, Or.inr (Or.inr (Or.inr ⟨rfl, htarget⟩))⟩
    · exact hother hup fun ha => absurd ha htarget
  | delete =>
    obtain ⟨_, u, -, hin, hup⟩ := h
    have hs : u.state = .dead := congrArg Core.state hin
    exact hother hup fun _ => by simp [hs]
  | block wait object =>
    obtain ⟨_, u, -, hblk, hup⟩ := h
    have hs : u.state = .blocked := congrArg Core.state hblk
    exact hother hup fun _ => by simp [hs]
  | yield =>
    obtain ⟨now, _, hnow, -, -⟩ := h
    exact ⟨now, hnow, Or.inr (Or.inr (Or.inl rfl))⟩

/-- A task that the scheduler finds Ready on the CPU was Ready before, or has just been made so. -/
theorem enters_readied {m m1 : Machine φ β} {a : Action φ β} {k : Kernel} {force : Bool}
    (hwf : WF m.kernel) (ha : m.kernel.active = true) (h : Enters m a k m1 force)
    (hfrom : called m a = none ∧ Ticked m.kernel k ∨
      ∃ s, called m a = some s ∧ k = (performed m s).1.kernel)
    {t : Task} (ht : m1.kernel.tasks[m.kernel.current]? = some t) (hready : t.state = .ready) :
    Readied m a := by
  obtain ⟨c, hc⟩ := h.held t ht
  rcases hfrom with ⟨-, heq | ⟨k1, heq, htick⟩⟩ | ⟨s, hcalled, rfl⟩
  · rw [heq] at hc
    exact ⟨_, hc, Or.inl (by simp [hready])⟩
  · rw [htick] at hc
    obtain ⟨now, hnow, hwhy⟩ := pointwise_readied k1.tick_tasks hc hready
    exact ⟨now, heq ▸ hnow, hwhy.imp_right Or.inl⟩
  · obtain ⟨now, hnow, hwhy⟩ :=
      effect_readied (performed_effect hwf.keyed (hwf.current ha) s) hc hready
    exact ⟨now, hnow, hwhy.imp_right fun hw => hw.imp_right fun hc => ⟨s, hcalled, hc⟩⟩

/-- What the scheduler goes by is the same in both. -/
def SameRank (t t' : Task) : Prop :=
  t'.runnable = t.runnable ∧ t'.priority = t.priority ∧ t'.mode = t.mode

omit [GuestBus β] in
theorem switchedTo_ranks {k : Kernel} (cpu : CpuCore φ) {id : UInt32} {next : Task}
    (hother : id ≠ k.current) (hnext : k.tasks[id]? = some next) (hrunnable : next.runnable) :
    Pointwise SameRank k.tasks (k.switchedTo cpu id next).tasks := by
  have hrefl : ∀ t, SameRank t t := fun _ => ⟨rfl, rfl, rfl⟩
  have hout : Pointwise SameRank k.tasks (k.switchOut cpu).tasks := by
    unfold Kernel.switchOut
    split
    · exact .refl hrefl _
    · next now hnow =>
      refine .insert hrefl hnow ⟨?_, ?_, ?_⟩
      · rw [Bool.eq_iff_iff]
        exact settled_runnable (switchedOut_settled now cpu)
      · unfold Task.switchedOut
        split <;> rfl
      · unfold Task.switchedOut
        split <;> rfl
  have hget : (k.switchOut cpu).tasks[id]? = some next := (Kernel.switchOut_get hother).trans hnext
  have hin : Pointwise SameRank (k.switchOut cpu).tasks (k.switchedTo cpu id next).tasks := by
    refine .insert hrefl hget ⟨?_, rfl, rfl⟩
    rw [Bool.eq_iff_iff]
    exact settled_runnable (running_settled hrunnable)
  refine hout.trans ?_ hin
  rintro _ _ _ ⟨h1, h2, h3⟩ ⟨h1', h2', h3'⟩
  exact ⟨h1'.trans h1, h2'.trans h2, h3'.trans h3⟩

theorem highest_of_ranks {k k' : Kernel} (h : Pointwise SameRank k.tasks k'.tasks) {t t' : Task}
    (ht : t'.priority = t.priority) (hk : k.Highest t) : k'.Highest t' := by
  intro id u' hu' hr
  obtain ⟨u, hu, hrun, hpriority, -⟩ := h.after hu'
  rw [hpriority, ht]
  exact hk id u hu (hrun ▸ hr)

/-- What the scheduler leaves behind. -/
theorem enters_chosen {m m1 : Machine φ β} {a : Action φ β} {k : Kernel} {force : Bool}
    (hwf : WF m.kernel) (ha : m.kernel.active = true) (hsolo : Solo (step m a).kernel)
    (h : Enters m a k m1 force)
    (hfrom : called m a = none ∧ Ticked m.kernel k ∨
      ∃ s, called m a = some s ∧ k = (performed m s).1.kernel)
    (hready : ∃ (id : UInt32) (t : Task), (step m a).kernel.tasks[id]? = some t ∧ t.runnable) :
    Chosen m a (step m a) := by
  have hcases := Kernel.schedule_cases h.keyed m1.cpu m1.bus force
  have hkernel : (step m a).kernel = (m1.kernel.schedule m1.cpu m1.bus force).1 := h.kernel
  have hcpu : (step m a).cpu = (m1.kernel.schedule m1.cpu m1.bus force).2.1 := h.after
  generalize step m a = m' at hsolo hready hkernel hcpu ⊢
  generalize m1.kernel.schedule m1.cpu m1.bus force = r at hcases hkernel hcpu
  cases hcases with
  | idle hnone =>
    obtain ⟨id, t, ht, hr⟩ := hready
    rw [hkernel] at ht
    simp [hnone id t ht] at hr
  | @keep now hnow hrunnable hwhy =>
    have hcurrent : m'.kernel.current = m.kernel.current := by rw [hkernel, h.current]
    have hnow' : m'.kernel.tasks[m'.kernel.current]? = some now := by rw [hkernel, hnow]
    refine ⟨⟨now, hnow', hrunnable⟩, fun id t ht hs => (hsolo id t ht hs).2, fun t ht => ?_, ?_,
      fun hne => absurd hcurrent hne⟩
    · obtain rfl := Option.some.inj (ht.symm.trans hnow')
      rcases (runnable_iff.mp hrunnable).2 with hs | hs
      · rw [h.current] at hnow
        exact Or.inr ⟨hcurrent, enters_readied hwf ha h hfrom hnow hs⟩
      · exact Or.inl hs
    · rintro hopen t ht
      obtain rfl := Option.some.inj (ht.symm.trans hnow')
      obtain ⟨hmask, hmode⟩ := hopen.resolve_left fun hne => hne hcurrent
      rw [hcpu] at hmask
      rw [hkernel]
      exact (hwhy.resolve_left (fun hm => hm hmask)).resolve_left (fun hm => hm (hmode _ ht))
  | @switch id next hother hnext hrunnable hbest hgo =>
    have hranks := switchedTo_ranks m1.cpu hother hnext hrunnable
    have hnow' : m'.kernel.tasks[m'.kernel.current]? = some { next with state := .running } := by
      rw [hkernel]
      exact TreeMap.getElem?_insert_self
    have hruns : Task.runnable { next with state := .running } :=
      runnable_iff.mpr ⟨(runnable_iff.mp hrunnable).1, Or.inr rfl⟩
    refine ⟨⟨_, hnow', hruns⟩, fun id t ht hs => (hsolo id t ht hs).2, fun t ht => ?_, ?_, ?_⟩
    · obtain rfl := Option.some.inj (ht.symm.trans hnow')
      exact Or.inl rfl
    · rintro - t ht
      obtain rfl := Option.some.inj (ht.symm.trans hnow')
      rw [hkernel]
      exact highest_of_ranks hranks rfl hbest
    · rintro - old t hold hr ht
      obtain rfl := Option.some.inj (ht.symm.trans hnow')
      rw [hkernel] at hold
      obtain ⟨now, hnow, hrun, hpriority, -⟩ := hranks.after hold
      have hgoes : now.runnable = true := hrun.symm.trans hr
      have hforce : force = false := by
        cases force with
        | false => rfl
        | true => simp [h.forced rfl now hnow] at hgoes
      rw [h.current.symm] at hnow
      simp only [Kernel.keepsCpu, hnow, hgoes, hforce, Bool.not_false, Bool.true_and,
        Bool.or_eq_false_iff, decide_eq_false_iff_not] at hgo
      rw [hpriority]
      exact UInt32.not_le.mp hgo.2

/-- A tick, or a TRAP 11. Operation 12 does not schedule: it comes right behind the hook before its
instruction. -/
def Entry (m : Machine φ β) : Action φ β → Prop
  | .guest _ _ => False
  | .instruction => True
  | .trap number fileResult =>
    number = 11 ∧ (fileResult = none → m.reg 0 = 12 →
      ∃ m0, Reachable m0 ∧ m0.kernel.active = true ∧ m = step m0 .instruction)

/-- Operation 12 finds the right task on the CPU, and leaves it there. -/
theorem current_chosen [LawfulM68k φ] {m0 m : Machine φ β} (h : Chosen m0 .instruction m)
    (h12 : m.reg 0 = 12) (ha : m.kernel.active = true) :
    Chosen m (.trap 11 none) (step m (.trap 11 none)) := by
  have hreg : m.counted.reg 0 = 12 := h12
  have htrap : step m (.trap 11 none) = m.service none := by simp [step, Machine.trap, ha]
  have hstep : step m (.trap 11 none) = (m.counted.setD 0 m.kernel.current).selectPage :=
    htrap.trans (if_pos hreg)
  have htasks : (step m (.trap 11 none)).kernel.tasks = m.kernel.tasks := by rw [hstep]; rfl
  have hcurrent : (step m (.trap 11 none)).kernel.current = m.kernel.current := by rw [hstep]; rfl
  have hsr : M68k.getSr (step m (.trap 11 none)).cpu = M68k.getSr m.cpu := by
    rw [hstep]
    exact LawfulM68k.getSr_congr rfl rfl rfl
  generalize step m (.trap 11 none) = m' at htasks hcurrent hsr ⊢
  refine ⟨?_, ?_, fun now hnow => ?_, ?_, fun hne => absurd hcurrent hne⟩
  · rw [htasks, hcurrent]
    exact h.runnable
  · rw [htasks, hcurrent]
    exact h.alone
  · rw [htasks, hcurrent] at hnow
    by_cases hs : now.state = .running
    · exact Or.inl hs
    · exact Or.inr ⟨hcurrent, now, hnow, Or.inl hs⟩
  · intro hopen now hnow
    obtain ⟨hmask, hmode⟩ := hopen.resolve_left fun hne => hne hcurrent
    rw [htasks, hcurrent] at hnow hmode
    have hbest := h.best (Or.inr ⟨hsr ▸ hmask, hmode⟩) now hnow
    intro id u hu
    rw [htasks] at hu
    exact hbest id u hu

/-- After every service and every tick that leave a task to run, the CPU has the right one. -/
theorem cpu_well_placed [LawfulM68k φ] {m : Machine φ β} (hm : Reachable m)
    (ha : m.kernel.active = true) {a : Action φ β} (hentry : Entry m a)
    (hready : ∃ (id : UInt32) (t : Task), (step m a).kernel.tasks[id]? = some t ∧ t.runnable) :
    Chosen m a (step m a) := by
  have hscheduled : ∀ {m : Machine φ β} {a : Action φ β}, Reachable m → m.kernel.active = true →
      m.schedules a →
      (∃ (id : UInt32) (t : Task), (step m a).kernel.tasks[id]? = some t ∧ t.runnable) →
      Chosen m a (step m a) := by
    intro m a hm ha hs hready
    have hwf := wf_reachable hm
    obtain ⟨k, m1, force, hE, hfrom⟩ := step_enters hwf ha hs
    exact enters_chosen hwf ha (solo_reachable (reachable_step hm a)) hE hfrom hready
  by_cases hs : m.schedules a
  · exact hscheduled hm ha hs hready
  · cases a with
    | guest => exact hentry.elim
    | instruction => exact absurd trivial hs
    | trap number fileResult =>
      obtain ⟨rfl, hop⟩ := hentry
      obtain ⟨rfl, h12⟩ : fileResult = none ∧ m.reg 0 = 12 := by
        simpa [Machine.schedules] using hs
      obtain ⟨m0, hm0, ha0, rfl⟩ := hop rfl h12
      rw [(step_rests hs).tasks (by simp)] at hready
      exact current_chosen (hscheduled hm0 ha0 trivial hready) h12 ha

/-- ROOT is about to lower its priority below that of a task that is Ready. -/
def lowering : Machine UInt16 Board :=
  let m := ((startTask 200).take 3).foldl serve booted
  step m (loading m [(0, 8), (1, 0), (2, 10)])

theorem lowered_root_gives_way :
    Chosen lowering (.trap 11 none) (step lowering (.trap 11 none)) ∧
      (step lowering (.trap 11 none)).kernel.current = 0x30000 := by
  obtain ⟨hactive, hop, hcurrent, hrunning⟩ :
      lowering.kernel.active = true ∧ lowering.reg 0 = 8 ∧
        (step lowering (.trap 11 none)).kernel.current = 0x30000 ∧
        ((step lowering (.trap 11 none)).kernel.tasks[(0x30000 : UInt32)]?).map Task.runnable =
          some true := by
    simp only [lowering, booted_eq]
    decide +kernel
  obtain ⟨t, ht, hr⟩ := Option.map_eq_some_iff.mp hrunning
  have hreachable : Reachable lowering := by
    unfold lowering
    exact reachable_step (serve_reachable booted_reachable _) _
  have hentry : Entry lowering (.trap 11 none) :=
    ⟨rfl, fun _ h12 => absurd (hop.symm.trans h12) (by decide)⟩
  exact ⟨cpu_well_placed hreachable hactive hentry ⟨0x30000, t, ht, hr⟩, hcurrent⟩

/-- ROOT is about to sleep for zero ticks. -/
def napping : Machine UInt16 Board := step booted (loading booted [(0, 0x3c), (6, 0)])

/-- After a sleep of zero ticks, the task that has the CPU is Ready and none is Running. -/
theorem nap_leaves_ready :
    ¬ ∀ (m : Machine UInt16 Board) (a : Action UInt16 Board), Reachable m →
      m.kernel.active = true → Entry m a →
      (∃ (id : UInt32) (t : Task), m.kernel.tasks[id]? = some t ∧ t.runnable) →
      (∃ (id : UInt32) (t : Task), (step m a).kernel.tasks[id]? = some t ∧ t.runnable) →
      ∃ now, (step m a).kernel.tasks[(step m a).kernel.current]? = some now ∧
        now.state = .running := by
  intro h
  obtain ⟨hactive, hop, hbefore, hafter, hcurrent⟩ :
      napping.kernel.active = true ∧ napping.reg 0 = 0x3c ∧
        (napping.kernel.tasks[(0x10000 : UInt32)]?).map Task.runnable = some true ∧
        ((step napping (.trap 11 none)).kernel.tasks[(0x10000 : UInt32)]?).map
          (fun t => (t.runnable, t.state)) = some (true, .ready) ∧
        (step napping (.trap 11 none)).kernel.current = 0x10000 := by
    rw [napping, booted_eq]
    decide +kernel
  obtain ⟨t, ht, hr⟩ := Option.map_eq_some_iff.mp hbefore
  obtain ⟨t', ht', hst'⟩ := Option.map_eq_some_iff.mp hafter
  obtain ⟨hr', hready⟩ := Prod.mk.inj hst'
  have hentry : Entry napping (.trap 11 none) :=
    ⟨rfl, fun _ h12 => absurd (hop.symm.trans h12) (by decide)⟩
  obtain ⟨now, hnow, hrunning⟩ := h napping (.trap 11 none) (reachable_step booted_reachable _)
    hactive hentry ⟨_, t, ht, hr⟩ ⟨_, t', ht', hr'⟩
  rw [hcurrent, ht'] at hnow
  cases hnow
  cases hready.symm.trans hrunning

end OpenSaab.Psos
