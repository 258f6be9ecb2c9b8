import OpenSaab.Psos.Deletion
import OpenSaab.Psos.Selection

/-!
# The context of a task that is off the CPU

What is saved when a task leaves the CPU is what it gets back, but for the registers in which the
wake-up that made it ready left its answer.
-/

namespace OpenSaab.Psos

open Std OpenSaab.Table OpenSaab.Runs

variable {φ β : Type}

/-! ## What a wake-up writes -/

/-- The registers in which a wake-up answers: the status, the events, or the message. -/
def Wait.answers : Wait → List Nat
  | .events => [0, 4]
  | .queue => [0, 2, 3, 4, 5]
  | _ => [0]

/-- `c'` is `c` but for the answer to a task that waited in this way. -/
structure Answered (wait : Wait) (c c' : Context) : Prop where
  dar : ∀ n : Fin 16, n.val ∉ wait.answers →
    getElem c'.dar n.val (register_lt n) = getElem c.dar n.val (register_lt n)
  sp : c'.sp = c.sp
  pc : c'.pc = c.pc
  sr : c'.sr = c.sr
  vbr : c'.vbr = c.vbr

/-- Taken off its wait, ready, and answered. -/
structure Roused (t t' : Task) : Prop where
  waited : t.state = .blocked ∨ t.listening
  ready : t'.state = .ready
  wait : t'.wait = .none
  answered : Answered t.wait t.cpu t'.cpu

def KeptOrRoused (t t' : Task) : Prop := Kept t t' ∨ Roused t t'

theorem Answered.refl (wait : Wait) (c : Context) : Answered wait c c :=
  ⟨fun _ _ => rfl, rfl, rfl, rfl, rfl⟩

theorem Answered.setDar {wait : Wait} {c c' : Context} (h : Answered wait c c') {n : Fin 16}
    (hn : n.val ∈ wait.answers) (v : UInt32) : Answered wait c (c'.setDar n v) where
  dar i hi := by
    have hne : n.val ≠ i.val := fun heq => hi (heq ▸ hn)
    simp only [Context.setDar_dar, Vector.getElem_set_ne _ _ hne]
    exact h.dar i hi
  sp := h.sp
  pc := h.pc
  sr := h.sr
  vbr := h.vbr

theorem status_answers (wait : Wait) : (0 : Fin 16).val ∈ wait.answers := by
  cases wait <;> simp [Wait.answers]

theorem keptOrRoused_refl (t : Task) : KeptOrRoused t t := Or.inl ⟨rfl, rfl⟩

theorem keptOrRoused_trans (a b c : Task) (h : KeptOrRoused a b) (h' : KeptOrRoused b c) :
    KeptOrRoused a c := by
  rcases h with h | h
  · obtain ⟨-, gs, gw, -⟩ := core_eq h.1
    rcases h' with h' | ⟨hwaited, hready, hwait, hanswered⟩
    · exact Or.inl ⟨h'.1.trans h.1, h'.2.trans h.2⟩
    · refine Or.inr ⟨?_, hready, hwait, ?_⟩
      · simpa only [Task.listening, gs, gw] using hwaited
      · rwa [gw, h.2] at hanswered
  · rcases h' with h' | h'
    · obtain ⟨-, gs, gw, -⟩ := core_eq h'.1
      exact Or.inr ⟨h.waited, gs.trans h.ready, gw.trans h.wait, h'.2 ▸ h.answered⟩
    · rcases h'.waited with hb | hl
      · cases h.ready.symm.trans hb
      · simp [Task.listening, h.wait] at hl

theorem receiveEvents_keptOrRoused (t : Task) (bits : UInt32) :
    KeptOrRoused t (t.receiveEvents bits) := by
  unfold Task.receiveEvents
  dsimp only
  split
  · next h =>
    refine Or.inr ⟨Or.inr (Or.inl h.1), rfl, rfl, ?_⟩
    exact ((Answered.refl _ _).setDar (status_answers _) _).setDar (by simp [h.1, Wait.answers]) _
  · exact Or.inl ⟨rfl, rfl⟩

theorem expire_keptOrRoused (ticks : UInt64) (t : Task) : KeptOrRoused t (t.expire ticks) := by
  unfold Task.expire
  split
  · next h =>
    exact Or.inr ⟨Or.inl h.1, rfl, rfl, (Answered.refl _ _).setDar (status_answers _) _⟩
  · exact Or.inl ⟨rfl, rfl⟩

theorem dropWaiter_keptOrRoused (queue : UInt32) (t : Task) :
    KeptOrRoused t (Kernel.dropWaiter queue t) := by
  unfold Kernel.dropWaiter
  split
  · next h =>
    exact Or.inr ⟨Or.inr (Or.inr (Or.inr h.1)), rfl, rfl,
      (Answered.refl _ _).setDar (status_answers _) _⟩
  · exact Or.inl ⟨rfl, rfl⟩

theorem wake_keptOrRoused {t : Task} (h : t.wait = .semaphore) : KeptOrRoused t (t.wake 0) :=
  Or.inr ⟨Or.inr (Or.inr (Or.inl h)), rfl, rfl, (Answered.refl _ _).setDar (status_answers _) _⟩

theorem deliver_keptOrRoused {message : Message} {t t' : Task} (hw : t.wait = .queue)
    (h : KeptOrRoused t t') : KeptOrRoused t (t'.deliver message) := by
  have hanswered : Answered t.wait t.cpu t'.cpu := by
    rcases h with h | h
    · rw [h.2]
      exact .refl _ _
    · exact h.answered
  have hin : ∀ n ∈ [0, 2, 3, 4, 5], n ∈ t.wait.answers := by simp [hw, Wait.answers]
  refine Or.inr ⟨Or.inr (Or.inr (Or.inr hw)), rfl, rfl, ?_⟩
  exact ((((hanswered.setDar (hin 0 (by simp)) _).setDar (hin 2 (by simp)) _).setDar
    (hin 3 (by simp)) _).setDar (hin 4 (by simp)) _).setDar (hin 5 (by simp)) _

/-! ## What a service does to the tasks -/

section Services

variable {m : Machine φ β}

theorem rouse_same {tasks : Table Task} (h : tasks = m.kernel.tasks) :
    Pointwise KeptOrRoused m.kernel.tasks tasks := by
  rw [h]
  exact .refl keptOrRoused_refl _

theorem rouse_kept {id : UInt32} {t t' : Task} (ht : m.kernel.tasks[id]? = some t)
    (h : Kept t t') : Pointwise KeptOrRoused m.kernel.tasks (m.kernel.setTask id t').tasks :=
  .insert keptOrRoused_refl ht (Or.inl h)

theorem start_rouses [GuestBus β] {mode pc : UInt32}
    (h : m.kernel.startable m.target mode pc = false) (args : List UInt32) (bus : β) :
    Pointwise KeptOrRoused m.kernel.tasks (m.kernel.start m.target mode pc args bus).1.tasks := by
  rw [(Kernel.start_unstartable h args bus).1]
  exact .refl keptOrRoused_refl _

theorem tStart_rouses [GuestBus β] (h : m.change .tStart = .wake) :
    Pointwise KeptOrRoused m.kernel.tasks m.tStart.1.kernel.tasks := by
  have hm : m.tStart.1.kernel = (m.kernel.start m.target (m.reg 2) (m.reg 8)
      [m.reg 3, m.reg 4, m.reg 5, m.reg 6] m.bus).1 := rfl
  rw [hm]
  simp only [Machine.change] at h
  split at h
  · cases h
  · next hs =>
    rw [Bool.not_eq_true] at hs
    exact start_rouses hs _ _

theorem tRestart_rouses [GuestBus β] (h : m.change .tRestart = .wake) :
    Pointwise KeptOrRoused m.kernel.tasks m.tRestart.1.kernel.tasks := by
  cases ht : m.kernel.tasks[m.target]? with
  | none =>
    have hm : m.tRestart.1 = m := by simp only [Machine.tRestart, ht]
    rw [hm]
    exact rouse_same rfl
  | some t =>
    have hm : m.tRestart.1.kernel = (m.kernel.start m.target t.mode t.entry
        [m.reg 2, m.reg 3, m.reg 4, m.reg 5] m.bus).1 := by simp only [Machine.tRestart, ht]
    rw [hm]
    simp only [Machine.change, ht] at h
    split at h
    · cases h
    · next hs =>
      rw [Bool.not_eq_true] at hs
      exact start_rouses hs _ _

theorem tDelete_rouses (h : m.change .tDelete = .wake) :
    Pointwise KeptOrRoused m.kernel.tasks m.tDelete.1.kernel.tasks := by
  simp only [Machine.change, TreeMap.mem_iff_isSome_getElem?] at h
  unfold Machine.tDelete
  split
  · exact rouse_same rfl
  · next t ht => simp [ht] at h

theorem setSuspended_rouses (suspend : Bool) :
    Pointwise KeptOrRoused m.kernel.tasks (m.setSuspended suspend).1.kernel.tasks := by
  unfold Machine.setSuspended
  split
  · exact rouse_same rfl
  · next t ht =>
    split
    · exact rouse_same rfl
    · exact rouse_kept ht ⟨rfl, rfl⟩

theorem tSetpri_rouses : Pointwise KeptOrRoused m.kernel.tasks m.tSetpri.1.kernel.tasks := by
  unfold Machine.tSetpri
  split
  · exact rouse_same rfl
  · next t ht =>
    split
    · exact rouse_same rfl
    · exact rouse_kept ht ⟨rfl, rfl⟩

theorem tMode_rouses [M68k φ] : Pointwise KeptOrRoused m.kernel.tasks m.tMode.1.kernel.tasks := by
  unfold Machine.tMode
  split
  · exact rouse_same rfl
  · next t ht =>
    dsimp only
    split
    · exact rouse_same rfl
    · exact rouse_kept ht ⟨rfl, rfl⟩

theorem tSetreg_rouses : Pointwise KeptOrRoused m.kernel.tasks m.tSetreg.1.kernel.tasks := by
  unfold Machine.tSetreg
  split
  · exact rouse_same rfl
  · next t ht =>
    split
    · exact rouse_same rfl
    · exact rouse_kept ht ⟨rfl, rfl⟩

theorem qReceive_rouses (h : m.change .qReceive = .wake) :
    Pointwise KeptOrRoused m.kernel.tasks m.qReceive.1.kernel.tasks := by
  simp only [Machine.change] at h
  unfold Machine.qReceive
  split
  · exact rouse_same rfl
  · next q hq =>
    split
    · exact rouse_same rfl
    · next hm =>
      dsimp only
      split
      · exact rouse_same rfl
      · next hwait => simp [hq, hm, not_not.mp hwait] at h

theorem evReceive_rouses (h : m.change .evReceive = .wake) :
    Pointwise KeptOrRoused m.kernel.tasks m.evReceive.1.kernel.tasks := by
  simp only [Machine.change] at h
  unfold Machine.evReceive
  split
  · exact rouse_same rfl
  · next t ht =>
    split
    · exact rouse_same rfl
    · next hask =>
      dsimp only
      split
      · exact rouse_kept ht ⟨rfl, rfl⟩
      · next hmet =>
        split
        · exact rouse_same rfl
        · next hwait => simp [ht, hask, hmet, not_not.mp hwait] at h

theorem smP_rouses (h : m.change .smP = .wake) :
    Pointwise KeptOrRoused m.kernel.tasks m.smP.1.kernel.tasks := by
  simp only [Machine.change] at h
  unfold Machine.smP
  split
  · exact rouse_same rfl
  · next v hv =>
    split
    · exact rouse_same rfl
    · next hcount =>
      split
      · exact rouse_same rfl
      · next hwait => simp [hv, not_not.mp hcount, not_not.mp hwait] at h

theorem tmWkafter_changes : m.change .tmWkafter ≠ .wake := by
  simp only [Machine.change]
  split <;> simp

/-- A service that changes no state but by waking answers the tasks that it wakes. -/
theorem perform_rouses [M68k φ] [GuestBus β] (hk : Keyed m.kernel) (s : Service)
    (h : m.change s = .wake) :
    Pointwise KeptOrRoused m.kernel.tasks (m.perform s).1.kernel.tasks := by
  by_cases hn : .tasks ∉ s.touches
  · exact rouse_same ((m.perform_frame s).tasks hn)
  · rw [not_not] at hn
    cases s with
    | tCreate => cases h
    | tStart => exact tStart_rouses h
    | tRestart => exact tRestart_rouses h
    | tDelete => exact tDelete_rouses h
    | tSuspend => exact setSuspended_rouses true
    | tResume => exact setSuspended_rouses false
    | tSetpri => exact tSetpri_rouses
    | tMode => exact tMode_rouses
    | tSetreg => exact tSetreg_rouses
    | qDelete =>
      exact Kernel.deleteQueue_pointwise keptOrRoused_refl (dropWaiter_keptOrRoused _) m.kernel
    | qSend kind =>
      simp only [Machine.perform, Machine.qSendAs_kernel]
      exact Kernel.send_pointwise keptOrRoused_refl (fun _ _ hw h => deliver_keptOrRoused hw h) hk
        kind (m.reg 1)
    | qReceive => exact qReceive_rouses h
    | evSend =>
      exact Kernel.sendEvent_pointwise keptOrRoused_refl receiveEvents_keptOrRoused m.kernel
        (m.reg 1) (m.reg 4)
    | evReceive => exact evReceive_rouses h
    | smP => exact smP_rouses h
    | smV =>
      exact Kernel.post_pointwise keptOrRoused_refl (fun _ hs => wake_keptOrRoused hs) hk (m.reg 1)
    | tmTick =>
      exact Kernel.tick_pointwise keptOrRoused_refl keptOrRoused_trans receiveEvents_keptOrRoused
        expire_keptOrRoused m.kernel
    | tmWkafter => exact absurd h tmWkafter_changes
    | _ => exact absurd hn (by simp [Service.touches])

end Services

/-! ## A step, for a task that is off the CPU -/

/-- What may become of a task between its turns on the CPU: it is left alone, is woken, or is
deleted. -/
def OffCpu (t t' : Task) : Prop := KeptOrRoused t t' ∨ t' = { t with state := .dead }

theorem Machine.change_delete {m : Machine φ β} {s : Service} (h : m.change s = .delete) :
    s = .tDelete := by
  cases s <;> simp only [Machine.change] at h <;> (repeat' split at h) <;> first | rfl | cases h

variable [M68k φ] [GuestBus β]

theorem performed_offCpu {m : Machine φ β} (hwf : WF m.kernel) (ha : m.kernel.active = true)
    {s : Service} {id : UInt32} {t : Task} (ht : m.kernel.tasks[id]? = some t)
    (hid : id ≠ m.kernel.current) (hs : m.change s = .restart → m.target ≠ id) :
    ∃ t', (performed m s).1.kernel.tasks[id]? = some t' ∧ OffCpu t t' := by
  have heff := performed_effect hwf.keyed (hwf.current ha) s
  have hsame : ∀ {a : UInt32} {u : Task}, Updated m.kernel.tasks a u (performed m s).1.kernel.tasks →
      id ≠ a → ∃ t', (performed m s).1.kernel.tasks[id]? = some t' ∧ OffCpu t t' := fun hup hne =>
    ⟨t, (hup.2 id hne).trans ht, Or.inl (keptOrRoused_refl t)⟩
  cases hc : m.change s with
  | wake =>
    have hcounted : m.counted.change s = .wake := by
      rw [← hc]
      cases s <;> rfl
    have hrouses := @perform_rouses _ _ m.counted _ _ hwf.keyed s hcounted
    obtain ⟨t', ht', hr⟩ := hrouses.before ht
    exact ⟨t', ht', Or.inl hr⟩
  | create =>
    rw [hc] at heff
    rcases heff with heq | ⟨hroom, new, -, hup⟩
    · exact ⟨t, heq ▸ ht, Or.inl (keptOrRoused_refl t)⟩
    · refine hsame hup ?_
      rintro rfl
      rw [nextId_absent hwf.numbered hroom] at ht
      cases ht
  | restart =>
    rw [hc] at heff
    obtain ⟨_, _, -, -, hup⟩ := heff
    exact hsame hup (hs hc).symm
  | delete =>
    obtain rfl := Machine.change_delete hc
    cases hu : m.kernel.tasks[m.target]? with
    | none =>
      have hmem : m.target ∉ m.kernel.tasks := by
        rw [TreeMap.mem_iff_isSome_getElem?, hu]
        simp
      simp [Machine.change, hmem] at hc
    | some u =>
      have hu' : m.counted.kernel.tasks[m.counted.target]? = some u := hu
      have htasks : (performed m .tDelete).1.kernel.tasks =
          m.kernel.tasks.insert m.target { u with state := .dead } := by
        unfold performed Machine.perform Machine.tDelete
        dsimp only
        rw [hu']
        rfl
      rw [htasks, get_insert]
      split
      · next heq =>
        subst heq
        obtain rfl := Option.some.inj (ht.symm.trans hu)
        exact ⟨_, rfl, Or.inr rfl⟩
      · exact ⟨t, ht, Or.inl (keptOrRoused_refl t)⟩
  | block wait object =>
    rw [hc] at heff
    obtain ⟨_, _, -, -, hup⟩ := heff
    exact hsame hup hid
  | yield =>
    rw [hc] at heff
    obtain ⟨_, _, -, -, hup⟩ := heff
    exact hsame hup hid

/-- The CPU has been given to a task with this context. -/
def Given (c : Context) (cpu : CpuCore φ) : Prop := ∃ cpu0 : CpuCore φ, cpu = c.restore cpu0

/-- The scheduler leaves a task off the CPU, or gives the CPU to it. -/
theorem schedule_offCpu {m : Machine φ β} (hk : Keyed m.kernel) {id : UInt32} {t : Task}
    (ht : m.kernel.tasks[id]? = some t) (hid : id ≠ m.kernel.current) (force : Bool) :
    (m.schedule force).kernel.current ≠ id ∧ (m.schedule force).kernel.tasks[id]? = some t ∨
      (m.schedule force).kernel.current = id ∧ t.runnable ∧ Given t.cpu (m.schedule force).cpu ∧
        (m.schedule force).kernel.tasks[id]? = some { t with state := .running } := by
  rw [Machine.schedule_eq]
  have hcases := Kernel.schedule_cases hk m.cpu m.bus force
  revert hcases
  generalize m.kernel.schedule m.cpu m.bus force = r
  intro hcases
  cases hcases with
  | idle => exact Or.inl ⟨hid.symm, ht⟩
  | keep => exact Or.inl ⟨hid.symm, ht⟩
  | @switch id' next hother hnext hrunnable =>
    by_cases heq : id' = id
    · subst heq
      obtain rfl := Option.some.inj (ht.symm.trans hnext)
      exact Or.inr ⟨rfl, hrunnable, ⟨m.cpu, rfl⟩, TreeMap.getElem?_insert_self⟩
    · refine Or.inl ⟨heq, ?_⟩
      show ((m.kernel.switchOut m.cpu).tasks.insert id' _)[id]? = some t
      rw [get_insert_ne _ _ (Ne.symm heq), Kernel.switchOut_get hid]
      exact ht

/-- A task that is off the CPU stays there with its context, or goes on with it. -/
theorem step_offCpu {m : Machine φ β} (hwf : WF m.kernel) (ha : m.kernel.active = true)
    {a : Action φ β} {id : UInt32} {t : Task} (ht : m.kernel.tasks[id]? = some t)
    (hid : id ≠ m.kernel.current) (hs : LeavesUnstarted id m a) :
    ∃ t', OffCpu t t' ∧
      ((step m a).kernel.current ≠ id ∧ (step m a).kernel.tasks[id]? = some t' ∨
        (step m a).kernel.current = id ∧ t'.runnable ∧ Given t'.cpu (step m a).cpu ∧
          (step m a).kernel.tasks[id]? = some { t' with state := .running }) := by
  by_cases hschedules : m.schedules a
  · obtain ⟨k, m1, force, hE, hfrom⟩ := step_enters hwf ha hschedules
    obtain ⟨t', ht', hoff⟩ : ∃ t', m1.kernel.tasks[id]? = some t' ∧ OffCpu t t' := by
      rw [hE.others id hid]
      rcases hfrom with ⟨-, heq | ⟨k1, heq, htick⟩⟩ | ⟨s, hcalled, rfl⟩
      · exact ⟨t, heq ▸ ht, Or.inl (keptOrRoused_refl t)⟩
      · rw [← heq] at ht
        obtain ⟨t', ht', hr⟩ := (Kernel.tick_pointwise keptOrRoused_refl keptOrRoused_trans
          receiveEvents_keptOrRoused expire_keptOrRoused k1).before ht
        exact ⟨t', htick ▸ ht', Or.inl hr⟩
      · exact performed_offCpu hwf ha ht hid (hs s hcalled)
    refine ⟨t', hoff, ?_⟩
    rw [hE.kernel, hE.after]
    exact schedule_offCpu hE.keyed ht' (hE.current.symm ▸ hid) force
  · have hframe := step_rests hschedules
    refine ⟨t, Or.inl (keptOrRoused_refl t), Or.inl ⟨?_, ?_⟩⟩
    · rw [hframe.current (by simp)]
      exact hid.symm
    · rw [hframe.tasks (by simp)]
      exact ht

/-! ## Who is registered -/

/-- Whoever is registered for a wake-up is Blocked, or was deleted off the CPU. -/
def Listeners (current : UInt32) (ts : Table Task) : Prop :=
  ∀ (id : UInt32) (t : Task), ts[id]? = some t → t.listening →
    t.state = .blocked ∨ t.state = .dead ∧ id ≠ current

def Listens (m : Machine φ β) (id : UInt32) : Prop :=
  ∃ t, m.kernel.tasks[id]? = some t ∧ t.listening

/-- No registered task is started again, and none that still has the CPU yields it or deletes
itself. -/
def Tidy (m : Machine φ β) : Change → Prop
  | .restart => ¬ Listens m m.target
  | .delete => m.target = m.kernel.current → ¬ Listens m m.target
  | .yield => ¬ Listens m m.kernel.current
  | _ => True

def StepTidy (m : Machine φ β) (a : Action φ β) : Prop :=
  ∀ s, called m a = some s → Tidy m (m.change s)

instance decidableListens (m : Machine φ β) (id : UInt32) : Decidable (Listens m id) :=
  decidable_of_iff ((m.kernel.tasks[id]?).any (fun t =>
      t.wait = .events ∨ t.wait = .semaphore ∨ t.wait = .queue) = true) (by
    simp [Listens, Task.listening, Option.any_eq_true])

instance decidableTidy (m : Machine φ β) : (c : Change) → Decidable (Tidy m c)
  | .wake => isTrue trivial
  | .create => isTrue trivial
  | .restart => inferInstanceAs (Decidable (¬ Listens m m.target))
  | .delete => inferInstanceAs (Decidable (m.target = m.kernel.current → ¬ Listens m m.target))
  | .block _ _ => isTrue trivial
  | .yield => inferInstanceAs (Decidable (¬ Listens m m.kernel.current))

instance decidableStepTidy (m : Machine φ β) (a : Action φ β) : Decidable (StepTidy m a) :=
  match h : called m a with
  | none => isTrue fun s hs => by simp [h] at hs
  | some s => decidable_of_iff (Tidy m (m.change s)) (by simp [StepTidy, h])

omit [M68k φ] [GuestBus β] in
theorem listening_congr {t t' : Task} (h : t'.wait = t.wait) : t'.listening ↔ t.listening := by
  unfold Task.listening
  rw [h]

omit [M68k φ] [GuestBus β] in
theorem pointwise_listeners {handing : Wait → Prop} {ts us : Table Task} {current : UInt32}
    (h : Pointwise (KeptOrWoken handing) ts us) (hts : Listeners current ts) :
    Listeners current us := by
  intro id t' ht' hl
  obtain ⟨t, ht, hr | ⟨-, -, -, hw, -⟩⟩ := h.after ht'
  · obtain ⟨-, gs, gw, -⟩ := core_eq hr.1
    rw [gs]
    exact hts id t ht ((listening_congr gw).mp hl)
  · simp [Task.listening, hw] at hl

omit [M68k φ] [GuestBus β] in
theorem effect_listeners {m : Machine φ β} {s : Service} {tasks : Table Task} {c : Change}
    (h : c.Effect m s tasks) (hm : Listeners m.kernel.current m.kernel.tasks)
    (htidy : Tidy m c) : Listeners m.kernel.current tasks := by
  have hother : ∀ {a : UInt32} {u : Task}, Updated m.kernel.tasks a u tasks →
      (u.listening → u.state = .blocked ∨ u.state = .dead ∧ a ≠ m.kernel.current) →
      Listeners m.kernel.current tasks := by
    intro a u hup hu id t' ht' hl
    by_cases hid : id = a
    · subst hid
      obtain rfl : u = t' := by simpa [hup.1] using ht'
      exact hu hl
    · rw [hup.2 id hid] at ht'
      exact hm id t' ht' hl
  cases c with
  | wake => exact pointwise_listeners h hm
  | create =>
    rcases h with rfl | ⟨-, new, hcore, hup⟩
    · exact hm
    · have hw : new.wait = .none := congrArg Core.wait hcore
      exact hother hup fun hl => by simp [Task.listening, hw] at hl
  | restart =>
    obtain ⟨t, u, ht, hin, hup⟩ := h
    have hw : u.wait = t.wait := congrArg Core.wait hin
    exact hother hup fun hl => absurd ⟨t, ht, (listening_congr hw).mp hl⟩ htidy
  | delete =>
    obtain ⟨t, u, ht, hin, hup⟩ := h
    have hw : u.wait = t.wait := congrArg Core.wait hin
    have hs : u.state = .dead := congrArg Core.state hin
    refine hother hup fun hl => Or.inr ⟨hs, fun htarget => ?_⟩
    exact htidy htarget ⟨t, ht, (listening_congr hw).mp hl⟩
  | block wait object =>
    obtain ⟨t, u, -, hblk, hup⟩ := h
    have hs : u.state = .blocked := congrArg Core.state hblk
    exact hother hup fun _ => Or.inl hs
  | yield =>
    obtain ⟨t, u, ht, hin, hup⟩ := h
    have hw : u.wait = t.wait := congrArg Core.wait hin
    exact hother hup fun hl => absurd ⟨t, ht, (listening_congr hw).mp hl⟩ htidy

omit [M68k φ] [GuestBus β] in
theorem scheduled_listeners {k k' : Kernel} (h : Scheduled k k')
    (hk : Listeners k.current k.tasks) : Listeners k'.current k'.tasks := by
  intro id t' ht' hl
  obtain ⟨t, ht, hset⟩ := h.tasks.after ht'
  rcases hk id t ht ((listening_congr hset.2.1).mp hl) with hb | ⟨hd, hid⟩
  · exact Or.inl ((settled_state hset).1.mpr hb)
  · refine Or.inr ⟨(settled_state hset).2.mpr hd, ?_⟩
    rcases h.current with hcurrent | ⟨u, hu, hr⟩
    · rwa [hcurrent]
    · rintro rfl
      obtain rfl := Option.some.inj (ht.symm.trans hu)
      simp [Task.runnable, hd] at hr

/-- Nothing gets registered without being blocked before the scheduler is entered. -/
theorem enters_listeners {m m1 : Machine φ β} {a : Action φ β} {k : Kernel} {force : Bool}
    (hwf : WF m.kernel) (ha : m.kernel.active = true) (h : Enters m a k m1 force)
    (hfrom : called m a = none ∧ Ticked m.kernel k ∨
      ∃ s, called m a = some s ∧ k = (performed m s).1.kernel)
    (hm : Listeners m.kernel.current m.kernel.tasks) (htidy : StepTidy m a) :
    Listeners m1.kernel.current m1.kernel.tasks := by
  have hk : Listeners m.kernel.current k.tasks := by
    rcases hfrom with ⟨-, heq | ⟨k1, heq, htick⟩⟩ | ⟨s, hcalled, rfl⟩
    · rwa [heq]
    · rw [htick]
      exact pointwise_listeners k1.tick_tasks (heq.symm ▸ hm)
    · exact effect_listeners (performed_effect hwf.keyed (hwf.current ha) s) hm (htidy s hcalled)
  intro id t ht hl
  rw [h.current]
  by_cases hid : id = m.kernel.current
  · subst hid
    obtain ⟨c, hc⟩ := h.held t ht
    exact hk _ { t with cpu := c } hc hl
  · exact hk id t ((h.others id hid).symm.trans ht) hl

theorem step_listeners {m : Machine φ β} (hwf : WF m.kernel)
    (hm : Listeners m.kernel.current m.kernel.tasks) {a : Action φ β} (htidy : StepTidy m a) :
    Listeners (step m a).kernel.current (step m a).kernel.tasks := by
  cases step_cases hwf a with
  | service s hcalled hactive hs =>
    rw [hs]
    refine scheduled_listeners (Machine.finish_scheduled (performed_keyed hwf hactive s)) ?_
    rw [performed_current]
    exact effect_listeners (performed_effect hwf.keyed (hwf.current hactive) s) hm
      (htidy s hcalled)
  | rest hcalled hr hidle =>
    obtain ⟨k1, hframe, htasks, hsched, -⟩ := hr
    refine scheduled_listeners hsched ?_
    rw [hframe.current (by simp)]
    exact pointwise_listeners htasks hm
  | start hcalled hactive hblank =>
    intro id t ht hl
    simp [Task.listening, (hblank.fresh id t ht).2.1] at hl

/-! ## What a CPU shows of a context -/

/-- The stack pointer of a bank: the one in use is in `A7`. -/
def CpuCore.stackPointer (cpu : CpuCore φ) (bank : Fin 8) : UInt32 :=
  if bank.val = cpu.stackBank then cpu.activeSp else getElem cpu.sp bank.val bank.isLt

/-- The registers, the stack pointers, the program counter and the status of the CPU. -/
structure Shows (cpu : CpuCore φ) (c : Context) : Prop where
  dar : cpu.dar = c.dar
  sp : ∀ bank : Fin 8, cpu.stackPointer bank = getElem c.sp bank.val bank.isLt
  pc : cpu.pc = c.pc
  sr : M68k.getSr cpu = c.sr
  vbr : cpu.vbr = c.vbr

omit [GuestBus β] in
theorem shows_capture (cpu : CpuCore φ) : Shows cpu (Context.capture cpu) where
  dar := rfl
  sp bank := by
    have hsp : (Context.capture cpu).sp = cpu.sp.setIfInBounds cpu.stackBank cpu.activeSp := rfl
    simp only [hsp, CpuCore.stackPointer, Vector.getElem_setIfInBounds, eq_comm]
  pc := rfl
  sr := rfl
  vbr := rfl

theorem shows_restored [LawfulM68k φ] {cpu : CpuCore φ} (hsound : cpu.Sound) {c : Context}
    (hsr : c.sr = M68k.getSr cpu) (hsp : c.sp = (Context.capture cpu).sp)
    (ha7 : getElem c.dar 15 a7_lt = cpu.activeSp) (cpu0 : CpuCore φ) :
    Shows (c.restore cpu0) c where
  dar := rfl
  sp bank := by
    have hbank : (c.restore cpu0).stackBank = cpu.stackBank := by
      rw [← hsound cpu0, ← hsr]
      rfl
    have hactive : (c.restore cpu0).activeSp = cpu.activeSp := ha7
    have hcapture := (shows_capture cpu).sp bank
    rw [CpuCore.stackPointer] at hcapture
    rw [CpuCore.stackPointer, hbank, hactive]
    split
    · next heq => rw [hsp, ← hcapture, if_pos heq]
    · rfl
  pc := rfl
  sr := by
    have hflags : M68k.getSr (c.restore cpu0) = M68k.getSr (M68k.setSrNointNosp cpu0 c.sr) :=
      LawfulM68k.getSr_congr rfl rfl rfl
    rw [hflags, hsr, LawfulM68k.getSr_setSrNointNosp]
  vbr := rfl

/-! ## The stack in use -/

/-- The guest's CPU is sound. -/
def Action.Sound : Action φ β → Prop
  | .guest cpu _ => cpu.Sound
  | _ => True

def SameFlags (cpu cpu' : CpuCore φ) : Prop :=
  cpu'.flags = cpu.flags ∧ cpu'.sFlag = cpu.sFlag ∧ cpu'.mFlag = cpu.mFlag

theorem sound_of_flags [LawfulM68k φ] {cpu cpu' : CpuCore φ} (hs : cpu.Sound)
    (h : SameFlags cpu cpu') : cpu'.Sound := by
  obtain ⟨hflags, hsFlag, hmFlag⟩ := h
  intro cpu0
  have hbank : cpu'.stackBank = cpu.stackBank := by
    unfold CpuCore.stackBank
    rw [hsFlag, hmFlag]
  rw [LawfulM68k.getSr_congr hflags hsFlag hmFlag, hbank]
  exact hs cpu0

/-- Only `t_mode` writes the status register. -/
theorem perform_flags (m : Machine φ β) {s : Service} (hs : s ≠ .tMode) :
    SameFlags m.cpu (m.perform s).1.cpu := by
  cases s with
  | tMode => exact absurd rfl hs
  | tCreate => exact ⟨rfl, rfl, rfl⟩
  | tStart => exact ⟨rfl, rfl, rfl⟩
  | _ =>
    simp only [Machine.perform, Machine.tIdent, Machine.tRestart, Machine.tDelete,
      Machine.tSuspend, Machine.tResume, Machine.setSuspended, Machine.tSetpri, Machine.tGetreg,
      Machine.tSetreg, Machine.rnCreate, Machine.rnIdent, Machine.rnDelete, Machine.rnGetseg,
      Machine.rnRetseg, Machine.qCreate, Machine.qIdent, Machine.qDelete, Machine.qSendAs,
      Machine.qReceive, Machine.evSend, Machine.evReceive, Machine.smCreate, Machine.smIdent,
      Machine.smDelete, Machine.smP, Machine.smV, Machine.tmTick, Machine.tmSet, Machine.tmGet,
      Machine.tmWkafter, Machine.tmEvent, Machine.tmCancel, Machine.fileStub,
      Machine.unimplemented]
    (repeat' split) <;> exact ⟨rfl, rfl, rfl⟩

section Sound

variable [LawfulM68k φ] {m : Machine φ β} (hm : m.cpu.Sound)

include hm

omit [GuestBus β] in
theorem tMode_sound : m.tMode.1.cpu.Sound := by
  unfold Machine.tMode
  split
  · exact hm
  · dsimp only
    split
    · exact sound_of_flags hm ⟨rfl, rfl, rfl⟩
    · split
      · exact LawfulM68k.sound_setSr _ _
      · exact sound_of_flags hm ⟨rfl, rfl, rfl⟩

theorem performed_sound (s : Service) : (performed m s).1.cpu.Sound := by
  have hcounted : m.counted.cpu.Sound := hm
  by_cases hs : s = .tMode
  · subst hs
    exact tMode_sound hcounted
  · exact sound_of_flags hcounted (perform_flags m.counted hs)

theorem schedule_sound (force : Bool) : (m.schedule force).cpu.Sound := by
  rw [Machine.schedule_eq]
  unfold Kernel.schedule
  split
  · exact hm
  · split
    · exact hm
    · dsimp only
      split
      · exact hm
      · exact sound_of_flags (LawfulM68k.sound_setSrNointNosp m.cpu _) ⟨rfl, rfl, rfl⟩

theorem leaving_sound {a : Action φ β} (ha : a.Sound) : (m.leaving a).Sound := by
  cases a with
  | guest => exact ha
  | instruction => exact hm
  | trap number fileResult =>
    unfold Machine.leaving
    dsimp only
    split
    · split
      · exact sound_of_flags (LawfulM68k.sound_setSr _ _) ⟨rfl, rfl, rfl⟩
      · exact hm
    · split
      · exact sound_of_flags hm ⟨rfl, rfl, rfl⟩
      · exact sound_of_flags (performed_sound hm _) ⟨rfl, rfl, rfl⟩

omit hm in
theorem finish_sound {r : Machine φ β × UInt32} (h : r.1.cpu.Sound) :
    (Machine.finish r).cpu.Sound := by
  have hset : (r.1.setD 0 r.2).cpu.Sound := sound_of_flags h ⟨rfl, rfl, rfl⟩
  have hsaved : (r.1.setD 0 r.2).saveBlocked.cpu.Sound := by rwa [saveBlocked_cpu]
  exact schedule_sound hsaved _

theorem initializeKernel_sound : m.initializeKernel.cpu.Sound := by
  unfold Machine.initializeKernel
  generalize m.kernel.setUp m.cpu m.bus = r
  obtain ⟨k, bus, e⟩ := r
  cases e with
  | some e => exact hm
  | none =>
    let m1 : Machine φ β :=
      { m with
        kernel := { k with active := true, lastHostTick := GuestBus.currentInsns bus }, bus := bus }
    have hm1 : m1.cpu.Sound := hm
    exact schedule_sound hm1 true

theorem step_cpu_sound {a : Action φ β} (ha : a.Sound) : (step m a).cpu.Sound := by
  cases a with
  | guest => exact ha
  | instruction =>
    let m1 : Machine φ β := { m with kernel := m.scanned }
    have hm1 : m1.cpu.Sound := hm
    have hstep : step m .instruction = m.beforeInstruction := rfl
    rw [hstep, m.beforeInstruction_eq]
    dsimp only
    split
    · exact initializeKernel_sound hm1
    · split
      · have hticked : m1.hostTick.cpu.Sound := by rwa [hostTick_cpu]
        exact schedule_sound hticked false
      · exact hm
  | trap number fileResult =>
    unfold step Machine.trap
    dsimp only
    split
    · exact hm
    · split
      · unfold Machine.returnFromException
        split
        · next sr pc len _ =>
          let cpu := M68k.setSr (m.cpu.setSp (m.cpu.activeSp + len)) sr
          let m1 : Machine φ β := { m with cpu := { cpu with pc := pc, prefetchCount := 0 } }
          have hm1 : m1.cpu.Sound := sound_of_flags (LawfulM68k.sound_setSr _ _) ⟨rfl, rfl, rfl⟩
          exact schedule_sound hm1 false
        · exact hm
      · split
        · exact hm
        · unfold Machine.service
          dsimp only
          split
          · exact finish_sound (r := (m.counted, _)) hm
          · split
            · exact sound_of_flags hm ⟨rfl, rfl, rfl⟩
            · exact finish_sound (performed_sound hm _)

end Sound

/-! ## Between two turns on the CPU -/

/-- The task has this context saved. -/
def Holds (id : UInt32) (c : Context) (m : Machine φ β) : Prop :=
  ∃ t, m.kernel.tasks[id]? = some t ∧ t.cpu = c

/-- The step takes the task, which waits, off its wait, and changes its context from `c` to `c'` by
the answer. -/
def Wakes (id : UInt32) (c c' : Context) (m : Machine φ β) (a : Action φ β) : Prop :=
  ∃ t t', m.kernel.tasks[id]? = some t ∧ (t.state = .blocked ∨ t.state = .dead) ∧
    (step m a).kernel.tasks[id]? = some t' ∧ (t'.state = .ready ∨ t'.state = .running) ∧
    Answered t.wait c c'

/-- What has become of the context `c` after the steps: nothing, or what the one wake-up made of
it. -/
inductive Carried (id : UInt32) (c : Context) (m : Machine φ β) (acts : List (Action φ β)) :
    Context → Prop
  | untouched (hholds : Always step (Holds id c) m acts) : Carried id c m acts c
  | woken (before : List (Action φ β)) (wake : Action φ β) (after : List (Action φ β))
      {c' : Context} (hacts : acts = before ++ wake :: after) (hbefore : Always step (Holds id c) m before)
      (hwake : Wakes id c c' (run step m before) wake)
      (hafter : Always step (Holds id c') (step (run step m before) wake) after) :
    Carried id c m acts c'

/-- Not waiting for anything. -/
def Steady (id : UInt32) (c : Context) (m : Machine φ β) : Prop :=
  ∃ t, m.kernel.tasks[id]? = some t ∧ t.cpu = c ∧ t.state ≠ .blocked ∧ ¬ t.listening

def Asleep (id : UInt32) (c : Context) (m : Machine φ β) : Prop :=
  ∃ t, m.kernel.tasks[id]? = some t ∧ t.cpu = c ∧ (t.state = .blocked ∨ t.state = .dead)

omit [M68k φ] [GuestBus β] in
theorem Steady.holds {id : UInt32} {c : Context} {m : Machine φ β} (h : Steady id c m) :
    Holds id c m := h.imp fun _ h => ⟨h.1, h.2.1⟩

omit [M68k φ] [GuestBus β] in
theorem Asleep.holds {id : UInt32} {c : Context} {m : Machine φ β} (h : Asleep id c m) :
    Holds id c m := h.imp fun _ h => ⟨h.1, h.2.1⟩

theorem Carried.cons {id : UInt32} {c c' : Context} {m : Machine φ β} {a : Action φ β}
    {acts : List (Action φ β)} (hm : Holds id c m) (h : Carried id c (step m a) acts c') :
    Carried id c m (a :: acts) c' := by
  cases h with
  | untouched hholds => exact .untouched ⟨hm, hholds⟩
  | woken before wake after hacts hbefore hwake hafter =>
    exact .woken (a :: before) wake after (by rw [hacts, List.cons_append]) ⟨hm, hbefore⟩ hwake
      hafter

/-- The stack pointers and the status are not part of any answer. -/
theorem Carried.keeps {id : UInt32} {c c' : Context} {m : Machine φ β}
    {acts : List (Action φ β)} (h : Carried id c m acts c') :
    c'.sr = c.sr ∧ c'.sp = c.sp ∧ getElem c'.dar 15 a7_lt = getElem c.dar 15 a7_lt := by
  cases h with
  | untouched => exact ⟨rfl, rfl, rfl⟩
  | woken _ _ _ _ _ hwake =>
    obtain ⟨t, -, -, -, -, -, hanswered⟩ := hwake
    refine ⟨hanswered.sr, hanswered.sp, hanswered.dar 15 ?_⟩
    cases t.wait <;> simp [Wait.answers]

omit [M68k φ] [GuestBus β] in
theorem offCpu_steady {t t' : Task} (h : OffCpu t t') (hs : t.state ≠ .blocked)
    (hl : ¬ t.listening) : t'.cpu = t.cpu ∧ t'.state ≠ .blocked ∧ ¬ t'.listening := by
  rcases h with (h | h) | rfl
  · obtain ⟨-, gs, gw, -⟩ := core_eq h.1
    rw [gs, listening_congr gw]
    exact ⟨h.2, hs, hl⟩
  · exact (h.waited.elim hs hl).elim
  · exact ⟨rfl, by simp, hl⟩

theorem step_steady {m : Machine φ β} (hwf : WF m.kernel) (ha : m.kernel.active = true)
    {a : Action φ β} {id : UInt32} {c : Context} (hm : Steady id c m)
    (hid : m.kernel.current ≠ id) (hs : LeavesUnstarted id m a) :
    Steady id c (step m a) ∧ ((step m a).kernel.current = id → Given c (step m a).cpu) := by
  obtain ⟨t, ht, rfl, hstate, hl⟩ := hm
  obtain ⟨t', hoff, hstep⟩ := step_offCpu hwf ha ht hid.symm hs
  obtain ⟨hcpu, hstate', hl'⟩ := offCpu_steady hoff hstate hl
  rcases hstep with ⟨hcurrent, ht'⟩ | ⟨-, -, hgiven, ht'⟩
  · exact ⟨⟨t', ht', hcpu, hstate', hl'⟩, fun h => absurd h hcurrent⟩
  · exact ⟨⟨_, ht', hcpu, by simp, hl'⟩, fun _ => hcpu ▸ hgiven⟩

/-- Either the task goes on waiting, or this is the wake-up. -/
theorem step_asleep {m : Machine φ β} (hwf : WF m.kernel) (ha : m.kernel.active = true)
    {a : Action φ β} {id : UInt32} {c : Context} (hm : Asleep id c m)
    (hid : m.kernel.current ≠ id) (hs : LeavesUnstarted id m a) :
    Asleep id c (step m a) ∧ (step m a).kernel.current ≠ id ∨
      ∃ c', Wakes id c c' m a ∧ Steady id c' (step m a) ∧
        ((step m a).kernel.current = id → Given c' (step m a).cpu) := by
  obtain ⟨t, ht, rfl, hstate⟩ := hm
  obtain ⟨t', hoff, hstep⟩ := step_offCpu hwf ha ht hid.symm hs
  have hwaits : t'.cpu = t.cpu → (t'.state = .blocked ∨ t'.state = .dead) →
      Asleep id t.cpu (step m a) ∧ (step m a).kernel.current ≠ id := by
    intro hcpu hstate'
    rcases hstep with ⟨hcurrent, ht'⟩ | ⟨-, hr, -, -⟩
    · exact ⟨⟨t', ht', hcpu, hstate'⟩, hcurrent⟩
    · rcases hstate' with hb | hd
      · simp [Task.runnable, hb] at hr
      · simp [Task.runnable, hd] at hr
  rcases hoff with (h | h) | rfl
  · rw [← (core_eq h.1).2.1] at hstate
    exact Or.inl (hwaits h.2 hstate)
  · have hl : ¬ t'.listening := by simp [Task.listening, h.wait]
    rcases hstep with ⟨hcurrent, ht'⟩ | ⟨-, -, hgiven, ht'⟩
    · exact Or.inr ⟨t'.cpu, ⟨t, t', ht, hstate, ht', Or.inl h.ready, h.answered⟩,
        ⟨t', ht', rfl, by simp [h.ready], hl⟩, fun hc => absurd hc hcurrent⟩
    · exact Or.inr ⟨t'.cpu, ⟨t, _, ht, hstate, ht', Or.inr rfl, h.answered⟩,
        ⟨_, ht', rfl, by simp, hl⟩, fun _ => hgiven⟩
  · exact Or.inl (hwaits rfl (Or.inr rfl))

/-- A task that is not waiting keeps its context until it has the CPU again. -/
theorem run_steady {m : Machine φ β} (hwf : WF m.kernel) (ha : m.kernel.active = true)
    {id : UInt32} {c : Context} (hm : Steady id c m) {acts : List (Action φ β)}
    {back : Action φ β} (haway : Always step (fun m => m.kernel.current ≠ id) m acts)
    (hs : Each step (LeavesUnstarted id) m (acts ++ [back]))
    (hreturns : (run step m (acts ++ [back])).kernel.current = id) :
    Always step (Holds id c) m (acts ++ [back]) ∧
      Given c (run step m (acts ++ [back])).cpu := by
  induction acts generalizing m with
  | nil =>
    obtain ⟨hsteady, hgiven⟩ := step_steady hwf ha hm haway hs.1
    exact ⟨⟨hm.holds, hsteady.holds⟩, hgiven hreturns⟩
  | cons a acts ih =>
    obtain ⟨hsteady, -⟩ := step_steady hwf ha hm haway.1 hs.1
    obtain ⟨hholds, hgiven⟩ := ih (wf_step hwf a) (step_active hwf ha a) hsteady haway.2 hs.2
      hreturns
    exact ⟨⟨hm.holds, hholds⟩, hgiven⟩

/-- A task that waits keeps its context but for one wake-up. -/
theorem run_asleep {m : Machine φ β} (hwf : WF m.kernel) (ha : m.kernel.active = true)
    {id : UInt32} {c : Context} (hm : Asleep id c m) {acts : List (Action φ β)}
    {back : Action φ β} (haway : Always step (fun m => m.kernel.current ≠ id) m acts)
    (hs : Each step (LeavesUnstarted id) m (acts ++ [back]))
    (hreturns : (run step m (acts ++ [back])).kernel.current = id) :
    ∃ c', Carried id c m (acts ++ [back]) c' ∧ Given c' (run step m (acts ++ [back])).cpu := by
  induction acts generalizing m with
  | nil =>
    rcases step_asleep hwf ha hm haway hs.1 with ⟨-, hcurrent⟩ | ⟨c', hwakes, hsteady, hgiven⟩
    · exact absurd hreturns hcurrent
    · exact ⟨c', Carried.woken [] back [] rfl hm.holds hwakes hsteady.holds,
        hgiven hreturns⟩
  | cons a acts ih =>
    have hwf' := wf_step hwf a
    have ha' := step_active hwf ha a
    rcases step_asleep hwf ha hm haway.1 hs.1 with ⟨hasleep, -⟩ | ⟨c', hwakes, hsteady, -⟩
    · obtain ⟨c', hcarried, hgiven⟩ := ih hwf' ha' hasleep haway.2 hs.2 hreturns
      exact ⟨c', hcarried.cons hm.holds, hgiven⟩
    · obtain ⟨hholds, hgiven⟩ := run_steady hwf' ha' hsteady haway.2 hs.2 hreturns
      exact ⟨c', Carried.woken [] a _ rfl hm.holds hwakes hholds, hgiven⟩

/-! ## The turn -/

omit [M68k φ] [GuestBus β] in
theorem not_listening_unregistered {t : Task} (h : ¬ t.listening) : t.unregistered := by
  unfold Task.listening at h
  unfold Task.unregistered
  cases hw : t.wait <;> simp [hw] at h ⊢

/-- A task that leaves the CPU leaves its registers behind, unless it was deleted. -/
theorem step_leaves {m : Machine φ β} (hwf : WF m.kernel) (ha : m.kernel.active = true)
    (hm : Listeners m.kernel.current m.kernel.tasks) {a : Action φ β} (htidy : StepTidy m a)
    {id : UInt32} (hid : m.kernel.current = id) (hout : (step m a).kernel.current ≠ id) :
    Steady id (Context.capture (m.leaving a)) (step m a) ∨
      Asleep id (Context.capture (m.leaving a)) (step m a) ∨ Buried id (step m a) := by
  subst hid
  have hmem := step_mem hwf ha a (hwf.current ha)
  by_cases hschedules : m.schedules a
  · obtain ⟨k, m1, force, hE, hfrom⟩ := step_enters hwf ha hschedules
    have hlisteners := enters_listeners hwf ha hE hfrom hm htidy
    have hcases := Kernel.schedule_cases hE.keyed m1.cpu m1.bus force
    have hkernel : (step m a).kernel = (m1.kernel.schedule m1.cpu m1.bus force).1 := hE.kernel
    generalize m1.kernel.schedule m1.cpu m1.bus force = r at hcases hkernel
    cases hcases with
    | idle => exact absurd (hkernel ▸ hE.current) hout
    | keep => exact absurd (hkernel ▸ hE.current) hout
    | @switch id next hother hnext hrunnable =>
      have hne : m.kernel.current ≠ id := by
        rw [← hE.current]
        exact hother.symm
      have hget : (step m a).kernel.tasks[m.kernel.current]? =
          (m1.kernel.switchOut m1.cpu).tasks[m.kernel.current]? := by
        rw [hkernel]
        exact get_insert_ne _ _ hne
      cases hnow : m1.kernel.tasks[m.kernel.current]? with
      | none =>
        rw [Kernel.switchOut, hE.current, hnow] at hget
        rw [TreeMap.mem_iff_isSome_getElem?, hget] at hmem
        simp [hnow] at hmem
      | some now =>
        have hnow' : (step m a).kernel.tasks[m.kernel.current]? =
            some (now.switchedOut (m.leaving a)) := by
          rw [hget, Kernel.switchOut, hE.current, hnow, hE.cpu]
          exact TreeMap.getElem?_insert_self
        have hstops : now.listening → now.state = .blocked := fun hl =>
          (hlisteners _ now hnow hl).resolve_right fun h => h.2 hE.current.symm
        unfold Task.switchedOut at hnow'
        split at hnow'
        · next hdead =>
          refine Or.inr (Or.inr ⟨hout, now, hnow', hdead, not_listening_unregistered fun hl => ?_⟩)
          simp [hstops hl] at hdead
        · by_cases hb : now.state = .blocked
          · exact Or.inr (Or.inl ⟨_, hnow', rfl, Or.inl (by simp [hb])⟩)
          · refine Or.inl ⟨_, hnow', rfl, ?_, fun hl => hb (hstops hl)⟩
            dsimp only
            split
            · simp
            · exact hb
  · exact absurd ((step_rests hschedules).current (by simp)) hout

/-- A stretch of a run: the task leaves the CPU in the step `out` and gets it back in the step
`back`, without being started in between. -/
structure Absence (id : UInt32) (m : Machine φ β) (out : Action φ β) (acts : List (Action φ β))
    (back : Action φ β) : Prop where
  active : m.kernel.active = true
  leaves : m.kernel.current = id
  away : Always step (fun m => m.kernel.current ≠ id) (step m out) acts
  unstarted : Each step (LeavesUnstarted id) (step m out) (acts ++ [back])
  returns : (run step m (out :: acts ++ [back])).kernel.current = id

/-- The invariant of a run without starts of registered tasks. -/
structure Intact (m : Machine φ β) : Prop where
  wf : WF m.kernel
  listeners : Listeners m.kernel.current m.kernel.tasks
  sound : m.cpu.Sound

theorem step_intact [LawfulM68k φ] {m : Machine φ β} (hm : Intact m) {a : Action φ β}
    (htidy : StepTidy m a) (ha : a.Sound) : Intact (step m a) :=
  ⟨wf_step hm.wf a, step_listeners hm.wf hm.listeners htidy, step_cpu_sound hm.sound ha⟩

/-- As long as no registered task is started, the context that a task left the CPU with comes back
with it, but for the answer of the one wake-up. -/
theorem context_preserved [LawfulM68k φ] {cpu : CpuCore φ} (hcpu : cpu.Sound) (bus : β)
    (earlier : List (Action φ β)) {id : UInt32} {out : Action φ β} {acts : List (Action φ β)}
    {back : Action φ β}
    (hsteps : Each step (fun m a => StepTidy m a ∧ a.Sound) (reset cpu bus) (earlier ++ [out]))
    (habsence : Absence id (run step (reset cpu bus) earlier) out acts back) :
    let m := run step (reset cpu bus) earlier
    ∃ c c', Shows (m.leaving out) c ∧ Carried id c (step m out) (acts ++ [back]) c' ∧
      Shows (run step m (out :: acts ++ [back])).cpu c' := by
  obtain ⟨hearlier, ⟨htidy, hsound⟩, -⟩ := (each_append _ _ _).mp hsteps
  have hstart : Intact (reset cpu bus) :=
    ⟨wf_reset cpu bus, fun id t ht => by simp [reset] at ht, hcpu⟩
  have hintact : Intact (run step (reset cpu bus) earlier) :=
    run_keeps (I := Intact) (fun m a hP hI => step_intact hI hP.1 hP.2) hearlier hstart
  dsimp only
  generalize run step (reset cpu bus) earlier = m at *
  obtain ⟨hwf, hlisteners, hmsound⟩ := hintact
  obtain ⟨ha, hleaves, haway, hunstarted, hreturns⟩ := habsence
  have hwf' := wf_step hwf out
  have ha' := step_active hwf ha out
  have hcaptured : ∃ c', Carried id (Context.capture (m.leaving out)) (step m out)
      (acts ++ [back]) c' ∧ Given c' (run step (step m out) (acts ++ [back])).cpu := by
    rcases step_leaves hwf ha hlisteners htidy hleaves haway.first with hsteady | hasleep | hburied
    · obtain ⟨hholds, hgiven⟩ := run_steady hwf' ha' hsteady haway hunstarted hreturns
      exact ⟨_, .untouched hholds, hgiven⟩
    · exact run_asleep hwf' ha' hasleep haway hunstarted hreturns
    · have hrun := run_keeps (I := fun m : Machine φ β => WF m.kernel ∧ Buried id m)
        (fun m a hP hI => ⟨wf_step hI.1 a, step_buried hI.1 hI.2 a hP⟩) hunstarted ⟨hwf', hburied⟩
      exact absurd hreturns hrun.2.1
  obtain ⟨c', hcarried, cpu0, hgiven⟩ := hcaptured
  obtain ⟨hsr, hsp, ha7⟩ := hcarried.keeps
  refine ⟨_, c', shows_capture _, hcarried, ?_⟩
  have hrun : (run step m (out :: acts ++ [back])).cpu = c'.restore cpu0 := hgiven
  rw [hrun]
  exact shows_restored (leaving_sound hmsound hsound) hsr hsp ha7 cpu0

/-! ## On the board -/

theorem loading_sound {m : Machine UInt16 Board} (hm : m.cpu.Sound)
    (regs : List (Fin 16 × UInt32)) : (loading m regs).Sound := by
  have hset : ∀ (regs : List (Fin 16 × UInt32)) (cpu : CpuCore UInt16), cpu.Sound →
      (regs.foldl (fun cpu r => cpu.setDar r.1 r.2) cpu).Sound := by
    intro regs
    induction regs with
    | nil => exact fun _ h => h
    | cons r regs ih => exact fun cpu h => ih _ (sound_of_flags h ⟨rfl, rfl, rfl⟩)
  exact hset regs m.cpu hm

theorem script_sound {m : Machine UInt16 Board} (hm : m.cpu.Sound)
    (calls : List (List (Fin 16 × UInt32))) :
    Each step (fun _ a => a.Sound) m (script m calls) := by
  induction calls generalizing m with
  | nil => trivial
  | cons regs calls ih =>
    have hload := loading_sound hm regs
    exact ⟨hload, trivial, ih (step_cpu_sound (step_cpu_sound hm hload) (a := .trap 11 none) trivial)⟩

/-- The guest makes these calls after the boot and loads the registers of one more. -/
def bootScript (calls : List (List (Fin 16 × UInt32))) (regs : List (Fin 16 × UInt32)) :
    List (Action UInt16 Board) :=
  .instruction :: script booted calls ++ [loading (calls.foldl serve booted) regs]

theorem bootScript_sound (calls : List (List (Fin 16 × UInt32)))
    (regs : List (Fin 16 × UInt32)) :
    Each step (fun _ a => a.Sound) (reset bootCpu bootBoard)
      (bootScript calls regs ++ [.trap 11 none]) := by
  have hbooted : booted.cpu.Sound := by
    rw [booted]
    exact step_cpu_sound (a := .instruction) (fun _ => rfl) trivial
  have hacts : bootScript calls regs ++ [.trap 11 none] =
      .instruction :: script booted (calls ++ [regs]) := by
    rw [script_snoc]
    simp [bootScript]
  rw [hacts]
  refine ⟨trivial, ?_⟩
  rw [← booted]
  exact script_sound hbooted _

/-- A task above ROOT is about to wait for events. -/
def waiting : Machine UInt16 Board :=
  run step (reset bootCpu bootBoard)
    (bootScript (startTask 200) [(0, 0x2d), (4, 1), (5, 0), (6, 0)])

/-- ROOT is about to send them. -/
def sending : Action UInt16 Board :=
  loading (step waiting (.trap 11 none)) [(0, 0x2c), (1, 0x30000), (4, 1)]

theorem events_reach_waiter :
    ∃ c c', Shows (waiting.leaving (.trap 11 none)) c ∧
      Carried 0x30000 c (step waiting (.trap 11 none)) ([sending] ++ [.trap 11 none]) c' ∧
        Shows (run step waiting (.trap 11 none :: [sending] ++ [.trap 11 none])).cpu c' := by
  have hsound := bootScript_sound (startTask 200) [(0, 0x2d), (4, 1), (5, 0), (6, 0)]
  obtain ⟨htidy, hactive, hleaves, haway, hunstarted, hreturns⟩ :
      Each step StepTidy (reset bootCpu bootBoard)
          (bootScript (startTask 200) [(0, 0x2d), (4, 1), (5, 0), (6, 0)] ++ [.trap 11 none]) ∧
        waiting.kernel.active = true ∧ waiting.kernel.current = 0x30000 ∧
        Always step (fun m => m.kernel.current ≠ 0x30000) (step waiting (.trap 11 none)) [sending] ∧
        Each step (LeavesUnstarted 0x30000) (step waiting (.trap 11 none))
          ([sending] ++ [.trap 11 none]) ∧
        (run step waiting (.trap 11 none :: [sending] ++ [.trap 11 none])).kernel.current =
          0x30000 := by
    simp only [sending, waiting, bootScript, List.cons_append, Each, run_cons, step_boot, booted_eq]
    decide +kernel
  have habsence : Absence 0x30000 waiting (.trap 11 none) [sending] (.trap 11 none) :=
    ⟨hactive, hleaves, haway, hunstarted, hreturns⟩
  rw [waiting] at habsence
  have hpreserved := context_preserved (fun _ => rfl) bootBoard _ (htidy.and hsound) habsence
  dsimp only at hpreserved
  rwa [← waiting] at hpreserved

/-- A task waits on a queue, and ROOT restarts it. -/
def restartWaiter : List (List (Fin 16 × UInt32)) :=
  [(0, 0x24), (1, 1), (2, 0), (5, 0)] :: startTask 200 ++
    [[(0, 0x2a), (1, 1), (5, 0), (6, 0)], [(0, 4), (1, 0x30000)]]

/-- The restarted task is about to put itself below ROOT. -/
def yielding : Machine UInt16 Board :=
  run step (reset bootCpu bootBoard) (bootScript restartWaiter [(0, 8), (1, 0), (2, 5)])

/-- ROOT sends to the queue, and then puts itself below the task. -/
def sendAndYield : List (List (Fin 16 × UInt32)) :=
  [[(0, 0x27), (1, 1), (2, 7), (3, 8), (4, 9), (5, 10)], [(0, 8), (1, 0), (2, 1)]]

/-- ROOT's actions before the last one. -/
def rootActions : List (Action UInt16 Board) :=
  (script (step yielding (.trap 11 none)) sendAndYield).dropLast

/-- What the restarted task has in `D2` is lost to a message that it did not wait for. -/
theorem stale_wait_overwrites :
    ¬ ∀ (cpu : CpuCore UInt16) (bus : Board) (earlier acts : List (Action UInt16 Board))
        (id : UInt32) (out back : Action UInt16 Board), cpu.Sound →
      Each step (fun _ a => a.Sound) (reset cpu bus) (earlier ++ [out] ++ (acts ++ [back])) →
      Absence id (run step (reset cpu bus) earlier) out acts back →
      ∃ c c', Shows ((run step (reset cpu bus) earlier).leaving out) c ∧
        Carried id c (step (run step (reset cpu bus) earlier) out) (acts ++ [back]) c' ∧
          Shows (run step (run step (reset cpu bus) earlier) (out :: acts ++ [back])).cpu c' := by
  intro h
  let m := step yielding (.trap 11 none)
  obtain ⟨hactive, hleaves, haway, hunstarted, hreturns, hready, hdar⟩ :
      yielding.kernel.active = true ∧ yielding.kernel.current = 0x30000 ∧
        Always step (fun m => m.kernel.current ≠ 0x30000) m rootActions ∧
        Each step (LeavesUnstarted 0x30000) m (rootActions ++ [.trap 11 none]) ∧
        (run step yielding (.trap 11 none :: rootActions ++ [.trap 11 none])).kernel.current =
          0x30000 ∧
        Always step (fun m => (m.kernel.tasks[(0x30000 : UInt32)]?).map Task.state ≠ some .blocked ∧
          (m.kernel.tasks[(0x30000 : UInt32)]?).map Task.state ≠ some .dead) m
            (rootActions ++ [.trap 11 none]) ∧
        (yielding.leaving (.trap 11 none)).dar ≠
          (run step yielding (.trap 11 none :: rootActions ++ [.trap 11 none])).cpu.dar := by
    simp only [m, rootActions, yielding, bootScript, List.cons_append, run_cons, step_boot, booted_eq]
    decide +kernel
  have habsence : Absence 0x30000 yielding (.trap 11 none) rootActions (.trap 11 none) :=
    ⟨hactive, hleaves, haway, hunstarted, hreturns⟩
  have hsound : Each step (fun _ a => a.Sound) (reset bootCpu bootBoard)
      (bootScript restartWaiter [(0, 8), (1, 0), (2, 5)] ++ [.trap 11 none] ++
        (rootActions ++ [.trap 11 none])) := by
    have hfirst := bootScript_sound restartWaiter [(0, 8), (1, 0), (2, 5)]
    have hm : m.cpu.Sound := by
      have hrun : (run step (reset bootCpu bootBoard)
          (bootScript restartWaiter [(0, 8), (1, 0), (2, 5)] ++ [.trap 11 none])).cpu.Sound :=
        run_keeps (I := fun m => m.cpu.Sound) (fun _ _ hP hI => step_cpu_sound hI hP) hfirst
          (show bootCpu.Sound from fun _ => rfl)
      rwa [run_append, ← yielding, run_cons, run_nil] at hrun
    refine (each_append _ _ _).mpr ⟨hfirst, ?_⟩
    rw [run_append, ← yielding, run_cons, run_nil]
    exact script_sound hm sendAndYield
  rw [yielding] at habsence
  obtain ⟨c, c', hc, hcarried, hc'⟩ := h bootCpu bootBoard _ rootActions 0x30000 (.trap 11 none)
    (.trap 11 none) (fun _ => rfl) hsound habsence
  rw [← yielding] at hc hcarried hc'
  cases hcarried with
  | untouched => exact hdar (hc.dar.trans hc'.dar.symm)
  | woken before wake after hacts hbefore hwake hafter =>
    obtain ⟨t, -, ht, hs, -⟩ := hwake
    rw [hacts] at hready
    have hwaits := hready.drop.first
    rw [ht] at hwaits
    rcases hs with hb | hd
    · exact hwaits.1 (congrArg some hb)
    · exact hwaits.2 (congrArg some hd)

end OpenSaab.Psos
