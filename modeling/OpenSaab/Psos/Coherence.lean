import OpenSaab.Psos.Board

/-!
# Wait and state

`wait` and `state` are two fields that a dozen services write. They agree as long as no step takes
a blocked task out of its state without clearing what it waits for.
-/

namespace OpenSaab.Psos

open Std OpenSaab.Table OpenSaab.Runs

variable {φ β : Type}

/-- A wait is recorded for the blocked tasks and for no others. -/
def Task.coherent (t : Task) : Prop := t.wait ≠ .none ↔ t.state = .blocked

def Coherent (ts : Table Task) : Prop := ∀ (id : UInt32) (t : Task), ts[id]? = some t → t.coherent

/-- The change does not take a blocked task out of its state. -/
def Spares (m : Machine φ β) : Change → Prop
  | .restart | .delete =>
    ∀ t, m.kernel.tasks[m.target]? = some t → t.state ≠ .blocked
  | .yield => ∀ t, m.kernel.tasks[m.kernel.current]? = some t → t.state ≠ .blocked
  | _ => True

/-- No blocked task is restarted or deleted, and none sleeps for zero ticks. -/
def StepSpares (m : Machine φ β) (a : Action φ β) : Prop :=
  ∀ s, called m a = some s → Spares m (m.change s)

theorem coherent_keptOrWoken {handing : Wait → Prop} {t t' : Task} (h : KeptOrWoken handing t t')
    (ht : t.coherent) : t'.coherent := by
  unfold Task.coherent at ht ⊢
  rcases h with h | ⟨-, -, hs, hw, -⟩
  · obtain ⟨-, hs, hw, -⟩ := core_eq h.1
    rwa [hs, hw]
  · simp [hs, hw]

theorem coherent_settled {t t' : Task} (h : Settled t t') : t'.coherent ↔ t.coherent := by
  unfold Task.coherent
  rw [h.2.1, (settled_state h).1]

theorem coherent_pointwise {handing : Wait → Prop} {ts us : Table Task}
    (h : Pointwise (KeptOrWoken handing) ts us) (hts : Coherent ts) : Coherent us := by
  intro id t' ht'
  obtain ⟨t, ht, hr⟩ := h.after ht'
  exact coherent_keptOrWoken hr (hts id t ht)

theorem coherent_scheduled {k k' : Kernel} (h : Scheduled k k') :
    Coherent k'.tasks ↔ Coherent k.tasks := by
  constructor
  · intro hk id t ht
    obtain ⟨t', ht', hs⟩ := h.tasks.before ht
    exact (coherent_settled hs).mp (hk id t' ht')
  · intro hk id t' ht'
    obtain ⟨t, ht, hs⟩ := h.tasks.after ht'
    exact (coherent_settled hs).mpr (hk id t ht)

theorem coherent_updated {ts us : Table Task} {id : UInt32} {t' : Task}
    (h : Updated ts id t' us) (hts : Coherent ts) : Coherent us ↔ t'.coherent := by
  constructor
  · intro hus
    exact hus id t' h.1
  · intro ht' a u hu
    by_cases ha : a = id
    · subst ha
      obtain rfl : t' = u := by simpa [h.1] using hu
      exact ht'
    · rw [h.2 a ha] at hu
      exact hts a u hu

/-- Out of the blocked state and with its wait kept, a task was coherent exactly when it was not
blocked. -/
theorem inState_coherent {state : State} (hstate : state ≠ .blocked) {t t' : Task}
    (h : InState state t t') (ht : t.coherent) : t'.coherent ↔ t.state ≠ .blocked := by
  obtain ⟨-, hs, hw, -⟩ : t'.id = t.id ∧ t'.state = state ∧ t'.wait = t.wait ∧
      t'.waitObject = t.waitObject := by
    simpa only [InState, Task.core, Core.mk.injEq] using h
  unfold Task.coherent at ht ⊢
  rw [hs, hw, ht]
  simp [hstate]

theorem Machine.change_block {m : Machine φ β} {s : Service} {wait : Wait} {object : UInt32}
    (h : m.change s = .block wait object) : wait ≠ .none := by
  cases s <;> simp only [Machine.change] at h <;> (repeat' split at h) <;> cases h <;> decide

/-- One service keeps the tasks coherent exactly when it spares the blocked ones. -/
theorem effect_coherent {m : Machine φ β} {s : Service} {tasks : Table Task}
    (h : (m.change s).Effect m s tasks) (hm : Coherent m.kernel.tasks) :
    Coherent tasks ↔ Spares m (m.change s) := by
  have hblock : ∀ {wait object}, m.change s = .block wait object → wait ≠ .none :=
    Machine.change_block
  have hstate : ∀ {state : State} {id : UInt32} {t t' : Task}, state ≠ .blocked →
      m.kernel.tasks[id]? = some t → InState state t t' → Updated m.kernel.tasks id t' tasks →
      (Coherent tasks ↔ ∀ t, m.kernel.tasks[id]? = some t → t.state ≠ .blocked) := by
    intro state id t t' hne ht hin hup
    rw [coherent_updated hup hm, inState_coherent hne hin (hm id t ht)]
    simp [ht]
  revert h hblock
  generalize m.change s = c
  intro h hblock
  cases c with
  | wake => exact iff_of_true (coherent_pointwise h hm) trivial
  | create =>
    refine iff_of_true ?_ trivial
    rcases h with rfl | ⟨-, t, hcore, hup⟩
    · exact hm
    · refine (coherent_updated hup hm).mpr ?_
      obtain ⟨-, hs, hw, -⟩ : t.id = m.kernel.nextId ∧ t.state = .created ∧ t.wait = .none ∧
          t.waitObject = 0 := by
        simpa only [Task.core, Core.mk.injEq] using hcore
      simp [Task.coherent, hs, hw]
  | restart =>
    obtain ⟨t, t', ht, hin, hup⟩ := h
    exact hstate (by decide) ht hin hup
  | delete =>
    obtain ⟨t, t', ht, hin, hup⟩ := h
    exact hstate (by decide) ht hin hup
  | block wait object =>
    obtain ⟨t, t', -, hb, hup⟩ := h
    refine iff_of_true ((coherent_updated hup hm).mpr ?_) trivial
    obtain ⟨-, hs, hw, -⟩ : t'.id = t.id ∧ t'.state = .blocked ∧ t'.wait = wait ∧
        t'.waitObject = object := by
      simpa only [BlockedOn, Task.core, Core.mk.injEq] using hb
    simp [Task.coherent, hs, hw, hblock rfl]
  | yield =>
    obtain ⟨t, t', ht, hin, hup⟩ := h
    exact hstate (by decide) ht hin hup

theorem blank_coherent {k : Kernel} (h : Blank k) : Coherent k.tasks := by
  intro id t ht
  obtain ⟨-, hw, hs⟩ := h.fresh id t ht
  rcases hs with hs | hs | hs <;> simp [Task.coherent, hw, hs]

variable [M68k φ] [GuestBus β]

theorem step_coherent {m : Machine φ β} (h : WF m.kernel) (hm : Coherent m.kernel.tasks)
    (a : Action φ β) : Coherent (step m a).kernel.tasks ↔ StepSpares m a := by
  cases step_cases h a with
  | service s hcalled hactive hs =>
    have heff := performed_effect h.keyed (h.current hactive) s
    have hkeyed : Keyed (performed m s).1.kernel := performed_keyed h hactive s
    rw [hs, coherent_scheduled (Machine.finish_scheduled hkeyed), effect_coherent heff hm]
    simp [StepSpares, hcalled]
  | rest hcalled hr hidle =>
    obtain ⟨k1, -, htasks, hsched, -⟩ := hr
    refine iff_of_true ?_ (by simp [StepSpares, hcalled])
    exact (coherent_scheduled hsched).mpr (coherent_pointwise htasks hm)
  | start hcalled hactive hblank hwf =>
    exact iff_of_true (blank_coherent hblank) (by simp [StepSpares, hcalled])

/-- A run from a reset stays coherent exactly as long as all its steps spare the blocked tasks. -/
theorem coherent_iff_spares (cpu : CpuCore φ) (bus : β) (acts : List (Action φ β)) :
    Always step (fun m : Machine φ β => Coherent m.kernel.tasks) (reset cpu bus) acts ↔
      Each step StepSpares (reset cpu bus) acts := by
  refine @always_iff_each _ _ step StepSpares _ (fun m : Machine φ β => WF m.kernel)
    (fun m a hm => wf_step hm a) (fun m a hm hc => step_coherent hm hc a) (reset cpu bus) acts
    (wf_reset cpu bus) ?_
  intro id t ht
  simp [reset] at ht

/-! ## A waiter that is deleted -/

/-- ROOT creates and starts a task above its own priority, once interrupts are let in. -/
def startTask (priority : UInt32) : List (List (Fin 16 × UInt32)) :=
  [[(0, 1), (1, 2), (2, priority), (3, 0), (4, 0x100)],
    [(0, 3), (1, 0x30000), (2, 0), (8, 0x100900)],
    [(0, 9), (1, 0x700), (2, 0)],
    [(0, 8), (1, 0), (2, 10)]]

/-- ROOT makes a semaphore without units, and the task that it starts waits on it. -/
def startWaiter : List (List (Fin 16 × UInt32)) :=
  [(0, 0x33), (1, 1), (2, 0)] :: startTask 200 ++ [[(0, 0x36), (1, 1), (5, 0), (6, 0)]]

/-- ROOT deletes the waiter. -/
def deleteWaiter : List (List (Fin 16 × UInt32)) := startWaiter ++ [[(0, 5), (1, 0x30000)]]

theorem deleted_waiter_keeps_wait :
    ¬ ∀ m : Machine UInt16 Board, Reachable m → Coherent m.kernel.tasks := by
  intro h
  have hdead : ((deleteWaiter.foldl serve booted).kernel.tasks[(0x30000 : UInt32)]?).map
      (fun t => (t.state, t.wait)) = some (.dead, .semaphore) := by
    rw [booted_eq]
    decide +kernel
  obtain ⟨t, ht, hst⟩ := Option.map_eq_some_iff.mp hdead
  obtain ⟨hs, hw⟩ := Prod.mk.injEq .. ▸ hst
  have hcoherent := h _ (serve_reachable booted_reachable deleteWaiter) _ t ht
  simp [Task.coherent, hs, hw] at hcoherent

end OpenSaab.Psos
