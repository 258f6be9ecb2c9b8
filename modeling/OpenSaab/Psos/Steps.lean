import OpenSaab.Psos.Startup

/-!
# One step of the machine

`step_cases` says all that a step can do, so that an invariant of the kernel is shown from the
changes of the services alone.
-/

namespace OpenSaab.Psos

open Std OpenSaab.Table OpenSaab.Runs

variable {φ β : Type}

/-! ## Kernels that a run reaches -/

/-- What holds of the kernel between two steps. -/
structure WF (k : Kernel) : Prop where
  keyed : Keyed k
  numbered : Numbered k
  current : k.active = true → k.current ∈ k.tasks
  blank : k.active = false → Blank k

/-- The clock may tick, and then the scheduler may run. -/
def Rests (k : Kernel) (m' : Machine φ β) : Prop :=
  ∃ k1, Frame [.tasks] k k1 ∧ Pointwise (KeptOrWoken noHanding) k.tasks k1.tasks ∧
    Scheduled k1 m'.kernel ∧ Carries k1 m'

theorem keyed_of_pointwise {R : Task → Task → Prop} (hR : ∀ t t', R t t' → t'.id = t.id)
    {k k' : Kernel} (h : Pointwise R k.tasks k'.tasks) (hk : Keyed k) : Keyed k' := by
  intro id t' ht'
  obtain ⟨t, ht, hr⟩ := h.after ht'
  exact (hR t t' hr).trans (hk id t ht)

/-- Where the tasks of a table come from after a service. -/
theorem effect_origin {m : Machine φ β} {s : Service} {tasks : Table Task} {c : Change}
    (h : c.Effect m s tasks) {id : UInt32} {t' : Task} (ht' : tasks[id]? = some t') :
    (∃ t, m.kernel.tasks[id]? = some t ∧ t'.id = t.id) ∨
      c = .create ∧ id = m.kernel.nextId ∧ t'.id = id ∧ m.kernel.nextTask ≤ 255 := by
  have hupdated : ∀ {a : UInt32} {t u : Task}, m.kernel.tasks[a]? = some t → u.id = t.id →
      Updated m.kernel.tasks a u tasks → ∃ t, m.kernel.tasks[id]? = some t ∧ t'.id = t.id := by
    intro a t u ht hid hup
    by_cases ha : id = a
    · subst ha
      obtain rfl : u = t' := by simpa [hup.1] using ht'
      exact ⟨t, ht, hid⟩
    · rw [hup.2 id ha] at ht'
      exact ⟨t', ht', rfl⟩
  cases c with
  | wake =>
    obtain ⟨t, ht, hr⟩ := Pointwise.after h ht'
    exact Or.inl ⟨t, ht, keptOrWoken_id hr⟩
  | create =>
    rcases h with rfl | ⟨hroom, t, hcore, hup⟩
    · exact Or.inl ⟨t', ht', rfl⟩
    · by_cases ha : id = m.kernel.nextId
      · subst ha
        obtain rfl : t = t' := by simpa [hup.1] using ht'
        exact Or.inr ⟨rfl, rfl, congrArg Core.id hcore, hroom⟩
      · rw [hup.2 id ha] at ht'
        exact Or.inl ⟨t', ht', rfl⟩
  | restart =>
    obtain ⟨t, u, ht, hcore, hup⟩ := h
    exact Or.inl (hupdated ht (congrArg Core.id hcore) hup)
  | delete =>
    obtain ⟨t, u, ht, hcore, hup⟩ := h
    exact Or.inl (hupdated ht (congrArg Core.id hcore) hup)
  | block wait object =>
    obtain ⟨t, u, ht, hcore, hup⟩ := h
    exact Or.inl (hupdated ht (congrArg Core.id hcore) hup)
  | yield =>
    obtain ⟨t, u, ht, hcore, hup⟩ := h
    exact Or.inl (hupdated ht (congrArg Core.id hcore) hup)

/-- No service removes a task. -/
theorem effect_mem {m : Machine φ β} {s : Service} {tasks : Table Task} {c : Change}
    (h : c.Effect m s tasks) {id : UInt32} (hid : id ∈ m.kernel.tasks) : id ∈ tasks := by
  rw [TreeMap.mem_iff_isSome_getElem?] at hid ⊢
  have hupdated : ∀ {a : UInt32} {u : Task}, Updated m.kernel.tasks a u tasks →
      tasks[id]?.isSome := by
    intro a u hup
    by_cases ha : id = a
    · rw [ha, hup.1]
      rfl
    · rwa [hup.2 id ha]
  cases c with
  | wake =>
    rw [← TreeMap.mem_iff_isSome_getElem?] at hid ⊢
    exact Pointwise.mem h hid
  | create =>
    rcases h with rfl | ⟨-, t, -, hup⟩
    · exact hid
    · exact hupdated hup
  | restart => obtain ⟨t, u, -, -, hup⟩ := h; exact hupdated hup
  | delete => obtain ⟨t, u, -, -, hup⟩ := h; exact hupdated hup
  | block wait object => obtain ⟨t, u, -, -, hup⟩ := h; exact hupdated hup
  | yield => obtain ⟨t, u, -, -, hup⟩ := h; exact hupdated hup

theorem scheduled_numbered {k k' : Kernel} (h : Scheduled k k') (hn : Numbered k) :
    Numbered k' := by
  refine ⟨(h.frame.nextTask (by simp)).symm ▸ hn.1, fun id t' ht' => ?_⟩
  obtain ⟨t, ht, -⟩ := h.tasks.after ht'
  rw [h.frame.nextTask (by simp)]
  exact hn.2 id t ht

theorem scheduled_current {k k' : Kernel} (h : Scheduled k k') (hc : k.current ∈ k.tasks) :
    k'.current ∈ k'.tasks := by
  rw [TreeMap.mem_iff_isSome_getElem?, Option.isSome_iff_exists] at hc ⊢
  rcases h.current with hcur | ⟨t, ht, -⟩
  · obtain ⟨t, ht⟩ := hc
    rw [hcur]
    exact (h.tasks.before ht).imp fun _ h => h.1
  · exact (h.tasks.before ht).imp fun _ h => h.1

/-- An active kernel stays well formed when the scheduler has run. -/
theorem wf_scheduled {k k' : Kernel} (h : Scheduled k k') (hk : Keyed k) (hn : Numbered k)
    (hc : k.current ∈ k.tasks) (ha : k.active = true) : WF k' where
  keyed := scheduled_keyed h hk
  numbered := scheduled_numbered h hn
  current _ := scheduled_current h hc
  blank hf := by
    rw [h.frame.active, ha] at hf
    cases hf

theorem wf_rests {k : Kernel} {m' : Machine φ β} (h : Rests k m') (hwf : WF k)
    (ha : k.active = true) : WF m'.kernel := by
  obtain ⟨k1, hframe, htasks, hs, -⟩ := h
  refine wf_scheduled hs (keyed_of_pointwise (fun _ _ => keptOrWoken_id) htasks hwf.keyed) ?_ ?_ ?_
  · refine ⟨(hframe.nextTask (by simp)).symm ▸ hwf.numbered.1, fun id t' ht' => ?_⟩
    obtain ⟨t, ht, -⟩ := htasks.after ht'
    rw [hframe.nextTask (by simp)]
    exact hwf.numbered.2 id t ht
  · have hc := hwf.current ha
    rw [TreeMap.mem_iff_isSome_getElem?, Option.isSome_iff_exists] at hc ⊢
    obtain ⟨t, ht⟩ := hc
    rw [hframe.current (by simp)]
    exact (htasks.before ht).imp fun _ h => h.1
  · exact hframe.active.trans ha

/-! ## All that a step can do -/

/-- A task other than the one that has the CPU is ready. -/
def OtherReady (m : Machine φ β) : Prop :=
  ∃ t ∈ values m.kernel.tasks, t.id ≠ m.kernel.current ∧ t.runnable

theorem Machine.change_create {m : Machine φ β} {s : Service} (h : m.change s = .create) :
    s = .tCreate := by
  cases s <;> simp only [Machine.change] at h <;> (repeat' split at h) <;> first | rfl | cases h

/-- The number of the next task grows with the tasks. -/
theorem tCreate_next [GuestBus β] (m : Machine φ β) :
    m.tCreate.1.kernel.tasks = m.kernel.tasks ∧ m.tCreate.1.kernel.nextTask = m.kernel.nextTask ∨
      m.kernel.nextTask ≤ 255 ∧ m.tCreate.1.kernel.nextTask = m.kernel.nextTask + 1 := by
  obtain ⟨regions, hr⟩ := m.kernel.reserve_frame (m.reg 3) (m.reg 4)
  have hm : m.tCreate.1.kernel = (m.kernel.create (m.reg 1) (m.reg 2) (m.reg 3) (m.reg 4) m.bus
    m.cpu.vbr).1 := rfl
  rw [hm]
  rcases m.kernel.create_cases (m.reg 1) (m.reg 2) (m.reg 3) (m.reg 4) m.cpu.vbr m.bus with
    h | ⟨hroom, h | ⟨t, -, -, h⟩⟩
  · rw [h]
    exact Or.inl ⟨rfl, rfl⟩
  · rw [h, hr]
    exact Or.inr ⟨hroom, rfl⟩
  · rw [h, hr]
    exact Or.inr ⟨hroom, rfl⟩

variable [M68k φ] [GuestBus β]

theorem schedule_rests {k : Kernel} {m : Machine φ β} (hm : m.kernel = k) (hk : Keyed k)
    (force : Bool) : Rests k (m.schedule force).selectPage := by
  subst hm
  have hcarries : Carries m.kernel (m.schedule force).selectPage :=
    Machine.schedule_carries m force
  exact ⟨m.kernel, .refl _ _, .refl (keptOrWoken_refl _) _,
    Kernel.schedule_scheduled hk m.cpu m.bus force, hcarries⟩

omit [M68k φ] [GuestBus β] in
/-- A change of fields that no invariant speaks of. -/
theorem rests_of_frame {k : Kernel} {m' : Machine φ β} (h : Frame [] k m'.kernel) : Rests k m' := by
  refine ⟨m'.kernel, h.mono (by simp), ?_, .refl _, carries_self m'⟩
  rw [h.tasks (by simp)]
  exact .refl (keptOrWoken_refl _) _

/-- The service with its counters, which no service looks at. -/
theorem performed_frame (m : Machine φ β) (s : Service) :
    Frame s.touches m.kernel (performed m s).1.kernel := by
  have hcount : Frame s.touches m.kernel m.counted.kernel := by
    constructor <;> simp [Machine.counted]
  exact hcount.trans (m.counted.perform_frame s)

theorem performed_effect {m : Machine φ β} (hk : Keyed m.kernel)
    (hc : m.kernel.current ∈ m.kernel.tasks) (s : Service) :
    (m.change s).Effect m s (performed m s).1.kernel.tasks := by
  have h := @Machine.perform_effect _ _ _ _ m.counted hk hc s
  have hchange : m.counted.change s = m.change s := by cases s <;> rfl
  rw [hchange] at h
  cases hm : m.change s <;> rw [hm] at h <;> exact h

theorem performed_numbered {m : Machine φ β} (h : WF m.kernel) (ha : m.kernel.active = true)
    (s : Service) : Numbered (performed m s).1.kernel := by
  have horigin : ∀ (id : UInt32) (t : Task), (performed m s).1.kernel.tasks[id]? = some t →
      id = m.kernel.nextId ∨ ∃ t', m.kernel.tasks[id]? = some t' := by
    intro id t ht
    rcases effect_origin (performed_effect h.keyed (h.current ha) s) ht with ⟨t0, ht0, -⟩ | ⟨-, hid, -⟩
    · exact Or.inr ⟨t0, ht0⟩
    · exact Or.inl hid
  by_cases hs : s = .tCreate
  · subst hs
    rcases tCreate_next m.counted with ⟨htasks, hnext⟩ | ⟨hroom, hnext⟩
    · unfold Numbered performed Machine.perform
      dsimp only
      rw [htasks, hnext]
      exact h.numbered
    · exact numbered_next h.numbered hroom hnext horigin
  · have hnext := (performed_frame m s).nextTask (by cases s <;> simp [Service.touches] at hs ⊢)
    refine ⟨hnext.symm ▸ h.numbered.1, fun id t ht => ?_⟩
    rw [hnext]
    rcases effect_origin (performed_effect h.keyed (h.current ha) s) ht with
      ⟨t', ht', -⟩ | ⟨hcreate, -⟩
    · exact h.numbered.2 id t' ht'
    · exact absurd (Machine.change_create hcreate) hs

theorem performed_keyed {m : Machine φ β} (h : WF m.kernel) (ha : m.kernel.active = true)
    (s : Service) : Keyed (performed m s).1.kernel := by
  intro id t' ht'
  rcases effect_origin (performed_effect h.keyed (h.current ha) s) ht' with
    ⟨t, ht, hid⟩ | ⟨-, -, hid, -⟩
  · exact hid.trans (h.keyed id t ht)
  · exact hid

theorem performed_current (m : Machine φ β) (s : Service) :
    (performed m s).1.kernel.current = m.kernel.current :=
  (performed_frame m s).current (by cases s <;> simp [Service.touches])

theorem wf_service {m : Machine φ β} (h : WF m.kernel) (ha : m.kernel.active = true) (s : Service) :
    WF (Machine.finish (performed m s)).kernel := by
  have hkeyed := performed_keyed h ha s
  refine wf_scheduled (Machine.finish_scheduled hkeyed) hkeyed (performed_numbered h ha s) ?_
    ((performed_frame m s).active.trans ha)
  rw [performed_current]
  exact effect_mem (performed_effect h.keyed (h.current ha) s) (h.current ha)

/-- A start of the kernel, whether it succeeds or not. -/
theorem initialize_blank {m : Machine φ β} (h : Blank m.kernel) (ha : m.kernel.active = false) :
    Blank m.initializeKernel.kernel ∧ WF m.initializeKernel.kernel ∧
      m.initializeKernel.kernel.regions = (m.kernel.setUp m.cpu m.bus).1.regions := by
  have hblank := Kernel.setUp_blank h m.cpu m.bus
  have hactive := (m.kernel.setUp_frame m.cpu m.bus).active.trans ha
  have hready := @Kernel.setUp_ready _ _ _ _ h m.cpu m.bus
  unfold Machine.initializeKernel
  revert hblank hactive hready
  generalize m.kernel.setUp m.cpu m.bus = r
  obtain ⟨k, bus, e⟩ := r
  intro hblank hactive hready
  cases e with
  | some e =>
    have hk : Blank { k with error := some e } := hblank.of_eq rfl rfl (fun _ _ => rfl) rfl rfl
    exact ⟨hk, ⟨hk.keyed, hk.numbered, fun ht => absurd (hactive.symm.trans ht) (by simp),
      fun _ => hk⟩, rfl⟩
  | none =>
    have hk : Blank { k with active := true, lastHostTick := GuestBus.currentInsns bus } :=
      hblank.of_eq rfl rfl (fun _ _ => rfl) rfl rfl
    have hs := Kernel.schedule_scheduled hk.keyed m.cpu bus true
    have hcur := Kernel.schedule_current_mem hk.keyed m.cpu bus true (hready rfl)
    have hk' := hk.scheduled hs
    exact ⟨hk', ⟨hk'.keyed, hk'.numbered, fun _ => hcur, fun _ => hk'⟩,
      hs.frame.regions (by simp)⟩

theorem scan_frame (k : Kernel) (bus : β) : Frame [] k (k.scan bus) := by
  unfold Kernel.scan
  cases findModule bus with
  | none => constructor <;> simp [Kernel.located]
  | some offset => constructor <;> simp [Kernel.located]

/-- The kernel as the hook before an instruction finds it. -/
def Machine.scanned (m : Machine φ β) : Kernel :=
  if ¬ m.kernel.scanned ∧ 0x8000 ≤ m.cpu.pc ∧ m.cpu.pc < 0x40000 then m.kernel.scan m.bus
  else m.kernel

omit [M68k φ] in
theorem scanned_frame (m : Machine φ β) : Frame [] m.kernel m.scanned := by
  unfold Machine.scanned
  split
  · exact scan_frame m.kernel m.bus
  · exact .refl _ _

theorem Machine.beforeInstruction_eq (m : Machine φ β) : m.beforeInstruction =
    let m1 : Machine φ β := { m with kernel := m.scanned }
    if ¬ m1.kernel.active ∧ m1.kernel.kernelEntry ≠ 0 ∧ m1.cpu.pc = m1.kernel.kernelEntry then
      m1.initializeKernel
    else if m1.kernel.active then m1.hostTick.schedule false
    else m1 := by
  have hscan : (if ¬ m.kernel.scanned ∧ 0x8000 ≤ m.cpu.pc ∧ m.cpu.pc < 0x40000 then
      { m with kernel := m.kernel.scan m.bus } else m) = { m with kernel := m.scanned } := by
    unfold Machine.scanned
    split <;> rfl
  unfold Machine.beforeInstruction
  rw [hscan]

omit [M68k φ] in
theorem hostTick_frame (m : Machine φ β) :
    Frame [.tasks] m.kernel m.hostTick.kernel ∧
      Pointwise (KeptOrWoken noHanding) m.kernel.tasks m.hostTick.kernel.tasks := by
  unfold Machine.hostTick
  dsimp only
  split
  · let k := { m.kernel with lastHostTick := GuestBus.currentInsns m.bus }
    have hframe : Frame [.tasks] m.kernel k := by constructor <;> simp [k]
    exact ⟨hframe.trans k.tick_frame, k.tick_tasks⟩
  · exact ⟨.refl _ _, .refl (keptOrWoken_refl _) _⟩

theorem blank_frame {k k' : Kernel} (h : Blank k) (hf : Frame [] k k') : Blank k' :=
  h.of_eq (hf.tasks (by simp)) (hf.nextTask (by simp)) (fun _ _ => by rw [hf.regions (by simp)])
    (hf.semaphores (by simp)).1 (hf.queues (by simp)).1

/-- The kernel that `step` leaves: no service ran, or the service `s` and the end of the trap. -/
inductive Stepped (m : Machine φ β) (a : Action φ β) : Prop where
  | service (s : Service) (hcalled : called m a = some s) (hactive : m.kernel.active = true)
      (h : step m a = Machine.finish (performed m s))
  | rest (hcalled : called m a = none) (h : Rests m.kernel (step m a))
      (hidle : m.kernel.active = false → Frame [] m.kernel (step m a).kernel)
  | start (hcalled : called m a = none) (hactive : m.kernel.active = false)
      (hblank : Blank (step m a).kernel) (hwf : WF (step m a).kernel)
      (hregions : ∃ (k : Kernel) (cpu : CpuCore φ) (bus : β), Frame [] m.kernel k ∧
        (step m a).kernel.regions = (k.setUp cpu bus).1.regions)

theorem beforeInstruction_stepped {m : Machine φ β} (h : WF m.kernel) :
    Stepped m .instruction := by
  have hframe := scanned_frame m
  let m1 : Machine φ β := { m with kernel := m.scanned }
  have hm1 : m.beforeInstruction =
      if ¬ m1.kernel.active ∧ m1.kernel.kernelEntry ≠ 0 ∧ m1.cpu.pc = m1.kernel.kernelEntry then
        m1.initializeKernel
      else if m1.kernel.active then m1.hostTick.schedule false
      else m1 := m.beforeInstruction_eq
  have hactive : m1.kernel.active = m.kernel.active := hframe.active
  have htasks1 : m1.kernel.tasks = m.kernel.tasks := hframe.tasks (by simp)
  by_cases ha : m.kernel.active = true
  · rw [ha] at hactive
    simp only [hactive, not_true_eq_false, false_and, if_false, if_true] at hm1
    refine .rest rfl ?_ fun hf => absurd (ha.symm.trans hf) (by simp)
    have hkeyed : Keyed m1.kernel := by
      unfold Keyed
      rw [htasks1]
      exact h.keyed
    obtain ⟨htick, htasks⟩ := hostTick_frame m1
    refine ⟨m1.hostTick.kernel, (hframe.mono (by simp)).trans htick, ?_, ?_, ?_⟩
    · rwa [htasks1] at htasks
    · show Scheduled _ (m.beforeInstruction).kernel
      rw [hm1]
      exact Kernel.schedule_scheduled
        (keyed_of_pointwise (fun _ _ => keptOrWoken_id) htasks hkeyed) _ _ _
    · show Carries _ m.beforeInstruction
      rw [hm1]
      exact Machine.schedule_carries _ _
  · rw [Bool.not_eq_true] at ha
    rw [ha] at hactive
    simp only [hactive, Bool.false_eq_true, not_false_eq_true, true_and, if_false] at hm1
    have hblank := blank_frame (h.blank ha) hframe
    have hstep : step m .instruction = m.beforeInstruction := rfl
    split at hm1
    · obtain ⟨hb, hwf, hregions⟩ := @initialize_blank _ _ _ _ m1 hblank hactive
      refine .start rfl ha (by rwa [hstep, hm1]) (by rwa [hstep, hm1]) ?_
      exact ⟨m1.kernel, m1.cpu, m1.bus, hframe, by rw [hstep, hm1, hregions]⟩
    · have hrest : Frame [] m.kernel (step m .instruction).kernel := by
        rw [hstep, hm1]
        exact hframe
      exact .rest rfl (rests_of_frame hrest) fun _ => hrest

theorem stepped_of_frame {m : Machine φ β} {a : Action φ β} (hcalled : called m a = none)
    (h : Frame [] m.kernel (step m a).kernel) : Stepped m a :=
  .rest hcalled (rests_of_frame h) fun _ => h

theorem trap_stepped {m : Machine φ β} (h : WF m.kernel) (number : UInt8)
    (fileResult : Option UInt32) : Stepped m (.trap number fileResult) := by
  by_cases ha : m.kernel.active = true
  · have hidle : ∀ {p : Prop}, m.kernel.active = false → p := fun hf =>
      absurd (ha.symm.trans hf) (by simp)
    by_cases h13 : number = 13
    · refine .rest (by cases fileResult <;> simp [called, h13]) ?_ hidle
      have hstep : step m (.trap number fileResult) = m.returnFromException := by
        simp [step, Machine.trap, ha, h13]
      rw [hstep]
      unfold Machine.returnFromException
      split
      · apply schedule_rests
        · rfl
        · exact h.keyed
      · exact rests_of_frame (by constructor <;> simp)
    · by_cases h11 : number = 11
      · have hstep : step m (.trap number fileResult) = m.service fileResult := by
          simp [step, Machine.trap, ha, h11]
        have hcount : Frame [] m.kernel m.counted.kernel := by
          constructor <;> simp [Machine.counted]
        cases fileResult with
        | some code =>
          refine .rest rfl ?_ hidle
          rw [hstep]
          refine ⟨m.counted.kernel, hcount.mono (by simp), .refl (keptOrWoken_refl _) _, ?_, ?_⟩
          · exact @Machine.finish_scheduled _ _ _ _ (m.counted, code) h.keyed
          · exact Machine.finish_carries (m.counted, code)
        | none =>
          by_cases h12 : m.reg 0 = 12
          · have hk : (m.service none).kernel = m.counted.kernel := by
              have hreg : m.counted.reg 0 = 12 := h12
              simp [Machine.service, hreg, Machine.selectPage, Machine.setD]
            refine stepped_of_frame (by simp [called, h12]) ?_
            rwa [hstep, hk]
          · refine .service (decode (m.reg 0)) (by simp [called, ha, h11, h12]) ha ?_
            have hreg : m.counted.reg 0 ≠ 12 := h12
            rw [hstep]
            simp only [Machine.service, if_neg hreg]
            rfl
      · refine stepped_of_frame (by cases fileResult <;> simp [called, h11]) ?_
        have hstep : step m (.trap number fileResult) = m := by
          simp [step, Machine.trap, ha, h13, h11]
        rw [hstep]
        exact .refl _ _
  · refine stepped_of_frame (by cases fileResult <;> simp [called, ha]) ?_
    have hstep : step m (.trap number fileResult) = m := by simp [step, Machine.trap, ha]
    rw [hstep]
    exact .refl _ _

/-- Every step runs a service, lets the clock and the scheduler run, or starts the kernel. -/
theorem step_cases {m : Machine φ β} (h : WF m.kernel) (a : Action φ β) : Stepped m a := by
  cases a with
  | guest cpu bus => exact stepped_of_frame rfl (.refl _ _)
  | instruction => exact beforeInstruction_stepped h
  | trap number fileResult => exact trap_stepped h number fileResult

theorem wf_step {m : Machine φ β} (h : WF m.kernel) (a : Action φ β) : WF (step m a).kernel := by
  cases step_cases h a with
  | service s hcalled hactive hs =>
    rw [hs]
    exact wf_service h hactive s
  | rest hcalled hr hidle =>
    cases ha : m.kernel.active with
    | true => exact wf_rests hr h ha
    | false =>
      have hframe := hidle ha
      have hb := blank_frame (h.blank ha) hframe
      exact ⟨hb.keyed, hb.numbered, fun ht => absurd (hframe.active.symm.trans ht) (by simp [ha]),
        fun _ => hb⟩
  | start hcalled hactive hblank hwf hregions => exact hwf

theorem step_active {m : Machine φ β} (hwf : WF m.kernel) (ha : m.kernel.active = true)
    (a : Action φ β) : (step m a).kernel.active = true := by
  cases step_cases hwf a with
  | service s hcalled _ hs =>
    have hframe := (Machine.finish_scheduled (performed_keyed hwf ha s)).frame
    rw [hs, hframe.active, (performed_frame m s).active, ha]
  | rest hcalled hr hidle =>
    obtain ⟨k1, hframe, -, hsched, -⟩ := hr
    rw [hsched.frame.active, hframe.active, ha]
  | start hcalled hf => exact absurd (ha.symm.trans hf) (by simp)

/-- No step takes a task out of the table. -/
theorem step_mem {m : Machine φ β} (hwf : WF m.kernel) (ha : m.kernel.active = true)
    (a : Action φ β) {id : UInt32} (hid : id ∈ m.kernel.tasks) : id ∈ (step m a).kernel.tasks := by
  cases step_cases hwf a with
  | service s hcalled _ hs =>
    rw [hs]
    exact (Machine.finish_scheduled (performed_keyed hwf ha s)).tasks.mem
      (effect_mem (performed_effect hwf.keyed (hwf.current ha) s) hid)
  | rest hcalled hr hidle =>
    obtain ⟨k1, -, htasks, hsched, -⟩ := hr
    exact hsched.tasks.mem (htasks.mem hid)
  | start hcalled hf => exact absurd (ha.symm.trans hf) (by simp)

omit [M68k φ] [GuestBus β] in
theorem wf_reset (cpu : CpuCore φ) (bus : β) : WF (reset cpu bus).kernel := by
  have hblank : Blank (reset cpu bus).kernel := by
    constructor <;> simp [reset, Keyed, Numbered]
  exact ⟨hblank.keyed, hblank.numbered, fun h => absurd h (by simp [reset]), fun _ => hblank⟩

theorem reachable_step {m : Machine φ β} (h : Reachable m) (a : Action φ β) :
    Reachable (step m a) := by
  obtain ⟨cpu, bus, acts, rfl⟩ := h
  exact ⟨cpu, bus, acts ++ [a], by rw [run_append, run_cons, run_nil]⟩

theorem wf_reachable {m : Machine φ β} (h : Reachable m) : WF m.kernel := by
  obtain ⟨cpu, bus, acts, rfl⟩ := h
  exact run_invariant (fun (m : Machine φ β) a (hm : WF m.kernel) => wf_step hm a) acts
    (wf_reset cpu bus)

end OpenSaab.Psos
