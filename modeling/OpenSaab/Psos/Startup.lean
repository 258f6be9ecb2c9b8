import OpenSaab.Psos.Scheduler

/-!
# The start of the kernel

`setUp` makes the first region and the two system tasks, and nothing else that a service could find.
-/

namespace OpenSaab.Psos

open Std OpenSaab.Table OpenSaab.Runs

variable {φ β : Type}

/-! ## Blank kernels -/

/-- Every identifier is one that an earlier creation gave out. -/
def Numbered (k : Kernel) : Prop :=
  k.nextTask ≤ 256 ∧ ∀ (id : UInt32) (t : Task), k.tasks[id]? = some t →
    ∃ n, n < k.nextTask ∧ id = n <<< 16

/-- A task that has never been suspended and has never waited for anything. -/
def Task.fresh (t : Task) : Prop :=
  t.suspended = false ∧ t.wait = .none ∧
    (t.state = .created ∨ t.state = .ready ∨ t.state = .running)

/-- No object has been made yet, and no task has waited. -/
structure Blank (k : Kernel) : Prop where
  keyed : Keyed k
  numbered : Numbered k
  fresh : ∀ (id : UInt32) (t : Task), k.tasks[id]? = some t → t.fresh
  regions : ∀ id : UInt32, id ≠ 0 → k.regions[id]? = none
  semaphores : ∀ id : UInt32, k.semaphores[id]? = none
  queues : ∀ id : UInt32, k.queues[id]? = none

theorem shift_inj {a b : UInt32} (ha : a ≤ 255) (hb : b ≤ 255) (h : a <<< 16 = b <<< 16) :
    a = b := by
  have ha' : a.toNat ≤ 255 := ha
  have hb' : b.toNat ≤ 255 := hb
  have h' := congrArg UInt32.toNat h
  have hpow : 2 ^ ((16 : UInt32).toNat % 32) = 65536 := by decide
  simp only [UInt32.toNat_shiftLeft, Nat.shiftLeft_eq, hpow] at h'
  apply UInt32.toNat.inj
  omega

/-- A new task never takes the place of another. -/
theorem nextId_absent {k : Kernel} (h : Numbered k) (hroom : k.nextTask ≤ 255) :
    k.tasks[k.nextId]? = none := by
  cases ht : k.tasks[k.nextId]? with
  | none => rfl
  | some t =>
    obtain ⟨n, hn, heq⟩ := h.2 _ t ht
    have hn255 : n ≤ 255 := UInt32.le_of_lt (UInt32.lt_of_lt_of_le hn hroom)
    have := shift_inj hroom hn255 heq
    exact absurd (this ▸ hn) (UInt32.lt_irrefl _)

theorem numbered_next {k k' : Kernel} (h : Numbered k) (hroom : k.nextTask ≤ 255)
    (hnext : k'.nextTask = k.nextTask + 1)
    (htasks : ∀ (id : UInt32) (t : Task), k'.tasks[id]? = some t →
      id = k.nextId ∨ ∃ t', k.tasks[id]? = some t') : Numbered k' := by
  have hr : k.nextTask.toNat ≤ 255 := hroom
  have hsucc : (k.nextTask + 1).toNat = k.nextTask.toNat + 1 := by
    rw [UInt32.toNat_add]
    simp only [UInt32.toNat_ofNat]
    omega
  refine ⟨?_, fun id t ht => ?_⟩
  · rw [hnext, UInt32.le_iff_toNat_le, hsucc]
    show _ ≤ 256
    omega
  · rw [hnext]
    rcases htasks id t ht with rfl | ⟨t', ht'⟩
    · refine ⟨k.nextTask, ?_, rfl⟩
      rw [UInt32.lt_iff_toNat_lt, hsucc]
      omega
    · obtain ⟨n, hn, heq⟩ := h.2 id t' ht'
      refine ⟨n, ?_, heq⟩
      rw [UInt32.lt_iff_toNat_lt] at hn ⊢
      omega

/-- What the start of the kernel sets besides its tasks: its own addresses, and the region 0. -/
def Prepared (k k' : Kernel) : Prop :=
  ∃ kernelConfig pageTable pageTaskWord returnEntry regions,
    k' = { k with kernelConfig, pageTable, pageTaskWord, returnEntry, regions } ∧
      ∀ id : UInt32, id ≠ 0 → regions[id]? = k.regions[id]?

theorem allocate_prepared (k : Kernel) (bytes : UInt32) : Prepared k (k.allocate 0 bytes).1 := by
  unfold Kernel.allocate
  split
  · exact ⟨_, _, _, _, _, rfl, fun _ _ => rfl⟩
  · split
    · exact ⟨_, _, _, _, _, rfl, fun _ _ => rfl⟩
    · exact ⟨_, _, _, _, _, rfl, fun id hid => get_insert_ne _ _ hid⟩

namespace Blank

variable {k k' : Kernel}

/-- What touches no table but the region 0 keeps the kernel blank. -/
theorem of_eq (h : Blank k) (htasks : k'.tasks = k.tasks) (hnext : k'.nextTask = k.nextTask)
    (hregions : ∀ id : UInt32, id ≠ 0 → k'.regions[id]? = k.regions[id]?)
    (hsems : k'.semaphores = k.semaphores) (hqueues : k'.queues = k.queues) : Blank k' where
  keyed := by
    unfold Keyed
    rw [htasks]
    exact h.keyed
  numbered := by
    unfold Numbered
    rw [htasks, hnext]
    exact h.numbered
  fresh := by
    rw [htasks]
    exact h.fresh
  regions id hid := (hregions id hid).trans (h.regions id hid)
  semaphores := by
    rw [hsems]
    exact h.semaphores
  queues := by
    rw [hqueues]
    exact h.queues

theorem scheduled (h : Blank k) (hs : Scheduled k k') : Blank k' where
  keyed := scheduled_keyed hs h.keyed
  numbered := by
    unfold Numbered
    rw [hs.frame.nextTask (by simp)]
    refine ⟨h.numbered.1, fun id t' ht' => ?_⟩
    obtain ⟨t, ht, -⟩ := hs.tasks.after ht'
    exact h.numbered.2 id t ht
  fresh id t' ht' := by
    obtain ⟨t, ht, -, hw, -, hsus, hst⟩ := hs.tasks.after ht'
    obtain ⟨fsus, fw, fst⟩ := h.fresh id t ht
    refine ⟨hsus.trans fsus, hw.trans fw, ?_⟩
    rcases hst with hst | ⟨-, hst⟩
    · rwa [hst]
    · exact Or.inr hst
  regions id hid := by
    rw [hs.frame.regions (by simp)]
    exact h.regions id hid
  semaphores := by
    rw [(hs.frame.semaphores (by simp)).1]
    exact h.semaphores
  queues := by
    rw [(hs.frame.queues (by simp)).1]
    exact h.queues

theorem setTask (h : Blank k) {id : UInt32} {t t' : Task} (ht : k.tasks[id]? = some t)
    (hid : t'.id = t.id) (hf : t'.fresh) : Blank (k.setTask id t') where
  keyed a u hu := by
    simp only [Kernel.setTask, get_insert] at hu
    split at hu
    · next ha =>
      obtain rfl : t' = u := by simpa using hu
      rw [ha]
      exact hid.trans (h.keyed id t ht)
    · exact h.keyed a u hu
  numbered := by
    refine ⟨h.numbered.1, fun a u hu => ?_⟩
    simp only [Kernel.setTask, get_insert] at hu
    split at hu
    · next ha =>
      rw [ha]
      exact h.numbered.2 id t ht
    · exact h.numbered.2 a u hu
  fresh a u hu := by
    simp only [Kernel.setTask, get_insert] at hu
    split at hu
    · obtain rfl : t' = u := by simpa using hu
      exact hf
    · exact h.fresh a u hu
  regions := h.regions
  semaphores := h.semaphores
  queues := h.queues

theorem prepared (h : Blank k) (hp : Prepared k k') : Blank k' := by
  obtain ⟨_, _, _, _, _, rfl, hregions⟩ := hp
  exact h.of_eq rfl rfl hregions rfl rfl

theorem allocate (h : Blank k) (bytes : UInt32) : Blank (k.allocate 0 bytes).1 :=
  h.prepared (allocate_prepared k bytes)

theorem allocateStack (h : Blank k) (size : UInt32) : Blank (k.allocateStack size).1 := by
  unfold Kernel.allocateStack
  split
  · exact h
  · exact h.allocate size

variable [GuestBus β]

theorem start (h : Blank k) (id mode pc : UInt32) (args : List UInt32) (bus : β) :
    Blank (k.start id mode pc args bus).1 := by
  cases hs : k.startable id mode pc with
  | false =>
    rw [(Kernel.start_unstartable hs args bus).1]
    exact h
  | true =>
    obtain ⟨-, t, top, ht, hk⟩ := Kernel.start_startable hs args bus
    obtain ⟨fsus, fw, -⟩ := h.fresh _ t ht
    rw [hk]
    exact h.setTask ht rfl ⟨fsus, fw, Or.inr (Or.inl rfl)⟩

theorem create (h : Blank k) (name priority user superSize vbr : UInt32) (bus : β) :
    Blank (k.create name priority user superSize bus vbr).1 := by
  have hreserve : k.nextTask ≤ 255 → Blank (k.reserve user superSize) := by
    intro hroom
    have hnext : Blank { k with nextTask := k.nextTask + 1 } :=
      { h with
        numbered := numbered_next h.numbered hroom rfl fun id t ht => Or.inr ⟨t, ht⟩ }
    exact (hnext.allocateStack user).allocateStack superSize
  rcases k.create_cases name priority user superSize vbr bus with hk | ⟨hroom, hk | ⟨t, ht, hsus, hk⟩⟩
  · rw [hk]
    exact h
  · rw [hk]
    exact hreserve hroom
  · have hb := hreserve hroom
    obtain ⟨regions, hr⟩ := k.reserve_frame user superSize
    obtain ⟨hid, hst, hw, -⟩ : t.id = k.nextId ∧ t.state = .created ∧ t.wait = .none ∧
        t.waitObject = 0 := by
      simpa only [Task.core, Core.mk.injEq] using ht
    have hget : ∀ a : UInt32, ((k.reserve user superSize).setTask k.nextId t).tasks[a]? =
        if a = k.nextId then some t else k.tasks[a]? := by
      intro a
      rw [Kernel.setTask, hr]
      exact get_insert k.tasks k.nextId a t
    rw [hk]
    refine
      { keyed := fun a u hu => ?_, numbered := ?_, fresh := fun a u hu => ?_, regions := hb.regions
        semaphores := hb.semaphores, queues := hb.queues }
    · rw [hget] at hu
      split at hu
      · next ha =>
        obtain rfl : t = u := by simpa using hu
        rw [ha]
        exact hid
      · exact h.keyed a u hu
    · refine numbered_next h.numbered hroom ?_ fun a u hu => ?_
      · rw [Kernel.setTask, hr]
      · rw [hget] at hu
        split at hu
        · next ha => exact Or.inl ha
        · exact Or.inr ⟨u, hu⟩
    · rw [hget] at hu
      split at hu
      · obtain rfl : t = u := by simpa using hu
        exact ⟨hsus, hw, Or.inl hst⟩
      · exact h.fresh a u hu

end Blank

namespace Kernel

variable [GuestBus β]

section Rule

variable {P : Kernel → Prop} (hprepare : ∀ k k', Prepared k k' → P k → P k')
  (hcreate : ∀ (k : Kernel) (name priority user superSize vbr : UInt32) (bus : β), P k →
    P (k.create name priority user superSize bus vbr).1)
  (hstart : ∀ (k : Kernel) (id mode pc : UInt32) (args : List UInt32) (bus : β), P k →
    P (k.start id mode pc args bus).1)

include hcreate hstart in
theorem startSystemTasks_keeps {k : Kernel} (h : P k) (idle : UInt32) (cpu : CpuCore φ) (bus : β) :
    P (k.startSystemTasks idle cpu bus).1 := by
  unfold startSystemTasks
  dsimp only
  have htasks := hcreate _ 0x49444c45 0 (configWord bus k.kernelConfig 0x40) 0 cpu.vbr bus
    (hcreate k 0x524f4f54 255 (configWord bus k.kernelConfig 0x40)
      (configWord bus k.kernelConfig 0x44) cpu.vbr bus h)
  split
  · exact htasks
  · split
    · exact hstart _ _ _ _ _ _ htasks
    · split
      · exact hstart _ _ _ _ _ _ (hstart _ _ _ _ _ _ htasks)
      · exact hstart _ _ _ _ _ _ (hstart _ _ _ _ _ _ htasks)

include hprepare hcreate hstart in
theorem startMemory_keeps {k : Kernel} (h : P k) (cpu : CpuCore φ) (bus : β) :
    P (k.startMemory cpu bus).1 := by
  unfold startMemory
  dsimp only
  split
  · exact h
  · have hrn0 : P (k.withRn0 (configWord bus k.kernelConfig 4) (configWord bus k.kernelConfig 8)
        (max (configWord bus k.kernelConfig 12) 1)) :=
      hprepare _ _ ⟨_, _, _, _, _, rfl, fun id hid => get_insert_ne _ _ hid⟩ h
    have hglue := hprepare _ _ (allocate_prepared _ 32) hrn0
    have hidle : ∀ entry, P (allocate { (allocate _ 0 32).1 with returnEntry := entry } 0 8).1 :=
      fun _ => hprepare _ _ (allocate_prepared _ 8)
        (hprepare _ _ ⟨_, _, _, _, _, rfl, fun _ _ => rfl⟩ hglue)
    split
    · exact hidle _
    · exact startSystemTasks_keeps hcreate hstart (hidle _) _ _ _

include hprepare hcreate hstart in
/-- What the parts of the start keep, the start keeps, however far it gets. -/
theorem setUp_keeps {k : Kernel} (h : P k) (cpu : CpuCore φ) (bus : β) :
    P (k.setUp cpu bus).1 := by
  unfold setUp
  split
  · exact h
  · next config _ =>
    have hconfig : P { k with kernelConfig := config } :=
      hprepare _ _ ⟨_, _, _, _, _, rfl, fun _ _ => rfl⟩ h
    dsimp only
    split
    · exact hconfig
    · next pageTable pageTaskWord _ =>
      have hpage : P { k with kernelConfig := config, pageTable, pageTaskWord } :=
        hprepare _ _ ⟨_, _, _, _, _, rfl, fun _ _ => rfl⟩ h
      split
      · exact hpage
      · exact startMemory_keeps hprepare hcreate hstart hpage cpu bus

end Rule

theorem setUp_blank {k : Kernel} (h : Blank k) (cpu : CpuCore φ) (bus : β) :
    Blank (k.setUp cpu bus).1 :=
  setUp_keeps (fun _ _ hp hk => hk.prepared hp) (fun _ _ _ _ _ _ _ hk => hk.create _ _ _ _ _ _)
    (fun _ _ _ _ _ _ hk => hk.start _ _ _ _ _) h cpu bus

/-- A start that succeeds leaves a task to run. -/
theorem startSystemTasks_ready {k : Kernel} (h : Blank k) (idle : UInt32) (cpu : CpuCore φ)
    (bus : β)
    (hok : (k.startSystemTasks idle cpu bus).2.2 = none) :
    ∃ t ∈ values (k.startSystemTasks idle cpu bus).1.tasks, t.runnable := by
  unfold startSystemTasks at hok ⊢
  dsimp only at hok ⊢
  have hidle := (h.create 0x524f4f54 255 (configWord bus k.kernelConfig 0x40)
    (configWord bus k.kernelConfig 0x44) cpu.vbr bus).create 0x49444c45 0
      (configWord bus k.kernelConfig 0x40) 0 cpu.vbr bus
  split
  · next hcodes => rw [if_pos hcodes] at hok; cases hok
  · next hcodes =>
    rw [if_neg hcodes] at hok
    split
    · next hroot => rw [if_pos hroot] at hok; cases hok
    · next hroot =>
      rw [if_neg hroot] at hok
      split
      · next hcode => rw [if_pos hcode] at hok; cases hok
      · next hcode =>
        rw [not_not] at hcode
        cases hs : startable _ _ _ _ with
        | false =>
          refine absurd hcode ?_
          exact (@start_unstartable β _ _ _ _ _ hs _ _).2
        | true =>
          obtain ⟨-, t, top, ht, hk⟩ := @start_startable β _ _ _ _ _ hs [0, 0, 0, 0] _
          dsimp only
          rw [hk]
          refine ⟨_, value_mem TreeMap.getElem?_insert_self, runnable_iff.mpr ⟨?_, Or.inl rfl⟩⟩
          exact ((hidle.start _ _ _ _ _).fresh _ t ht).1

theorem startMemory_ready {k : Kernel} (h : Blank k) (cpu : CpuCore φ) (bus : β)
    (hok : (k.startMemory cpu bus).2.2 = none) :
    ∃ t ∈ values (k.startMemory cpu bus).1.tasks, t.runnable := by
  unfold startMemory at hok ⊢
  dsimp only at hok ⊢
  split
  · next hn => rw [if_pos hn] at hok; cases hok
  · next hn =>
    rw [if_neg hn] at hok
    have hrn0 : Blank (k.withRn0 (configWord bus k.kernelConfig 4) (configWord bus k.kernelConfig 8)
        (max (configWord bus k.kernelConfig 12) 1)) :=
      h.of_eq rfl rfl (fun id hid => get_insert_ne _ _ hid) rfl rfl
    have hglue := hrn0.allocate 32
    split
    · next hn => rw [if_pos hn] at hok; cases hok
    · next hn =>
      rw [if_neg hn] at hok
      refine startSystemTasks_ready ?_ _ _ _ hok
      apply Blank.allocate
      exact hglue.of_eq rfl rfl (fun _ _ => rfl) rfl rfl

theorem setUp_ready {k : Kernel} (h : Blank k) (cpu : CpuCore φ) (bus : β)
    (hok : (k.setUp cpu bus).2.2 = none) :
    ∃ t ∈ values (k.setUp cpu bus).1.tasks, t.runnable := by
  unfold setUp at hok ⊢
  split
  · next he => rw [he] at hok; cases hok
  · next config hconfig =>
    rw [hconfig] at hok
    dsimp only at hok ⊢
    split
    · next he => rw [he] at hok; cases hok
    · next he =>
      rw [he] at hok
      dsimp only at hok
      split
      · next hn => rw [if_pos hn] at hok; cases hok
      · next hn =>
        rw [if_neg hn] at hok
        refine startMemory_ready ?_ _ _ hok
        exact h.of_eq rfl rfl (fun _ _ => rfl) rfl rfl

/-! The parts of the kernel that its start sets. -/

theorem setUp_frame (k : Kernel) (cpu : CpuCore φ) (bus : β) :
    Frame [.tasks, .nextTask, .regions] k (k.setUp cpu bus).1 := by
  refine setUp_keeps (P := Frame [.tasks, .nextTask, .regions] k) ?_ ?_ ?_ (.refl _ _) cpu bus
  · rintro k1 k2 ⟨_, _, _, _, _, rfl, -⟩ h
    exact h.trans (by constructor <;> simp)
  · intro k1 name priority user superSize vbr bus h
    exact h.trans (k1.create_frame name priority user superSize vbr bus)
  · intro k1 id mode pc args bus h
    exact h.trans ((k1.start_frame id mode pc args bus).mono (by simp))

end Kernel

end OpenSaab.Psos
