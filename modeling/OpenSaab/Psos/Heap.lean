import OpenSaab.Psos.Regions

/-!
# The heap

Every live region is the extent that it was made with, cut into blocks that are free or in use.
-/

namespace OpenSaab.Psos

open Std OpenSaab.Table OpenSaab.Runs OpenSaab.Blocks

variable {φ β : Type}

/-! ## The extents that a history gives -/

/-- The latest extent of a region. -/
def extentOf (l : List (UInt32 × Nat × Nat)) (id : UInt32) : Option (Nat × Nat) :=
  (l.reverse.find? fun p => p.1 == id).map Prod.snd

theorem extentOf_append (l : List (UInt32 × Nat × Nat)) (id id' : UInt32) (extent : Nat × Nat) :
    extentOf (l ++ [(id, extent)]) id' = if id' = id then some extent else extentOf l id' := by
  unfold extentOf
  rw [List.reverse_append, List.reverse_singleton, List.singleton_append, List.find?_cons]
  by_cases h : id' = id
  · simp [h]
  · have hne : (id == id') = false := by simpa using Ne.symm h
    simp [h, hne]

/-- Every live region lies within its extent. -/
def Laid (l : List (UInt32 × Nat × Nat)) (k : Kernel) : Prop :=
  ∀ (id : UInt32) (r : Region), k.regions[id]? = some r →
    ∃ lo hi, extentOf l id = some (lo, hi) ∧ r.Within lo hi

variable {l : List (UInt32 × Nat × Nat)} {k k' : Kernel}

theorem laid_of_eq (h : Laid l k) (heq : k'.regions = k.regions) : Laid l k' := by
  intro id r hr
  rw [heq] at hr
  exact h id r hr

/-- A region changes within its extent. -/
theorem laid_update (h : Laid l k) {id : UInt32} {r r' : Region} (hr : k.regions[id]? = some r)
    (hwithin : ∀ {lo hi}, r.Within lo hi → r'.Within lo hi)
    (heq : k'.regions = k.regions.insert id r') : Laid l k' := by
  intro id' r0 hr0
  rw [heq, get_insert] at hr0
  split at hr0
  · next hid =>
    obtain rfl := Option.some.inj hr0
    subst hid
    obtain ⟨lo, hi, hextent, hold⟩ := h id' r hr
    exact ⟨lo, hi, hextent, hwithin hold⟩
  · exact h id' r0 hr0

/-- A region is made. -/
theorem laid_made (h : Laid l k) {id : UInt32} {r : Region} {lo hi : Nat} (hr : r.Within lo hi)
    (heq : k'.regions = k.regions.insert id r) : Laid (l ++ [(id, lo, hi)]) k' := by
  intro id' r0 hr0
  rw [extentOf_append]
  rw [heq, get_insert] at hr0
  split at hr0
  · next hid =>
    obtain rfl := Option.some.inj hr0
    exact ⟨lo, hi, if_pos hid, hr⟩
  · next hid =>
    rw [if_neg hid]
    exact h id' r0 hr0

theorem laid_erase (h : Laid l k) {id : UInt32} (heq : k'.regions = k.regions.erase id) :
    Laid l k' := by
  intro id' r hr
  rw [heq, get_erase] at hr
  split at hr
  · cases hr
  · exact h id' r hr

theorem Allocates.laid (h : Allocates k k') (hl : Laid l k) : Laid l k' := by
  induction h with
  | same heq => exact laid_of_eq hl heq
  | take hr hfree hn hle heq => exact laid_update hl hr (fun h => h.take hfree hn hle) heq
  | trans _ _ ih ih' => exact ih' (ih hl)

/-! ## The start -/

variable [M68k φ] [GuestBus β]

/-- The base and the size of RN0, if an action makes it. -/
def started (m : Machine φ β) : Action φ β → Option (UInt32 × UInt32)
  | .instruction =>
    if m.kernel.active = false ∧ m.scanned.kernelEntry ≠ 0 ∧ m.cpu.pc = m.scanned.kernelEntry then
      m.scanned.rn0 m.bus
    else none
  | _ => none

def rn0Extent (made : Option (UInt32 × UInt32)) : List (UInt32 × Nat × Nat) :=
  made.toList.map fun p => (0, p.1.toNat, p.1.toNat + p.2.toNat)

/-- The extents of the regions that a step makes. -/
def opened (m : Machine φ β) (a : Action φ β) : List (UInt32 × Nat × Nat) :=
  match called m a with
  | some .rnCreate =>
    if (performed m .rnCreate).2 = 0 then
      [((performed m .rnCreate).1.reg 1, (m.reg 9).toNat, (m.reg 9).toNat + (m.reg 2).toNat)]
    else []
  | some _ => []
  | none => rn0Extent (started m a)

theorem Kernel.SetUp.of_eq {extent : Option (UInt32 × UInt32)} {k k' k'' : Kernel}
    (h : Kernel.SetUp k k' extent) (heq : k''.regions = k'.regions) :
    Kernel.SetUp k k'' extent := by
  cases h with
  | stopped h => exact .stopped (heq.trans h)
  | rn0 hrange hsize h h0 => exact .rn0 hrange hsize (h.trans (.same heq)) h0

/-- While the kernel is not active, only its start makes a region. -/
theorem instruction_setUp {m : Machine φ β} (hwf : WF m.kernel) (ha : m.kernel.active = false) :
    Kernel.SetUp m.kernel (step m .instruction).kernel (started m .instruction) := by
  have hframe := scanned_frame m
  have hactive : m.scanned.active = false := hframe.active.trans ha
  let m1 : Machine φ β := { m with kernel := m.scanned }
  have hstep : step m .instruction =
      if ¬ m1.kernel.active ∧ m1.kernel.kernelEntry ≠ 0 ∧ m1.cpu.pc = m1.kernel.kernelEntry then
        m1.initializeKernel
      else if m1.kernel.active then m1.hostTick.schedule false
      else m1 := m.beforeInstruction_eq
  have hentry : (¬ m1.kernel.active ∧ m1.kernel.kernelEntry ≠ 0 ∧
      m1.cpu.pc = m1.kernel.kernelEntry) ↔ m.kernel.active = false ∧ m.scanned.kernelEntry ≠ 0 ∧
        m.cpu.pc = m.scanned.kernelEntry := by
    simp [m1, hactive, ha]
  rw [hstep]
  unfold started
  by_cases h : m.kernel.active = false ∧ m.scanned.kernelEntry ≠ 0 ∧
      m.cpu.pc = m.scanned.kernelEntry
  · rw [if_pos (hentry.mpr h), if_pos h]
    obtain ⟨-, -, hregions⟩ :=
      @initialize_blank _ _ _ _ m1 (blank_frame (hwf.blank ha) hframe) hactive
    have hsetUp := (m.scanned.setUp_cases m.cpu m.bus).of_eq hregions
    generalize m.scanned.rn0 m.bus = extent at hsetUp
    cases hsetUp with
    | stopped heq => exact .stopped (heq.trans (hframe.regions (by simp)))
    | rn0 hrange hsize hallocates h0 =>
      exact .rn0 hrange hsize hallocates (h0.trans (hframe.regions (by simp)))
  · rw [if_neg (fun hc => h (hentry.mp hc)), if_neg h, if_neg (by simp [m1, hactive])]
    exact .stopped (hframe.regions (by simp))

theorem setUp_laid {extent : Option (UInt32 × UInt32)} (h : Kernel.SetUp k k' extent)
    (hl : Laid l k) :
    Laid (l ++ rn0Extent extent) k' := by
  cases h with
  | stopped heq =>
    show Laid (l ++ []) k'
    rw [List.append_nil]
    exact laid_of_eq hl heq
  | @rn0 k0 base size unit hrange hsize hallocates h0 =>
    refine hallocates.laid (laid_made (laid_of_eq hl h0) ?_ rfl)
    exact Region.within_new _ _ hsize (Nat.lt_of_le_of_lt hrange.2 (by decide))

/-! ## Services -/

/-- What a service does to the regions keeps them within their extents. -/
theorem performed_laid (m : Machine φ β) (hl : Laid l m.kernel) (s : Service) :
    Laid (l ++ if s = .rnCreate ∧ (performed m .rnCreate).2 = 0 then
      [((performed m .rnCreate).1.reg 1, (m.reg 9).toNat, (m.reg 9).toNat + (m.reg 2).toNat)]
      else []) (performed m s).1.kernel := by
  have hcount : Laid l m.counted.kernel := hl
  by_cases hcreate : s = .rnCreate
  · subst hcreate
    by_cases hargs : CreateArgs m.counted
    · obtain ⟨hstatus, hid, r, hr, hregions⟩ := rnCreate_accepted hargs
      have hstatus' : (performed m .rnCreate).2 = 0 := hstatus
      have hid' : (performed m .rnCreate).1.reg 1 = UInt32.ofNat m.kernel.regions.size := hid
      rw [if_pos ⟨rfl, hstatus'⟩, hid']
      exact laid_made hcount hr hregions
    · obtain ⟨hkernel, hstatus⟩ := rnCreate_refused hargs
      rw [if_neg (fun h => hstatus h.2), List.append_nil]
      exact laid_of_eq hcount (congrArg Kernel.regions hkernel)
  · rw [if_neg (fun h => hcreate h.1), List.append_nil]
    by_cases hn : .regions ∉ s.touches
    · exact laid_of_eq hl ((performed_frame m s).regions hn)
    · rw [not_not] at hn
      cases s with
      | tCreate =>
        exact (m.counted.kernel.create_allocates (m.reg 1) (m.reg 2) (m.reg 3) (m.reg 4) m.cpu.vbr
          m.bus).laid hcount
      | rnCreate => exact absurd rfl hcreate
      | rnDelete =>
        show Laid l m.counted.rnDelete.1.kernel
        unfold Machine.rnDelete
        split
        · exact hcount
        · exact laid_erase hcount rfl
      | rnGetseg => exact (m.counted.kernel.allocate_allocates (m.reg 1) (m.reg 3)).laid hcount
      | rnRetseg =>
        show Laid l m.counted.rnRetseg.1.kernel
        unfold Machine.rnRetseg
        split
        · exact hcount
        · next r hr =>
          split
          · exact hcount
          · next size hused => exact laid_update hcount hr (fun h => h.release hused) rfl
      | _ => exact absurd hn (by simp [Service.touches])

/-! ## Runs -/

theorem step_laid {m : Machine φ β} (hwf : WF m.kernel) (hl : Laid l m.kernel) (a : Action φ β) :
    Laid (l ++ opened m a) (step m a).kernel := by
  have hsilent : called m a = none → started m a = none → opened m a = [] := by
    intro hcalled hstarted
    simp [opened, hcalled, hstarted, rn0Extent]
  by_cases hstart : a = .instruction ∧ m.kernel.active = false
  · obtain ⟨rfl, ha⟩ := hstart
    exact setUp_laid (instruction_setUp hwf ha) hl
  · have hstarted : started m a = none := by
      cases a with
      | instruction =>
        refine if_neg fun h => hstart ⟨rfl, h.1⟩
      | _ => rfl
    cases region_step hwf a with
    | service s hcalled ha h hsame =>
      have hopened : opened m a = if s = .rnCreate ∧ (performed m .rnCreate).2 = 0 then
          [((performed m .rnCreate).1.reg 1, (m.reg 9).toNat, (m.reg 9).toNat + (m.reg 2).toNat)]
          else [] := by
        unfold opened
        rw [hcalled]
        cases s <;> simp
      rw [hopened]
      exact laid_of_eq (performed_laid m hl s) hsame
    | rest hcalled h =>
      rw [hsilent hcalled hstarted, List.append_nil]
      exact laid_of_eq hl h
    | start hcalled ha hblank h =>
      rw [hsilent hcalled hstarted, List.append_nil]
      cases a with
      | instruction => exact absurd ⟨rfl, ha⟩ hstart
      | guest cpu bus => exact hl
      | trap number fileResult =>
        have hsame : step m (.trap number fileResult) = m := by simp [step, Machine.trap, ha]
        rwa [hsame]

theorem run_laid {m : Machine φ β} (hwf : WF m.kernel) (hl : Laid l m.kernel)
    (acts : List (Action φ β)) : Laid (l ++ log step opened m acts) (run step m acts).kernel := by
  induction acts generalizing l m with
  | nil => simpa [log] using hl
  | cons a acts ih =>
    have hstep := ih (wf_step hwf a) (step_laid hwf hl a)
    simpa [log] using hstep

/-- In every region of every kernel that a run reaches, the free blocks and the segments in use
tile the extent that the region was made with, and no byte belongs to two segments. -/
theorem heap_partitioned (cpu : CpuCore φ) (bus : β) (acts : List (Action φ β)) (id : UInt32)
    (r : Region) :
    (run step (reset cpu bus) acts).kernel.regions[id]? = some r →
      ∃ lo hi, extentOf (log step opened (reset cpu bus) acts) id = some (lo, hi) ∧
        Tiles lo hi r.block ∧ (∀ base : UInt32, base ∈ r.free → base ∉ r.used) ∧
          ∀ (x : Nat) (b s b' s' : UInt32), r.used[b]? = some s → r.used[b']? = some s' →
            b.toNat ≤ x ∧ x < b.toNat + s.toNat → b'.toNat ≤ x ∧ x < b'.toNat + s'.toNat →
              b = b' := by
  intro hr
  have hstart : Laid [] (reset cpu bus).kernel := fun id r hr => by simp [reset] at hr
  obtain ⟨lo, hi, hextent, hwithin⟩ := run_laid (wf_reset cpu bus) hstart acts id r hr
  refine ⟨lo, hi, hextent, hwithin.tiles, hwithin.separate, ?_⟩
  intro x b s b' s' hused hused' hx hx'
  have hapart := hwithin.tiles.apart (Region.block_used hused) (Region.block_used hused')
  rcases hapart with ⟨heq, -⟩ | hapart | hapart
  · exact UInt32.toNat.inj heq
  · omega
  · omega

/-- ROOT makes region 1 and gets a segment from it. -/
def firstSegment : List (List (Fin 16 × UInt32)) :=
  [[(0, 0xe), (1, 1), (2, 0x100), (3, 16), (9, 0x180000)], [(0, 0x11), (1, 1), (3, 20)]]

def segmentRun : List (Action UInt16 Board) := .instruction :: script booted firstSegment

theorem first_region_partitioned :
    ∃ r : Region, (run step (reset bootCpu bootBoard) segmentRun).kernel.regions[(1 : UInt32)]? =
      some r ∧ ∃ lo hi,
        extentOf (log step opened (reset bootCpu bootBoard) segmentRun) 1 = some (lo, hi) ∧
          Tiles lo hi r.block ∧ (∀ base : UInt32, base ∈ r.free → base ∉ r.used) ∧
            ∀ (x : Nat) (b s b' s' : UInt32), r.used[b]? = some s → r.used[b']? = some s' →
              b.toNat ≤ x ∧ x < b.toNat + s.toNat → b'.toNat ≤ x ∧ x < b'.toNat + s'.toNat →
                b = b' := by
  have hrun : run step (reset bootCpu bootBoard) segmentRun = firstSegment.foldl serve booted := by
    unfold segmentRun
    rw [run_cons, ← booted, run_script]
  have hlive : (1 : UInt32) ∈ (firstSegment.foldl serve booted).kernel.regions := by
    rw [booted_eq]
    decide +kernel
  rw [TreeMap.mem_iff_isSome_getElem?, ← hrun] at hlive
  obtain ⟨r, hr⟩ := Option.isSome_iff_exists.mp hlive
  exact ⟨r, hr, heap_partitioned bootCpu bootBoard segmentRun 1 r hr⟩

end OpenSaab.Psos
