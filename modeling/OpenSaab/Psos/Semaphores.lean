import OpenSaab.Psos.Registration

/-!
# Conservation of units

A unit of a semaphore is in its count, or was given to a caller of `sm_p`. This holds as long as the
tasks that wait for units are left to wait: see `Orderly`.
-/

namespace OpenSaab.Psos

open Std OpenSaab.Table OpenSaab.Runs

variable {φ β : Type}

/-! ## What the services do -/

/-- The count after a unit came that nobody waited for. -/
def Semaphore.counted (s : Semaphore) : Semaphore :=
  { s with count := if s.count.toNat + 1 < 2 ^ 32 then s.count + 1 else s.count }

/-- Nobody is registered as waiting for a unit of this semaphore. -/
def Unawaited (k : Kernel) (sem : UInt32) : Prop :=
  ∀ (id : UInt32) (t : Task), k.tasks[id]? = some t → t.wait = .semaphore → t.waitObject ≠ sem

theorem post_gone {k : Kernel} {sem : UInt32} (hs : k.semaphores[sem]? = none) :
    k.post sem = (k, 5) := by
  unfold Kernel.post
  rw [hs]

/-- A post serves a waiter, or else counts. -/
theorem post_cases {k : Kernel} (hk : Keyed k) {sem : UInt32} {s : Semaphore}
    (hs : k.semaphores[sem]? = some s) :
    (∃ t : Task, k.tasks[t.id]? = some t ∧ t.wait = .semaphore ∧ t.waitObject = sem ∧
        k.post sem = (k.setTask t.id (t.wake 0), 0)) ∨
      Unawaited k sem ∧
        k.post sem = ({ k with semaphores := k.semaphores.insert sem s.counted }, 0) := by
  unfold Kernel.post
  rw [hs]
  dsimp only
  cases hw : highest (k.waiters .semaphore sem) with
  | none =>
    refine Or.inr ⟨fun id t ht hwait hobj => ?_, rfl⟩
    have hmem : t ∈ k.waiters .semaphore sem := Kernel.mem_waiters.mpr ⟨value_mem ht, hwait, hobj⟩
    rw [highest_eq_none.mp hw] at hmem
    cases hmem
  | some best =>
    obtain ⟨id, priority⟩ := best
    obtain ⟨t, hmem, rfl, -⟩ := highest_mem hw
    obtain ⟨hv, hwait, hobj⟩ := Kernel.mem_waiters.mp hmem
    have ht := Kernel.get_of_mem_values hk hv
    refine Or.inl ⟨t, ht, hwait, hobj, ?_⟩
    simp only [ht, Kernel.setTask]

/-- All that a service can do to a semaphore. -/
inductive UnitChange (m : Machine φ β) (o : UInt32) (after : Option Semaphore) :
    Service → Prop where
  | same {s : Service} (h : after = m.kernel.semaphores[o]?) : UnitChange m o after s
  | made (ho : o = m.kernel.nextObject) (h : after = some ⟨m.reg 1, m.reg 2⟩) :
      UnitChange m o after .smCreate
  | gone (ho : o = m.reg 1) (h : after = none) : UnitChange m o after .smDelete
  | taken {v : Semaphore} (ho : o = m.reg 1) (hv : m.kernel.semaphores[o]? = some v)
      (hcount : v.count ≠ 0) (h : after = some { v with count := v.count - 1 }) :
      UnitChange m o after .smP
  | given {v : Semaphore} (ho : o = m.reg 1) (hv : m.kernel.semaphores[o]? = some v)
      (hn : Unawaited m.kernel o) (h : after = some v.counted) : UnitChange m o after .smV

theorem smCreate_change (m : Machine φ β) (o : UInt32) :
    UnitChange m o m.smCreate.1.kernel.semaphores[o]? .smCreate := by
  unfold Machine.smCreate
  split
  · exact .same rfl
  · by_cases ho : o = m.kernel.nextObject
    · subst ho
      exact .made rfl TreeMap.getElem?_insert_self
    · exact .same (get_insert_ne _ _ ho)

theorem smDelete_change (m : Machine φ β) (o : UInt32) :
    UnitChange m o m.smDelete.1.kernel.semaphores[o]? .smDelete := by
  unfold Machine.smDelete
  split
  · exact .same rfl
  · by_cases ho : o = m.reg 1
    · subst ho
      exact .gone rfl TreeMap.getElem?_erase_self
    · refine .same ?_
      simp only [get_erase, if_neg ho]

theorem smP_change (m : Machine φ β) (o : UInt32) :
    UnitChange m o m.smP.1.kernel.semaphores[o]? .smP := by
  unfold Machine.smP
  split
  · exact .same rfl
  · next v hv =>
    split
    · next hcount =>
      by_cases ho : o = m.reg 1
      · subst ho
        exact .taken rfl hv hcount TreeMap.getElem?_insert_self
      · exact .same (get_insert_ne _ _ ho)
    · split
      · exact .same rfl
      · refine .same ?_
        rw [((m.kernel.block_frame _ _ _).semaphores (by simp)).1]

theorem smV_change {m : Machine φ β} (hk : Keyed m.kernel) (o : UInt32) :
    UnitChange m o m.smV.1.kernel.semaphores[o]? .smV := by
  have hpost : m.smV.1.kernel = (m.kernel.post (m.reg 1)).1 := rfl
  rw [hpost]
  cases hv : m.kernel.semaphores[m.reg 1]? with
  | none =>
    rw [post_gone hv]
    exact .same rfl
  | some v =>
    rcases post_cases hk hv with ⟨t, -, -, -, heq⟩ | ⟨hnone, heq⟩
    · rw [heq]
      exact .same rfl
    · rw [heq]
      by_cases ho : o = m.reg 1
      · subst ho
        exact .given rfl hv hnone TreeMap.getElem?_insert_self
      · exact .same (get_insert_ne _ _ ho)

theorem performed_change [M68k φ] [GuestBus β] {m : Machine φ β} (hk : Keyed m.kernel) (s : Service)
    (o : UInt32) : UnitChange m o (performed m s).1.kernel.semaphores[o]? s := by
  by_cases hn : .semaphores ∉ s.touches
  · exact .same (by rw [((performed_frame m s).semaphores hn).1])
  · rw [not_not] at hn
    cases s with
    | smCreate =>
      cases smCreate_change m.counted o with
      | same h => exact .same h
      | made ho h => exact .made ho h
    | smDelete =>
      cases smDelete_change m.counted o with
      | same h => exact .same h
      | gone ho h => exact .gone ho h
    | smP =>
      cases smP_change m.counted o with
      | same h => exact .same h
      | taken ho hv hcount h => exact .taken ho hv hcount h
    | smV =>
      have hk' : Keyed m.counted.kernel := hk
      cases smV_change hk' o with
      | same h => exact .same h
      | given ho hv hnone h => exact .given ho hv hnone h
    | _ => exact absurd hn (by simp [Service.touches])

/-! ## The invariant -/

/-- The tasks that wait for a unit are registered, and there is no unit for them. -/
structure UnitsOwed (k : Kernel) : Prop where
  registered : Registered .semaphore k
  empty : ∀ (id : UInt32) (t : Task), k.tasks[id]? = some t → t.wait = .semaphore →
    ∀ s, k.semaphores[t.waitObject]? = some s → s.count = 0

/-- A new semaphore gets an identifier that is not in use. -/
def FreshSemaphore (k : Kernel) : Prop :=
  k.nextObject ∉ k.semaphores ∧ ∀ (id : UInt32) (t : Task), k.tasks[id]? = some t →
    t.waitsOn .semaphore k.nextObject = false

/-- No waiter is started or deleted, a task that is to wait leaves the CPU to another, and new
semaphores are fresh. -/
def UnitsOrderly (m : Machine φ β) (a : Action φ β) : Prop :=
  ∀ s, called m a = some s →
    Orderly .semaphore m (m.change s) ∧ (s = .smCreate → FreshSemaphore m.kernel)

theorem unitsOwed_unawaited {k : Kernel} (h : UnitsOwed k) {o : UInt32} {v : Semaphore}
    (hv : k.semaphores[o]? = some v) (hcount : v.count ≠ 0) : Unawaited k o := by
  rintro id t ht hw rfl
  exact hcount (h.empty id t ht hw v hv)

theorem fresh_unawaited {k : Kernel} (h : UnitsOwed k) (hf : FreshSemaphore k) :
    Unawaited k k.nextObject := by
  intro id t ht hw ho
  have hwaits : t.waitsOn .semaphore k.nextObject = true :=
    waitsOn_iff.mpr ⟨h.registered.blocked id t ht hw, hw, ho⟩
  rw [hf.2 id t ht] at hwaits
  cases hwaits

variable [M68k φ] [GuestBus β]

/-- There is no unit for those who wait right after a service. -/
theorem performed_empty {m : Machine φ β} {s : Service} (hwf : WF m.kernel)
    (ha : m.kernel.active = true) (hm : UnitsOwed m.kernel)
    (horder : Orderly .semaphore m (m.change s))
    (hnew : s = .smCreate → FreshSemaphore m.kernel)
    (id : UInt32) (t' : Task) (ht' : (performed m s).1.kernel.tasks[id]? = some t')
    (hw : t'.wait = .semaphore) (v' : Semaphore)
    (hv' : (performed m s).1.kernel.semaphores[t'.waitObject]? = some v') : v'.count = 0 := by
  have heff := performed_effect hwf.keyed (hwf.current ha) s
  have hchange := performed_change hwf.keyed s t'.waitObject
  rw [hv'] at hchange
  rcases effect_waiting heff hm.registered horder (by decide) ht' hw with
    ⟨t, ht, hk⟩ | ⟨hblock, -, -⟩
  · obtain ⟨-, -, gw, go⟩ := core_eq hk.1
    have hwaits : ¬ Unawaited m.kernel t'.waitObject := fun hn =>
      hn id t ht (gw.symm.trans hw) go.symm
    cases hchange with
    | same h =>
      rw [go] at h
      exact hm.empty id t ht (gw.symm.trans hw) v' h.symm
    | made ho h => exact absurd (ho ▸ fresh_unawaited hm (hnew rfl)) hwaits
    | gone ho h => cases h
    | taken ho hv hcount h => exact absurd (unitsOwed_unawaited hm hv hcount) hwaits
    | given ho hv hnone h => exact absurd hnone hwaits
  · obtain ⟨rfl, -, -, v, hv, hcount⟩ := change_block_semaphore hblock
    cases hchange with
    | same h =>
      obtain rfl : v' = v := by simpa [hv] using h
      exact hcount
    | taken ho hv2 hcount2 h =>
      obtain rfl : v = _ := by simpa [hv] using hv2
      exact absurd hcount hcount2

theorem step_unitsOwed {m : Machine φ β} (hwf : WF m.kernel) (hm : UnitsOwed m.kernel)
    (a : Action φ β) (horder : UnitsOrderly m a) : UnitsOwed (step m a).kernel := by
  cases step_cases hwf a with
  | service s hcalled ha hs =>
    obtain ⟨hord, hnew⟩ := horder s hcalled
    have hsched := Machine.finish_scheduled (performed_keyed hwf ha s)
    rw [hs]
    refine ⟨service_registered hwf ha hm.registered (by decide) hord, fun id t'' ht'' hw v hv => ?_⟩
    obtain ⟨t', ht', hset⟩ := hsched.tasks.after ht''
    rw [hset.2.2.1, (hsched.frame.semaphores (by simp)).1] at hv
    exact performed_empty hwf ha hm hord hnew id t' ht' (hset.2.1.symm.trans hw) v hv
  | rest hcalled hr hidle =>
    refine ⟨rests_registered hr hm.registered (by decide), fun id t'' ht'' hw v hv => ?_⟩
    obtain ⟨k1, hframe, htasks, hsched, -⟩ := hr
    obtain ⟨t', ht', hset⟩ := hsched.tasks.after ht''
    obtain ⟨t, ht, hk⟩ := htasks.after ht'
    rw [hset.2.2.1, (hsched.frame.semaphores (by simp)).1, (hframe.semaphores (by simp)).1] at hv
    have hw' : t'.wait = .semaphore := hset.2.1.symm.trans hw
    rcases hk with hk | ⟨-, -, -, hn, -⟩
    · obtain ⟨-, -, gw, go⟩ := core_eq hk.1
      exact hm.empty id t ht (gw.symm.trans hw') v (go ▸ hv)
    · cases hw'.symm.trans hn
  | start hcalled ha hblank hwf' =>
    refine ⟨blank_registered hblank (by decide), fun id t ht hw => ?_⟩
    cases hw.symm.trans (hblank.fresh id t ht).2.1

/-! ## The ledger of a semaphore -/

omit [M68k φ] [GuestBus β] in
/-- The units that are left. -/
def level (sem : UInt32) (m : Machine φ β) : Nat :=
  match m.kernel.semaphores[sem]? with
  | none => 0
  | some s => s.count.toNat

/-- A call of `sm_p` that returns success to its caller, who goes on. -/
def grantedAtOnce (sem : UInt32) (m : Machine φ β) (a : Action φ β) : Bool :=
  called m a == some .smP && m.reg 1 == sem && (performed m .smP).2 == 0 &&
    !parked m (step m a) .semaphore sem

/-- The calls of `sm_p` that return success in this step, earlier ones of waiters included. -/
def grants (sem : UInt32) (m : Machine φ β) (a : Action φ β) : Nat :=
  (grantedAtOnce sem m a).toNat + (released m (step m a) .semaphore sem).length

/-- The calls of `sm_v` that succeed in this step. -/
def posts (sem : UInt32) (m : Machine φ β) (a : Action φ β) : Nat :=
  (called m a == some .smV && m.reg 1 == sem && (performed m .smV).2 == 0).toNat

/-- The step would count past the largest count. -/
def Saturates (sem : UInt32) (m : Machine φ β) (a : Action φ β) : Prop :=
  called m a = some .smV ∧ m.reg 1 = sem ∧ level sem m + 1 = 2 ^ 32

instance (sem : UInt32) (m : Machine φ β) (a : Action φ β) : Decidable (Saturates sem m a) :=
  inferInstanceAs (Decidable (_ ∧ _ ∧ _))

section

variable {m : Machine φ β} {a : Action φ β} {sem : UInt32} {v : Semaphore}

theorem finish_semaphores (hwf : WF m.kernel) (ha : m.kernel.active = true) (s : Service) :
    (Machine.finish (performed m s)).kernel.semaphores = (performed m s).1.kernel.semaphores :=
  ((Machine.finish_scheduled (performed_keyed hwf ha s)).frame.semaphores (by simp)).1

omit [M68k φ] [GuestBus β] in
/-- `sm_p` on a semaphore with units. -/
theorem smP_takes (hv : m.kernel.semaphores[m.reg 1]? = some v) (hcount : v.count ≠ 0) :
    m.smP.2 = 0 ∧ m.change .smP = .wake ∧
      m.smP.1.kernel.semaphores[m.reg 1]? = some { v with count := v.count - 1 } := by
  refine ⟨?_, by simp [Machine.change, hv, hcount], ?_⟩
  · simp [Machine.smP, hv, hcount]
  · simp only [Machine.smP, hv, hcount, ne_eq, not_false_eq_true, if_true]
    exact TreeMap.getElem?_insert_self

omit [M68k φ] [GuestBus β] in
/-- `sm_p` on a semaphore without units: it blocks the caller, or it fails. -/
theorem smP_waits (hv : m.kernel.semaphores[m.reg 1]? = some v) (hcount : v.count = 0) :
    m.smP.1.kernel.semaphores = m.kernel.semaphores ∧
      (m.change .smP = .block .semaphore (m.reg 1) ∨ m.smP.2 ≠ 0) := by
  by_cases hflag : m.reg 5 &&& 1 = 0
  · refine ⟨?_, Or.inl (by simp [Machine.change, hv, hcount, hflag])⟩
    simp only [Machine.smP, hv, hcount, hflag, ne_eq, not_true_eq_false, if_false]
    exact ((m.kernel.block_frame _ _ _).semaphores (by simp)).1
  · simp only [Machine.smP, hv, hcount, hflag, ne_eq, not_true_eq_false, if_false,
      not_false_eq_true, if_true]
    exact ⟨trivial, Or.inr (by decide)⟩

omit [M68k φ] [GuestBus β] in
theorem smP_gone (hv : m.kernel.semaphores[m.reg 1]? = none) : m.smP.2 ≠ 0 := by
  simp [Machine.smP, hv]

/-- The ledger over a call of `sm_p`. -/
theorem smP_balance (hwf : WF m.kernel) (hm : UnitsOwed m.kernel)
    (ha : m.kernel.active = true) (hcalled : called m a = some .smP)
    (hs : step m a = Machine.finish (performed m .smP))
    (horder : Orderly .semaphore m (m.change .smP)) :
    level sem (step m a) + grants sem m a = level sem m + posts sem m a := by
  have hreleased : released m (step m a) .semaphore sem = [] := by
    rw [hs]
    exact service_released_nil hwf ha hm.registered (Or.inl rfl) horder (by simp [Service.hands,
      noHanding]) sem
  have hposts : posts sem m a = 0 := by simp [posts, hcalled]
  have hlevel : (step m a).kernel.semaphores = (performed m .smP).1.kernel.semaphores := by
    rw [hs, finish_semaphores hwf ha]
  rw [hposts]
  by_cases hsem : m.reg 1 = sem
  · subst hsem
    cases hv : m.kernel.semaphores[m.reg 1]? with
    | none =>
      have hstatus : (performed m .smP).2 ≠ 0 := @smP_gone _ _ m.counted hv
      have hchange := performed_change hwf.keyed .smP (m.reg 1)
      have hsame : (performed m .smP).1.kernel.semaphores[m.reg 1]? = none := by
        cases hchange with
        | same h => exact h.trans hv
        | taken ho hv2 => simp [hv] at hv2
      simp [level, grants, grantedAtOnce, hreleased, hlevel, hsame, hv, hstatus]
    | some v =>
      by_cases hcount : v.count = 0
      · obtain ⟨hsame, hwait⟩ : (performed m .smP).1.kernel.semaphores = m.kernel.semaphores ∧
            (m.change .smP = .block .semaphore (m.reg 1) ∨ (performed m .smP).2 ≠ 0) :=
          @smP_waits _ _ m.counted v hv hcount
        have hgrant : grantedAtOnce (m.reg 1) m a = false := by
          rcases hwait with hblock | hstatus
          · have hother : OtherReady m := by
              rw [hblock] at horder
              exact horder rfl
            have hpark := block_parked hwf ha hblock hother
            rw [← hs] at hpark
            simp [grantedAtOnce, hpark]
          · simp [grantedAtOnce, hstatus]
        simp [level, grants, hgrant, hreleased, hlevel, hsame]
      · obtain ⟨hstatus, hwake, hafter⟩ : (performed m .smP).2 = 0 ∧ m.change .smP = .wake ∧
            (performed m .smP).1.kernel.semaphores[m.reg 1]? =
              some { v with count := v.count - 1 } := @smP_takes _ _ m.counted v hv hcount
        have hpark : parked m (step m a) .semaphore (m.reg 1) = false := by
          rw [hs]
          exact not_parked hwf ha hm.registered (by decide) horder (by simp [hwake])
        have hgrant : grantedAtOnce (m.reg 1) m a = true := by
          simp [grantedAtOnce, hcalled, hstatus, hpark]
        have hpos : v.count.toNat ≠ 0 := fun h => hcount (UInt32.toNat.inj h)
        have hdec : (v.count - 1).toNat = v.count.toNat - 1 := by
          rw [UInt32.toNat_sub_of_le]
          · rfl
          · rw [UInt32.le_iff_toNat_le]
            show 1 ≤ _
            omega
        simp only [level, grants, hgrant, hreleased, hlevel, hafter, hv, hdec, Bool.toNat_true,
          List.length_nil]
        omega
  · have hgrant : grantedAtOnce sem m a = false := by simp [grantedAtOnce, hsem]
    have hsame : (performed m .smP).1.kernel.semaphores[sem]? = m.kernel.semaphores[sem]? := by
      cases performed_change hwf.keyed .smP sem with
      | same h => exact h
      | taken ho => exact absurd ho.symm hsem
    simp [level, grants, hgrant, hreleased, hlevel, hsame]

/-- The ledger over a call of `sm_v`. -/
theorem smV_balance (hwf : WF m.kernel) (hm : UnitsOwed m.kernel)
    (ha : m.kernel.active = true) (hcalled : called m a = some .smV)
    (hs : step m a = Machine.finish (performed m .smV)) (hsat : ¬ Saturates sem m a) :
    level sem (step m a) + grants sem m a = level sem m + posts sem m a := by
  have hsched : Scheduled (performed m .smV).1.kernel (step m a).kernel := by
    rw [hs]
    exact Machine.finish_scheduled (performed_keyed hwf ha .smV)
  have hlevel : (step m a).kernel.semaphores = (performed m .smV).1.kernel.semaphores := by
    rw [hs, finish_semaphores hwf ha]
  have hgrant : grantedAtOnce sem m a = false := by simp [grantedAtOnce, hcalled]
  have hperf : (performed m .smV).1.kernel = (m.counted.kernel.post (m.reg 1)).1 := rfl
  have hstatus : (performed m .smV).2 = (m.counted.kernel.post (m.reg 1)).2 := rfl
  have hk' : Keyed m.counted.kernel := hwf.keyed
  cases hv : m.kernel.semaphores[m.reg 1]? with
  | none =>
    have hgone := @post_gone m.counted.kernel _ hv
    have hreleased : released m (step m a) .semaphore sem = [] :=
      released_kept hsched (by rw [hperf, hgone]; rfl) _ _
    have hsame : (performed m .smV).1.kernel.semaphores = m.kernel.semaphores := by
      rw [hperf, hgone]
      rfl
    simp [level, grants, posts, hgrant, hreleased, hlevel, hsame, hstatus, hgone]
  | some v =>
    have hv' : m.counted.kernel.semaphores[m.reg 1]? = some v := hv
    rcases post_cases hk' hv' with ⟨t, ht, hw, ho, heq⟩ | ⟨hnone, heq⟩
    · -- the unit goes to the waiter `t`
      have hsame : (performed m .smV).1.kernel.semaphores = m.kernel.semaphores := by
        rw [hperf, heq]
        rfl
      have hcarries : Carries (performed m .smV).1.kernel (step m a) := by
        rw [hs]
        exact Machine.finish_carries _
      have hwoken : (performed m .smV).1.kernel.tasks[t.id]? = some (t.wake 0) := by
        rw [hperf, heq]
        exact TreeMap.getElem?_insert_self
      have hreleased := released_handed hsched hcarries (performed_current m _) hm.registered ht hw
        (fun id hid => by rw [hperf, heq]; exact get_insert_ne _ _ hid) hwoken rfl
        (by simp [Task.wake]) sem
      by_cases hsem : m.reg 1 = sem
      · rw [if_pos (ho.trans hsem)] at hreleased
        subst hsem
        simp [level, grants, posts, hcalled, hgrant, hreleased, hlevel, hsame, hstatus, heq]
      · rw [ho, if_neg hsem] at hreleased
        simp [level, grants, posts, hgrant, hreleased, hlevel, hsame, hsem]
    · -- nobody waits, and the unit is counted
      have hreleased : released m (step m a) .semaphore sem = [] :=
        released_kept hsched (by rw [hperf, heq]; rfl) _ _
      by_cases hsem : m.reg 1 = sem
      · subst hsem
        have hafter : (performed m .smV).1.kernel.semaphores[m.reg 1]? = some v.counted := by
          rw [hperf, heq]
          exact TreeMap.getElem?_insert_self
        have hroom : v.count.toNat + 1 < 2 ^ 32 := by
          have hne : v.count.toNat + 1 ≠ 2 ^ 32 := fun h =>
            hsat ⟨hcalled, rfl, by simp only [level, hv]; exact h⟩
          have := v.count.toNat_lt
          omega
        have hinc : v.counted.count.toNat = v.count.toNat + 1 := by
          simp only [Semaphore.counted, hroom, if_true, UInt32.toNat_add]
          exact Nat.mod_eq_of_lt hroom
        simp [level, grants, posts, hcalled, hgrant, hreleased, hlevel, hafter, hv, hinc, hstatus, heq]
      · have hsame : (performed m .smV).1.kernel.semaphores[sem]? = m.kernel.semaphores[sem]? := by
          cases performed_change hwf.keyed .smV sem with
          | same h => exact h
          | given hreg => exact absurd hreg.symm hsem
        simp [level, grants, posts, hgrant, hreleased, hlevel, hsame, hsem]

/-- The ledger over one step. -/
theorem step_balance (hwf : WF m.kernel) (hm : UnitsOwed m.kernel) (horder : UnitsOrderly m a)
    (hsat : ¬ Saturates sem m a) (hlive : sem ∈ m.kernel.semaphores)
    (hlive' : sem ∈ (step m a).kernel.semaphores) :
    level sem (step m a) + grants sem m a = level sem m + posts sem m a := by
  cases step_cases hwf a with
  | service s hcalled ha hs =>
    obtain ⟨hord, hnew⟩ := horder s hcalled
    by_cases hp : s = .smP
    · subst hp
      exact smP_balance hwf hm ha hcalled hs hord
    · by_cases hv : s = .smV
      · subst hv
        exact smV_balance hwf hm ha hcalled hs hsat
      · have hreleased : released m (step m a) .semaphore sem = [] := by
          rw [hs]
          refine service_released_nil hwf ha hm.registered (Or.inl rfl) hord ?_ sem
          cases s <;> simp [Service.hands, noHanding] at hv ⊢
        have hgrant : grantedAtOnce sem m a = false := by simp [grantedAtOnce, hcalled, hp]
        have hlevel : (step m a).kernel.semaphores = (performed m s).1.kernel.semaphores := by
          rw [hs, finish_semaphores hwf ha]
        have hsame : (step m a).kernel.semaphores[sem]? = m.kernel.semaphores[sem]? := by
          rw [hlevel]
          cases performed_change hwf.keyed s sem with
          | same h => exact h
          | made ho h => exact absurd (ho ▸ hlive) (hnew rfl).1
          | gone ho h =>
            rw [TreeMap.mem_iff_isSome_getElem?, hlevel, h] at hlive'
            cases hlive'
          | taken => exact absurd rfl hp
          | given => exact absurd rfl hv
        simp [level, grants, posts, hgrant, hreleased, hsame, hcalled, hv]
  | rest hcalled hr hidle =>
    have hreleased := rests_released_nil hr hm.registered (Or.inl rfl) sem
    have hsame : (step m a).kernel.semaphores = m.kernel.semaphores := by
      obtain ⟨k1, hframe, -, hsched, -⟩ := hr
      rw [(hsched.frame.semaphores (by simp)).1, (hframe.semaphores (by simp)).1]
    simp [level, grants, posts, grantedAtOnce, hcalled, hreleased, hsame]
  | start hcalled ha hblank hwf' =>
    rw [TreeMap.mem_iff_isSome_getElem?, (hwf.blank ha).semaphores] at hlive
    cases hlive

end

/-! ## Runs -/

/-- The step makes this semaphore. -/
def Makes (sem : UInt32) (m : Machine φ β) (a : Action φ β) : Prop :=
  called m a = some .smCreate ∧ (performed m .smCreate).2 = 0 ∧
    (performed m .smCreate).1.reg 1 = sem

instance (sem : UInt32) (m : Machine φ β) (a : Action φ β) : Decidable (Makes sem m a) :=
  inferInstanceAs (Decidable (_ ∧ _ ∧ _))

/-- Where there is a unit, nobody is blocked waiting for one. -/
def UnitsIdle (k : Kernel) : Prop :=
  ∀ (sem : UInt32) (s : Semaphore), k.semaphores[sem]? = some s → s.count ≠ 0 →
    ∀ (id : UInt32) (t : Task), k.tasks[id]? = some t → t.waitsOn .semaphore sem = false

omit [M68k φ] [GuestBus β] in
theorem unitsOwed_idle {k : Kernel} (h : UnitsOwed k) : UnitsIdle k := by
  intro sem s hs hcount id t ht
  rw [← Bool.not_eq_true, waitsOn_iff]
  rintro ⟨-, hw, ho⟩
  exact unitsOwed_unawaited h hs hcount id t ht hw ho

omit [M68k φ] [GuestBus β] in
theorem unitsOwed_reset (cpu : CpuCore φ) (bus : β) : UnitsOwed (reset cpu bus).kernel :=
  ⟨⟨fun id t ht => by simp [reset] at ht, fun t ht => by simp [reset] at ht⟩,
    fun id t ht => by simp [reset] at ht⟩

/-- A new semaphore starts with the count that it was asked for. -/
theorem makes_level {m : Machine φ β} (hwf : WF m.kernel) {a : Action φ β} {sem : UInt32}
    (h : Makes sem m a) : level sem (step m a) = (m.reg 2).toNat := by
  obtain ⟨hcalled, hstatus, hsem⟩ := h
  cases step_cases hwf a with
  | service s hcalled' ha hs =>
    obtain rfl : Service.smCreate = s := by simpa [hcalled] using hcalled'
    have hperf : performed m .smCreate = m.counted.smCreate := rfl
    rw [hperf] at hstatus hsem
    have hafter : (step m a).kernel.semaphores = m.counted.smCreate.1.kernel.semaphores := by
      rw [hs, finish_semaphores hwf ha, hperf]
    unfold Machine.smCreate at hstatus hsem hafter
    split at hstatus
    · simp at hstatus
    · next hroom =>
      simp only [if_neg hroom] at hsem hafter
      have hid : sem = m.counted.kernel.nextObject := by
        rw [← hsem]
        simp [Machine.reg, Machine.setD, CpuCore.setD, CpuCore.setDar]
      have hget : (step m a).kernel.semaphores[sem]? = some ⟨m.counted.reg 1, m.counted.reg 2⟩ := by
        rw [hafter, hid]
        exact TreeMap.getElem?_insert_self
      simp only [level, hget]
      rfl
  | rest hcalled' hr hidle => simp [hcalled] at hcalled'
  | start hcalled' ha hblank hwf' => simp [hcalled] at hcalled'

/-- In an orderly run every unit of a live semaphore is in its count or was returned by a successful
`sm_p`, and nobody waits for a unit that is there. -/
theorem units_conserved (cpu : CpuCore φ) (bus : β) (acts : List (Action φ β))
    (horder : Each step UnitsOrderly (reset cpu bus) acts) :
    Always step (fun m : Machine φ β => UnitsIdle m.kernel) (reset cpu bus) acts ∧
      ∀ (before after : List (Action φ β)) (a : Action φ β) (m : Machine φ β) (sem : UInt32),
        acts = before ++ a :: after → m = run step (reset cpu bus) before → Makes sem m a →
          Always step (fun m : Machine φ β => sem ∈ m.kernel.semaphores) (step m a) after →
            Each step (fun m a => ¬ Saturates sem m a) (step m a) after →
              level sem (run step (step m a) after) + total step (grants sem) (step m a) after =
                (m.reg 2).toNat + total step (posts sem) (step m a) after := by
  have hkeep : ∀ (m : Machine φ β) (a : Action φ β), UnitsOrderly m a →
      WF m.kernel ∧ UnitsOwed m.kernel → WF (step m a).kernel ∧ UnitsOwed (step m a).kernel :=
    fun m a ha h => ⟨wf_step h.1 a, step_unitsOwed h.1 h.2 a ha⟩
  have h0 : WF (reset cpu bus).kernel ∧ UnitsOwed (reset cpu bus).kernel :=
    ⟨wf_reset cpu bus, unitsOwed_reset cpu bus⟩
  constructor
  · exact (always_of_each hkeep horder h0).mono fun m h => unitsOwed_idle h.2
  · rintro before after a m sem rfl hm hmade hlive hsat
    rw [each_append, ← hm] at horder
    obtain ⟨hbefore, ha, hafter⟩ := horder
    have hstart : WF m.kernel ∧ UnitsOwed m.kernel := hm ▸ run_keeps hkeep hbefore h0
    have hinv := (always_of_each hkeep hafter (hkeep m a ha hstart)).and hlive
    rw [← makes_level hstart.1 hmade]
    exact total_balance (fun m a hP hI hI' =>
      step_balance hI.1.1 hI.1.2 hP.1 hP.2 hI.2 hI'.2) (hafter.and hsat) hinv

omit [M68k φ] [GuestBus β] in
theorem orderly_silent {m : Machine φ β} {a : Action φ β} (h : called m a = none) :
    UnitsOrderly m a := fun s hs => by simp [h] at hs

omit [M68k φ] [GuestBus β] in
/-- A service that only wakes tasks is orderly, unless it makes a semaphore. -/
theorem orderly_wake {m : Machine φ β} {a : Action φ β} {s : Service} (h : called m a = some s)
    (hchange : m.change s = .wake) (hs : s = .smCreate → FreshSemaphore m.kernel) :
    UnitsOrderly m a := by
  intro s' hs'
  obtain rfl : s = s' := by simpa [h] using hs'
  exact ⟨by rw [hchange]; trivial, hs⟩

/-- ROOT as it asks for a semaphore without units. -/
def makingSemaphore : Machine UInt16 Board :=
  step booted (loading booted [(0, 0x33), (1, 1), (2, 0)])

def madeSemaphore : Machine UInt16 Board := step makingSemaphore (.trap 11 none)

/-- One unit is posted, and then taken. -/
def postAndTake : List (Action UInt16 Board) :=
  script madeSemaphore [[(0, 0x37), (1, 1)], [(0, 0x36)]]

theorem posted_unit_taken :
    level 1 (run step madeSemaphore postAndTake) + total step (grants 1) madeSemaphore postAndTake =
      (makingSemaphore.reg 2).toNat + total step (posts 1) madeSemaphore postAndTake := by
  let m1 := step madeSemaphore (loading madeSemaphore [(0, 0x37), (1, 1)])
  let m2 := step m1 (.trap 11 none)
  let m3 := step m2 (loading m2 [(0, 0x36)])
  obtain ⟨hmade, hv, hp, hsat, hlive, hunused, hnobody⟩ : Makes 1 makingSemaphore (.trap 11 none) ∧
      called m1 (.trap 11 none) = some .smV ∧
        (called m3 (.trap 11 none) = some .smP ∧ m3.change .smP = .wake) ∧
          Each step (fun m a => ¬ Saturates 1 m a) madeSemaphore postAndTake ∧
            Always step (fun m : Machine UInt16 Board => (1 : UInt32) ∈ m.kernel.semaphores)
              madeSemaphore postAndTake ∧
              makingSemaphore.kernel.nextObject ∉ makingSemaphore.kernel.semaphores ∧
                ∀ p ∈ makingSemaphore.kernel.tasks.toList,
                  p.2.waitsOn .semaphore makingSemaphore.kernel.nextObject = false := by
    simp only [m1, m2, m3, postAndTake, madeSemaphore, makingSemaphore, booted_eq]
    decide +kernel
  have hfresh : FreshSemaphore makingSemaphore.kernel :=
    ⟨hunused, fun id t ht =>
      hnobody (id, t) (TreeMap.mem_toList_iff_getElem?_eq_some.mpr ht)⟩
  have hafter : Each step UnitsOrderly madeSemaphore postAndTake :=
    ⟨orderly_silent rfl, ⟨orderly_wake hv rfl (by simp),
      ⟨orderly_silent rfl, ⟨orderly_wake hp.1 hp.2 (by simp), trivial⟩⟩⟩⟩
  have horder : Each step UnitsOrderly (reset bootCpu bootBoard)
      (.instruction :: loading booted [(0, 0x33), (1, 1), (2, 0)] :: .trap 11 none ::
        postAndTake) :=
    ⟨orderly_silent rfl, ⟨orderly_silent rfl, ⟨orderly_wake hmade.1 rfl fun _ => hfresh, hafter⟩⟩⟩
  have hmaking : makingSemaphore = run step (reset bootCpu bootBoard)
      [.instruction, loading booted [(0, 0x33), (1, 1), (2, 0)]] := by
    rw [run_cons, run_cons, run_nil, makingSemaphore, booted]
  unfold madeSemaphore
  exact (units_conserved bootCpu bootBoard _ horder).2
    [.instruction, loading booted [(0, 0x33), (1, 1), (2, 0)]] postAndTake (.trap 11 none)
    makingSemaphore 1 rfl hmaking hmade hlive hsat

/-- A unit posted to a waiter that was deleted is lost. -/
theorem post_to_deleted_loses_unit :
    ¬ ∀ (m : Machine UInt16 Board) (a : Action UInt16 Board) (after : List (Action UInt16 Board))
        (sem : UInt32), Reachable m → Makes sem m a →
      Always step (fun m : Machine UInt16 Board => sem ∈ m.kernel.semaphores) (step m a) after →
        Each step (fun m a => ¬ Saturates sem m a) (step m a) after →
          level sem (run step (step m a) after) + total step (grants sem) (step m a) after =
            (m.reg 2).toNat + total step (posts sem) (step m a) after := by
  intro h
  let lostUnit : List (List (Fin 16 × UInt32)) :=
    startTask 200 ++
      [[(0, 0x36), (1, 1), (5, 0), (6, 0)], [(0, 5), (1, 0x30000)], [(0, 0x37), (1, 1)]]
  obtain ⟨hmade, hlive, hsat, hlevel, hgrants, hposts, hinitial⟩ :
      Makes 1 makingSemaphore (.trap 11 none) ∧
        Always step (fun m : Machine UInt16 Board => (1 : UInt32) ∈ m.kernel.semaphores)
          madeSemaphore (script madeSemaphore lostUnit) ∧
        Each step (fun m a => ¬ Saturates 1 m a) madeSemaphore (script madeSemaphore lostUnit) ∧
        level 1 (run step madeSemaphore (script madeSemaphore lostUnit)) = 0 ∧
        total step (grants 1) madeSemaphore (script madeSemaphore lostUnit) = 0 ∧
        total step (posts 1) madeSemaphore (script madeSemaphore lostUnit) = 1 ∧
        makingSemaphore.reg 2 = 0 := by
    rw [madeSemaphore, makingSemaphore, booted_eq]
    decide +kernel
  have hsum := h makingSemaphore (.trap 11 none) (script madeSemaphore lostUnit) 1
    (reachable_step booted_reachable _) hmade hlive hsat
  rw [← madeSemaphore, hlevel, hgrants, hposts, hinitial] at hsum
  cases hsum

end OpenSaab.Psos
