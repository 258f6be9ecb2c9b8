import OpenSaab.Psos.Waiters

/-!
# Registered waiters

The queue and the semaphore services find the tasks to serve by their `wait` fields alone. What they
do is right as long as every task with such a field is blocked, and off the CPU.
-/

namespace OpenSaab.Psos

open Std OpenSaab.Table OpenSaab.Runs

variable {φ β : Type}

/-! ## What a waiter sees -/

/-- Blocked in this way on this object. -/
def Task.waitsOn (t : Task) (wait : Wait) (object : UInt32) : Bool :=
  t.state == .blocked && t.wait == wait && t.waitObject == object

/-- The task has left its wait, and finds the status of a success in `d0`. -/
def succeeds (m' : Machine φ β) (wait : Wait) (object id : UInt32) : Bool :=
  match m'.kernel.tasks[id]? with
  | none => false
  | some t => !t.waitsOn wait object && t.state != .dead && getElem (m'.registers id) 0 d0_lt == 0

/-- The tasks whose wait ends with success between the two states. -/
def released (m m' : Machine φ β) (wait : Wait) (object : UInt32) : List UInt32 :=
  (m.kernel.tasks.toList.filter fun p =>
    p.2.waitsOn wait object && succeeds m' wait object p.1).map Prod.fst

/-- The caller of a service was left waiting, and another task has the CPU. -/
def parked (m m' : Machine φ β) (wait : Wait) (object : UInt32) : Bool :=
  m'.kernel.current != m.kernel.current &&
    (m'.kernel.tasks[m.kernel.current]?).any fun t => t.waitsOn wait object

theorem waitsOn_iff {t : Task} {wait : Wait} {object : UInt32} :
    t.waitsOn wait object = true ↔ t.state = .blocked ∧ t.wait = wait ∧ t.waitObject = object := by
  simp [Task.waitsOn, and_assoc]

theorem settled_waitsOn {t t' : Task} (h : Settled t t') (wait : Wait) (object : UInt32) :
    t'.waitsOn wait object = t.waitsOn wait object := by
  rw [Bool.eq_iff_iff, waitsOn_iff, waitsOn_iff, (settled_state h).1, h.2.1, h.2.2.1]

theorem kept_waitsOn {t t' : Task} (h : Kept t t') (wait : Wait) (object : UInt32) :
    t'.waitsOn wait object = t.waitsOn wait object := by
  obtain ⟨-, hs, hw, ho⟩ := core_eq h.1
  unfold Task.waitsOn
  rw [hs, hw, ho]

theorem released_eq_nil {m m' : Machine φ β} {wait : Wait} {object : UInt32}
    (h : ∀ (id : UInt32) (t : Task), m.kernel.tasks[id]? = some t → t.waitsOn wait object = true →
      succeeds m' wait object id = false) : released m m' wait object = [] := by
  unfold released
  rw [filter_eq_nil, List.map_nil]
  intro id t ht
  cases hw : t.waitsOn wait object with
  | false => rfl
  | true => exact h id t ht hw

theorem released_eq_singleton {m m' : Machine φ β} {wait : Wait} {object id : UInt32} {t : Task}
    (ht : m.kernel.tasks[id]? = some t) (hw : t.waitsOn wait object = true)
    (hs : succeeds m' wait object id = true)
    (h : ∀ (id' : UInt32) (t' : Task), id' ≠ id → m.kernel.tasks[id']? = some t' →
      t'.waitsOn wait object = true → succeeds m' wait object id' = false) :
    released m m' wait object = [id] := by
  unfold released
  rw [filter_eq_singleton ht (by simp [hw, hs]), List.map_singleton]
  intro id' t' hne ht'
  cases hw' : t'.waitsOn wait object with
  | false => rfl
  | true => exact h id' t' hne ht' hw'

/-- Who still waits when the scheduler is entered has not succeeded. -/
theorem kept_not_succeeds {k : Kernel} {m' : Machine φ β} (hs : Scheduled k m'.kernel)
    {wait : Wait} {object id : UInt32} {t : Task} (ht : k.tasks[id]? = some t)
    (hw : t.waitsOn wait object = true) : succeeds m' wait object id = false := by
  obtain ⟨t', ht', hset⟩ := hs.tasks.before ht
  have hw' : t'.waitsOn wait object = true := by rw [settled_waitsOn hset, hw]
  simp [succeeds, ht', hw']

/-- Nobody succeeds through a wake-up that hands nothing over. -/
theorem woken_not_succeeds {k : Kernel} {m' : Machine φ β} (hc : Carries k m') {wait : Wait}
    (hwait : wait = .semaphore ∨ wait = .queue) {handing : Wait → Prop} (hh : ¬ handing wait)
    {object id : UInt32} {t t' : Task} (htw : t.wait = wait) (hr : Woken handing t t')
    (ht' : k.tasks[id]? = some t') (hid : id ≠ k.current) : succeeds m' wait object id = false := by
  have hd : t'.cpu.dar[0] ≠ 0 := by
    rcases hr.2.2.2.2 (by rwa [htw]) with hh' | hd
    · exact absurd (htw ▸ hh') hh
    · exact hd
  have hregs := hc id t' ht' hid
  unfold succeeds
  split
  · rfl
  · simp [hregs, hd]

/-- A woken task succeeds when its saved `d0` is 0. -/
theorem woken_succeeds {k : Kernel} {m' : Machine φ β} (hs : Scheduled k m'.kernel)
    (hc : Carries k m') {wait : Wait} {object id : UInt32} {t' : Task} (hready : t'.state = .ready)
    (ht' : k.tasks[id]? = some t') (hid : id ≠ k.current) (hd : getElem t'.cpu.dar 0 d0_lt = 0) :
    succeeds m' wait object id = true := by
  obtain ⟨t'', ht'', hset⟩ := hs.tasks.before ht'
  have hregs := hc id t' ht' hid
  have hblocked : t''.state ≠ .blocked := by
    rw [ne_eq, (settled_state hset).1, hready]
    decide
  have hdead : t''.state ≠ .dead := by
    rw [ne_eq, (settled_state hset).2, hready]
    decide
  have hleft : t''.waitsOn wait object = false := by simp [Task.waitsOn, hblocked]
  simp [succeeds, ht'', hleft, hdead, hregs, hd]

/-! ## The invariant -/

/-- Every task with this `wait` is blocked, and none of them has the CPU. -/
structure Registered (wait : Wait) (k : Kernel) : Prop where
  blocked : ∀ (id : UInt32) (t : Task), k.tasks[id]? = some t → t.wait = wait → t.state = .blocked
  offCpu : ∀ t, k.tasks[k.current]? = some t → t.wait ≠ wait

/-- Where no record changes, nobody is released. -/
theorem released_kept {m m' : Machine φ β} {k : Kernel} (hs : Scheduled k m'.kernel)
    (htasks : k.tasks = m.kernel.tasks) (wait : Wait) (object : UInt32) :
    released m m' wait object = [] :=
  released_eq_nil fun _ _ ht hw => kept_not_succeeds hs (htasks ▸ ht) hw

/-- Where one waiter is woken with the status of a success, it is released, and nobody else is. -/
theorem released_handed {m m' : Machine φ β} {k : Kernel} (hs : Scheduled k m'.kernel)
    (hc : Carries k m') (hcurrent : k.current = m.kernel.current) {wait : Wait}
    (hreg : Registered wait m.kernel) {t t' : Task} (ht : m.kernel.tasks[t.id]? = some t)
    (hwait : t.wait = wait)
    (hother : ∀ id : UInt32, id ≠ t.id → k.tasks[id]? = m.kernel.tasks[id]?)
    (hwoken : k.tasks[t.id]? = some t') (hready : t'.state = .ready)
    (hd : getElem t'.cpu.dar 0 d0_lt = 0) (object : UInt32) :
    released m m' wait object = if t.waitObject = object then [t.id] else [] := by
  by_cases hobject : t.waitObject = object
  · rw [if_pos hobject]
    have hoff : t.id ≠ k.current := by
      rw [hcurrent]
      exact fun hid => hreg.offCpu t (hid ▸ ht) hwait
    refine released_eq_singleton ht (waitsOn_iff.mpr ⟨hreg.blocked _ t ht hwait, hwait, hobject⟩)
      (woken_succeeds hs hc hready hwoken hoff hd) fun id _ hid ht' hw => ?_
    exact kept_not_succeeds hs ((hother id hid).trans ht') hw
  · rw [if_neg hobject]
    refine released_eq_nil fun id t'' ht'' hw => ?_
    have hid : id ≠ t.id := by
      rintro rfl
      obtain rfl : t = t'' := by simpa [ht] using ht''
      exact hobject (waitsOn_iff.mp hw).2.2
    exact kept_not_succeeds hs ((hother id hid).trans ht'') hw

/-- No waiter is started or deleted, and a task that is to wait leaves the CPU to another. -/
def Orderly (wait : Wait) (m : Machine φ β) : Change → Prop
  | .restart | .delete => ∀ t, m.kernel.tasks[m.target]? = some t → t.wait ≠ wait
  | .block w _ => w = wait → OtherReady m
  | _ => True

section

variable {m : Machine φ β} {s : Service} {tasks : Table Task} {c : Change} {wait : Wait}

/-- A service wakes a waiter, or leaves it as it is. -/
theorem effect_waiter (hn : Numbered m.kernel) (h : c.Effect m s tasks)
    (hreg : Registered wait m.kernel) (horder : Orderly wait m c) {id : UInt32} {t : Task}
    (ht : m.kernel.tasks[id]? = some t) (htw : t.wait = wait) :
    ∃ t', tasks[id]? = some t' ∧ KeptOrWoken s.hands t t' := by
  have hother : ∀ {a : UInt32} {u : Task}, Updated m.kernel.tasks a u tasks → id ≠ a →
      ∃ t', tasks[id]? = some t' ∧ KeptOrWoken s.hands t t' := fun hup hne =>
    ⟨t, (hup.2 id hne).trans ht, keptOrWoken_refl _ t⟩
  have hcur : id ≠ m.kernel.current := by
    rintro rfl
    exact hreg.offCpu t ht htw
  cases c with
  | wake => exact Pointwise.before h ht
  | create =>
    rcases h with rfl | ⟨hroom, new, -, hup⟩
    · exact ⟨t, ht, keptOrWoken_refl _ t⟩
    · refine hother hup ?_
      rintro rfl
      rw [nextId_absent hn hroom] at ht
      cases ht
  | restart =>
    obtain ⟨u, u', hu, -, hup⟩ := h
    refine hother hup ?_
    rintro rfl
    exact horder t ht htw
  | delete =>
    obtain ⟨u, u', hu, -, hup⟩ := h
    refine hother hup ?_
    rintro rfl
    exact horder t ht htw
  | block w object =>
    obtain ⟨_, _, -, -, hup⟩ := h
    exact hother hup hcur
  | yield =>
    obtain ⟨_, _, -, -, hup⟩ := h
    exact hother hup hcur

/-- Who waits after a service has waited in the same way before, or has just been blocked. -/
theorem effect_waiting (h : c.Effect m s tasks) (hreg : Registered wait m.kernel)
    (horder : Orderly wait m c) (hwait : wait ≠ .none) {id : UInt32} {t' : Task}
    (ht' : tasks[id]? = some t') (htw : t'.wait = wait) :
    (∃ t, m.kernel.tasks[id]? = some t ∧ Kept t t') ∨
      c = .block wait t'.waitObject ∧ id = m.kernel.current ∧ t'.state = .blocked := by
  have hother : ∀ {a : UInt32} {u : Task}, Updated m.kernel.tasks a u tasks → u.wait ≠ wait →
      ∃ t, m.kernel.tasks[id]? = some t ∧ Kept t t' := by
    intro a u hup hne
    by_cases ha : id = a
    · subst ha
      obtain rfl : u = t' := by simpa [hup.1] using ht'
      exact absurd htw hne
    · rw [hup.2 id ha] at ht'
      exact ⟨t', ht', rfl, rfl⟩
  have hin : ∀ {state : State} {u u' : Task}, InState state u u' → u'.wait = u.wait := fun hin =>
    congrArg Core.wait hin
  cases c with
  | wake =>
    obtain ⟨t, ht, hr⟩ := Pointwise.after h ht'
    rcases hr with hr | ⟨-, -, -, hw, -⟩
    · exact Or.inl ⟨t, ht, hr⟩
    · exact absurd (htw.symm.trans hw) hwait
  | create =>
    rcases h with rfl | ⟨-, new, hcore, hup⟩
    · exact Or.inl ⟨t', ht', rfl, rfl⟩
    · have hw : new.wait = .none := congrArg Core.wait hcore
      exact Or.inl (hother hup (by rw [hw]; exact hwait.symm))
  | restart =>
    obtain ⟨u, u', hu, hst, hup⟩ := h
    exact Or.inl (hother hup (by rw [hin hst]; exact horder u hu))
  | delete =>
    obtain ⟨u, u', hu, hst, hup⟩ := h
    exact Or.inl (hother hup (by rw [hin hst]; exact horder u hu))
  | yield =>
    obtain ⟨u, u', hu, hst, hup⟩ := h
    exact Or.inl (hother hup (by rw [hin hst]; exact hreg.offCpu u hu))
  | block w object =>
    obtain ⟨u, u', hu, hb, hup⟩ := h
    by_cases ha : id = m.kernel.current
    · subst ha
      obtain rfl : u' = t' := by simpa [hup.1] using ht'
      obtain ⟨-, hs, hw, ho⟩ : u'.id = u.id ∧ u'.state = .blocked ∧ u'.wait = w ∧
          u'.waitObject = object := by
        simpa only [BlockedOn, Task.core, Core.mk.injEq] using hb
      exact Or.inr ⟨by rw [ho, ← htw, hw], rfl, hs⟩
    · rw [hup.2 id ha] at ht'
      exact Or.inl ⟨t', ht', rfl, rfl⟩

end

theorem scheduled_registered {wait : Wait} {k k' : Kernel} (h : Scheduled k k')
    (hb : ∀ (id : UInt32) (t : Task), k.tasks[id]? = some t → t.wait = wait → t.state = .blocked)
    (hcur : k'.current = k.current → ∀ t, k.tasks[k.current]? = some t → t.wait ≠ wait) :
    Registered wait k' where
  blocked id t' ht' hw := by
    obtain ⟨t, ht, hset⟩ := h.tasks.after ht'
    exact (settled_state hset).1.mpr (hb id t ht (hset.2.1.symm.trans hw))
  offCpu t' ht' hw := by
    obtain ⟨t, ht, hset⟩ := h.tasks.after ht'
    have htw : t.wait = wait := hset.2.1.symm.trans hw
    rcases h.current with heq | ⟨u, hu, hr⟩
    · rw [heq] at ht
      exact hcur heq t ht htw
    · obtain rfl : t = u := by simpa [ht] using hu
      have hblk := hb _ t ht htw
      rcases (runnable_iff.mp hr).2 with hs | hs <;> rw [hs] at hblk <;> cases hblk

variable [M68k φ] [GuestBus β] {m : Machine φ β} {wait : Wait}

/-- A task that has just been blocked has left the CPU, if there is another to run. -/
theorem finish_leaves {s : Service} (hwf : WF m.kernel) (ha : m.kernel.active = true) {w : Wait}
    {object : UInt32} (hchange : m.change s = .block w object) (hother : OtherReady m) :
    (Machine.finish (performed m s)).kernel.current ≠ m.kernel.current := by
  have heff := performed_effect hwf.keyed (hwf.current ha) s
  rw [hchange] at heff
  obtain ⟨t, now, -, hb, hup⟩ := heff
  have hkeyed := performed_keyed hwf ha s
  have hnow : (performed m s).1.kernel.tasks[(performed m s).1.kernel.current]? = some now := by
    rw [performed_current]
    exact hup.1
  have hstate : now.state = .blocked := congrArg Core.state hb
  have hready : ∃ u ∈ values (performed m s).1.kernel.tasks, u.runnable := by
    obtain ⟨u, hv, hne, hr⟩ := hother
    exact ⟨u, value_mem ((hup.2 u.id hne).trans (Kernel.get_of_mem_values hwf.keyed hv)), hr⟩
  have := Machine.finish_gives_way hkeyed hnow (by simp [Task.runnable, hstate]) hready
  rwa [performed_current] at this

/-- The waiters right after a service are blocked. -/
theorem performed_blocked {s : Service} (hwf : WF m.kernel) (ha : m.kernel.active = true)
    (hreg : Registered wait m.kernel) (hwait : wait ≠ .none) (horder : Orderly wait m (m.change s))
    (id : UInt32) (t' : Task) (ht' : (performed m s).1.kernel.tasks[id]? = some t')
    (hw : t'.wait = wait) : t'.state = .blocked := by
  have heff := performed_effect hwf.keyed (hwf.current ha) s
  rcases effect_waiting heff hreg horder hwait ht' hw with ⟨t, ht, hk⟩ | ⟨-, -, hb⟩
  · obtain ⟨-, gs, gw, -⟩ := core_eq hk.1
    exact gs.trans (hreg.blocked id t ht (gw.symm.trans hw))
  · exact hb

theorem service_registered {s : Service} (hwf : WF m.kernel) (ha : m.kernel.active = true)
    (hreg : Registered wait m.kernel) (hwait : wait ≠ .none)
    (horder : Orderly wait m (m.change s)) :
    Registered wait (Machine.finish (performed m s)).kernel := by
  refine scheduled_registered (Machine.finish_scheduled (performed_keyed hwf ha s))
    (performed_blocked hwf ha hreg hwait horder) ?_
  intro hcur t ht hw
  have heff := performed_effect hwf.keyed (hwf.current ha) s
  rcases effect_waiting heff hreg horder hwait ht hw with ⟨t0, ht0, hk⟩ | ⟨hblock, -, -⟩
  · rw [performed_current] at ht0
    exact hreg.offCpu t0 ht0 ((core_eq hk.1).2.2.1.symm.trans hw)
  · rw [hblock] at horder
    rw [performed_current] at hcur
    exact finish_leaves hwf ha hblock (horder rfl) hcur

omit [M68k φ] [GuestBus β] in
theorem rests_registered {m' : Machine φ β} (h : Rests m.kernel m')
    (hreg : Registered wait m.kernel) (hwait : wait ≠ .none) : Registered wait m'.kernel := by
  obtain ⟨k1, hframe, htasks, hsched, -⟩ := h
  have hback : ∀ (id : UInt32) (t' : Task), k1.tasks[id]? = some t' → t'.wait = wait →
      ∃ t, m.kernel.tasks[id]? = some t ∧ Kept t t' := by
    intro id t' ht' hw
    obtain ⟨t, ht, hr⟩ := htasks.after ht'
    rcases hr with hr | ⟨-, -, -, hn, -⟩
    · exact ⟨t, ht, hr⟩
    · exact absurd (hw.symm.trans hn) hwait
  refine scheduled_registered hsched (fun id t' ht' hw => ?_) fun _ t' ht' hw => ?_
  · obtain ⟨t, ht, hk⟩ := hback id t' ht' hw
    obtain ⟨-, gs, gw, -⟩ := core_eq hk.1
    exact gs.trans (hreg.blocked id t ht (gw.symm.trans hw))
  · obtain ⟨t, ht, hk⟩ := hback _ t' ht' hw
    rw [hframe.current (by simp)] at ht
    exact hreg.offCpu t ht ((core_eq hk.1).2.2.1.symm.trans hw)

omit [M68k φ] [GuestBus β] in
theorem blank_registered {k : Kernel} (h : Blank k) (hwait : wait ≠ .none) : Registered wait k :=
  ⟨fun id t ht hw => absurd (hw.symm.trans (h.fresh id t ht).2.1) hwait,
    fun t ht hw => absurd (hw.symm.trans (h.fresh _ t ht).2.1) hwait⟩

/-- A caller that the service does not block is not left waiting. -/
theorem not_parked {s : Service} (hwf : WF m.kernel) (ha : m.kernel.active = true)
    (hreg : Registered wait m.kernel) (hwait : wait ≠ .none) (horder : Orderly wait m (m.change s))
    {object : UInt32} (hchange : m.change s ≠ .block wait object) :
    parked m (Machine.finish (performed m s)) wait object = false := by
  rw [← Bool.not_eq_true]
  intro hp
  simp only [parked, Bool.and_eq_true, Option.any_eq_true] at hp
  obtain ⟨-, t'', ht'', hw''⟩ := hp
  have hsched := Machine.finish_scheduled (performed_keyed hwf ha s)
  obtain ⟨t', ht', hset⟩ := hsched.tasks.after ht''
  rw [settled_waitsOn hset, waitsOn_iff] at hw''
  obtain ⟨-, hw, ho⟩ := hw''
  have heff := performed_effect hwf.keyed (hwf.current ha) s
  rcases effect_waiting heff hreg horder hwait ht' hw with ⟨t, ht, hk⟩ | ⟨hblock, -, -⟩
  · exact hreg.offCpu t ht ((core_eq hk.1).2.2.1.symm.trans hw)
  · exact hchange (ho ▸ hblock)

/-- A caller that the service blocks is left waiting, if there is another task to run. -/
theorem block_parked {s : Service} (hwf : WF m.kernel) (ha : m.kernel.active = true)
    {object : UInt32} (hchange : m.change s = .block wait object) (hother : OtherReady m) :
    parked m (Machine.finish (performed m s)) wait object = true := by
  have hleaves := finish_leaves hwf ha hchange hother
  have heff := performed_effect hwf.keyed (hwf.current ha) s
  rw [hchange] at heff
  obtain ⟨t, t', -, hb, hup⟩ := heff
  have hsched := Machine.finish_scheduled (performed_keyed hwf ha s)
  obtain ⟨t'', ht'', hset⟩ := hsched.tasks.before hup.1
  obtain ⟨-, hs, hw, ho⟩ : t'.id = t.id ∧ t'.state = .blocked ∧ t'.wait = wait ∧
      t'.waitObject = object := by
    simpa only [BlockedOn, Task.core, Core.mk.injEq] using hb
  have hwaits : t''.waitsOn wait object = true := by
    rw [settled_waitsOn hset, waitsOn_iff]
    exact ⟨hs, hw, ho⟩
  simp [parked, hleaves, ht'', hwaits]

/-! ## Steps that hand nothing over -/

theorem service_released_nil {s : Service} (hwf : WF m.kernel) (ha : m.kernel.active = true)
    (hreg : Registered wait m.kernel) (hwait : wait = .semaphore ∨ wait = .queue)
    (horder : Orderly wait m (m.change s)) (hs : ¬ s.hands wait) (object : UInt32) :
    released m (Machine.finish (performed m s)) wait object = [] := by
  apply released_eq_nil
  intro id t ht hw
  obtain ⟨-, htw, -⟩ := waitsOn_iff.mp hw
  have heff := performed_effect hwf.keyed (hwf.current ha) s
  obtain ⟨t', ht', hr⟩ := effect_waiter hwf.numbered heff hreg horder ht htw
  have hsched := Machine.finish_scheduled (performed_keyed hwf ha s)
  rcases hr with hr | hr
  · exact kept_not_succeeds hsched ht' (by rw [kept_waitsOn hr, hw])
  · refine woken_not_succeeds (Machine.finish_carries _) hwait hs htw hr ht' ?_
    rw [performed_current]
    rintro rfl
    exact hreg.offCpu t ht htw

omit [M68k φ] [GuestBus β] in
theorem rests_released_nil {m' : Machine φ β} (h : Rests m.kernel m')
    (hreg : Registered wait m.kernel) (hwait : wait = .semaphore ∨ wait = .queue)
    (object : UInt32) : released m m' wait object = [] := by
  obtain ⟨k1, hframe, htasks, hsched, hcarries⟩ := h
  apply released_eq_nil
  intro id t ht hw
  obtain ⟨-, htw, -⟩ := waitsOn_iff.mp hw
  obtain ⟨t', ht', hr⟩ := htasks.before ht
  rcases hr with hr | hr
  · exact kept_not_succeeds hsched ht' (by rw [kept_waitsOn hr, hw])
  · refine woken_not_succeeds hcarries hwait (by simp [noHanding]) htw hr ht' ?_
    rw [hframe.current (by simp)]
    rintro rfl
    exact hreg.offCpu t ht htw

omit [M68k φ] [GuestBus β] in
theorem blank_released_nil {m' : Machine φ β} (h : Blank m.kernel) (object : UInt32) :
    released m m' wait object = [] := by
  apply released_eq_nil
  intro id t ht hw
  obtain ⟨hs, -, -⟩ := waitsOn_iff.mp hw
  rcases (h.fresh id t ht).2.2 with hst | hst | hst <;> rw [hst] at hs <;> cases hs

end OpenSaab.Psos
