import OpenSaab.Wake.Conservation

/-!
# Errors close the gate

An error leaves the gate failed, and a failed gate stays as it is. The exception is the clock that
keeps the distances of the frames: it may run over without a word to the gate.
-/

namespace OpenSaab.Wake

open Can Runs

section

variable [Sha256]

namespace Barrier

variable {b : Barrier} {α γ : Type}

/-- The result is no error, or the gate has failed. -/
def Shut (r : Result α) : Prop := ∀ e, r.1 = .error e → r.2.gate.Failed

omit [Sha256] in
theorem shut_ok (a : α) (b : Barrier) : Shut (.ok a, b) := fun _ h => nomatch h

theorem shut_reject (b : Barrier) (reason : String) (now : UInt64) :
    Shut (b.reject reason now : Result α) := by
  intro e _
  unfold reject fail
  split
  · next existing h => exact ⟨existing, h⟩
  · exact ⟨reason, rfl⟩

omit [Sha256] in
theorem Shut.andThen {r : Result α} {f : α → Barrier → Result γ} (h : Shut r)
    (hf : ∀ a b, r = (.ok a, b) → Shut (f a b)) : Shut (r.andThen f) := by
  rcases r with ⟨e | a, b⟩
  · exact fun _ _ => h e rfl
  · exact hf a b rfl

theorem shut_event (b : Barrier) (e : Json.Value) (now : UInt64) : Shut (b.event e now) := by
  unfold event
  split
  · exact shut_reject b _ now
  · exact shut_ok _ _

theorem shut_close (b : Barrier) (now : UInt64) : Shut (b.close now) := by
  unfold close
  split
  · exact shut_reject b _ now
  · exact (shut_event b _ now).andThen fun _ b _ => shut_ok _ _

theorem shut_rearm (b : Barrier) (front : Queued) (now : UInt64) : Shut (b.rearm front now) := by
  unfold rearm
  split
  · exact (shut_event b _ now).andThen fun _ b _ => shut_ok _ _
  · exact shut_ok _ _

theorem shut_release (b : Barrier) (front : Queued) (rest : List Queued) (now : UInt64) :
    Shut (b.release front rest now) := by
  unfold release
  dsimp only
  split
  · exact shut_reject b _ now
  · split
    · exact shut_reject b _ now
    · refine (shut_rearm b front now).andThen fun _ b _ => ?_
      refine (shut_event b _ now).andThen fun _ b _ => ?_
      split
      · exact (shut_close _ now).andThen fun _ b _ => shut_ok _ _
      · exact shut_ok _ _

/-! ## The clock of the releases -/

/-- The time that the distance to the frame before asks for is beyond the clock. -/
def Overdue (b : Barrier) (front : Queued) (now : UInt64) : Prop :=
  2 ^ 64 ≤ (b.releaseClock.getD (now, front.arrivedAt)).1.toNat +
    (front.arrivedAt.toNat - (b.releaseClock.getD (now, front.arrivedAt)).2.toNat)

/-- A release in time, of a frame whose due time is beyond the clock. -/
def ClockOverflows (b : Barrier) : Op → Prop
  | .popReleasable now =>
    b.phase = .releasing ∧ b.lastCycles ≤ now ∧ (∀ d, b.deadline = some d → now < d) ∧
      ∃ front rest, b.queue = front :: rest ∧ b.Overdue front now
  | _ => False

omit [Sha256] in
theorem checkedAdd_none {clock : UInt64 × UInt64} {arrived : UInt64} :
    checkedAdd clock.1 (if clock.2 ≤ arrived then arrived - clock.2 else 0) = none ↔
      2 ^ 64 ≤ clock.1.toNat + (arrived.toNat - clock.2.toNat) := by
  have hdistance : (if clock.2 ≤ arrived then arrived - clock.2 else 0).toNat =
      arrived.toNat - clock.2.toNat := by
    split
    · next h => exact UInt64.toNat_sub_of_le _ _ h
    · next h =>
      have hlt : arrived.toNat < clock.2.toNat := UInt64.lt_iff_toNat_lt.mp (UInt64.not_le.mp h)
      rw [Nat.sub_eq_zero_of_le (Nat.le_of_lt hlt)]
      rfl
  unfold checkedAdd
  rw [hdistance]
  split
  · next h => exact ⟨fun hnone => (nomatch hnone), fun hle => absurd h (Nat.not_lt.mpr hle)⟩
  · next h => exact ⟨fun _ => Nat.not_lt.mp h, fun _ => rfl⟩

theorem shut_tick (b : Barrier) (now : UInt64) : Shut (b.tick now) := by
  rcases b.tick_spec now with ⟨reason, b', -, heq⟩ | ⟨cycles, heq, -, -⟩
  · rw [heq]
    exact shut_reject b' reason now
  · rw [heq]
    exact shut_ok _ _

/-- A gate that releases passes its tick if the clock and the deadline allow it. -/
theorem tick_releasing {now : UInt64} (hphase : b.phase = .releasing) {u : Unit} {b' : Barrier} :
    b.tick now = (.ok u, b') ↔ b' = { b with lastCycles := now } ∧ b.lastCycles ≤ now ∧
      ∀ d, b.deadline = some d → now < d := by
  unfold tick
  split
  · next h => cases h.symm.trans hphase
  · next h => cases h.symm.trans hphase
  split
  · next hclock =>
    refine ⟨fun h => (nomatch (Prod.mk.inj h).1), ?_⟩
    rintro ⟨-, hle, -⟩
    exact absurd hclock (UInt64.not_lt.mpr hle)
  · next hclock =>
    dsimp only
    split
    · next hpast =>
      refine ⟨fun h => (nomatch (Prod.mk.inj h).1), ?_⟩
      rintro ⟨-, -, hall⟩
      obtain ⟨d, hd, hle⟩ := (Option.any_eq_true _ _).mp hpast
      exact absurd (of_decide_eq_true hle) (UInt64.not_le.mpr (hall d hd))
    · next hpast =>
      rw [if_neg (by simp [restoreExpired, hphase])]
      constructor
      · intro h
        refine ⟨(Prod.mk.inj h).2.symm, UInt64.not_lt.mp hclock, ?_⟩
        intro d hd
        rw [hd] at hpast
        simpa using hpast
      · rintro ⟨rfl, -, -⟩
        rfl

/-- What a release does once its tick has passed. -/
theorem popReleasable_releasing {now : UInt64} (hphase : b.phase = .releasing)
    (hclock : b.lastCycles ≤ now) (hdeadline : ∀ d, b.deadline = some d → now < d)
    {front : Queued} {rest : List Queued} (hqueue : b.queue = front :: rest) :
    ∃ b', b'.phase = .releasing ∧ b.popReleasable now =
      match checkedAdd (b.releaseClock.getD (now, front.arrivedAt)).1
          (if (b.releaseClock.getD (now, front.arrivedAt)).2 ≤ front.arrivedAt then
            front.arrivedAt - (b.releaseClock.getD (now, front.arrivedAt)).2 else 0) with
      | none => (.error "Wake serial barrier release clock overflow", b')
      | some due => if now < due then (.ok none, b') else b'.release front rest now := by
  have htick := (tick_releasing (u := ()) hphase).mpr ⟨rfl, hclock, hdeadline⟩
  refine ⟨{ b with
    lastCycles := now, releaseClock := some (b.releaseClock.getD (now, front.arrivedAt)) },
    hphase, ?_⟩
  unfold popReleasable
  rewrite [htick, Result.andThen, if_neg (by simp [hphase]), hqueue]
  rfl

theorem popReleasable_shut {now : UInt64} (h : ¬ b.ClockOverflows (.popReleasable now)) :
    Shut (b.popReleasable now) := by
  by_cases hphase : b.phase = .releasing
  · refine (shut_tick b now).andThen fun u b' htick => ?_
    obtain ⟨rfl, hclock, hdeadline⟩ := (tick_releasing hphase).mp htick
    rw [if_neg (by simp [hphase])]
    split
    · exact (shut_close _ now).andThen fun _ b _ => shut_ok _ _
    · next front rest hqueue =>
      dsimp only
      split
      · next hdue =>
        refine absurd ?_ h
        exact ⟨hphase, hclock, hdeadline, front, rest, hqueue, checkedAdd_none.mp hdue⟩
      · split
        · exact shut_ok _ _
        · exact shut_release _ front rest now
  · unfold popReleasable
    rcases b.tick_spec now with ⟨reason, b', -, heq⟩ | ⟨cycles, heq, -, -⟩
    · rw [heq]
      exact shut_reject b' reason now
    · rw [heq, Result.andThen, if_pos hphase]
      exact shut_ok _ _

/-- The error of the clock leaves the gate open. -/
theorem popReleasable_open {now : UInt64} (h : b.ClockOverflows (.popReleasable now)) :
    (b.popReleasable now).1 = .error "Wake serial barrier release clock overflow" ∧
      (b.popReleasable now).2.phase = .releasing := by
  obtain ⟨hphase, hclock, hdeadline, front, rest, hqueue, hover⟩ := h
  obtain ⟨b', hphase', heq⟩ := popReleasable_releasing hphase hclock hdeadline hqueue
  rw [heq, checkedAdd_none.mpr hover]
  exact ⟨rfl, hphase'⟩

end Barrier

/-! ## Every operation -/

/-- The operations that return a result. -/
def Op.fallible : Op → Bool
  | .abort .. | .takeEvents => false
  | _ => true

variable {b : Barrier}

theorem reply_failed_shut {op : Op} {e : String} (h : reply b op = .failed e)
    (hclock : ¬ b.ClockOverflows op) : (step b op).gate.Failed := by
  have houtcome := perform_outcome b op
  rw [h] at houtcome
  generalize hg : (step b op).gate = g' at houtcome
  cases houtcome with
  | failed => exact ⟨e, rfl⟩
  | @stuck now =>
    rw [← hg]
    refine Barrier.popReleasable_shut hclock e ?_
    change Reply.of .popped (b.popReleasable now).1 = .failed e at h
    cases hr : (b.popReleasable now).1 with
    | error e' =>
      rw [hr] at h
      cases h
      rfl
    | ok a =>
      rw [hr] at h
      cases h
  | quiet hop hr => rcases hr with hr | hr <;> cases hr

/-- What can answer with an error does so on a gate that has failed. -/
theorem perform_fallible {reason : String} (h : b.phase = .failed reason) {op : Op}
    (hop : op.fallible = true) : perform b op = (.failed reason, b) := by
  have htick : ∀ now, b.tick now = (.error reason, b) := by
    intro now
    unfold Barrier.tick
    rw [h]
  cases op with
  | admitFrame frame now =>
    rw [perform, Barrier.admitFrame, htick]
    rfl
  | associateIntent controller tx now =>
    rw [perform, Barrier.associateIntent, htick]
    rfl
  | validateCompletion controller ticket source now =>
    rw [perform, Barrier.validateCompletion, htick]
    rfl
  | completed controller ticket source applied now =>
    rw [perform, Barrier.completed, Barrier.validateCompletion, htick]
    rfl
  | observeGpio state now =>
    rw [perform, Barrier.observeGpio, htick]
    rfl
  | tick now =>
    rw [perform, htick]
    rfl
  | popReleasable now =>
    rw [perform, Barrier.popReleasable, htick]
    rfl
  | abort text now => cases hop
  | takeEvents => cases hop

/-- Nothing happens to a gate that has failed. -/
theorem perform_failed {reason : String} (h : b.phase = .failed reason) (op : Op) :
    (step b op).phase = b.phase ∧ (step b op).queue = b.queue ∧ delivered b op = [] ∧
      (op.fallible → reply b op = .failed reason) := by
  unfold delivered reply step
  cases hop : op.fallible with
  | true =>
    rw [perform_fallible h hop]
    exact ⟨rfl, rfl, rfl, fun _ => rfl⟩
  | false =>
    cases op with
    | abort text now =>
      have hfail : b.fail text now = (reason, b) := by
        unfold Barrier.fail
        rw [h]
      rw [perform, Barrier.abort, hfail]
      exact ⟨rfl, rfl, rfl, fun hf => nomatch hf⟩
    | takeEvents => exact ⟨rfl, rfl, rfl, fun hf => nomatch hf⟩
    | _ => cases hop

/-! ## Runs -/

/-- Whatever comes to a gate that has failed, it stays failed, keeps its queue, releases nothing,
and answers with an error. -/
theorem run_failed (h : b.gate.Failed) (ops : List Op) :
    (run step b ops).gate.Failed ∧ (run step b ops).queue = b.queue ∧ log step delivered b ops = [] ∧
      Each step (fun b op => op.fallible → ∃ e, reply b op = .failed e) b ops := by
  induction ops generalizing b with
  | nil => exact ⟨h, rfl, rfl, trivial⟩
  | cons op ops ih =>
    obtain ⟨reason, hreason⟩ := h
    obtain ⟨hphase, hqueue, hnone, hreply⟩ := perform_failed hreason op
    obtain ⟨hfailed, hkept, hlog, hall⟩ := ih (b := step b op) ⟨reason, hphase.trans hreason⟩
    refine ⟨hfailed, hkept.trans hqueue, ?_, fun hf => ⟨reason, hreply hf⟩, hall⟩
    rw [log, hnone, hlog]
    rfl

/-- An operation on the barrier fails closed unless it releases a frame whose due time the clock
cannot hold. -/
theorem fails_closed_iff (b : Barrier) (op : Op) :
    ((∀ e, reply b op = .failed e → (step b op).gate.Failed) ∧
      (b.gate.Failed → ∀ ops : List Op,
        (run step b ops).gate.Failed ∧ (run step b ops).queue = b.queue ∧
          log step delivered b ops = [] ∧
            Each step (fun b op => op.fallible → ∃ e, reply b op = .failed e) b ops)) ↔
      ¬ b.ClockOverflows op := by
  constructor
  · rintro ⟨hshut, -⟩ hclock
    cases op with
    | popReleasable now =>
      obtain ⟨herror, hphase⟩ := Barrier.popReleasable_open hclock
      have hreply : reply b (.popReleasable now) =
          .failed "Wake serial barrier release clock overflow" := congrArg (Reply.of .popped) herror
      obtain ⟨e, he⟩ := hshut _ hreply
      cases hphase.symm.trans he
    | _ => exact hclock
  · intro hclock
    exact ⟨fun e he => reply_failed_shut he hclock, run_failed⟩

end

/-! ## The end of the clock -/

/-- The digests of the streams of these frames. -/
local instance lateDigests : Sha256 where
  hex bytes :=
    if bytes = hashFrame [] wakeFrame then
      "ad1b0affde80db623af9421051013eae0eb5a1e376a9f7ef94a8d2bb9696ad66"
    else if bytes = hashFrame [] heldFrame then
      "002bac5df71565d4d7be44f93002da1a861c200e9f8218d621b05f162313e159"
    else if bytes = hashFrame (hashFrame [] heldFrame) heldFrame then
      "9c138274334654382d9abfbff7c90b457ba2a4c9b599fefe8bb78db9d4ae9378"
    else "e3b0c44298fc1c149afbf4c8996fb92427ae41e4649b934ca495991b7852b855"

/-- The gate is armed as late as its deadline allows, and holds two frames 100 cycles apart. The first
one is released shortly before the deadline. -/
def lateRelease : List Op :=
  [.admitFrame wakeFrame 18446744073541779455, .associateIntent 2 wakeTx 18446744073541779465,
    .admitFrame heldFrame 18446744073541779475, .admitFrame heldFrame 18446744073541779575,
    .completed 2 7 .micTranslatedWakeWriteCompatibility true 18446744073541780000,
    .observeGpio Barrier.restored 18446744073541780001, .popReleasable 18446744073709551550]

theorem late_release_stays_open :
    ¬ ∀ (b : Barrier) (op : Op) (e : String), reply b op = .failed e → (step b op).gate.Failed := by
  intro h
  obtain ⟨e, he⟩ := h (run step .new lateRelease) (.popReleasable 18446744073709551551)
    "Wake serial barrier release clock overflow" (by decide +kernel)
  have hopen : (step (run step .new lateRelease) (.popReleasable 18446744073709551551)).phase =
      .releasing := by decide +kernel
  cases hopen.symm.trans he

end OpenSaab.Wake
