import OpenSaab.Wake.Conservation

/-!
# Release safety

A held frame leaves the gate only on evidence that the latest wake frame took effect: it was
transmitted, its completion was applied, and the line was restored after that.
-/

namespace OpenSaab.Wake

open Can Runs

/-! ## What the environment shows the gate -/

inductive Observation where
  /-- A wake frame was delivered; a queued one arms the gate again. -/
  | wake (queued : Bool) (now : UInt64)
  | intent (controller : Nat) (tx : Transmission) (now : UInt64)
  | completion (controller : Nat) (ticket : UInt64) (source : CompletionSource) (applied : Bool)
      (now : UInt64)
  | gpio (state : ElectricalState) (now : UInt64)
  deriving DecidableEq

def observed : Op → Reply → List Observation
  | .admitFrame frame now, .admitted (.send _) => if frame.bytes = wake then [.wake false now] else []
  | .popReleasable now, .popped (some frame) =>
    if frame.bytes = wake then [.wake true now] else []
  | .associateIntent controller tx now, _ => [.intent controller tx now]
  | .completed controller ticket source applied now, _ =>
    [.completion controller ticket source applied now]
  | .observeGpio state now, _ => [.gpio state now]
  | _, _ => []

def Observation.isWake : Observation → Bool
  | .wake .. => true
  | _ => false

/-- What was observed since the latest wake frame was delivered. -/
def sinceWake (l : List Observation) : List Observation :=
  l.foldl (fun recent o => if o.isWake then [] else recent ++ [o]) []

/-- When the gate was armed: a queued wake keeps the deadline. -/
def armedAt (l : List Observation) : Option UInt64 :=
  l.foldl (fun armed o =>
    match o with
    | .wake false now => some now
    | _ => armed) none

theorem sinceWake_append {l o : List Observation} (h : ∀ x ∈ o, x.isWake = false) :
    sinceWake (l ++ o) = sinceWake l ++ o := by
  induction o generalizing l with
  | nil => simp
  | cons x o ih =>
    have hx : x.isWake = false := h x List.mem_cons_self
    rw [List.append_cons, ih fun y hy => h y (List.mem_cons_of_mem _ hy)]
    simp [sinceWake, List.foldl_append, hx]

theorem armedAt_append {l o : List Observation} (h : ∀ x ∈ o, ∀ now, x ≠ .wake false now) :
    armedAt (l ++ o) = armedAt l := by
  induction o generalizing l with
  | nil => simp
  | cons x o ih =>
    rw [List.append_cons, ih fun y hy => h y (List.mem_cons_of_mem _ hy)]
    have hx := h x List.mem_cons_self
    unfold armedAt
    rw [List.foldl_append]
    cases x with
    | wake queued now =>
      cases queued with
      | true => rfl
      | false => exact absurd rfl (hx now)
    | _ => rfl

/-! ## The evidence -/

/-- The latest wake was transmitted before the total deadline. -/
def Sent (l : List Observation) (total : UInt64) (tx : Transmission) (sent : UInt64) : Prop :=
  Barrier.exactWake tx = true ∧ List.Sublist [.intent 2 tx sent] (sinceWake l) ∧ sent < total

/-- And it was completed, by the expected source, and that was applied. -/
def Applied (l : List Observation) (source : CompletionSource) (total : UInt64) (tx : Transmission)
    (sent done : UInt64) : Prop :=
  Barrier.exactWake tx = true ∧ sent < total ∧ done < total ∧
    List.Sublist [.intent 2 tx sent, .completion 2 tx.ticket source true done] (sinceWake l)

/-- And the line was restored, later and in time. -/
def Answered (l : List Observation) (source : CompletionSource) (total : UInt64) : Prop :=
  ∃ tx sent done restore answered, Barrier.exactWake tx = true ∧
    List.Sublist [.intent 2 tx sent, .completion 2 tx.ticket source true done,
      .gpio Barrier.restored answered] (sinceWake l) ∧
    sent < total ∧ done < total ∧ checkedAdd done restoreCycles = some restore ∧
      done < answered ∧ answered < restore ∧ answered < total

/-- What the phase of the gate rests on. -/
def Progress (l : List Observation) (source : CompletionSource) (total : UInt64) : Phase → Prop
  | .awaitCompletion ticket => ∃ tx sent, tx.ticket = ticket ∧ Sent l total tx sent
  | .awaitRestore ticket done restore =>
    ∃ tx sent, tx.ticket = ticket ∧ Applied l source total tx sent done ∧
      checkedAdd done restoreCycles = some restore
  | .releasing => Answered l source total
  | _ => True

/-- An active gate was armed, and its phase rests on what was observed. -/
structure Backed (source : CompletionSource) (l : List Observation) (g : Gate) : Prop where
  sources : g.wakeSource = source
  armed : g.phase ≠ .idle → ¬ g.Failed → ∃ armed total, armedAt l = some armed ∧
    checkedAdd armed totalCycles = some total ∧ g.deadline = some total ∧
      Progress l source total g.phase

theorem progress_append {l o : List Observation} {source : CompletionSource} {total : UInt64}
    {phase : Phase} (h : Progress l source total phase) (ho : ∀ x ∈ o, x.isWake = false) :
    Progress (l ++ o) source total phase := by
  have hsub : List.Sublist (sinceWake l) (sinceWake (l ++ o)) := by
    rw [sinceWake_append ho]
    exact List.sublist_append_left _ _
  cases phase with
  | awaitCompletion ticket =>
    obtain ⟨tx, sent, ht, hexact, hs, hlt⟩ := h
    exact ⟨tx, sent, ht, hexact, hs.trans hsub, hlt⟩
  | awaitRestore ticket done restore =>
    obtain ⟨tx, sent, ht, ⟨hexact, h1, h2, hs⟩, hr⟩ := h
    exact ⟨tx, sent, ht, ⟨hexact, h1, h2, hs.trans hsub⟩, hr⟩
  | releasing =>
    obtain ⟨tx, sent, done, restore, answered, hexact, hs, hrest⟩ := h
    exact ⟨tx, sent, done, restore, answered, hexact, hs.trans hsub, hrest⟩
  | _ => trivial

/-- Only a wake can arm the gate. -/
theorem armedAt_quiet {l o : List Observation} (h : ∀ x ∈ o, x.isWake = false) :
    armedAt (l ++ o) = armedAt l := by
  refine armedAt_append ?_
  rintro x hx now rfl
  exact absurd (h _ hx) (by simp [Observation.isWake])

theorem backed_append {source : CompletionSource} {l o : List Observation} {g : Gate}
    (h : Backed source l g) (ho : ∀ x ∈ o, x.isWake = false) : Backed source (l ++ o) g := by
  refine ⟨h.sources, fun hidle hlive => ?_⟩
  obtain ⟨armed, total, ha, ht, hd, hp⟩ := h.armed hidle hlive
  refine ⟨armed, total, ?_, ht, hd, progress_append hp ho⟩
  rw [armedAt_quiet ho, ha]

/-- Only a delivered frame can be a wake. -/
theorem observed_quiet {op : Op} {r : Reply} (hr : r.delivered = []) :
    ∀ x ∈ observed op r, x.isWake = false := by
  intro x hx
  unfold observed at hx
  split at hx
  · simp [Reply.delivered] at hr
  · simp [Reply.delivered] at hr
  all_goals first | (obtain rfl := List.mem_singleton.mp hx; rfl) | cases hx

namespace Gate

variable {g g' : Gate} {op : Op} {r : Reply} {source : CompletionSource} {l : List Observation}

theorem failed_backed {e : String} (h : g.wakeSource = source) {d : Option UInt64} :
    Backed source l { g with phase := .failed e, deadline := d } :=
  ⟨h, fun _ hlive => absurd ⟨e, rfl⟩ hlive⟩

/-- A step that delivers nothing keeps what the gate rests on. -/
theorem backed_step (hg : Backed source l g) (hr : r.delivered = [])
    (hsource : g'.wakeSource = g.wakeSource)
    (hdeadline : g'.phase ≠ .idle → ¬ g'.Failed →
      g.phase ≠ .idle ∧ ¬ g.Failed ∧ g'.deadline = g.deadline)
    (hphase : ∀ total, g.deadline = some total → Progress l source total g.phase →
      Progress (l ++ observed op r) source total g'.phase) :
    Backed source (l ++ observed op r) g' := by
  refine ⟨hsource.trans hg.sources, fun hidle hlive => ?_⟩
  obtain ⟨hidle', hlive', heq⟩ := hdeadline hidle hlive
  obtain ⟨armed, total, ha, ht, hd, hp⟩ := hg.armed hidle' hlive'
  refine ⟨armed, total, ?_, ht, heq.trans hd, hphase total hd hp⟩
  rw [armedAt_quiet (observed_quiet hr), ha]

/-- A gate that is active keeps its deadline from phase to phase. -/
theorem active_of_phase {p : Phase} (h : g.phase = p) (hidle : p ≠ .idle)
    (hlive : ∀ e, p ≠ .failed e) : g.phase ≠ .idle ∧ ¬ g.Failed :=
  ⟨h ▸ hidle, fun ⟨e, he⟩ => hlive e (h ▸ he)⟩

theorem outcome_backed (h : g.Outcome op r g') (hg : Backed source l g) :
    Backed source (l ++ observed op r) g' := by
  have hkeep : r.delivered = [] → ∀ total, Progress l source total g.phase →
      Progress (l ++ observed op r) source total g.phase :=
    fun hr total hp => progress_append hp (observed_quiet hr)
  cases h with
  | failed => exact failed_backed hg.sources
  | stuck h => exact backed_append hg (observed_quiet rfl)
  | quiet hop hr =>
    refine backed_append hg (observed_quiet ?_)
    rcases hr with rfl | rfl <;> rfl
  | sent h hwake =>
    refine backed_append hg fun x hx => ?_
    simp [observed, hwake] at hx
  | @armed frame now d h hwake hd =>
    refine ⟨hg.sources, fun _ _ => ⟨now, d, ?_, hd, rfl, trivial⟩⟩
    simp [observed, hwake, armedAt, List.foldl_append]
  | held hactive hlive hframes hbytes =>
    exact backed_step hg rfl rfl (fun _ _ => ⟨hactive, hlive, rfl⟩) fun total _ => hkeep rfl total
  | ordinaryIntent h hnone =>
    exact backed_step hg rfl rfl (fun hidle hlive => ⟨hidle, hlive, rfl⟩)
      fun total _ => hkeep rfl total
  | @wakeIntent tx now h hexact htime =>
    obtain ⟨hidle, hlive⟩ := active_of_phase h (by simp) (by simp)
    refine backed_step hg rfl rfl (fun _ _ => ⟨hidle, hlive, rfl⟩) fun total hd _ => ?_
    refine ⟨tx, now, rfl, hexact, ?_, htime.1 total hd⟩
    rw [sinceWake_append (observed_quiet rfl)]
    exact List.sublist_append_right _ _
  | ordinaryDone hlive h =>
    exact backed_step hg rfl rfl (fun hidle hlive => ⟨hidle, hlive, rfl⟩)
      fun total _ => hkeep rfl total
  | @wakeDone ticket now d h hnot htime hd =>
    obtain ⟨hidle, hlive⟩ := active_of_phase h (by simp) (by simp)
    refine backed_step hg rfl rfl (fun _ _ => ⟨hidle, hlive, rfl⟩) fun total htotal hp => ?_
    rw [h] at hp
    obtain ⟨tx, sent, rfl, hexact, hs, hlt⟩ := hp
    refine ⟨tx, sent, rfl, ⟨hexact, hlt, htime.1 total htotal, ?_⟩, hd⟩
    rw [sinceWake_append (observed_quiet rfl), hg.sources]
    exact hs.append (List.Sublist.refl [_])
  | @restored ticket completedAt d now h hafter htime =>
    obtain ⟨hidle, hlive⟩ := active_of_phase h (by simp) (by simp)
    refine backed_step hg rfl rfl (fun _ _ => ⟨hidle, hlive, rfl⟩) fun total htotal hp => ?_
    rw [h] at hp
    obtain ⟨tx, sent, rfl, ⟨hexact, hsent, hdone, hs⟩, hr⟩ := hp
    refine ⟨tx, sent, completedAt, d, now, hexact, ?_, hsent, hdone, hr, hafter,
      htime.2 _ _ _ h, htime.1 total htotal⟩
    rw [sinceWake_append (observed_quiet rfl)]
    exact hs.append (List.Sublist.refl [_])
  | drained h hempty => exact ⟨hg.sources, fun hidle => absurd rfl hidle⟩
  | @popped frame rest now h hheld htime =>
    obtain ⟨hidle, hlive⟩ := active_of_phase h (by simp) (by simp)
    refine ⟨hg.sources, fun hidle' _ => ?_⟩
    obtain ⟨armed, total, ha, ht, hd, hp⟩ := hg.armed hidle hlive
    refine ⟨armed, total, ?_, ht, ?_, ?_⟩
    · rw [armedAt_append, ha]
      intro x hx now
      simp only [observed] at hx
      split at hx
      · rw [List.mem_singleton.mp hx]
        simp
      · cases hx
    · exact (if_neg hidle').trans hd
    · -- a queued wake starts over; the gate stays open for any other frame
      by_cases hwake : frame.bytes = wake
      · have hphase : released frame rest = .awaitIntent := if_pos hwake
        simp only [hphase]
        trivial
      · have hphase : released frame rest = .releasing := by
          simp only [released, hwake, if_false] at hidle' ⊢
          split at hidle'
          · exact absurd rfl hidle'
          · next hrest => rw [if_neg hrest]
        simp only [hphase, observed, hwake, if_false, List.append_nil]
        rwa [h] at hp
  | aborted => exact failed_backed hg.sources

/-- Only an open gate releases a frame. -/
theorem outcome_popped {now : UInt64} {frame : SerialFrame}
    (h : g.Outcome (.popReleasable now) (.popped (some frame)) g') :
    g.phase = .releasing ∧ g.Timely now := by
  cases h with
  | quiet hop hr => simp at hr
  | popped h hheld htime => exact ⟨h, htime⟩

end Gate

/-! ## Runs -/

section

variable [Sha256]

/-- What an operation shows of the environment. -/
def observe (b : Barrier) (op : Op) : List Observation := observed op (reply b op)

theorem run_backed {source : CompletionSource} {l : List Observation} {b : Barrier}
    (h : Backed source l b.gate) (ops : List Op) :
    Backed source (l ++ log step observe b ops) (run step b ops).gate := by
  induction ops generalizing l b with
  | nil => simpa [log] using h
  | cons op ops ih =>
    have hstep := Gate.outcome_backed (perform_outcome b op) h
    simpa [log, observe] using ih hstep

/-- Whatever the operations are, a held frame is released only when, since the latest wake frame,
its intent, its applied completion and the restored line were observed, in this order and in
time. -/
theorem release_safe (wake ordinary : CompletionSource) (ops : List Op) (now : UInt64)
    (frame : SerialFrame) :
    let start := Barrier.withCompletionSources wake ordinary
    let l := log step observe start ops
    reply (run step start ops) (.popReleasable now) = .popped (some frame) →
      ∃ armed total, armedAt l = some armed ∧ checkedAdd armed totalCycles = some total ∧
        Answered l wake total ∧ now < total := by
  intro start l h
  have hstart : Backed wake [] start.gate := ⟨rfl, fun hidle => absurd rfl hidle⟩
  have hend := run_backed hstart ops
  have houtcome := perform_outcome (run step start ops) (.popReleasable now)
  rw [h] at houtcome
  obtain ⟨hphase, htime⟩ := Gate.outcome_popped houtcome
  obtain ⟨hidle, hlive⟩ := Gate.active_of_phase hphase (by simp) (by simp)
  obtain ⟨armed, total, ha, ht, hd, hp⟩ := hend.armed hidle hlive
  rw [hphase] at hp
  exact ⟨armed, total, ha, ht, hp, htime.1 total hd⟩

end

section

attribute [local instance] knownDigests

/-- The gate does open. -/
theorem held_frame_is_released :
    reply (run step .new cycle) (.popReleasable 32) = .popped (some heldFrame) ∧
      ∃ armed total, armedAt (log step observe .new cycle) = some armed ∧
        checkedAdd armed totalCycles = some total ∧
          Answered (log step observe .new cycle) .micTranslatedWakeWriteCompatibility total ∧
            32 < total := by
  have h : reply (run step .new cycle) (.popReleasable 32) = .popped (some heldFrame) := by
    decide +kernel
  exact ⟨h, release_safe .micTranslatedWakeWriteCompatibility
    .micByteTransportWriteCompatibility cycle 32 heldFrame h⟩

end

end OpenSaab.Wake
