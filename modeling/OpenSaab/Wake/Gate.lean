import OpenSaab.Wake.Barrier

/-!
# The gate behind the barrier

The barrier without its clocks, hashes and audit is a small machine. `perform_outcome` says all that
an operation can do to it.
-/

namespace OpenSaab.Wake

open Can

structure Gate where
  phase : Phase
  wakeSource : CompletionSource
  ordinarySource : CompletionSource
  deadline : Option UInt64
  held : List SerialFrame
  heldBytes : Nat
  pending : Option UInt64
  deriving DecidableEq

def Barrier.gate (b : Barrier) : Gate where
  phase := b.phase
  wakeSource := b.wakeSource
  ordinarySource := b.ordinarySource
  deadline := b.deadline
  held := b.queue.map Queued.frame
  heldBytes := b.queuedBytes
  pending := b.ordinaryPending

namespace Gate

variable {g : Gate}

def Failed (g : Gate) : Prop := ∃ e, g.phase = .failed e

/-- No deadline has passed. -/
def Timely (g : Gate) (now : UInt64) : Prop :=
  (∀ d, g.deadline = some d → now < d) ∧
    ∀ ticket completedAt d, g.phase = .awaitRestore ticket completedAt d → now < d

/-- The completion of the ordinary intent that is pending. -/
def Ordinary (g : Gate) (ticket : UInt64) (source : CompletionSource) : Prop :=
  g.pending = some ticket ∧ source = g.ordinarySource

/-- The modelled size of a frame. -/
def cost (frame : SerialFrame) : Nat := frame.bytes.length + 1

/-- The phase after the front frame was released. -/
def released (frame : SerialFrame) (rest : List SerialFrame) : Phase :=
  if frame.bytes = wake then .awaitIntent else if rest = [] then .idle else .releasing

/-- The operation is none of the gate's business. -/
def Quiet (g : Gate) : Op → Prop
  | .admitFrame .. | .abort .. => False
  | .associateIntent controller _ _ => g.phase = .idle ∨ controller ≠ 2
  | .completed controller ticket source applied _ =>
    g.phase = .idle ∧ ¬ (g.Ordinary ticket source ∧ controller = 2 ∧ applied) ∨ controller ≠ 2
  | _ => True

/-- What the operations do. -/
inductive Outcome (g : Gate) : Op → Reply → Gate → Prop where
  | failed {op : Op} {e : String} {deadline : Option UInt64} :
      Outcome g op (.failed e) { g with phase := .failed e, deadline }
  | stuck {now : UInt64} {e : String} (h : g.phase = .releasing) :
      Outcome g (.popReleasable now) (.failed e) g
  | quiet {op : Op} {r : Reply} (hop : g.Quiet op) (hr : r = .done ∨ r = .popped none) :
      Outcome g op r g
  | sent {frame : SerialFrame} {now : UInt64} (h : g.phase = .idle) (hwake : frame.bytes ≠ wake) :
      Outcome g (.admitFrame frame now) (.admitted (.send frame)) g
  | armed {frame : SerialFrame} {now d : UInt64} (h : g.phase = .idle) (hwake : frame.bytes = wake)
      (hd : checkedAdd now totalCycles = some d) :
      Outcome g (.admitFrame frame now) (.admitted (.send frame))
        { g with phase := .awaitIntent, deadline := some d }
  | held {frame : SerialFrame} {now : UInt64} (hactive : g.phase ≠ .idle) (hlive : ¬ g.Failed)
      (hframes : g.held.length < maxFrames) (hbytes : cost frame ≤ maxBytes - g.heldBytes) :
      Outcome g (.admitFrame frame now) (.admitted .held)
        { g with held := g.held ++ [frame], heldBytes := g.heldBytes + cost frame }
  | ordinaryIntent {tx : Transmission} {now : UInt64} (h : g.phase = .releasing)
      (hnone : g.pending = none) :
      Outcome g (.associateIntent 2 tx now) .done { g with pending := some tx.ticket }
  | wakeIntent {tx : Transmission} {now : UInt64} (h : g.phase = .awaitIntent)
      (hexact : Barrier.exactWake tx = true) (htime : g.Timely now) :
      Outcome g (.associateIntent 2 tx now) .done { g with phase := .awaitCompletion tx.ticket }
  | ordinaryDone {ticket : UInt64} {source : CompletionSource} {now : UInt64}
      (hlive : ¬ g.Failed) (h : g.Ordinary ticket source) :
      Outcome g (.completed 2 ticket source true now) .done { g with pending := none }
  | wakeDone {ticket now d : UInt64} (h : g.phase = .awaitCompletion ticket)
      (hnot : ¬ g.Ordinary ticket g.wakeSource) (htime : g.Timely now)
      (hd : checkedAdd now restoreCycles = some d) :
      Outcome g (.completed 2 ticket g.wakeSource true now) .done
        { g with phase := .awaitRestore ticket now d }
  | restored {ticket completedAt d now : UInt64} (h : g.phase = .awaitRestore ticket completedAt d)
      (hafter : completedAt < now) (htime : g.Timely now) :
      Outcome g (.observeGpio Barrier.restored now) .done { g with phase := .releasing }
  | drained {now : UInt64} (h : g.phase = .releasing) (hempty : g.held = []) :
      Outcome g (.popReleasable now) (.popped none) { g with phase := .idle, deadline := none }
  | popped {frame : SerialFrame} {rest : List SerialFrame} {now : UInt64}
      (h : g.phase = .releasing) (hheld : g.held = frame :: rest) (htime : g.Timely now) :
      Outcome g (.popReleasable now) (.popped (some frame))
        { g with
          phase := released frame rest
          deadline := if released frame rest = .idle then none else g.deadline
          held := rest
          heldBytes := g.heldBytes - cost frame }
  | aborted {reason e : String} {now : UInt64} :
      Outcome g (.abort reason now) .done { g with phase := .failed e }

end Gate

/-! ## The barrier refines the gate -/

variable [Sha256]

namespace Barrier

variable {b : Barrier}

section

variable {g : Gate} {op : Op} {α : Type} {ok : α → Reply}

/-- The barrier is at `g`, but for its phase and its deadline. -/
abbrev At (b : Barrier) (g : Gate) : Prop :=
  b.gate = { g with phase := b.phase, deadline := b.deadline }

/-- The result of an operation is an outcome of the gate. -/
def Fits (g : Gate) (op : Op) (ok : α → Reply) (r : Result α) : Prop :=
  g.Outcome op (.of ok r.1) r.2.gate

theorem fits_reject (hg : b.At g) (reason : String) (now : UInt64) :
    Fits g op ok (b.reject reason now) := by
  unfold Fits reject fail
  split
  · next existing h =>
    have heq : b.gate = { g with phase := .failed existing, deadline := b.deadline } := h ▸ hg
    rw [heq]
    exact .failed
  · have heq : Barrier.gate { b with
          phase := .failed reason, events := b.events ++ [b.failedEvent reason now] } =
        { g with phase := .failed reason, deadline := b.deadline } :=
      congrArg (fun g' : Gate => { g' with phase := .failed reason }) hg
    rw [heq]
    exact .failed

/-- An event is refused when the audit is full. -/
theorem fits_event (hg : b.At g) {e : Json.Value} {now : UInt64} {f : Unit → Barrier → Result α}
    (h : b.events.length < maxEvents → Fits g op ok (f () { b with events := b.events ++ [e] })) :
    Fits g op ok ((b.event e now).andThen f) := by
  unfold event
  split
  · exact fits_reject hg "Wake serial barrier audit queue full" now
  · next hroom => exact h (Nat.lt_of_not_le hroom)

/-- A tick fails, or finds every deadline ahead and sets the clock. -/
theorem tick_spec (b : Barrier) (now : UInt64) :
    (∃ (reason : String) (b' : Barrier), b'.gate = b.gate ∧ b.tick now = b'.reject reason now) ∨
      ∃ cycles, b.tick now = (.ok (), { b with lastCycles := cycles }) ∧ ¬ b.gate.Failed ∧
        (b.phase ≠ .idle → b.gate.Timely now) := by
  unfold tick
  split
  · next reason h => exact Or.inl ⟨reason, b, rfl, by simp [reject, fail, h]⟩
  · next h =>
    refine Or.inr ⟨b.lastCycles, rfl, ?_, fun hne => absurd h hne⟩
    rintro ⟨e, he⟩
    exact absurd (h.symm.trans he) (by simp)
  · next hfailed hidle =>
    split
    · exact Or.inl ⟨_, b, rfl, rfl⟩
    · dsimp only
      split
      · exact Or.inl ⟨_, { b with lastCycles := now }, rfl, rfl⟩
      · next hdeadline =>
        split
        · exact Or.inl ⟨_, { b with lastCycles := now }, rfl, rfl⟩
        · next hrestore =>
          refine Or.inr ⟨now, rfl, fun ⟨e, he⟩ => hfailed e he, fun _ => ⟨fun d hd => ?_, ?_⟩⟩
          · have hd' : b.deadline = some d := hd
            simpa [hd'] using hdeadline
          · intro ticket completedAt d hphase
            have hphase' : b.phase = .awaitRestore ticket completedAt d := hphase
            simpa [restoreExpired, hphase'] using hrestore

/-- Every operation starts with a tick. -/
theorem fits_tick {now : UInt64} {f : Unit → Barrier → Result α}
    (h : ∀ cycles, ¬ b.gate.Failed → (b.phase ≠ .idle → b.gate.Timely now) →
      Fits b.gate op ok (f () { b with lastCycles := cycles })) :
    Fits b.gate op ok ((b.tick now).andThen f) := by
  rcases b.tick_spec now with ⟨reason, b', hb', heq⟩ | ⟨cycles, heq, hlive, htime⟩
  · rw [heq, ← hb']
    exact fits_reject (by rfl) reason now
  · rw [heq]
    exact h cycles hlive htime

end

/-! ### Admission -/

theorem arm_fits (h : b.phase = .idle) (frame : SerialFrame) (now : UInt64) :
    Fits b.gate (.admitFrame frame now) .admitted (b.arm frame now) := by
  unfold arm
  split
  · next hwake => exact .sent h hwake
  · next hwake =>
    rw [not_not] at hwake
    split
    · exact fits_reject (by rfl) _ now
    · next d hd =>
      refine fits_event (by rfl) fun _ => ?_
      exact .armed h hwake hd

theorem hold_fits (hactive : b.phase ≠ .idle) (hlive : ¬ b.gate.Failed) (frame : SerialFrame)
    (now : UInt64) : Fits b.gate (.admitFrame frame now) .admitted (b.hold frame now) := by
  unfold hold
  dsimp only
  split
  · exact fits_reject (by rfl) _ now
  · split
    · exact fits_reject (by rfl) _ now
    · next hroom =>
      split
      · exact fits_reject (by rfl) _ now
      · rw [not_or, Nat.not_le, Nat.not_lt] at hroom
        refine fits_event (by rfl) fun _ => ?_
        have hgate := @Gate.Outcome.held b.gate frame now hactive hlive
          (by simpa [gate] using hroom.1) hroom.2
        simpa [Fits, gate, Reply.of, Gate.cost] using hgate

theorem admit_fits (b : Barrier) (frame : SerialFrame) (now : UInt64) :
    Fits b.gate (.admitFrame frame now) .admitted (b.admitFrame frame now) := by
  refine fits_tick fun cycles hlive _ => ?_
  split
  · exact fits_reject (by rfl) _ now
  · split
    · next hactive =>
      have hne : b.phase ≠ .idle := by simpa [active] using hactive
      exact @hold_fits _ { b with lastCycles := cycles } hne hlive frame now
    · next hidle =>
      have heq : b.phase = .idle := by simpa [active] using hidle
      exact @arm_fits _ { b with lastCycles := cycles } heq frame now

/-! ### Intents -/

theorem ordinaryIntent_fits (h : b.phase = .releasing) (tx : Transmission) (now : UInt64) :
    Fits b.gate (.associateIntent 2 tx now) (fun _ => .done) (b.ordinaryIntent 2 tx now) := by
  unfold ordinaryIntent
  split
  · exact fits_reject (by rfl) _ now
  · next route hroute =>
    split
    · exact fits_reject (by rfl) _ now
    · next hcond =>
      simp only [not_or, Option.isSome_iff_ne_none, not_not] at hcond
      refine fits_event (by rfl) fun _ => ?_
      exact .ordinaryIntent h hcond.2.1

theorem wakeIntent_fits (htime : b.gate.Timely now) (tx : Transmission) :
    Fits b.gate (.associateIntent 2 tx now) (fun _ => .done) (b.wakeIntent 2 tx now) := by
  unfold wakeIntent
  split
  · exact fits_reject (by rfl) _ now
  · next hexact =>
    rw [not_not] at hexact
    split
    · exact fits_reject (by rfl) _ now
    · split
      · exact fits_reject (by rfl) _ now
      · refine fits_event (by rfl) fun _ => ?_
        exact .wakeIntent hexact.1 hexact.2 htime

theorem associateIntent_fits (b : Barrier) (controller : Nat) (tx : Transmission) (now : UInt64) :
    Fits b.gate (.associateIntent controller tx now) (fun _ => .done)
      (b.associateIntent controller tx now) := by
  refine fits_tick fun cycles _ htime => ?_
  split
  · next hquiet =>
    refine .quiet ?_ (Or.inl rfl)
    simpa [Gate.Quiet, active, gate] using hquiet
  · next hquiet =>
    simp only [active, bne_iff_ne, ne_eq, not_or, not_not] at hquiet
    obtain ⟨hactive, rfl⟩ := hquiet
    split
    · next h => exact @ordinaryIntent_fits _ { b with lastCycles := cycles } h tx now
    · exact @wakeIntent_fits _ { b with lastCycles := cycles } now (htime hactive) tx

/-! ### Completions -/

omit [Sha256] in
theorem ordinaryCompletion_iff {ticket : UInt64} {source : CompletionSource} :
    b.ordinaryCompletion ticket source = true ↔ b.gate.Ordinary ticket source := by
  simp [ordinaryCompletion, Gate.Ordinary, gate]

omit [Sha256] in
theorem wakeCompletion_iff {ticket : UInt64} {source : CompletionSource} :
    b.wakeCompletion ticket source = true ↔
      b.phase = .awaitCompletion ticket ∧ source = b.wakeSource := by
  simp [wakeCompletion]

theorem validateCompletion_fits (b : Barrier) (controller : Nat) (ticket : UInt64)
    (source : CompletionSource) (now : UInt64) :
    Fits b.gate (.validateCompletion controller ticket source now) (fun _ => .done)
      (b.validateCompletion controller ticket source now) := by
  refine fits_tick fun cycles _ _ => ?_
  split
  · exact .quiet trivial (Or.inl rfl)
  · split
    · exact fits_reject (by rfl) _ now
    · exact .quiet trivial (Or.inl rfl)

theorem applyCompletion_fits {now : UInt64} (hlive : ¬ b.gate.Failed) (htime : b.gate.Timely now)
    {ticket : UInt64} {source : CompletionSource} (applied : Bool)
    (hvalid : b.ordinaryCompletion ticket source = true ∨ b.wakeCompletion ticket source = true) :
    Fits b.gate (.completed 2 ticket source applied now) (fun _ => .done)
      (b.applyCompletion 2 ticket source applied now) := by
  unfold applyCompletion
  split
  · exact fits_reject (by rfl) _ now
  · next happlied =>
    rw [not_not] at happlied
    subst happlied
    split
    · next hordinary =>
      refine fits_event (by rfl) fun _ => ?_
      exact .ordinaryDone hlive (ordinaryCompletion_iff.mp hordinary)
    · next hordinary =>
      obtain ⟨hphase, rfl⟩ := wakeCompletion_iff.mp (hvalid.resolve_left hordinary)
      split
      · exact fits_reject (by rfl) _ now
      · next d hd =>
        refine fits_event (by rfl) fun _ => ?_
        exact .wakeDone hphase (fun h => hordinary (ordinaryCompletion_iff.mpr h)) htime hd

theorem completed_fits (b : Barrier) (controller : Nat) (ticket : UInt64)
    (source : CompletionSource) (applied : Bool) (now : UInt64) :
    Fits b.gate (.completed controller ticket source applied now) (fun _ => .done)
      (b.completed controller ticket source applied now) := by
  unfold completed validateCompletion
  rw [Result.andThen_assoc]
  refine fits_tick fun cycles hlive htime => ?_
  split
  · next hquiet =>
    simp only [Result.andThen, if_pos hquiet]
    have hquiet' : b.phase = .idle ∨ controller ≠ 2 := by simpa [active] using hquiet
    split
    · next hcond =>
      obtain ⟨hordinary, rfl, rfl⟩ := hcond
      exact .ordinaryDone hlive (ordinaryCompletion_iff.mp hordinary)
    · next hcond =>
      refine .quiet ?_ (Or.inl rfl)
      rcases hquiet' with hidle | hother
      · refine Or.inl ⟨hidle, fun ⟨hordinary, h2, happlied⟩ => hcond ⟨?_, h2, happlied⟩⟩
        exact ordinaryCompletion_iff.mpr hordinary
      · exact Or.inr hother
  · next hquiet =>
    split
    · exact fits_reject (by rfl) _ now
    · next hvalid =>
      simp only [Result.andThen, if_neg hquiet]
      simp only [active, bne_iff_ne, ne_eq, not_or, not_not] at hquiet
      obtain ⟨hactive, rfl⟩ := hquiet
      rw [not_and_or, not_not, not_not] at hvalid
      exact @applyCompletion_fits _ { b with lastCycles := cycles } now hlive (htime hactive) _ _ _
        hvalid

/-! ### The restored line -/

theorem observeGpio_fits (b : Barrier) (state : ElectricalState) (now : UInt64) :
    Fits b.gate (.observeGpio state now) (fun _ => .done) (b.observeGpio state now) := by
  refine fits_tick fun cycles _ htime => ?_
  split
  · next ticket completedAt d hphase =>
    split
    · exact .quiet trivial (Or.inl rfl)
    · next hcond =>
      rw [not_or, not_not] at hcond
      obtain ⟨hafter, rfl⟩ := hcond
      refine fits_event (by rfl) fun _ => ?_
      have hphase' : b.phase = .awaitRestore ticket completedAt d := hphase
      exact .restored hphase' (UInt64.not_le.mp hafter) (htime (by simp [hphase']))
  · exact .quiet trivial (Or.inl rfl)

/-! ### Release -/

/-- A gate that is drained closes, unless the audit or the counts forbid it. -/
theorem drain_fits (h : b.phase = .releasing) (hempty : b.queue = []) (now : UInt64) :
    Fits b.gate (.popReleasable now) .popped
      ((b.close now).andThen fun _ b => (.ok none, b)) := by
  unfold close
  split
  · exact fits_reject (by rfl) "Wake serial barrier queued/released stream mismatch" now
  · rw [Result.andThen_assoc]
    refine fits_event (by rfl) fun _ => ?_
    exact .drained h (by simp [gate, hempty])

/-- The close after the last release succeeds: all its checks were made before the release. -/
theorem close_ok (hcount : b.queuedCount = b.releasedCount)
    (hhash : Sha256.hex b.queuedHash = Sha256.hex b.releasedHash)
    (hroom : b.events.length < maxEvents) (now : UInt64) :
    b.close now =
      (.ok (), { b with
        phase := .idle, deadline := none, releaseClock := none
        events := b.events ++ [b.drainedEvent now] }) := by
  unfold close event
  rw [if_neg (by simp [hcount, hhash]), if_neg (Nat.not_le.mpr hroom)]
  rfl

theorem release_fits {front : Queued} {rest : List Queued} {now : UInt64}
    (h : b.phase = .releasing) (hqueue : b.queue = front :: rest) (htime : b.gate.Timely now) :
    Fits b.gate (.popReleasable now) .popped (b.release front rest now) := by
  have hheld : b.gate.held = front.frame :: rest.map Queued.frame := by simp [gate, hqueue]
  have hpop := Gate.Outcome.popped h hheld htime
  unfold release
  dsimp only
  split
  · exact fits_reject (by rfl) _ now
  · next hroom =>
    split
    · exact fits_reject (by rfl) _ now
    · next hcheck =>
      unfold rearm
      split
      · next hwake =>
        rw [Result.andThen_assoc]
        refine fits_event (by rfl) fun _ => ?_
        refine fits_event (by rfl) fun _ => ?_
        rw [if_neg (by simp [hwake])]
        simpa [Fits, gate, Reply.of, Gate.released, Gate.cost, hwake] using hpop
      · next hwake =>
        refine fits_event (by rfl) fun _ => ?_
        by_cases hrest : rest = []
        · subst hrest
          simp only [List.isEmpty_nil, true_and, not_or, not_not] at hcheck
          have hlt : b.events.length + 1 < maxEvents := by
            simp only [List.isEmpty_nil, requiredEvents, Bool.true_or, if_true, maxEvents] at hroom ⊢
            omega
          rw [if_pos (by simp [hwake]), close_ok hcheck.1 hcheck.2 (by simpa using hlt)]
          simpa [Fits, gate, Reply.of, Gate.released, Gate.cost, hwake, Result.andThen] using hpop
        · rw [if_neg (by simp [hrest])]
          simpa [Fits, gate, Reply.of, Gate.released, Gate.cost, hwake, hrest, h] using hpop

theorem popReleasable_fits (b : Barrier) (now : UInt64) :
    Fits b.gate (.popReleasable now) .popped (b.popReleasable now) := by
  refine fits_tick fun cycles _ htime => ?_
  split
  · exact .quiet trivial (Or.inr rfl)
  · next hphase =>
    have h : b.phase = .releasing := by simpa using hphase
    split
    · next hempty =>
      exact @drain_fits _ { b with lastCycles := cycles } h hempty now
    · next front rest hqueue =>
      dsimp only
      split
      · exact .stuck h
      · next due hdue =>
        split
        · exact .quiet trivial (Or.inr rfl)
        · refine @release_fits _ { b with lastCycles := cycles, releaseClock := _ } front rest now
            h hqueue (htime (by simp [h]))

end Barrier

/-- Every operation of the barrier is an outcome of the gate. -/
theorem perform_outcome (b : Barrier) (op : Op) :
    b.gate.Outcome op (reply b op) (step b op).gate := by
  cases op with
  | admitFrame frame now => exact b.admit_fits frame now
  | associateIntent controller tx now => exact b.associateIntent_fits controller tx now
  | validateCompletion controller ticket source now =>
    exact b.validateCompletion_fits controller ticket source now
  | completed controller ticket source applied now =>
    exact b.completed_fits controller ticket source applied now
  | observeGpio state now => exact b.observeGpio_fits state now
  | tick now =>
    rcases b.tick_spec now with ⟨reason, b', hb', heq⟩ | ⟨cycles, heq, -, -⟩
    · have hfits : Barrier.Fits b'.gate (.tick now) (fun _ => .done)
          (b'.reject reason now : Result Unit) := Barrier.fits_reject (by rfl) reason now
      rw [hb', ← heq] at hfits
      exact hfits
    · show b.gate.Outcome (.tick now) (.of (fun _ => .done) (b.tick now).1) (b.tick now).2.gate
      rw [heq]
      exact .quiet trivial (Or.inl rfl)
  | popReleasable now => exact b.popReleasable_fits now
  | abort reason now =>
    show b.gate.Outcome (.abort reason now) .done (b.fail reason now).2.gate
    unfold Barrier.fail
    split
    · next existing h =>
      have hg : b.gate = { b.gate with phase := .failed existing } := by simp [Barrier.gate, h]
      nth_rewrite 2 [hg]
      exact .aborted
    · exact .aborted
  | takeEvents => exact .quiet trivial (Or.inl rfl)

end OpenSaab.Wake
