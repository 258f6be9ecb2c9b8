import OpenSaab.Wake.Conservation
import Mathlib.Data.List.Perm.Basic

/-!
# Completions that the gate refuses

A completion that reaches an active gate is refused unless it answers an intent that the gate has
seen while it was active. The gate remembers no intent from the time when it was idle.
-/

namespace OpenSaab.Wake

open Can Runs

/-! ## The intents that a history leaves open -/

inductive Note where
  | sent (ticket : UInt64) (source : CompletionSource)
  | answered (ticket : UInt64) (source : CompletionSource)
  deriving DecidableEq

/-- The source that the gate expects to complete an intent. -/
def Gate.expected (g : Gate) : CompletionSource :=
  if g.phase = .releasing then g.ordinarySource else g.wakeSource

/-- The intents of controller 2 count from the active gate only, its completions always. -/
def Gate.note (g : Gate) : Op → List Note
  | .associateIntent controller tx _ =>
    if controller = 2 ∧ g.phase ≠ .idle then [.sent tx.ticket g.expected] else []
  | .completed controller ticket source applied _ =>
    if controller = 2 ∧ applied then [.answered ticket source] else []
  | _ => []

def note (b : Barrier) (op : Op) : List Note := b.gate.note op

/-- The tickets that no completion has answered, each with its source. -/
def owed (l : List Note) : List (UInt64 × CompletionSource) :=
  l.foldl (fun left n =>
    match n with
    | .sent ticket source => left ++ [(ticket, source)]
    | .answered ticket source => left.erase (ticket, source)) []

@[simp] theorem owed_sent (l : List Note) (ticket : UInt64) (source : CompletionSource) :
    owed (l ++ [.sent ticket source]) = owed l ++ [(ticket, source)] := by
  simp [owed, List.foldl_append]

@[simp] theorem owed_answered (l : List Note) (ticket : UInt64) (source : CompletionSource) :
    owed (l ++ [.answered ticket source]) = (owed l).erase (ticket, source) := by
  simp [owed, List.foldl_append]

namespace Gate

variable {g g' : Gate} {op : Op} {r : Reply} {l : List Note}

def ordinaryOwed (g : Gate) : List (UInt64 × CompletionSource) :=
  g.pending.toList.map fun ticket => (ticket, g.ordinarySource)

def wakeOwed (g : Gate) : List (UInt64 × CompletionSource) :=
  match g.phase with
  | .awaitCompletion ticket => [(ticket, g.wakeSource)]
  | _ => []

/-- What the history leaves open is what the gate waits for. -/
def Owes (l : List Note) (g : Gate) : Prop :=
  ¬ g.Failed → (owed l).Perm (g.ordinaryOwed ++ g.wakeOwed)

theorem mem_ordinaryOwed {ticket : UInt64} {source : CompletionSource} :
    (ticket, source) ∈ g.ordinaryOwed ↔ g.Ordinary ticket source := by
  simp [ordinaryOwed, Ordinary, eq_comm]

theorem mem_wakeOwed {ticket : UInt64} {source : CompletionSource} :
    (ticket, source) ∈ g.wakeOwed ↔ g.phase = .awaitCompletion ticket ∧ source = g.wakeSource := by
  unfold wakeOwed
  split
  · next other h => simp [h, eq_comm]
  · next h =>
    simp only [List.not_mem_nil, false_iff, not_and]
    exact fun hphase => absurd hphase (h ticket)

theorem released_not_awaiting (frame : SerialFrame) (rest : List SerialFrame) (ticket : UInt64) :
    released frame rest ≠ .awaitCompletion ticket := by
  unfold released
  split
  · simp
  · split <;> simp

/-- A step that is neither an intent nor a completion. -/
theorem owes_step (hl : Owes l g) (hnote : g.note op = []) (hlive : ¬ g'.Failed → ¬ g.Failed)
    (hordinary : g'.ordinaryOwed = g.ordinaryOwed)
    (hwake : ¬ g'.Failed → g'.wakeOwed = g.wakeOwed) : Owes (l ++ g.note op) g' := by
  intro h
  rw [hnote, List.append_nil, hordinary, hwake h]
  exact hl (hlive h)

/-- A completion that nobody waits for answers nothing. -/
theorem owes_quiet (hl : Owes l g) (hop : g.Quiet op) : Owes (l ++ g.note op) g := by
  intro h
  cases op with
  | associateIntent controller tx now =>
    have hnote : g.note (.associateIntent controller tx now) = [] := by
      rcases hop with hidle | hother
      · simp [note, hidle]
      · simp [note, hother]
    rw [hnote, List.append_nil]
    exact hl h
  | completed controller ticket source applied now =>
    by_cases hmine : controller = 2 ∧ applied = true
    · obtain ⟨rfl, rfl⟩ := hmine
      obtain ⟨hidle, hnot⟩ := hop.resolve_right (by simp)
      have hmem : (ticket, source) ∉ owed l := by
        rw [(hl h).mem_iff, List.mem_append, mem_ordinaryOwed, mem_wakeOwed]
        rintro (hordinary | ⟨hphase, -⟩)
        · exact hnot ⟨hordinary, rfl, rfl⟩
        · rw [hidle] at hphase
          cases hphase
      simp only [note, and_self, if_true, owed_answered]
      rw [List.erase_of_not_mem hmem]
      exact hl h
    · simp only [note, if_neg hmine, List.append_nil]
      exact hl h
  | _ => simpa [note] using hl h

theorem outcome_owes (h : g.Outcome op r g') (hl : Owes l g) : Owes (l ++ g.note op) g' := by
  cases h with
  | failed => exact fun hlive => absurd ⟨_, rfl⟩ hlive
  | stuck h => exact owes_step hl rfl id rfl fun _ => rfl
  | quiet hop hr => exact owes_quiet hl hop
  | sent h hwake => exact owes_step hl rfl id rfl fun _ => rfl
  | armed h hwake hd =>
    exact owes_step hl rfl (fun _ ⟨e, he⟩ => by simp [h] at he) rfl fun _ => by simp [wakeOwed, h]
  | held hactive hlive hroom hcost => exact owes_step hl rfl id rfl fun _ => rfl
  | @ordinaryIntent tx now h hnone =>
    intro hlive
    have hperm := hl hlive
    have hnote : g.note (.associateIntent 2 tx now) = [.sent tx.ticket g.ordinarySource] := by
      simp [note, expected, h]
    rw [hnote, owed_sent]
    simp only [ordinaryOwed, hnone, Option.toList, List.map_nil, List.nil_append, wakeOwed, h]
      at hperm ⊢
    exact hperm.append_right _
  | @wakeIntent tx now h hexact htime =>
    intro _
    have hperm := hl (fun ⟨e, he⟩ => by simp [h] at he)
    have hnote : g.note (.associateIntent 2 tx now) = [.sent tx.ticket g.wakeSource] := by
      simp [note, expected, h]
    rw [hnote, owed_sent]
    have hnil : g.wakeOwed = [] := by simp [wakeOwed, h]
    rw [hnil, List.append_nil] at hperm
    exact hperm.append_right _
  | @ordinaryDone ticket source now hlive h =>
    intro _
    obtain ⟨hpending, rfl⟩ := h
    have hperm := hl hlive
    have hnote : g.note (.completed 2 ticket g.ordinarySource true now) =
        [.answered ticket g.ordinarySource] := by simp [note]
    rw [hnote, owed_answered]
    have hcons : g.ordinaryOwed = [(ticket, g.ordinarySource)] := by simp [ordinaryOwed, hpending]
    rw [hcons] at hperm
    simpa [ordinaryOwed, wakeOwed] using hperm.erase (ticket, g.ordinarySource)
  | @wakeDone ticket now d h hnot htime hd =>
    intro _
    have hperm := hl (fun ⟨e, he⟩ => by simp [h] at he)
    have hnote : g.note (.completed 2 ticket g.wakeSource true now) =
        [.answered ticket g.wakeSource] := by simp [note]
    rw [hnote, owed_answered]
    have hcons : g.wakeOwed = [(ticket, g.wakeSource)] := by simp [wakeOwed, h]
    have herase := hperm.erase (ticket, g.wakeSource)
    rw [List.erase_append_right _ (fun hmem => hnot (mem_ordinaryOwed.mp hmem)), hcons] at herase
    simpa [wakeOwed, ordinaryOwed] using herase
  | restored h hafter htime =>
    exact owes_step hl rfl (fun _ ⟨e, he⟩ => by simp [h] at he) rfl fun _ => by simp [wakeOwed, h]
  | drained h hempty =>
    exact owes_step hl rfl (fun _ ⟨e, he⟩ => by simp [h] at he) rfl fun _ => by simp [wakeOwed, h]
  | @popped frame rest now h hheld htime =>
    refine owes_step hl rfl (fun _ ⟨e, he⟩ => by simp [h] at he) rfl fun _ => ?_
    simp only [wakeOwed, h]
    split
    · next ticket hphase => exact absurd hphase (released_not_awaiting frame rest ticket)
    · rfl
  | aborted => exact fun hlive => absurd ⟨_, rfl⟩ hlive

end Gate

/-! ## Who reports a mismatch -/

section

variable [Sha256]

omit [Sha256] in
theorem Result.andThen_ok (r : Result Unit) : (r.andThen fun _ b => (.ok (), b)) = r := by
  obtain ⟨r, b⟩ := r
  cases r <;> rfl

namespace Barrier

variable {b : Barrier} {α : Type}

/-- The tests that `tick` makes while the gate is active. -/
def onTime (b : Barrier) (now : UInt64) : Bool :=
  !(now < b.lastCycles) && !(b.deadline.any (· ≤ now)) && !b.restoreExpired now

/-- The operation does not report a mismatch. -/
def Clean (r : Result α) : Prop := r.1 ≠ .error mismatch

omit [Sha256] in
theorem clean_ok (a : α) (b : Barrier) : Clean (.ok a, b) := nofun

theorem reject_error (hlive : ¬ b.gate.Failed) (reason : String) (now : UInt64) :
    (b.reject reason now : Result α).1 = .error reason := by
  unfold reject fail
  split
  · next existing h => exact absurd ⟨existing, h⟩ hlive
  · rfl

theorem clean_reject (hlive : ¬ b.gate.Failed) {reason : String} (hne : reason ≠ mismatch)
    (now : UInt64) : Clean (b.reject reason now : Result α) := by
  unfold Clean
  rw [reject_error hlive]
  exact fun h => hne (Except.error.inj h)

theorem clean_event (hlive : ¬ b.gate.Failed) {e : Json.Value} {now : UInt64}
    {f : Unit → Barrier → Result α}
    (h : ∀ b', ¬ b'.gate.Failed → Clean (f () b')) : Clean ((b.event e now).andThen f) := by
  unfold event
  split
  · show Clean (b.reject "Wake serial barrier audit queue full" now : Result α)
    exact clean_reject hlive (by simp [mismatch]) now
  · exact h _ hlive

/-- A tick fails for a reason of its own, or the gate goes on. -/
theorem tick_cases (b : Barrier) (now : UInt64) (hlive : ¬ b.gate.Failed) :
    (b.phase ≠ .idle ∧ b.onTime now = false ∧
        ∃ e b', e ≠ mismatch ∧ b.tick now = (.error e, b')) ∨
      ∃ cycles, b.tick now = (.ok (), { b with lastCycles := cycles }) ∧
        (b.phase ≠ .idle → b.onTime now = true) := by
  unfold tick
  split
  · next reason h => exact absurd ⟨reason, h⟩ hlive
  · next h => exact Or.inr ⟨b.lastCycles, rfl, fun hne => absurd h hne⟩
  · next hfailed hidle =>
    have herror : ∀ (b' : Barrier) (reason : String), b'.gate = b.gate → reason ≠ mismatch →
        ∃ e b'', e ≠ mismatch ∧ (b'.reject reason now : Result Unit) = (.error e, b'') := by
      intro b' reason hb' hne
      refine ⟨reason, _, hne, Prod.ext (reject_error (hb' ▸ hlive) reason now) rfl⟩
    split
    · next hclock => exact Or.inl ⟨hidle, by simp [onTime, hclock], herror b _ rfl (by simp [mismatch])⟩
    · next hclock =>
      dsimp only
      split
      · next hdeadline =>
        exact Or.inl ⟨hidle, by simp [onTime, hdeadline], herror _ _ rfl (by simp [mismatch])⟩
      · next hdeadline =>
        split
        · next hrestore =>
          have hlate : b.restoreExpired now = true := hrestore
          exact Or.inl ⟨hidle, by simp [onTime, hlate], herror _ _ rfl (by simp [mismatch])⟩
        · next hrestore =>
          have hsoon : b.restoreExpired now = false := Bool.eq_false_iff.mpr hrestore
          exact Or.inr ⟨now, rfl, fun _ => by simp [onTime, hclock, hdeadline, hsoon]⟩

theorem clean_tick (hlive : ¬ b.gate.Failed) {now : UInt64} {f : Unit → Barrier → Result α}
    (h : ∀ b', ¬ b'.gate.Failed → Clean (f () b')) : Clean ((b.tick now).andThen f) := by
  rcases b.tick_cases now hlive with ⟨-, -, e, b', hne, heq⟩ | ⟨cycles, heq, -⟩
  · rw [heq]
    exact fun h => hne (Except.error.inj h)
  · rw [heq]
    exact h _ hlive

theorem admit_clean (hlive : ¬ b.gate.Failed) (frame : SerialFrame) (now : UInt64) :
    Clean (b.admitFrame frame now) := by
  refine clean_tick hlive fun b hlive => ?_
  split
  · exact clean_reject hlive (by simp [mismatch]) now
  · split
    · unfold hold
      dsimp only
      split
      · exact clean_reject hlive (by simp [mismatch]) now
      · split
        · exact clean_reject hlive (by simp [mismatch]) now
        · split
          · exact clean_reject hlive (by simp [mismatch]) now
          · exact clean_event hlive fun _ _ => clean_ok _ _
    · unfold arm
      split
      · exact clean_ok _ _
      · split
        · exact clean_reject hlive (by simp [mismatch]) now
        · refine clean_event ?_ fun _ _ => clean_ok _ _
          simp [Gate.Failed, gate]

omit [Sha256] in
/-- The texts of the errors that the route guard gives its own reason to. -/
theorem rejected_ne_mismatch (e : String) :
    "Wake serial barrier ordinary electrical route rejected: " ++ e ≠ mismatch ∧
      "Wake serial barrier electrical route rejected: " ++ e ≠ mismatch := by
  constructor
  all_goals
    intro h
    have htake := congrArg (fun text => text.toList.take 21) h
    simp [mismatch] at htake

theorem associateIntent_clean (hlive : ¬ b.gate.Failed) (controller : Nat) (tx : Transmission)
    (now : UInt64) : Clean (b.associateIntent controller tx now) := by
  refine clean_tick hlive fun b hlive => ?_
  split
  · exact clean_ok _ _
  · split
    · unfold ordinaryIntent
      split
      · exact clean_reject hlive (rejected_ne_mismatch _).1 now
      · split
        · exact clean_reject hlive (by simp [mismatch]) now
        · exact clean_event hlive fun _ _ => clean_ok _ _
    · unfold wakeIntent
      split
      · exact clean_reject hlive (by simp [mismatch]) now
      · split
        · exact clean_reject hlive (rejected_ne_mismatch _).2 now
        · split
          · exact clean_reject hlive (by simp [mismatch]) now
          · exact clean_event hlive fun _ _ => clean_ok _ _

theorem observeGpio_clean (hlive : ¬ b.gate.Failed) (state : ElectricalState) (now : UInt64) :
    Clean (b.observeGpio state now) := by
  refine clean_tick hlive fun b hlive => ?_
  split
  · split
    · exact clean_ok _ _
    · exact clean_event hlive fun _ _ => clean_ok _ _
  · exact clean_ok _ _

theorem close_clean (hlive : ¬ b.gate.Failed) (now : UInt64) (frame : Option SerialFrame) :
    Clean ((b.close now).andThen fun _ b => (.ok frame, b)) := by
  unfold close
  split
  · show Clean (b.reject "Wake serial barrier queued/released stream mismatch" now : Result _)
    exact clean_reject hlive (by simp [mismatch]) now
  · rw [Result.andThen_assoc]
    exact clean_event hlive fun _ _ => clean_ok _ _

theorem release_clean (hlive : ¬ b.gate.Failed) (front : Queued) (rest : List Queued)
    (now : UInt64) : Clean (b.release front rest now) := by
  unfold release
  dsimp only
  split
  · exact clean_reject hlive (by simp [mismatch]) now
  · split
    · exact clean_reject hlive (by simp [mismatch]) now
    · unfold rearm
      split
      · next hwake =>
        rw [Result.andThen_assoc]
        refine clean_event hlive fun b _ => ?_
        refine clean_event (by simp [Gate.Failed, gate]) fun b _ => ?_
        rw [if_neg (by simp [hwake])]
        exact clean_ok _ _
      · refine clean_event hlive fun b hlive => ?_
        split
        · exact close_clean (by exact hlive) now _
        · exact clean_ok _ _

theorem popReleasable_clean (hlive : ¬ b.gate.Failed) (now : UInt64) :
    Clean (b.popReleasable now) := by
  refine clean_tick hlive fun b hlive => ?_
  split
  · exact clean_ok _ _
  · split
    · exact close_clean hlive now none
    · dsimp only
      split
      · exact fun h => absurd (Except.error.inj h) (by simp [mismatch])
      · split
        · exact clean_ok _ _
        · exact release_clean (by exact hlive) _ _ now

theorem applyCompletion_clean (hlive : ¬ b.gate.Failed) (controller : Nat) (ticket : UInt64)
    (source : CompletionSource) (applied : Bool) (now : UInt64) :
    Clean (b.applyCompletion controller ticket source applied now) := by
  unfold applyCompletion
  split
  · exact clean_reject hlive (by simp [mismatch]) now
  · split
    · exact clean_event hlive fun _ _ => clean_ok _ _
    · split
      · exact clean_reject hlive (by simp [mismatch]) now
      · exact clean_event hlive fun _ _ => clean_ok _ _

/-- A completion of controller 2 that reaches an active gate, and that the gate does not wait
for. -/
def Refused (b : Barrier) (controller : Nat) (ticket : UInt64) (source : CompletionSource)
    (now : UInt64) : Prop :=
  controller = 2 ∧ b.phase ≠ .idle ∧ b.onTime now = true ∧
    ¬ (b.ordinaryCompletion ticket source = true ∨ b.wakeCompletion ticket source = true)

/-- The preflight reports a mismatch, or fails for another reason, or lets the operation go on. -/
theorem validate_cases (b : Barrier) (hlive : ¬ b.gate.Failed) (controller : Nat) (ticket : UInt64)
    (source : CompletionSource) (now : UInt64) :
    (b.Refused controller ticket source now ∧
        ∃ b', b.validateCompletion controller ticket source now = (.error mismatch, b')) ∨
      ¬ b.Refused controller ticket source now ∧
        ((∃ e b', e ≠ mismatch ∧
            b.validateCompletion controller ticket source now = (.error e, b')) ∨
          ∃ b', ¬ b'.gate.Failed ∧
            b.validateCompletion controller ticket source now = (.ok (), b')) := by
  unfold validateCompletion
  rcases b.tick_cases now hlive with ⟨-, hlate, e, b', hne, heq⟩ | ⟨cycles, heq, htime⟩
  · refine Or.inr ⟨fun ⟨_, _, hsoon, _⟩ => ?_, Or.inl ⟨e, b', hne, by rw [heq]; rfl⟩⟩
    rw [hlate] at hsoon
    cases hsoon
  · rw [heq]
    dsimp only [Result.andThen]
    split
    · next hquiet =>
      refine Or.inr ⟨fun ⟨hcontroller, hactive, _⟩ => ?_, Or.inr ⟨_, by exact hlive, rfl⟩⟩
      have hquiet' : b.phase = .idle ∨ controller ≠ 2 := by simpa [active] using hquiet
      exact hquiet'.elim hactive (fun h => h hcontroller)
    · next hactive =>
      have hactive' : b.phase ≠ .idle ∧ controller = 2 := by simpa [active] using hactive
      split
      · next hnone =>
        refine Or.inl ⟨⟨hactive'.2, hactive'.1, htime hactive'.1, not_or.mpr hnone⟩, ?_⟩
        exact ⟨_, Prod.ext (reject_error (by exact hlive) mismatch now) rfl⟩
      · next hsome =>
        refine Or.inr ⟨fun ⟨_, _, _, hnone⟩ => ?_, Or.inr ⟨_, by exact hlive, rfl⟩⟩
        exact hsome (not_or.mp hnone)

/-- The preflight is the only place that reports a mismatch. -/
theorem validate_mismatch (hlive : ¬ b.gate.Failed) {controller : Nat} {ticket : UInt64}
    {source : CompletionSource} {now : UInt64} {f : Unit → Barrier → Result α}
    (hf : ∀ b', ¬ b'.gate.Failed → Clean (f () b')) :
    ((b.validateCompletion controller ticket source now).andThen f).1 = .error mismatch ↔
      b.Refused controller ticket source now := by
  rcases b.validate_cases hlive controller ticket source now with
    ⟨hrefused, b', heq⟩ | ⟨hnot, ⟨e, b', hne, heq⟩ | ⟨b', hlive', heq⟩⟩
  · rw [heq]
    exact iff_of_true rfl hrefused
  · rw [heq]
    exact iff_of_false (fun h => hne (Except.error.inj h)) hnot
  · rw [heq]
    exact iff_of_false (hf b' hlive') hnot

theorem completed_mismatch (hlive : ¬ b.gate.Failed) {controller : Nat} {ticket : UInt64}
    {source : CompletionSource} {applied : Bool} {now : UInt64} :
    (b.completed controller ticket source applied now).1 = .error mismatch ↔
      b.Refused controller ticket source now := by
  refine validate_mismatch hlive fun b hlive => ?_
  split
  · split
    · exact clean_ok _ _
    · exact clean_ok _ _
  · exact applyCompletion_clean hlive controller ticket source applied now

end Barrier

/-! ## Runs -/

/-- The completion that an operation brings. -/
def Op.completion : Op → Option (Nat × UInt64 × CompletionSource × UInt64)
  | .validateCompletion controller ticket source now
  | .completed controller ticket source _ now => some (controller, ticket, source, now)
  | _ => none

/-- The operation makes the gate fail with a ticket or source mismatch. -/
def Mismatched (b : Barrier) (op : Op) : Prop :=
  ¬ b.gate.Failed ∧ reply b op = .failed Barrier.mismatch

omit [Sha256] in
theorem reply_of_error {α : Type} {ok : α → Reply} (hok : ∀ a e, ok a ≠ .failed e)
    {r : Except String α} {e : String} : Reply.of ok r = .failed e ↔ r = .error e := by
  cases r with
  | error e' => simp [Reply.of]
  | ok a => simpa [Reply.of] using hok a e

theorem mismatched_iff (b : Barrier) (op : Op) :
    Mismatched b op ↔ ¬ b.gate.Failed ∧ ∃ controller ticket source now,
      op.completion = some (controller, ticket, source, now) ∧
        b.Refused controller ticket source now := by
  refine and_congr_right fun hlive => ?_
  have hclean : ∀ {α : Type} {ok : α → Reply} {r : Result α}, (∀ a e, ok a ≠ .failed e) →
      Barrier.Clean r → ¬ Reply.of ok r.1 = .failed Barrier.mismatch :=
    fun hok hr h => hr ((reply_of_error hok).mp h)
  have hother : op.completion = none → ¬ ∃ controller ticket source now,
      op.completion = some (controller, ticket, source, now) ∧
        b.Refused controller ticket source now := by
    rintro hnone ⟨controller, ticket, source, now, hsome, -⟩
    rw [hnone] at hsome
    cases hsome
  have hself : ∀ {controller ticket source now},
      op.completion = some (controller, ticket, source, now) →
        (b.Refused controller ticket source now ↔ ∃ controller ticket source now,
          op.completion = some (controller, ticket, source, now) ∧
            b.Refused controller ticket source now) := by
    intro controller ticket source now hsome
    simp [hsome, and_assoc]
  cases op with
  | admitFrame frame now =>
    exact iff_of_false (hclean (by simp) (b.admit_clean hlive frame now)) (hother rfl)
  | associateIntent controller tx now =>
    exact iff_of_false (hclean (by simp) (b.associateIntent_clean hlive controller tx now))
      (hother rfl)
  | validateCompletion controller ticket source now =>
    have hvalidate := @Barrier.validate_mismatch _ b _ hlive controller ticket source now
      (fun _ b => (.ok (), b)) fun b' _ => Barrier.clean_ok () b'
    rw [Result.andThen_ok] at hvalidate
    exact (reply_of_error (by simp)).trans (hvalidate.trans (hself rfl))
  | completed controller ticket source applied now =>
    exact (reply_of_error (by simp)).trans ((b.completed_mismatch hlive).trans (hself rfl))
  | observeGpio state now =>
    exact iff_of_false (hclean (by simp) (b.observeGpio_clean hlive state now)) (hother rfl)
  | tick now =>
    refine iff_of_false (hclean (by simp) ?_) (hother rfl)
    rcases b.tick_cases now hlive with ⟨-, -, e, b', hne, heq⟩ | ⟨cycles, heq, -⟩
    · rw [heq]
      exact fun h => hne (Except.error.inj h)
    · rw [heq]
      exact Barrier.clean_ok _ _
  | popReleasable now =>
    exact iff_of_false (hclean (by simp) (b.popReleasable_clean hlive now)) (hother rfl)
  | abort reason now => exact iff_of_false nofun (hother rfl)
  | takeEvents => exact iff_of_false nofun (hother rfl)

/-- A completion that reaches the active gate in time answers an intent that is still open. -/
def Due (l : List Note) (b : Barrier) (op : Op) : Prop :=
  ¬ b.gate.Failed → ∀ ticket source now, op.completion = some (2, ticket, source, now) →
    b.phase ≠ .idle → b.onTime now = true → (ticket, source) ∈ owed l

theorem mismatched_iff_not_due {l : List Note} {b : Barrier} (h : Gate.Owes l b.gate) (op : Op) :
    ¬ Mismatched b op ↔ Due l b op := by
  have howed : ¬ b.gate.Failed → ∀ ticket source, (ticket, source) ∈ owed l ↔
      b.ordinaryCompletion ticket source = true ∨ b.wakeCompletion ticket source = true := by
    intro hlive ticket source
    rw [(h hlive).mem_iff, List.mem_append, Gate.mem_ordinaryOwed, Gate.mem_wakeOwed,
      Barrier.ordinaryCompletion_iff, Barrier.wakeCompletion_iff]
    rfl
  rw [mismatched_iff]
  constructor
  · intro hnot hlive ticket source now hop hactive htime
    rw [howed hlive]
    by_contra hnone
    exact hnot ⟨hlive, 2, ticket, source, now, hop, rfl, hactive, htime, hnone⟩
  · rintro hdue ⟨hlive, controller, ticket, source, now, hop, rfl, hactive, htime, hnone⟩
    exact hnone ((howed hlive ticket source).mp (hdue hlive ticket source now hop hactive htime))

theorem run_owes {l : List Note} {b : Barrier} (h : Gate.Owes l b.gate) (ops : List Op) :
    Gate.Owes (l ++ log step note b ops) (run step b ops).gate := by
  induction ops generalizing l b with
  | nil => simpa [log] using h
  | cons op ops ih =>
    have hstep := Gate.outcome_owes (perform_outcome b op) h
    simpa [log, note] using ih hstep

/-- A run ends in no mismatch exactly when every completion that reaches the active gate in time
answers an intent that the gate saw while it was active, and that no completion has answered. -/
theorem no_mismatch_iff (wake ordinary : CompletionSource) (ops : List Op) :
    let start := Barrier.withCompletionSources wake ordinary
    (∀ i (hi : i < ops.length), ¬ Mismatched (run step start (ops.take i)) ops[i]) ↔
      ∀ i (hi : i < ops.length),
        Due (log step note start (ops.take i)) (run step start (ops.take i)) ops[i] := by
  intro start
  have hstart : Gate.Owes [] start.gate := fun _ => List.Perm.refl []
  refine forall_congr' fun i => forall_congr' fun hi => ?_
  exact mismatched_iff_not_due (run_owes hstart (ops.take i)) ops[i]

/-! ## The forgotten intent -/

/-- The clock that an operation brings. -/
def Op.time : Op → Option UInt64
  | .admitFrame _ now | .associateIntent _ _ now | .validateCompletion _ _ _ now
  | .completed _ _ _ _ now | .observeGpio _ now | .tick now | .popReleasable now
  | .abort _ now => some now
  | .takeEvents => none

/-- A completion of controller 2 is applied, and has the ticket and the source of an earlier
intent. -/
def Op.names (earlier : List Op) : Op → Bool
  | .validateCompletion 2 ticket source _ => named earlier ticket source
  | .completed 2 ticket source applied _ => applied && named earlier ticket source
  | _ => true
where
  named (earlier : List Op) (ticket : UInt64) (source : CompletionSource) : Bool :=
    earlier.any fun
      | .associateIntent 2 tx _ => tx.ticket == ticket && source ==
          if Barrier.exactWake tx then .micTranslatedWakeWriteCompatibility
          else .micByteTransportWriteCompatibility
      | _ => false

/-- Every completion names an earlier intent, the clock does not go back and no deadline passes. -/
def Orderly (ops : List Op) : Prop :=
  (ops.filterMap Op.time).Pairwise (· ≤ ·) ∧ ∀ i (hi : i < ops.length),
    ops[i].names (ops.take i) = true ∧
      (ops[i].time.all fun now =>
        let b := run step .new (ops.take i)
        decide (b.phase = .idle) || b.onTime now) = true

end

section

attribute [local instance] knownDigests

/-- An ordinary single-wire intent. -/
def ordinaryTx : Transmission where
  ticket := 8
  frame :=
    { id := 0x101, extended := false, rtr := false, dlc := 8, data := [0xfe, 1, 0x3e, 0, 0, 0, 0, 0] }
  btr0 := 0xdd
  btr1 := 0x36
  electrical := Barrier.restored

/-- The frame is sent before the wake, and completed after it. -/
def overtaken : List Op :=
  [.associateIntent 2 ordinaryTx 1, .admitFrame wakeFrame 10,
    .completed 2 8 .micByteTransportWriteCompatibility true 20]

theorem earlier_completion_is_refused :
    ¬ ∀ ops : List Op, Orderly ops →
      ∀ i (hi : i < ops.length), ¬ Mismatched (run step .new (ops.take i)) ops[i] := by
  intro h
  refine h overtaken ⟨by decide +kernel, by decide +kernel⟩ 2 (by decide) ⟨?_, by decide +kernel⟩
  rintro ⟨e, he⟩
  have hphase : (run step .new (overtaken.take 2)).gate.phase = .awaitIntent := by decide +kernel
  cases hphase.symm.trans he

end

end OpenSaab.Wake
