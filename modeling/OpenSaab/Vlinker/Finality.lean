import OpenSaab.Vlinker.Safety

/-!
# Final results

What the foreign function interface returns once a session has come to its end. An event that is too
long or that is no JSON does not go through the session, which keeps its result.
-/

namespace OpenSaab.Vlinker

open Command Runs Json

/-- A result: it is not followed by another command. -/
def Response.isTerminal : Response → Bool
  | .failed _ _ | .complete _ _ => true
  | _ => false

namespace Session

variable {s : Session} {sent validated : List Command}

/-! ## What a session records -/

/-- A result is recorded, and nothing else is. -/
def Records (o : Outcome) : Prop :=
  ∀ r, o.1 = some r → o.2.terminal = if r.isTerminal then some r else none

theorem records_panic (s : Session) : Records (none, s) := fun _ hr => absurd hr (by simp)

theorem records_value {r : Response} (h : s.terminal = if r.isTerminal then some r else none) :
    Records (some r, s) := by
  intro r' hr
  rw [Option.some.injEq] at hr
  rw [← hr]
  exact h

theorem records_emit (hterminal : s.terminal = none) (now : Nat) : Records (s.emit now) := by
  unfold emit
  dsimp only
  split
  · exact records_panic _
  · exact records_value hterminal

theorem records_stop (s : Session) (reason : String) : Records (s.stop reason) := records_value rfl

theorem records_fail (hterminal : s.terminal = none) (now : Nat) (reason : String) :
    Records (s.fail now reason) := by
  unfold fail
  split
  · unfold cleanUp
    dsimp only
    split
    · exact records_panic _
    · split
      · exact records_emit (by exact hterminal) now
      · exact records_emit (by exact hterminal) now
  · split
    · split
      · exact records_panic _
      · split
        · exact records_emit (by exact hterminal) now
        · exact records_stop s reason
    · exact records_stop s reason

theorem records_finish (s : Session) (completed : Completed) : Records (s.finish completed) := by
  unfold finish
  split
  · exact records_value rfl
  · split
    · exact records_panic _
    · exact records_value rfl

theorem records_advance (hterminal : s.terminal = none) (now : Nat) (completed : Completed) :
    Records (s.advance now completed) := by
  unfold advance
  dsimp only
  split
  · exact records_finish _ completed
  · cases hnext : s.commands[s.index + 1]? with
    | none =>
      simp only [emit, hnext]
      exact records_panic _
    | some next =>
      simp only [emit, hnext]
      exact records_value hterminal

theorem records_answered (hterminal : s.terminal = none) (now : Nat) :
    Records (s.answered now) := by
  unfold answered
  split
  · exact records_panic s
  split
  · exact records_fail hterminal now _
  split
  · exact records_panic s
  · exact records_fail hterminal now _
  · next hvalidate =>
    obtain ⟨hspec, -⟩ := validate_spec hvalidate
    split
    · exact records_panic _
    · exact records_advance (hspec.terminal.trans hterminal) now _

theorem records_event (hterminal : s.terminal = none) (c : Call) : Records (s.event c) := by
  have hsame : ∀ {s' : Session}, s'.core = s.core → s'.terminal = none := fun hcore =>
    (congrArg Core.terminal hcore).trans hterminal
  refine event_rule hterminal (fun r s' hcore hquiet => ?_) (fun s' hselect => ?_)
    (fun s' reason hcore => records_fail (hsame hcore) _ reason)
    (fun s' hcore _ => @records_emit { s' with started := true } (@hsame s' hcore) _)
    (fun s' hcore _ => records_answered (hsame hcore) _)
  · refine records_value ?_
    rcases hquiet with ⟨rfl, -⟩ | ⟨rfl, -⟩ <;> exact hsame hcore
  · unfold selectObdlink at hselect
    split at hselect
    · cases hselect
    · cases hselect
      exact records_value hterminal

/-! ## Events that do not reach the session -/

/-- Why the interface itself refuses an event. -/
def refusal (parse : List UInt8 → Option Value) (c : RawCall) : Option String :=
  if eventLimit < c.input.length then some "Workflow event exceeds limit"
  else if (parse c.input).isNone then some "Invalid workflow JSON"
  else none

theorem delivered_refused {parse : List UInt8 → Option Value} {c : RawCall} {reason : String}
    (h : refusal parse c = some reason) : s.delivered parse c = s.fail c.now reason := by
  unfold refusal at h
  unfold delivered
  split
  · next hlong =>
    rw [if_pos hlong] at h
    cases h
    rfl
  · next hlong =>
    rw [if_neg hlong] at h
    split
    · next hparse => simp [hparse] at h
    · next hparse =>
      simp only [hparse, Option.isNone_none, if_true, Option.some.injEq] at h
      rw [h]

theorem delivered_accepted {parse : List UInt8 → Option Value} {c : RawCall}
    (h : refusal parse c = none) : ∃ call, s.delivered parse c = s.event call := by
  unfold refusal at h
  unfold delivered
  split at h
  · cases h
  · next hlong =>
    rw [if_neg hlong]
    split
    · exact ⟨_, rfl⟩
    · next hparse => simp [hparse] at h

/-- A failure for this reason does not change a session: it is not at its end, or has failed for
this very reason, or has failed during its cleanup before its last command was answered. -/
def Harmless (s : Session) (reason : String) : Prop :=
  s.terminal = none ∨
    (s.cleanupError = none ∧ s.terminal = some (.failed reason false)) ∨
    (s.cleanupError.isSome ∧ s.index < s.commands.length)

/-- The events after which the session still has its result. -/
def Sound (parse : List UInt8 → Option Value) (s : Session) (c : RawCall) : Prop :=
  ∀ reason, refusal parse c = some reason → s.Harmless reason

/-- At the end of a session a failure returns the result exactly if it is harmless. -/
theorem fail_final (h : Stage s.core sent validated) {r : Response}
    (hterminal : s.terminal = some r)
    (now : Nat) (reason : String) :
    ((s.fail now reason).1 = some r ↔ s.Harmless reason) ∧
      (s.Harmless reason → (s.fail now reason).2.core = s.core) := by
  have hno : s.core.terminal ≠ none := by
    rw [show s.core.terminal = some r from hterminal]
    simp
  cases h with
  | ready hnone => exact absurd hnone hno
  | running hnone => exact absurd hnone hno
  | stopping hnone => exact absurd hnone hno
  | closing hnone => exact absurd hnone hno
  | @completed _ completed result hdone hcleanup _ hactive =>
    have hnone : s.cleanupError = none := hcleanup
    have hr : r = .complete completed result := Option.some.inj (hterminal.symm.trans hdone)
    rw [fail_quiet hactive hcleanup]
    constructor
    · simp [stop, Harmless, hterminal, hr, hnone]
    · simp [Harmless, hterminal, hr, hnone]
  | @failed e _ _ hdone hcleanup hactive =>
    have hnone : s.cleanupError = none := hcleanup
    have hr : r = .failed e false := Option.some.inj (hterminal.symm.trans hdone)
    rw [fail_quiet hactive hcleanup]
    constructor
    · simp [stop, Harmless, hterminal, hr, hnone, eq_comm]
    · intro hharmless
      have heq : e = reason := by simpa [Harmless, hterminal, hr, hnone] using hharmless
      simp [stop, core, hterminal, hr, hnone, heq]
  | @unclosed e _ _ close hdone hcleanup hcommand hclose =>
    have hsome : s.cleanupError = some e := hcleanup
    have hcommand' : s.commands[s.index]? = some close := hcommand
    have hr : r = .failed e false := Option.some.inj (hterminal.symm.trans hdone)
    have hne : close ≠ sessionStop := by rcases hclose with rfl | rfl <;> decide
    have hlt := (List.getElem?_eq_some_iff.mp hcommand').1
    rw [fail_cleaning (by simp [hsome]) hcommand', if_neg hne]
    constructor
    · simp [stop, Harmless, hterminal, hr, hsome, hlt]
    · simp [stop, core, hterminal, hr, hsome]
  | @cleaned e _ _ close hdone hcleanup hindex =>
    have hsome : s.cleanupError = some e := hcleanup
    have hindex' : s.index = s.commands.length := hindex
    have hnone : s.commands[s.index]? = none := by rw [hindex', List.getElem?_eq_none_iff]
    have hfail : s.fail now reason = (none, s) := by simp [fail, hsome, hnone]
    rw [hfail]
    constructor
    · simp [Harmless, hterminal, hsome, hindex']
    · simp [Harmless, hterminal, hsome, hindex']

/-! ## Runs -/

/-- The interface as a step of a run: a panic leaves the session as it finds it. -/
def vlinkerStep (parse : List UInt8 → Option Value) (s : Session) (c : RawCall) : Session :=
  (s.vlinkerEvent parse c).2

def returned (parse : List UInt8 → Option Value) (s : Session) (c : RawCall) : List Answer :=
  [(s.vlinkerEvent parse c).1]

end Session

/-- What the caller sees is final: no answer reports a panic, and after a result every answer is
this result. -/
def Settled : List Answer → Prop
  | [] => True
  | .failedSafely :: _ => False
  | .value r :: rest => (r.isTerminal → ∀ a ∈ rest, a = .value r) ∧ Settled rest

instance decidableSettled : (answers : List Answer) → Decidable (Settled answers)
  | [] => isTrue trivial
  | .failedSafely :: _ => isFalse id
  | .value r :: rest =>
    have := decidableSettled rest
    inferInstanceAs (Decidable ((r.isTerminal → ∀ a ∈ rest, a = .value r) ∧ Settled rest))

namespace Session

variable {s : Session} {sent validated : List Command}

/-- What is still to be answered fits the session: once it has its result, nothing else. -/
def Fits (s : Session) (answers : List Answer) : Prop :=
  Settled answers ∧ ∀ r, s.terminal = some r → ∀ a ∈ answers, a = .value r

/-- Before the end every event is answered, and leads from a stage to a stage. -/
theorem delivered_running (h : Stage s.core sent validated) (hterminal : s.terminal = none)
    (parse : List UInt8 → Option Value) (c : RawCall) :
    Reaches sent validated (s.delivered parse c) ∧ Records (s.delivered parse c) := by
  cases hrefusal : refusal parse c with
  | some reason =>
    rw [delivered_refused hrefusal]
    exact ⟨fail_reaches h hterminal, records_fail hterminal _ _⟩
  | none =>
    obtain ⟨call, hcall⟩ := @delivered_accepted s parse c hrefusal
    rw [hcall]
    exact ⟨event_reaches h hterminal call, records_event hterminal call⟩

/-- At the end an event is answered with the result exactly if it is sound, and then nothing
changes. -/
theorem delivered_final (h : Stage s.core sent validated) {r : Response}
    (hterminal : s.terminal = some r)
    (parse : List UInt8 → Option Value) (c : RawCall) :
    ((s.delivered parse c).1 = some r ↔ Sound parse s c) ∧
      (Sound parse s c → (s.delivered parse c).2.core = s.core) := by
  cases hrefusal : refusal parse c with
  | some reason =>
    rw [delivered_refused hrefusal]
    obtain ⟨hiff, hcore⟩ := fail_final h hterminal c.now reason
    have hsound : Sound parse s c ↔ s.Harmless reason := by
      simp [Sound, hrefusal]
    rw [hsound]
    exact ⟨hiff, hcore⟩
  | none =>
    obtain ⟨call, hcall⟩ := @delivered_accepted s parse c hrefusal
    rw [hcall, event_terminal hterminal]
    simp [Sound, hrefusal]

theorem fits_iff_sound (h : Stage s.core sent validated) (parse : List UInt8 → Option Value)
    (calls : List RawCall) :
    s.Fits (log (vlinkerStep parse) (returned parse) s calls) ↔
      Each (vlinkerStep parse) (Sound parse) s calls := by
  induction calls generalizing s sent validated with
  | nil => simp [Fits, log, Each, Settled]
  | cons c calls ih =>
    rcases hdelivered : s.delivered parse c with ⟨answer, s'⟩
    have hstep : s.vlinkerStep parse c = s' := by
      unfold vlinkerStep vlinkerEvent
      rw [hdelivered]
      cases answer <;> rfl
    simp only [log, Each, hstep, returned, List.singleton_append]
    cases hterminal : s.terminal with
    | none =>
      obtain ⟨⟨hsome, hstage⟩, hrecords⟩ := delivered_running h hterminal parse c
      rw [hdelivered] at hsome hstage hrecords
      obtain ⟨r, rfl⟩ := Option.isSome_iff_exists.mp hsome
      have hvalue : (s.vlinkerEvent parse c).1 = .value r := by
        unfold vlinkerEvent
        rw [hdelivered]
      have hsound : Sound parse s c := fun _ _ => .inl hterminal
      have hrecorded : s'.terminal = if r.isTerminal then some r else none := hrecords r rfl
      rw [hvalue, ← ih hstage]
      simp only [Fits, hterminal, hrecorded, Settled, hsound, true_and]
      cases r.isTerminal <;> simp [and_comm]
    | some r =>
      obtain ⟨hfinal, hcore⟩ := delivered_final h hterminal parse c
      rw [hdelivered] at hfinal hcore
      have hvalue : (s.vlinkerEvent parse c).1 = .value r ↔ Sound parse s c := by
        rw [← hfinal]
        unfold vlinkerEvent
        rw [hdelivered]
        cases answer <;> simp
      have hnext : Sound parse s c → Stage s'.core sent validated ∧ s'.terminal = some r := fun hsound =>
        ⟨hcore hsound ▸ h, (congrArg Core.terminal (hcore hsound)).trans hterminal⟩
      constructor
      · rintro ⟨hsettled, hall⟩
        have hfirst := hall r hterminal _ List.mem_cons_self
        have hsound := hvalue.mp hfirst
        obtain ⟨hstage, hterminal'⟩ := hnext hsound
        rw [hfirst] at hsettled
        refine ⟨hsound, (ih hstage).mp ⟨hsettled.2, fun r' hr' a ha => ?_⟩⟩
        rw [← Option.some.inj (hterminal'.symm.trans hr')]
        exact hall r hterminal a (List.mem_cons_of_mem _ ha)
      · rintro ⟨hsound, hrest⟩
        obtain ⟨hstage, hterminal'⟩ := hnext hsound
        obtain ⟨hsettled, hall⟩ := (ih hstage).mpr hrest
        rw [hvalue.mpr hsound]
        refine ⟨⟨fun _ => hall r hterminal', hsettled⟩, fun r' hr' a ha => ?_⟩
        rw [← Option.some.inj (hterminal.symm.trans hr')]
        rcases List.mem_cons.mp ha with rfl | ha
        · rfl
        · exact hall r hterminal' a ha

/-- The results of the interface are final exactly as long as no refused event reaches a session
that it changes. -/
theorem results_final_iff (parse : List UInt8 → Option Value) (kind : Kind) (start : Nat)
    (calls : List RawCall) :
    let s₀ := kind.session true start
    Settled (log (vlinkerStep parse) (returned parse) s₀ calls) ↔
      Each (vlinkerStep parse) (Sound parse) s₀ calls := by
  intro s₀
  rw [← fits_iff_sound (stage_start kind true start) parse calls]
  have hnone : s₀.terminal = none := by cases kind <;> rfl
  unfold Fits
  rw [show (kind.session true start).terminal = none from hnone]
  simp [s₀]

/-- The bytes of a text. -/
def bytes (text : String) : List UInt8 := text.toList.map fun c => UInt8.ofNat c.toNat

/-- A session is cancelled, which it reports, and then fails for another reason. -/
theorem result_changes :
    let cancel := bytes "\x7b\"op\":\"cancel\"\x7d"
    let parse := fun input => if input = cancel then some (Value.object [("op", .string "cancel")]) else none
    ¬ Settled (log (vlinkerStep parse) (returned parse) ((Kind.test true).session true 0)
      [{ input := cancel, now := 0, holder := none, fresh := "" },
        { input := [], now := 0, holder := none, fresh := "" }]) := by
  decide +kernel

end Session

end OpenSaab.Vlinker
