import OpenSaab.Vlinker.Steps

/-!
# The protocol of a session

Whatever events arrive, a session sends each vehicle request at most once, stops the diagnostic
session that it has started, and completes only when every command has been validated.
-/

namespace OpenSaab.Vlinker

open Command Runs

/-! ## Sessions -/

/-- The ways in which a session is made. -/
inductive Kind where
  | test (readVin : Bool)
  | startup
  | probe (codes : Bool)
  deriving DecidableEq, Repr

namespace Kind

def session (owned : Bool) (now : Nat) : Kind → Session
  | test readVin => { Session.new now readVin with owned }
  | startup => { Session.startup now with owned }
  | probe codes => { Session.probe now codes with owned }

def readVin : Kind → Bool
  | test readVin => readVin
  | _ => true

def mode : Kind → Mode
  | probe codes => if codes then .ecmDtc else .ecmInfo
  | _ => .vin

end Kind

namespace Session

/-- A failure is recorded, for the end of a cleanup or as the result. -/
def FailureRecorded (s : Session) : Prop :=
  s.cleanupError.isSome ∨ ∃ e attempted, s.terminal = some (.failed e attempted)

def step (s : Session) (c : Call) : Session := (s.event c).2

/-- A result is returned again and again, but it says what it says once. -/
def observed (s : Session) (c : Call) : List Observation :=
  if s.terminal.isSome then [] else noted (s.event c).1

/-- Whether the event is answered by more than a request to go on. -/
def answers (s : Session) (c : Call) : Nat :=
  if (s.event c).1 = some .idle ∨ (s.event c).1 = some .waiting then 0 else 1

variable {s : Session} {sent validated : List Command}

/-! ## Stages -/

theorem stage_start (kind : Kind) (owned : Bool) (now : Nat) :
    Stage (kind.session owned now).core [] [] := by
  cases kind with
  | test readVin =>
    refine @Stage.ready _ false rfl rfl (fun h => absurd rfl h) ?_ rfl rfl rfl
    cases readVin <;> rfl
  | startup => exact @Stage.ready _ false rfl rfl (fun h => absurd rfl h) rfl rfl rfl rfl
  | probe codes =>
    refine @Stage.ready _ false rfl rfl (fun _ => rfl) ?_ rfl rfl rfl
    cases codes <;> rfl

theorem start_mode (kind : Kind) (owned : Bool) (now : Nat) :
    (kind.session owned now).mode = kind.mode := by
  cases kind <;> rfl

theorem start_readVin (kind : Kind) (owned : Bool) (now : Nat) :
    (kind.session owned now).readVin = kind.readVin := by
  cases kind <;> rfl

theorem event_terminal {r : Response} (h : s.terminal = some r) (c : Call) :
    s.event c = (some r, s) := by
  simp only [event, h]

theorem stage_step (h : Stage s.core sent validated) (c : Call) :
    Stage (s.step c).core (sent ++ sentOf (s.observed c)) (validated ++ validatedOf (s.observed c)) := by
  unfold step observed
  cases hterminal : s.terminal with
  | some r =>
    rw [event_terminal hterminal]
    simpa [sentOf, validatedOf] using h
  | none =>
    rw [if_neg (by simp)]
    exact (event_reaches h hterminal c).2

theorem stage_run (h : Stage s.core sent validated) (calls : List Call) :
    Stage (run step s calls).core (sent ++ sentOf (log step observed s calls))
      (validated ++ validatedOf (log step observed s calls)) := by
  induction calls generalizing s sent validated with
  | nil => simpa [log, sentOf, validatedOf] using h
  | cons c calls ih =>
    rw [log, sentOf_append, validatedOf_append, ← List.append_assoc, ← List.append_assoc]
    exact ih (stage_step h c)

/-- What has been sent before the stop and the close of a cleanup. -/
theorem count_cleanup {before : List Command} {close command : Command} (hbefore : before.Nodup)
    (hstop : sessionStop ∉ before) (hclose : close = vtpc ∨ close = stpc)
    (hvehicle : command.vehicle) :
    (before ++ [sessionStop, close]).count command ≤ 1 := by
  have hne : close ≠ command := by
    rintro rfl
    rcases hclose with rfl | rfl <;> cases hvehicle
  have hcount := List.nodup_iff_count.mp hbefore command
  by_cases hc : command = sessionStop
  · subst hc
    simp [List.count_append, hne, List.count_eq_zero.mpr hstop]
  · simp [List.count_append, hne, Ne.symm hc, hcount]

theorem stage_once (h : Stage s.core sent validated) {command : Command}
    (hvehicle : command.vehicle) :
    sent.count command ≤ 1 := by
  cases h with
  | ready => simp
  | @running obdlink _ _ _ hcommands =>
    refine List.nodup_iff_count.mp (List.Nodup.sublist (List.take_sublist _ _) ?_) command
    rw [hcommands]
    exact plan_nodup _ _ _
  | stopping _ _ _ _ _ hclose _ _ hbefore hstop =>
    refine le_trans ?_ (count_cleanup hbefore hstop hclose hvehicle)
    exact List.Sublist.count_le _ (List.Sublist.append_left (by simp) _)
  | closing _ _ _ _ _ hclose _ _ hbefore hstop => exact count_cleanup hbefore hstop hclose hvehicle
  | completed _ _ hcommands =>
    refine List.nodup_iff_count.mp ?_ command
    rw [hcommands]
    exact plan_nodup _ _ _
  | failed _ _ _ hsent => exact List.nodup_iff_count.mp hsent command
  | unclosed _ _ _ hclose _ hbefore hstop => exact count_cleanup hbefore hstop hclose hvehicle
  | cleaned _ _ _ hclose _ hbefore hstop => exact count_cleanup hbefore hstop hclose hvehicle

/-- At its end, a session has stopped the diagnostic session that it has started. -/
theorem stage_stopped (h : Stage s.core sent validated) (hterminal : s.terminal.isSome)
    (hstart : sessionStart ∈ sent) : sessionStop ∈ sent := by
  have hno : s.core.terminal ≠ none := Option.isSome_iff_ne_none.mp hterminal
  cases h with
  | ready hnone => exact absurd hnone hno
  | running hnone => exact absurd hnone hno
  | stopping hnone => exact absurd hnone hno
  | closing hnone => exact absurd hnone hno
  | completed _ _ hcommands =>
    rw [hcommands] at hstart ⊢
    exact plan_stops _ _ _ hstart
  | failed _ _ _ _ hclosed => exact hclosed hstart
  | unclosed => simp
  | cleaned => simp

/-- A session completes with all the commands of its plan, and without a failure. -/
theorem stage_completed (h : Stage s.core sent validated) {completed : Completed}
    {result : WorkflowResult} (hterminal : s.terminal = some (.complete completed result)) :
    sent = s.commands ∧ validated = s.commands ∧ s.cleanupError = none ∧
      ∃ obdlink, s.commands = plan obdlink s.readVin s.mode := by
  cases h with
  | ready hnone => exact absurd (hterminal.symm.trans hnone) (by simp)
  | running hnone => exact absurd (hterminal.symm.trans hnone) (by simp)
  | stopping hnone => exact absurd (hterminal.symm.trans hnone) (by simp)
  | closing hnone => exact absurd (hterminal.symm.trans hnone) (by simp)
  | completed _ hcleanup hcommands => exact ⟨rfl, rfl, hcleanup, _, hcommands⟩
  | failed hfailed => exact absurd (hterminal.symm.trans hfailed) (by simp)
  | unclosed hfailed => exact absurd (hterminal.symm.trans hfailed) (by simp)
  | cleaned hfailed => exact absurd (hterminal.symm.trans hfailed) (by simp)

/-! ## Cleaning up -/

/-- How many commands of a cleanup have not been answered. -/
def remaining (s : Session) : Nat := if s.terminal.isSome then 0 else s.commands.length - s.index

theorem remaining_congr {s' : Session} (hcore : s'.core = s.core) : s'.remaining = s.remaining := by
  simp only [core, Core.mk.injEq] at hcore
  obtain ⟨-, hcommands, -, -, -, hindex, -, hterminal, -⟩ := hcore
  simp only [remaining, hcommands, hindex, hterminal]

/-- A cleanup is under way: a command that is not `VTI` waits for its reply. -/
structure CleaningUp (s : Session) : Prop where
  terminal : s.terminal = none
  cleanup : s.cleanupError.isSome
  started : s.started = true
  command : ∃ command, s.commands[s.index]? = some command ∧ command ≠ vti
  remaining : s.commands.length ≤ s.index + 2

theorem stage_cleaningUp (h : Stage s.core sent validated) (hterminal : s.terminal = none)
    (hcleanup : s.cleanupError.isSome) : s.CleaningUp := by
  have hno : s.core.cleanupError ≠ none := Option.isSome_iff_ne_none.mp hcleanup
  cases h with
  | ready _ hnone => exact absurd hnone hno
  | running _ hnone => exact absurd hnone hno
  | @stopping _ _ close _ _ _ hstarted hcommands _ hindex =>
    have hcommands' : s.commands = [sessionStop, close] := hcommands
    have hindex' : s.index = 0 := hindex
    refine ⟨hterminal, hcleanup, hstarted, ⟨sessionStop, ?_, by decide⟩, ?_⟩
    · rw [hcommands', hindex']
      rfl
    · rw [hcommands']
      exact Nat.le_add_left 2 s.index
  | @closing _ _ close _ _ _ hstarted hcommand hclose hindex =>
    refine ⟨hterminal, hcleanup, hstarted, ⟨close, hcommand, ?_⟩, ?_⟩
    · rcases hclose with rfl | rfl <;> decide
    · have hindex' : s.index + 1 = s.commands.length := hindex
      omega
  | completed hdone | failed hdone | unclosed hdone | cleaned hdone =>
    exact absurd (hterminal.symm.trans hdone) (by simp)

/-- A failure that is not the end is followed by a cleanup. -/
theorem FailureRecorded.cleaningUp (hfailure : s.FailureRecorded) (h : Stage s.core sent validated)
    (hterminal : s.terminal = none) : s.CleaningUp := by
  rcases hfailure with hcleanup | ⟨e, attempted, hfailed⟩
  · exact stage_cleaningUp h hterminal hcleanup
  · exact absurd (hterminal.symm.trans hfailed) (by simp)

theorem CleaningUp.congr (h : s.CleaningUp) {s' : Session} (hcore : s'.core = s.core) :
    s'.CleaningUp := by
  simp only [core, Core.mk.injEq] at hcore
  obtain ⟨-, hcommands, -, -, hcleanup, hindex, hstarted, hterminal, -⟩ := hcore
  exact ⟨hterminal.trans h.terminal, hcleanup ▸ h.cleanup, hstarted.trans h.started,
    by rw [hcommands, hindex]; exact h.command, by rw [hcommands, hindex]; exact h.remaining⟩

/-- A cleanup that goes on, with fewer commands to answer. -/
structure Progresses (n : Nat) (o : Outcome) : Prop where
  cleanup : o.2.cleanupError.isSome
  remaining : o.2.remaining < n
  answered : o.1 ≠ some .idle ∧ o.1 ≠ some .waiting

theorem progresses_stop (h : s.CleaningUp) (reason : String) :
    Progresses s.remaining (s.stop reason) := by
  obtain ⟨command, hcommand, -⟩ := h.command
  have hlt := (List.getElem?_eq_some_iff.mp hcommand).1
  refine ⟨h.cleanup, ?_, by simp [stop]⟩
  simp only [stop, remaining, h.terminal, Option.isSome_some, Option.isSome_none, if_true,
    Bool.false_eq_true, if_false]
  omega

/-- The next command of a cleanup, as a failure or a reply leads to it. -/
theorem progresses_next {s' : Session} {n : Nat} (hcleanup : s'.cleanupError.isSome)
    (hlt : s'.commands.length - s'.index < n) (now : Nat) : Progresses n (s'.emit now) := by
  unfold emit
  dsimp only
  split
  all_goals
    refine ⟨hcleanup, ?_, by simp⟩
    simp only [remaining]
    split <;> omega

theorem remaining_eq (h : s.terminal = none) : s.remaining = s.commands.length - s.index := by
  simp [remaining, h]

theorem progresses_fail (h : s.CleaningUp) (now : Nat) (reason : String) :
    Progresses s.remaining (s.fail now reason) := by
  obtain ⟨command, hcommand, -⟩ := h.command
  have hlt := (List.getElem?_eq_some_iff.mp hcommand).1
  rw [fail_cleaning h.cleanup hcommand]
  split
  · refine progresses_next ?_ ?_ now
    · exact h.cleanup
    · rw [remaining_eq h.terminal]
      show s.commands.length - (s.index + 1) < _
      omega
  · exact progresses_stop h reason

theorem progresses_answered (h : s.CleaningUp) (now : Nat) :
    Progresses s.remaining (s.answered now) := by
  obtain ⟨command, hcommand, hvti⟩ := h.command
  have hlt := (List.getElem?_eq_some_iff.mp hcommand).1
  refine answered_rule hcommand (fun hc => absurd hc hvti) (fun _ => progresses_fail h now _)
    fun s' reply hspec hcommands => ?_
  have hcleanup : s'.cleanupError.isSome := by rw [hspec.cleanup]; exact h.cleanup
  rw [remaining_eq h.terminal]
  by_cases hlast : s'.index + 1 = s'.commands.length
  · obtain ⟨e, he⟩ := Option.isSome_iff_exists.mp hcleanup
    rw [advance_last hlast]
    simp only [finish, he]
    refine ⟨rfl, ?_, by simp⟩
    simp only [remaining, Option.isSome_some, if_true]
    omega
  · have hmore : s'.index + 1 < s'.commands.length := by
      rw [hcommands, hspec.index] at hlast ⊢
      omega
    obtain ⟨next, hnext⟩ : ∃ next, s'.commands[s'.index + 1]? = some next :=
      ⟨s'.commands[s'.index + 1], List.getElem?_eq_getElem hmore⟩
    rw [advance_next hnext]
    refine ⟨hcleanup, ?_, by simp⟩
    simp only [remaining, hspec.terminal, h.terminal, Option.isSome_none, Bool.false_eq_true,
      if_false, hcommands, hspec.index]
    omega

/-- An event of a cleanup: it is waited on, or the cleanup goes on. -/
theorem event_cleaningUp (h : s.CleaningUp) (c : Call) :
    (∃ r, (s.event c).1 = some r ∧ s.Quiet c r ∧ (s.step c).core = s.core) ∨
      Progresses s.remaining (s.event c) := by
  have hno : ∀ {p : Prop}, s.started = false → p := fun hidle =>
    absurd (h.started.symm.trans hidle) (by decide)
  unfold step
  refine event_rule (P := fun o => (∃ r, o.1 = some r ∧ s.Quiet c r ∧ o.2.core = s.core) ∨
    Progresses s.remaining o) h.terminal ?_ ?_ ?_ ?_ ?_
  · exact fun r s' hcore hquiet => .inl ⟨r, rfl, hquiet, hcore⟩
  · intro s' hselect
    unfold selectObdlink at hselect
    rw [if_pos h.started] at hselect
    cases hselect
  · exact fun s' reason hcore => .inr (remaining_congr hcore ▸ progresses_fail (h.congr hcore) _ reason)
  · exact fun s' _ hidle => hno hidle
  · exact fun s' hcore _ => .inr (remaining_congr hcore ▸ progresses_answered (h.congr hcore) _)

theorem failureRecorded_step (h : Stage s.core sent validated) (hfailure : s.FailureRecorded)
    (c : Call) :
    (s.step c).FailureRecorded := by
  cases hterminal : s.terminal with
  | some r =>
    unfold step
    rw [event_terminal hterminal]
    exact hfailure
  | none =>
    have hcleaning := hfailure.cleaningUp h hterminal
    rcases event_cleaningUp hcleaning c with ⟨r, -, -, hcore⟩ | hprogress
    · refine .inl ?_
      rw [show (s.step c).cleanupError = s.cleanupError from congrArg Core.cleanupError hcore]
      exact hcleaning.cleanup
    · exact .inl hprogress.cleanup

/-- A cleanup takes as many answers as it has commands left. -/
theorem cleanup_bounded (h : Stage s.core sent validated) (hfailure : s.FailureRecorded)
    (more : List Call) (hanswers : s.remaining ≤ total step answers s more) :
    (run step s more).terminal.isSome := by
  induction more generalizing s sent validated with
  | nil =>
    cases hterminal : s.terminal with
    | some r => exact congrArg Option.isSome hterminal
    | none =>
      obtain ⟨command, hcommand, -⟩ := (hfailure.cleaningUp h hterminal).command
      have hlt := (List.getElem?_eq_some_iff.mp hcommand).1
      rw [remaining_eq hterminal] at hanswers
      simp only [total] at hanswers
      omega
  | cons c more ih =>
    refine ih (stage_step h c) (failureRecorded_step h hfailure c) ?_
    simp only [total] at hanswers
    cases hterminal : s.terminal with
    | some r =>
      unfold step at hanswers ⊢
      simp only [event_terminal hterminal] at hanswers ⊢
      simp [remaining, hterminal]
    | none =>
      rcases event_cleaningUp (hfailure.cleaningUp h hterminal) c with
        ⟨r, hr, hquiet, hcore⟩ | ⟨-, hlt, -⟩
      · have hzero : s.answers c = 0 := by
          unfold answers
          rcases hquiet with ⟨rfl, -⟩ | ⟨rfl, -⟩ <;> simp [hr]
        have hsame : (s.step c).remaining = s.remaining := remaining_congr hcore
        omega
      · have hone : s.answers c ≤ 1 := by
          unfold answers
          split <;> omega
        have hlt' : (s.step c).remaining < s.remaining := hlt
        omega

/-! ## The mode of a session -/

/-- What a session is for never changes. -/
def SameMode (s : Session) (o : Outcome) : Prop := o.2.mode = s.mode ∧ o.2.readVin = s.readVin

theorem sameMode_emit {s' : Session} (hmode : s'.mode = s.mode) (hreadVin : s'.readVin = s.readVin)
    (now : Nat) : SameMode s (s'.emit now) := by
  unfold emit
  dsimp only
  split <;> exact ⟨hmode, hreadVin⟩

theorem sameMode_fail (s : Session) (now : Nat) (reason : String) :
    SameMode s (s.fail now reason) := by
  unfold fail
  split
  · unfold cleanUp
    dsimp only
    split
    · exact ⟨rfl, rfl⟩
    · split
      · exact sameMode_emit rfl rfl now
      · exact sameMode_emit rfl rfl now
  · split
    · split
      · exact ⟨rfl, rfl⟩
      · split
        · exact sameMode_emit rfl rfl now
        · exact ⟨rfl, rfl⟩
    · exact ⟨rfl, rfl⟩

theorem sameMode_advance (s : Session) (now : Nat) (completed : Completed) :
    SameMode s (s.advance now completed) := by
  have hemit : SameMode s ({ s with index := s.index + 1 }.emit now) := sameMode_emit rfl rfl now
  unfold advance
  dsimp only
  split
  · unfold finish
    split
    · exact ⟨rfl, rfl⟩
    · split <;> exact ⟨rfl, rfl⟩
  · split
    · next heq =>
      rw [heq] at hemit
      exact hemit
    · exact hemit

theorem sameMode_answered (s : Session) (now : Nat) : SameMode s (s.answered now) := by
  unfold answered
  split
  · exact ⟨rfl, rfl⟩
  split
  · exact sameMode_fail s now _
  split
  · exact ⟨rfl, rfl⟩
  · exact sameMode_fail s now _
  · next hvalidate =>
    obtain ⟨hspec, -⟩ := validate_spec hvalidate
    split
    · exact ⟨hspec.mode, hspec.readVin⟩
    · obtain ⟨hmode, hreadVin⟩ := sameMode_advance _ now _
      exact ⟨hmode.trans hspec.mode, hreadVin.trans hspec.readVin⟩

theorem sameMode_event (s : Session) (c : Call) : SameMode s (s.event c) := by
  cases hterminal : s.terminal with
  | some r =>
    rw [event_terminal hterminal]
    exact ⟨rfl, rfl⟩
  | none =>
    have hsame : ∀ {s' : Session} {o : Outcome}, s'.core = s.core → SameMode s' o → SameMode s o :=
      fun hcore ho => ⟨ho.1.trans (congrArg Core.mode hcore), ho.2.trans (congrArg Core.readVin hcore)⟩
    refine event_rule hterminal (fun r s' hcore _ => hsame hcore ⟨rfl, rfl⟩) (fun s' hselect => ?_)
      (fun s' reason hcore => hsame hcore (sameMode_fail s' _ reason))
      (fun s' hcore _ => hsame hcore (sameMode_emit rfl rfl _))
      (fun s' hcore _ => hsame hcore (sameMode_answered s' _))
    unfold selectObdlink at hselect
    split at hselect
    · cases hselect
    · cases hselect
      exact ⟨rfl, rfl⟩

theorem sameMode_run (s : Session) (calls : List Call) :
    (run step s calls).mode = s.mode ∧ (run step s calls).readVin = s.readVin :=
  run_invariant (I := fun s' => s'.mode = s.mode ∧ s'.readVin = s.readVin)
    (fun s' c h => ⟨(sameMode_event s' c).1.trans h.1, (sameMode_event s' c).2.trans h.2⟩) calls
    ⟨rfl, rfl⟩

/-! ## Runs -/

/-- Whatever the events, a session sends each vehicle request at most once, and stops the diagnostic
session that it has started before it ends. It completes only with every command of its plan
validated and without a failure. After a failure two events that it answers bring it to its end, and
it lets an event wait only while the command has time. -/
theorem session_protocol_safe (kind : Kind) (owned : Bool) (start : Nat) (calls : List Call) :
    let s₀ := kind.session owned start
    let s := run step s₀ calls
    let sent := sentOf (log step observed s₀ calls)
    let validated := validatedOf (log step observed s₀ calls)
    (∀ command : Command, command.vehicle → sent.count command ≤ 1) ∧
    (sessionStart ∈ sent → s.terminal.isSome → sent.count sessionStop = 1) ∧
    (∀ completed result, s.terminal = some (.complete completed result) →
      (∃ obdlink, validated = plan obdlink kind.readVin kind.mode) ∧ sent = validated ∧
        Always step (fun s => ¬ s.FailureRecorded) s₀ calls) ∧
    (s.FailureRecorded → ∀ more, 2 ≤ total step answers s more → (run step s more).terminal.isSome) ∧
    (s.FailureRecorded → s.terminal = none → ∀ c r, (s.event c).1 = some r → r = .idle ∨ r = .waiting →
      op c = "claim" ∨ c.now - s.born < watchdog ∧ c.now - s.commandAt < promptTimeout) := by
  intro s₀ s sent validated
  have h : Stage s.core sent validated := by
    simpa using stage_run (stage_start kind owned start) calls
  refine ⟨fun command hvehicle => stage_once h hvehicle, fun hstart hterminal => ?_,
    fun completed result hterminal => ?_, fun hfailure more hanswers => ?_,
    fun hfailure hterminal c r hr hquiet => ?_⟩
  · have honce := stage_once h (show sessionStop.vehicle from rfl)
    have hpos := List.count_pos_iff.mpr (stage_stopped h hterminal hstart)
    omega
  · obtain ⟨hsent, hvalidated, hcleanup, obdlink, hcommands⟩ := stage_completed h hterminal
    obtain ⟨hmode, hreadVin⟩ := sameMode_run s₀ calls
    refine ⟨⟨obdlink, ?_⟩, hsent.trans hvalidated.symm, ?_⟩
    · rw [hvalidated, hcommands, ← start_mode kind owned start, ← start_readVin kind owned start]
      exact congrArg₂ (plan obdlink) hreadVin hmode
    · refine always_of_last (J := fun s => ∃ sent validated, Stage s.core sent validated)
        (fun s c ⟨_, _, hs⟩ => ⟨_, _, stage_step hs c⟩)
        (fun s c ⟨_, _, hs⟩ hnext hfailure => hnext (failureRecorded_step hs hfailure c))
        ⟨[], [], stage_start kind owned start⟩ ?_
      rintro (hfailed | ⟨e, attempted, hfailed⟩)
      · rw [hcleanup] at hfailed
        cases hfailed
      · exact absurd (hterminal.symm.trans hfailed) (by simp)
  · refine cleanup_bounded h hfailure more (le_trans ?_ hanswers)
    cases hterminal : s.terminal with
    | some r => simp [remaining, hterminal]
    | none =>
      have htwo := (hfailure.cleaningUp h hterminal).remaining
      rw [remaining_eq hterminal]
      omega
  · have hcleaning := hfailure.cleaningUp h hterminal
    rcases event_cleaningUp hcleaning c with ⟨r', hr', hwait, -⟩ | ⟨-, -, hidle, hwaiting⟩
    · rcases hwait with ⟨-, hclaim⟩ | ⟨-, hborn, hcommand⟩
      · exact .inl hclaim
      · exact .inr ⟨hborn, hcommand hcleaning.started⟩
    · rcases hquiet with rfl | rfl
      · exact absurd hr hidle
      · exact absurd hr hwaiting

/-! ## A cleanup that waits -/

/-- An event at the start of the clock, with nobody else around. -/
def at0 (fields : List (String × Json.Value)) : Call :=
  { event := .object fields, now := 0, holder := none, fresh := "" }

def plain (op : String) : Call := at0 [("op", .string op)]

def rx (reply : String) : Call :=
  at0 [("op", .string "rx"), ("bytes", .array (reply.toList.map fun c => .nat c.toNat))]

/-- A report of the engine codes up to the start of the diagnostic session, which is cancelled. -/
def cancelledReport : List Call :=
  plain "start" ::
    (["ELM327>", "OK>", "VLINKER MC>", "MIC3313>", "12.1V>", "OK>", "6>", "500000>", "OK>", "OK>", "OK>",
      "7E8 10 13 5A 90 59 53 33 46\r7E8 21 44 34 39 59 58 34 31\r7E8 22 30 30 30 30 30 31 00>",
      "OK>", "OK>", "OK>", "OK>"].map rx ++ [plain "cancel"])

theorem cancelledReport_stopping :
    let s := run step ((Kind.probe true).session false 0) cancelledReport
    s.terminal = none ∧ s.cleanupError.isSome ∧ s.born = 0 ∧ s.commandAt = 0 ∧
      s.commands[s.index]? = some sessionStop := by
  decide +kernel

theorem tick_step (hterminal : s.terminal = none) : s.step (plain "tick") = s := by
  have hop : op (plain "tick") = "tick" := by decide
  have hnow : (plain "tick").now = 0 := rfl
  unfold step event
  simp [hterminal, hop, hnow, watchdog, promptTimeout]

theorem run_ticks (hterminal : s.terminal = none) (n : Nat) :
    run step s (List.replicate n (plain "tick")) = s := by
  induction n with
  | zero => rfl
  | succ n ih => rw [List.replicate_succ, run_cons, tick_step hterminal, ih]

/-- No number of events is enough to end a cleanup: as long as the command has time, the session
waits. -/
theorem cleanup_waits :
    let s₀ := (Kind.probe true).session false 0
    ¬ ∃ bound, ∀ calls more, (run step s₀ calls).FailureRecorded → bound ≤ more.length →
      (run step (run step s₀ calls) more).terminal.isSome := by
  rintro s₀ ⟨bound, h⟩
  obtain ⟨hterminal, hcleanup, -⟩ := cancelledReport_stopping
  have hend := h cancelledReport (List.replicate bound (plain "tick")) (.inl hcleanup) (by simp)
  rw [run_ticks hterminal, hterminal] at hend
  cases hend

end Session

end OpenSaab.Vlinker
