import OpenSaab.Vlinker.Stages

/-!
# What an event does

Every event leads from a stage to a stage, and none is a panic.
-/

namespace OpenSaab.Vlinker

open Command Runs

namespace Session

variable {s : Session} {sent validated : List Command} {now : Nat} {reason : String}

/-! ## Failing -/

theorem emit_eq {command : Command} (h : s.commands[s.index]? = some command) :
    s.emit now = (some (.send command none),
      { s with
        commandAt := now
        diagnosticActive := s.diagnosticActive || command == .sessionStart
        prompt := .empty }) := by
  simp only [emit, h]

theorem fail_quiet (hactive : s.diagnosticActive = false) (hcleanup : s.cleanupError = none) :
    s.fail now reason = s.stop reason := by
  simp [fail, hactive, hcleanup]

theorem fail_open (hmode : s.mode = .ecmDtc) (hactive : s.diagnosticActive = true)
    (hcleanup : s.cleanupError = none) : s.fail now reason = s.cleanUp now reason := by
  simp [fail, hmode, hactive, hcleanup]

theorem fail_cleaning {command : Command} (hcleanup : s.cleanupError.isSome)
    (hcommand : s.commands[s.index]? = some command) :
    s.fail now reason =
      if command = .sessionStop then
        { s with diagnosticActive := false, index := s.index + 1 }.emit now
      else s.stop reason := by
  have hne : s.cleanupError ≠ none := Option.isSome_iff_ne_none.mp hcleanup
  simp [fail, hne, hcleanup, hcommand]

theorem closeCommand_cases (s : Session) : s.closeCommand = vtpc ∨ s.closeCommand = stpc := by
  unfold closeCommand
  split
  · exact .inr rfl
  · exact .inl rfl

/-- The first failure of an open diagnostic session. -/
theorem cleanUp_eq {command : Command} (hcommand : s.commands[s.index]? = some command)
    (hactive : s.diagnosticActive = true) :
    s.cleanUp now reason =
      if command = .sessionStop then
        (some (.send s.closeCommand none),
          { s with
            cleanupError := some reason, vin := "", dtc := none, diagnosticActive := false
            commands := [s.closeCommand], index := 0, commandAt := now, prompt := .empty })
      else
        (some (.send .sessionStop none),
          { s with
            cleanupError := some reason, vin := "", dtc := none
            commands := [.sessionStop, s.closeCommand], index := 0, commandAt := now
            prompt := .empty }) := by
  have hclose : s.closeCommand ≠ sessionStart := by
    rcases closeCommand_cases s with h | h <;> rw [h] <;> decide
  unfold closeCommand at hclose
  unfold cleanUp
  simp only [hcommand]
  split
  · rw [emit_eq rfl]
    simp [closeCommand, hclose]
  · rw [emit_eq rfl]
    simp [hactive, closeCommand]

theorem take_succ_of {commands : List Command} {i : Nat} {command : Command}
    (h : commands[i]? = some command) : commands.take (i + 1) = commands.take i ++ [command] := by
  rw [List.take_add_one, h, Option.toList_some]

/-- What is returned without a command leaves the record as it is. -/
theorem reaches_silent {r : Response} {s' : Session} (hnoted : noted (some r) = [])
    (h : Stage s'.core sent validated) : Reaches sent validated (some r, s') := by
  refine ⟨rfl, ?_⟩
  rw [hnoted]
  simpa [sentOf, validatedOf] using h

theorem reaches_send {command : Command} {s' : Session}
    (h : Stage s'.core (sent ++ [command]) validated) :
    Reaches sent validated (some (.send command none), s') := by
  refine ⟨rfl, ?_⟩
  simpa [noted, sentOf, validatedOf] using h

theorem reaches_next {command : Command} {completed : Completed} {s' : Session}
    (h : Stage s'.core (sent ++ [command]) (validated ++ [completed.command])) :
    Reaches sent validated (some (.send command (some completed)), s') :=
  ⟨rfl, h⟩

theorem reaches_complete {completed : Completed} {result : WorkflowResult} {s' : Session}
    (h : Stage s'.core sent (validated ++ [completed.command])) :
    Reaches sent validated (some (.complete completed result), s') := by
  refine ⟨rfl, ?_⟩
  simpa [noted, sentOf, validatedOf] using h

/-- The start of the diagnostic session is under way or done exactly while it is open. -/
theorem openAt_iff {commands : List Command} {i : Nat} :
    openAt commands i = true ↔
      sessionStart ∈ commands.take (i + 1) ∧ sessionStop ∉ commands.take i := by
  simp [openAt]

/-- A failure that needs no cleanup is the end. -/
theorem stop_reaches (hcleanup : s.cleanupError = none) (hactive : s.diagnosticActive = false)
    (hsent : sent.Nodup) (hclosed : sessionStart ∈ sent → sessionStop ∈ sent) :
    Reaches sent validated (s.stop reason) := by
  refine reaches_silent rfl (Stage.failed (e := reason) ?_ hcleanup hactive hsent hclosed)
  simp [core, hcleanup]

/-- The cleanup stops the diagnostic session, unless that was under way, and closes the adapter. -/
theorem cleanUp_reaches {command : Command} (hterminal : s.terminal = none)
    (hmode : s.mode = .ecmDtc)
    (hstarted : s.started = true) (hactive : s.diagnosticActive = true)
    (hcommand : s.commands[s.index]? = some command) (hnodup : s.commands.Nodup)
    (hstop : sessionStop ∉ s.commands.take s.index) :
    Reaches (s.commands.take (s.index + 1)) validated (s.cleanUp now reason) := by
  have htake := take_succ_of hcommand
  rw [cleanUp_eq hcommand hactive]
  split
  · next heq =>
    subst heq
    refine reaches_send ?_
    rw [htake, List.append_assoc]
    exact Stage.closing hterminal rfl hmode hstarted rfl (closeCommand_cases s) rfl rfl
      (List.Nodup.sublist (List.take_sublist _ _) hnodup) hstop
  · next hne =>
    refine reaches_send (Stage.stopping hterminal rfl hmode hstarted rfl (closeCommand_cases s) rfl
      hactive (List.Nodup.sublist (List.take_sublist _ _) hnodup) ?_)
    rw [htake]
    simp only [List.mem_append, List.mem_singleton, not_or]
    exact ⟨hstop, Ne.symm hne⟩

/-- A failure of a plan under way is the end if the diagnostic session is not open, and else starts
the cleanup. -/
theorem fail_running {obdlink : Bool} (hterminal : s.terminal = none)
    (hcleanup : s.cleanupError = none)
    (hplan : s.commands = plan obdlink s.readVin s.mode) (hstarted : s.started = true)
    (hindex : s.index < s.commands.length)
    (hactive : s.diagnosticActive = openAt s.commands s.index) :
    Reaches (s.commands.take (s.index + 1)) validated (s.fail now reason) := by
  have hnodup : s.commands.Nodup := hplan ▸ plan_nodup obdlink s.readVin s.mode
  cases hopen : openAt s.commands s.index with
  | false =>
    rw [fail_quiet (hactive.trans hopen) hcleanup]
    refine stop_reaches hcleanup (hactive.trans hopen)
      (List.Nodup.sublist (List.take_sublist _ _) hnodup) fun hstart => ?_
    by_contra hstop
    have hno : sessionStop ∉ s.commands.take s.index := fun hmem =>
      hstop (List.take_subset_take_left _ (Nat.le_succ _) hmem)
    exact Bool.false_ne_true (hopen.symm.trans (openAt_iff.mpr ⟨hstart, hno⟩))
  | true =>
    obtain ⟨hstart, hstop⟩ := openAt_iff.mp hopen
    have hdtc : s.mode = .ecmDtc :=
      plan_diagnostic obdlink s.readVin s.mode (hplan ▸ List.mem_of_mem_take hstart)
    have hopened : s.diagnosticActive = true := hactive.trans hopen
    rw [fail_open hdtc hopened hcleanup]
    exact cleanUp_reaches hterminal hdtc hstarted hopened (List.getElem?_eq_getElem hindex) hnodup hstop

/-- A failure leads from each stage to a stage. -/
theorem fail_reaches (h : Stage s.core sent validated) (hterminal : s.terminal = none) :
    Reaches sent validated (s.fail now reason) := by
  cases h with
  | ready _ hcleanup _ _ _ _ hactive =>
    rw [fail_quiet hactive hcleanup]
    exact stop_reaches hcleanup hactive List.nodup_nil (by simp)
  | running _ hcleanup _ hplan hstarted hindex hactive _ =>
    exact fail_running hterminal hcleanup hplan hstarted hindex hactive
  | @stopping before _ close _ hcleanup hmode hstarted hcommands hclose hindex _ hbefore hstop =>
    have hcommands' : s.commands = [sessionStop, close] := hcommands
    have hindex' : s.index = 0 := hindex
    have hcommand : s.commands[s.index]? = some sessionStop := by rw [hcommands', hindex']; rfl
    have hnext : s.commands[s.index + 1]? = some close := by rw [hcommands', hindex']; rfl
    have hstart : (close == sessionStart) = false := by rcases hclose with rfl | rfl <;> rfl
    rw [fail_cleaning hcleanup hcommand, if_pos rfl, emit_eq hnext]
    refine reaches_send ?_
    rw [List.append_assoc]
    refine Stage.closing hterminal hcleanup hmode hstarted hnext hclose ?_ ?_ hbefore hstop
    · show s.index + 1 + 1 = s.commands.length
      rw [hcommands', hindex']
      rfl
    · simp [core, hstart]
  | @closing before _ close _ hcleanup hmode hstarted hcommand hclose hindex hactive hbefore hstop =>
    have hne : close ≠ sessionStop := by rcases hclose with rfl | rfl <;> decide
    obtain ⟨e, he⟩ := Option.isSome_iff_exists.mp hcleanup
    have he' : s.cleanupError = some e := he
    rw [fail_cleaning hcleanup hcommand, if_neg hne]
    refine reaches_silent rfl (Stage.unclosed (e := e) ?_ he hcommand hclose hactive hbefore hstop)
    simp [core, he']
  | completed hdone | failed hdone | unclosed hdone | cleaned hdone =>
    exact absurd (hterminal.symm.trans hdone) (by simp)

/-! ## Validating -/

/-- What the validation of a reply changes, apart from the commands when the product is asked
for. -/
structure Validated (s : Session) (command : Command) (s' : Session) : Prop where
  readVin : s'.readVin = s.readVin
  mode : s'.mode = s.mode
  cleanup : s'.cleanupError = s.cleanupError
  index : s'.index = s.index
  started : s'.started = s.started
  terminal : s'.terminal = s.terminal
  active : s'.diagnosticActive =
    if command = sessionStop then false
    else if command = sessionStart then true else s.diagnosticActive
  identified : command = vti ∨ command = stdi ∨ s.model.isSome → s'.model.isSome

/-- A reply that changes neither the model nor the diagnostic session. -/
theorem Validated.of_kept {command : Command} {s' : Session} (hcore : s'.core = s.core)
    (hstop : command ≠ sessionStop) (hstart : command ≠ sessionStart) (hvti : command ≠ vti)
    (hstdi : command ≠ stdi) : Validated s command s' := by
  simp only [core, Core.mk.injEq] at hcore
  obtain ⟨hreadVin, -, hmode, hactive, hcleanup, hindex, hstarted, hterminal, hidentified⟩ := hcore
  refine ⟨hreadVin, hmode, hcleanup, hindex, hstarted, hterminal, ?_, ?_⟩
  · rw [if_neg hstop, if_neg hstart, hactive]
  · rw [hidentified]
    simp [hvti, hstdi]

theorem identify_spec {reply : List Char} {s' : Session} (h : s.identify reply = some (.ok s')) :
    Validated s vti s' := by
  unfold identify at h
  split at h
  · cases h
  · cases h
  · simp only [Option.ite_none_right_eq_some, Option.some.injEq, Except.ok.injEq] at h
    obtain ⟨-, rfl⟩ := h
    exact ⟨rfl, rfl, rfl, rfl, rfl, rfl, rfl, fun _ => rfl⟩

/-- In a plan for the adapters that `VTI` identifies, the startup of the model fits and changes
nothing. -/
theorem identify_plan (hcommands : s.commands = plan false s.readVin s.mode)
    (hmode : s.mode ≠ .vin → s.readVin = true) (reply : List Char) :
    s.identify reply ≠ none ∧
      ∀ s', s.identify reply = some (.ok s') → s'.commands = s.commands := by
  obtain ⟨hfits, hstartup, hsame⟩ := plan_startup hmode
  rw [← hcommands] at hfits hstartup hsame
  unfold identify
  split
  · exact ⟨by simp, by simp⟩
  · exact ⟨by simp, by simp⟩
  · next m hne _ =>
    have hprofile : m.profile.startup = micStartup := by
      cases m with
      | vlinkerMcPlus => rfl
      | caristaEvo => rfl
      | obdlinkMxp => exact absurd rfl hne
    simp only [hprofile]
    rw [if_pos ⟨hfits, hstartup⟩]
    refine ⟨by simp, fun s' h => ?_⟩
    cases h
    exact hsame

theorem qualify_core {reply : List Char} {s' : Session} (h : s.qualify reply = .ok s') :
    s'.core = s.core := by
  unfold qualify at h
  split at h
  · cases h
  · dsimp only at h
    rw [ite_eq_iff] at h
    obtain ⟨-, h⟩ | ⟨-, h⟩ := h <;> cases h
    rfl

theorem core_of_map {α : Type} {x : Except String α} {f : α → Session} {s' : Session}
    (h : some (x.map f) = some (.ok s')) (hf : ∀ a, (f a).core = s.core) : s'.core = s.core := by
  cases x with
  | error e => cases h
  | ok a =>
    cases h
    exact hf a

theorem core_of_ite {p : Prop} [Decidable p] {t s' : Session} {e : String}
    (h : some (if p then .ok t else Except.error e) = some (.ok s')) (ht : t.core = s.core) :
    s'.core = s.core := by
  split at h <;> cases h
  exact ht

theorem validate_spec {command : Command} {reply : List Char} {s' : Session}
    (h : s.validate command reply = some (.ok s')) :
    Validated s command s' ∧ (command ≠ vti → s'.commands = s.commands) := by
  have kept : ∀ {command : Command}, s'.core = s.core → command ≠ sessionStop →
      command ≠ sessionStart → command ≠ vti → command ≠ stdi →
      Validated s command s' ∧ (command ≠ vti → s'.commands = s.commands) :=
    fun hcore hstop hstart hvti hstdi =>
      ⟨.of_kept hcore hstop hstart hvti hstdi, fun _ => congrArg Core.commands hcore⟩
  unfold validate at h
  split at h
  case h_1 =>
    cases h
    exact kept rfl (by decide) (by decide) (by decide) (by decide)
  case h_2 => exact ⟨identify_spec h, fun hne => absurd rfl hne⟩
  case h_3 =>
    simp only [Option.some.injEq, identifyObdlink] at h
    split at h
    · cases h
    · split at h
      · cases h
      · cases h
        exact ⟨⟨rfl, rfl, rfl, rfl, rfl, rfl, rfl, fun _ => rfl⟩, fun _ => rfl⟩
  case h_4 | h_5 =>
    exact kept (qualify_core (Option.some.inj h)) (by decide) (by decide) (by decide) (by decide)
  case h_6 | h_7 | h_8 | h_9 | h_10 =>
    exact kept (core_of_ite h rfl) (by decide) (by decide) (by decide) (by decide)
  case h_11 => exact kept (core_of_map h fun _ => rfl) (by decide) (by decide) (by decide) (by decide)
  case h_12 =>
    simp only [Option.some.injEq] at h
    split at h <;> cases h
    exact ⟨⟨rfl, rfl, rfl, rfl, rfl, rfl, rfl, by simp⟩, fun _ => rfl⟩
  case h_13 =>
    simp only [Option.some.injEq] at h
    split at h <;> cases h
    exact ⟨⟨rfl, rfl, rfl, rfl, rfl, rfl, rfl, by simp⟩, fun _ => rfl⟩
  case h_14 => exact kept (core_of_map h fun _ => rfl) (by decide) (by decide) (by decide) (by decide)
  case h_15 => exact kept (core_of_map h fun _ => rfl) nofun nofun nofun nofun
  case h_16 => exact kept (core_of_ite h rfl) ‹_› ‹_› ‹_› ‹_›

theorem validate_ne_none {command : Command} {reply : List Char}
    (h : command = vti → s.identify reply ≠ none) : s.validate command reply ≠ none := by
  unfold validate
  split
  case h_2 => exact h rfl
  all_goals exact Option.some_ne_none _

/-! ## Advancing -/

theorem advance_last {completed : Completed} (h : s.index + 1 = s.commands.length) :
    s.advance now completed = { s with index := s.index + 1 }.finish completed := by
  unfold advance
  rw [if_pos h]

theorem advance_next {completed : Completed} {next : Command}
    (h : s.commands[s.index + 1]? = some next) :
    s.advance now completed = (some (.send next (some completed)),
      { s with
        index := s.index + 1
        commandAt := now
        diagnosticActive := s.diagnosticActive || next == .sessionStart
        prompt := .empty }) := by
  have hlt := (List.getElem?_eq_some_iff.mp h).1
  have hne : s.index + 1 ≠ s.commands.length := Nat.ne_of_lt hlt
  unfold advance
  rw [if_neg hne, emit_eq h]

/-- A validated command of a plan is followed by the next one, or completes the session. -/
theorem advance_running {obdlink : Bool} {command : Command} {reply : String}
    (hterminal : s.terminal = none) (hcleanup : s.cleanupError = none)
    (hmode : s.mode ≠ .vin → s.readVin = true)
    (hcommands : s.commands = plan obdlink s.readVin s.mode) (hstarted : s.started = true)
    (hcommand : s.commands[s.index]? = some command)
    (hactive : s.diagnosticActive =
      if command = sessionStop then false else openAt s.commands s.index)
    (hidentified : 2 ≤ s.index → s.model.isSome) :
    Reaches (s.commands.take (s.index + 1)) (s.commands.take s.index)
      (s.advance now ⟨command, reply⟩) := by
  have hlt : s.index < s.commands.length := (List.getElem?_eq_some_iff.mp hcommand).1
  have hopen := plan_openAt obdlink s.readVin s.mode s.index (hcommands ▸ hlt)
  rw [← hcommands, hcommand] at hopen
  simp only [Option.some.injEq] at hopen
  rw [← hactive] at hopen
  have hvalidated := take_succ_of hcommand
  by_cases hlast : s.index + 1 = s.commands.length
  · have hlength := plan_length obdlink s.readVin s.mode
    rw [← hcommands] at hlength
    obtain ⟨m, hm⟩ := Option.isSome_iff_exists.mp (hidentified (by omega))
    have hall : s.commands.take (s.index + 1) = s.commands := by rw [hlast, List.take_length]
    have hclosed : s.diagnosticActive = false := by
      have hend := plan_closed obdlink s.readVin s.mode
      rw [← hcommands, ← hlast, hopen, Bool.or_eq_false_iff] at hend
      exact hend.1
    rw [advance_last hlast]
    simp only [finish, hcleanup, hm]
    refine reaches_complete ?_
    rw [← hvalidated, hall]
    exact Stage.completed rfl rfl hcommands hclosed
  · obtain ⟨next, hnext⟩ : ∃ next, s.commands[s.index + 1]? = some next :=
      ⟨s.commands[s.index + 1], List.getElem?_eq_getElem (by omega)⟩
    rw [advance_next hnext]
    refine reaches_next ?_
    rw [← hvalidated, ← take_succ_of hnext]
    refine Stage.running hterminal hcleanup hmode hcommands hstarted ?_ ?_ ?_
    · show s.index + 1 < s.commands.length
      omega
    · show (s.diagnosticActive || next == sessionStart) = openAt s.commands (s.index + 1)
      rw [hopen, hnext]
      rfl
    · intro hindex
      exact hidentified (Nat.lt_succ_iff.mp hindex)

/-- What the end of a reply does: it fails the command, or validates it and the session goes on. -/
theorem answered_rule {P : Outcome → Prop} {command : Command}
    (hcommand : s.commands[s.index]? = some command)
    (hvti : command = vti → ∀ reply, s.identify reply ≠ none ∧
      ∀ s', s.identify reply = some (.ok s') → s'.commands = s.commands)
    (hfail : ∀ reason, P (s.fail now reason))
    (hvalid : ∀ (s' : Session) reply, Validated s command s' → s'.commands = s.commands →
      P (s'.advance now ⟨command, reply⟩)) : P (s.answered now) := by
  unfold answered
  simp only [hcommand]
  split
  · exact hfail _
  · next reply _ =>
    split
    · next hpanic => exact absurd hpanic (validate_ne_none fun hc => (hvti hc reply).1)
    · exact hfail _
    · next s' hvalidate =>
      obtain ⟨hspec, hsame⟩ := validate_spec hvalidate
      have hcommands : s'.commands = s.commands := by
        by_cases hc : command = vti
        · subst hc
          exact (hvti rfl reply).2 s' hvalidate
        · exact hsame hc
      have hcommand' : s'.commands[s'.index]? = some command := by
        rw [hcommands, hspec.index]
        exact hcommand
      simp only [hcommand']
      exact hvalid s' _ hspec hcommands

section

variable {obdlink : Bool} {command : Command} {s' : Session}

/-- A plan that asks for the product with `VTI` keeps its commands. -/
theorem plan_identify (hplan : s.commands = plan obdlink s.readVin s.mode)
    (hmode : s.mode ≠ .vin → s.readVin = true) (hcommand : s.commands[s.index]? = some command)
    (hvti : command = vti) (reply : List Char) :
    s.identify reply ≠ none ∧ ∀ s', s.identify reply = some (.ok s') → s'.commands = s.commands := by
  subst hvti
  have hfalse := plan_vti obdlink s.readVin s.mode (hplan ▸ List.mem_of_getElem? hcommand)
  subst hfalse
  exact identify_plan hplan hmode reply

/-- Only the stop of the diagnostic session closes it, and its start has opened it. -/
theorem Validated.openAt (hspec : Validated s command s')
    (hplan : s.commands = plan obdlink s.readVin s.mode)
    (hcommand : s.commands[s.index]? = some command)
    (hactive : s.diagnosticActive = openAt s.commands s.index) :
    s'.diagnosticActive = if command = sessionStop then false else Vlinker.openAt s.commands s.index := by
  have hindex := (List.getElem?_eq_some_iff.mp hcommand).1
  rw [hspec.active, hactive]
  by_cases hstart : command = sessionStart
  · subst hstart
    have hopen := plan_started obdlink s.readVin s.mode s.index (hplan ▸ hindex)
    rw [← hplan] at hopen
    rw [hopen hcommand, if_pos rfl]
  · rw [if_neg hstart]

/-- The product is known once its reply is validated. -/
theorem Validated.product (hspec : Validated s command s')
    (hplan : s.commands = plan obdlink s.readVin s.mode)
    (hcommand : s.commands[s.index]? = some command) (hidentified : 2 < s.index → s.model.isSome)
    (htwo : 2 ≤ s.index) : s'.model.isSome := by
  refine hspec.identified ?_
  rcases Nat.eq_or_lt_of_le htwo with heq | hlt
  · have hproduct := plan_product obdlink s.readVin s.mode
    rw [← hplan, heq, hcommand, Option.some.injEq] at hproduct
    cases obdlink with
    | false => exact .inl hproduct
    | true => exact .inr (.inl hproduct)
  · exact .inr (.inr (hidentified hlt))

/-- The reply to a command of a plan. -/
theorem answered_running (hterminal : s.terminal = none) (hcleanup : s.cleanupError = none)
    (hmode : s.mode ≠ .vin → s.readVin = true)
    (hplan : s.commands = plan obdlink s.readVin s.mode) (hstarted : s.started = true)
    (hindex : s.index < s.commands.length)
    (hactive : s.diagnosticActive = openAt s.commands s.index)
    (hidentified : 2 < s.index → s.model.isSome) :
    Reaches (s.commands.take (s.index + 1)) (s.commands.take s.index) (s.answered now) := by
  obtain ⟨command, hcommand⟩ : ∃ command, s.commands[s.index]? = some command :=
    ⟨s.commands[s.index], List.getElem?_eq_getElem hindex⟩
  refine answered_rule hcommand (plan_identify hplan hmode hcommand)
    (fun _ => fail_running hterminal hcleanup hplan hstarted hindex hactive)
    fun s' reply hspec hcommands => ?_
  rw [← hcommands, ← hspec.index]
  refine @advance_running s' now obdlink command reply (hspec.terminal.trans hterminal)
    (hspec.cleanup.trans hcleanup) ?_ ?_ (hspec.started.trans hstarted) ?_ ?_ ?_
  · rw [hspec.mode, hspec.readVin]
    exact hmode
  · rw [hcommands, hspec.readVin, hspec.mode]
    exact hplan
  · rw [hcommands, hspec.index]
    exact hcommand
  · rw [hcommands, hspec.index]
    exact hspec.openAt hplan hcommand hactive
  · rw [hspec.index]
    exact hspec.product hplan hcommand hidentified

end

/-- The reply to the command under way leads from each stage to a stage. -/
theorem answered_reaches (h : Stage s.core sent validated) (hterminal : s.terminal = none)
    (hstarted : s.started = true) : Reaches sent validated (s.answered now) := by
  have hfail : ∀ reason, Reaches sent validated (s.fail now reason) := fun _ => fail_reaches h hterminal
  cases h with
  | ready _ _ _ _ hidle => exact absurd (hstarted.symm.trans hidle) (by decide)
  | running _ hcleanup hmode hplan _ hindex hactive hidentified =>
    exact answered_running hterminal hcleanup hmode hplan hstarted hindex hactive hidentified
  | @stopping before validated close _ hcleanup hmode _ hcommands hclose hindex _ hbefore hstop =>
    have hcommands₀ : s.commands = [sessionStop, close] := hcommands
    have hindex₀ : s.index = 0 := hindex
    have hcommand : s.commands[s.index]? = some sessionStop := by rw [hcommands₀, hindex₀]; rfl
    have hstart : (close == sessionStart) = false := by rcases hclose with rfl | rfl <;> rfl
    refine answered_rule hcommand nofun hfail fun s' reply hspec hsame => ?_
    have hcommands' : s'.commands = [sessionStop, close] := hsame.trans hcommands
    have hindex' : s'.index = 0 := hspec.index.trans hindex
    have hnext : s'.commands[s'.index + 1]? = some close := by rw [hcommands', hindex']; rfl
    rw [advance_next hnext]
    refine reaches_next ?_
    rw [List.append_assoc]
    refine Stage.closing (hspec.terminal.trans hterminal) ?_ (hspec.mode.trans hmode)
      (hspec.started.trans hstarted) hnext hclose ?_ ?_ hbefore hstop
    · show s'.cleanupError.isSome
      rw [hspec.cleanup]
      exact hcleanup
    · show s'.index + 1 + 1 = s'.commands.length
      rw [hcommands', hindex']
      rfl
    · simp [core, hstart, hspec.active]
  | @closing before validated close _ hcleanup hmode _ hcommand hclose hindex hactive hbefore hstop =>
    have hvti : close ≠ vti := by rcases hclose with rfl | rfl <;> decide
    have hstart : close ≠ sessionStart := by rcases hclose with rfl | rfl <;> decide
    have hnstop : close ≠ sessionStop := by rcases hclose with rfl | rfl <;> decide
    refine answered_rule hcommand (fun hc => absurd hc hvti) hfail fun s' reply hspec hsame => ?_
    obtain ⟨e, he⟩ := Option.isSome_iff_exists.mp hcleanup
    have hlast : s'.index + 1 = s'.commands.length := by
      rw [hsame, hspec.index]
      exact hindex
    have he' : s'.cleanupError = some e := hspec.cleanup.trans he
    rw [advance_last hlast]
    simp only [finish, he']
    refine reaches_silent rfl (Stage.cleaned rfl rfl hlast hclose ?_ hbefore hstop)
    simp only [core]
    rw [hspec.active, if_neg hnstop, if_neg hstart]
    exact hactive
  | completed hdone | failed hdone | unclosed hdone | cleaned hdone =>
    exact absurd (hterminal.symm.trans hdone) (by simp)

/-! ## Events -/

theorem claim_core (s : Session) (c : Call) : (s.claim c).2.core = s.core := by
  unfold claim
  split
  · rfl
  · dsimp only
    split <;> rfl

/-- Only a session that has not started is ready. -/
theorem ready_of_unstarted (h : Stage s.core sent validated) (hterminal : s.terminal = none)
    (hstarted : s.started = false) :
    sent = [] ∧ validated = [] ∧ s.cleanupError = none ∧ (s.mode ≠ .vin → s.readVin = true) ∧
      (∃ obdlink, s.commands = plan obdlink s.readVin s.mode) ∧ s.index = 0 ∧
      s.diagnosticActive = false := by
  have hno : ∀ {k : Bool}, s.started = k → k ≠ true := fun hk => by rw [← hk, hstarted]; decide
  cases h with
  | @ready obdlink _ hcleanup hmode hcommands _ hindex hactive =>
    exact ⟨rfl, rfl, hcleanup, hmode, ⟨obdlink, hcommands⟩, hindex, hactive⟩
  | running _ _ _ _ hrunning => exact absurd rfl (hno hrunning)
  | stopping _ _ _ hrunning => exact absurd rfl (hno hrunning)
  | closing _ _ _ hrunning => exact absurd rfl (hno hrunning)
  | completed hdone | failed hdone | unclosed hdone | cleaned hdone =>
    exact absurd (hterminal.symm.trans hdone) (by simp)

theorem select_reaches (h : Stage s.core sent validated) (hterminal : s.terminal = none)
    {s' : Session} (hselect : s.selectObdlink = .ok s') :
    Reaches sent validated (some .idle, s') := by
  unfold selectObdlink at hselect
  split at hselect
  · cases hselect
  · next hstarted =>
    cases hselect
    rw [Bool.not_eq_true] at hstarted
    obtain ⟨rfl, rfl, hcleanup, hmode, -, hindex, hactive⟩ := ready_of_unstarted h hterminal hstarted
    refine reaches_silent rfl (@Stage.ready _ true hterminal hcleanup hmode ?_ hstarted hindex
      hactive)
    simp [core, plan]

theorem start_reaches (h : Stage s.core sent validated) (hterminal : s.terminal = none)
    (hstarted : s.started = false) :
    Reaches sent validated ({ s with started := true }.emit now) := by
  obtain ⟨rfl, rfl, hcleanup, hmode, ⟨obdlink, hcommands⟩, hindex, hactive⟩ :=
    ready_of_unstarted h hterminal hstarted
  obtain ⟨hopen, hfirst⟩ := plan_first obdlink s.readVin s.mode
  have hlength := plan_length obdlink s.readVin s.mode
  rw [← hcommands] at hopen hfirst hlength
  have hcommand : s.commands[s.index]? = some atz := by rw [hindex]; exact hfirst
  rw [@emit_eq { s with started := true } now atz hcommand]
  refine reaches_send ?_
  have htake : s.commands.take (s.index + 1) = [atz] := by
    rw [take_succ_of hcommand, hindex, List.take_zero, List.nil_append]
  have hnone : s.commands.take s.index = [] := by rw [hindex, List.take_zero]
  rw [List.nil_append, ← htake, ← hnone]
  refine Stage.running hterminal hcleanup hmode hcommands rfl ?_ ?_ ?_
  · show s.index < s.commands.length
    omega
  · show (s.diagnosticActive || atz == sessionStart) = openAt s.commands s.index
    rw [hactive, hindex, hopen]
    rfl
  · show 2 < s.index → _
    omega

/-- An answer that only says to go on: to a claim, or before the time of the command is over. -/
def Quiet (s : Session) (c : Call) (r : Response) : Prop :=
  r = .idle ∧ op c = "claim" ∨
    r = .waiting ∧ c.now - s.born < watchdog ∧ (s.started → c.now - s.commandAt < promptTimeout)

/-- What an event can do to a session that is not at its end: nothing but an answer, a change of the
profile, a failure, the start, or the end of a reply. -/
theorem event_rule {P : Outcome → Prop} {c : Call} (hterminal : s.terminal = none)
    (hquiet : ∀ r (s' : Session), s'.core = s.core → s.Quiet c r → P (some r, s'))
    (hselect : ∀ s', s.selectObdlink = .ok s' → P (some .idle, s'))
    (hfail : ∀ (s' : Session) reason, s'.core = s.core → P (s'.fail c.now reason))
    (hstart : ∀ s' : Session, s'.core = s.core → s.started = false →
      P ({ s' with started := true }.emit c.now))
    (hanswered : ∀ s' : Session, s'.core = s.core → s.started = true → P (s'.answered c.now)) :
    P (s.event c) := by
  have hclaim := claim_core s c
  rcases hresult : s.claim c with ⟨granted, s'⟩
  rw [hresult] at hclaim
  have hstarted' : s'.started = s.started := congrArg Core.started hclaim
  unfold event
  simp only [hterminal, hresult]
  split
  · split
    · split
      · next hselected => exact hselect _ hselected
      · exact hfail s _ rfl
    · exact hfail s _ rfl
  split
  · next hop =>
    cases granted with
    | true => exact hquiet _ _ hclaim (.inl ⟨rfl, hop⟩)
    | false => exact hfail _ _ hclaim
  split
  · exact hfail s _ rfl
  split
  · exact hfail s _ rfl
  next hborn =>
  split
  · exact hfail s _ rfl
  next hcommand =>
  have hwaiting : s.Quiet c .waiting :=
    .inr ⟨rfl, Nat.not_le.mp hborn, fun hstarted => Nat.not_le.mp fun hle => hcommand ⟨hstarted, hle⟩⟩
  split
  · cases granted with
    | false => exact hfail _ _ hclaim
    | true =>
      dsimp only
      split
      · exact hfail _ _ hclaim
      · next hidle =>
        rw [Bool.not_eq_true, hstarted'] at hidle
        exact hstart s' hclaim hidle
  split
  · exact hquiet _ s rfl hwaiting
  split
  · next hrx =>
    unfold receive
    split
    · exact hfail s _ rfl
    split
    · exact hfail s _ rfl
    split
    · exact hfail _ _ rfl
    split
    · exact hanswered _ rfl hrx.2
    · exact hquiet _ _ rfl hwaiting
  · exact hfail s _ rfl

/-- Every event leads from each stage to a stage, and none is a panic. -/
theorem event_reaches (h : Stage s.core sent validated) (hterminal : s.terminal = none) (c : Call) :
    Reaches sent validated (s.event c) := by
  have hsame : ∀ {s' : Session}, s'.core = s.core →
      Stage s'.core sent validated ∧ s'.terminal = none ∧ s'.started = s.started := fun hcore =>
    ⟨hcore ▸ h, (congrArg Core.terminal hcore).trans hterminal, congrArg Core.started hcore⟩
  refine event_rule hterminal (fun r s' hcore hr => ?_) (fun s' => select_reaches h hterminal)
    (fun s' reason hcore => ?_) (fun s' hcore hidle => ?_) (fun s' hcore hstarted => ?_)
  · refine reaches_silent ?_ (hsame hcore).1
    rcases hr with ⟨rfl, -⟩ | ⟨rfl, -⟩ <;> rfl
  · exact fail_reaches (hsame hcore).1 (hsame hcore).2.1
  · exact start_reaches (hsame hcore).1 (hsame hcore).2.1 ((hsame hcore).2.2.trans hidle)
  · exact answered_reaches (hsame hcore).1 (hsame hcore).2.1 ((hsame hcore).2.2.trans hstarted)

end Session

end OpenSaab.Vlinker
