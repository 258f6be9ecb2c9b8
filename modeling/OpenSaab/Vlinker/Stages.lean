import OpenSaab.Vlinker.Session
import OpenSaab.Library.Runs

/-!
# The stages of a session

Where in its plan a session is, what it has sent and what has been validated.
-/

namespace OpenSaab.Vlinker

open Command Runs

/-! ## Plans -/

/-- The commands of a session: the startup of the adapter, the reads of the mode, and the close. -/
def plan (obdlink readVin : Bool) (mode : Mode) : List Command :=
  (if obdlink then obdlinkStartup.take (if readVin then 22 else 5)
    else micStartup.take (if readVin then 12 else 5)) ++
    mode.reads ++ if readVin then [if obdlink then stpc else vtpc] else []

/-- The diagnostic session is open while the command at `i` is under way. -/
def openAt (commands : List Command) (i : Nat) : Bool :=
  (commands.take (i + 1)).contains sessionStart && !(commands.take i).contains sessionStop

section

variable (obdlink readVin : Bool) (mode : Mode)

theorem plan_nodup : (plan obdlink readVin mode).Nodup := by
  cases obdlink <;> cases readVin <;> cases mode <;> decide

theorem plan_length : 4 < (plan obdlink readVin mode).length := by
  cases obdlink <;> cases readVin <;> cases mode <;> decide

theorem plan_diagnostic (h : sessionStart ∈ plan obdlink readVin mode) : mode = .ecmDtc := by
  revert h
  cases obdlink <;> cases readVin <;> cases mode <;> decide

theorem plan_stops (h : sessionStart ∈ plan obdlink readVin mode) :
    sessionStop ∈ plan obdlink readVin mode := by
  revert h
  cases obdlink <;> cases readVin <;> cases mode <;> decide

/-- Only the two commands of the diagnostic session change whether it is open. -/
theorem plan_openAt : ∀ i < (plan obdlink readVin mode).length,
    openAt (plan obdlink readVin mode) (i + 1) =
      ((if (plan obdlink readVin mode)[i]? = some sessionStop then false
        else openAt (plan obdlink readVin mode) i) ||
        (plan obdlink readVin mode)[i + 1]? == some sessionStart) := by
  cases obdlink <;> cases readVin <;> cases mode <;> decide +kernel

/-- It is open from its start on. -/
theorem plan_started : ∀ i < (plan obdlink readVin mode).length,
    (plan obdlink readVin mode)[i]? = some sessionStart → openAt (plan obdlink readVin mode) i = true := by
  cases obdlink <;> cases readVin <;> cases mode <;> decide +kernel

/-- A diagnostic session that is started is stopped. -/
theorem plan_closed :
    openAt (plan obdlink readVin mode) (plan obdlink readVin mode).length = false := by
  cases obdlink <;> cases readVin <;> cases mode <;> decide

/-- The product is asked for third. -/
theorem plan_product : (plan obdlink readVin mode)[2]? = some (if obdlink then stdi else vti) := by
  cases obdlink <;> cases readVin <;> cases mode <;> decide

theorem plan_vti (h : vti ∈ plan obdlink readVin mode) : obdlink = false := by
  revert h
  cases obdlink <;> cases readVin <;> cases mode <;> decide

theorem plan_first : openAt (plan obdlink readVin mode) 0 = false ∧
    (plan obdlink readVin mode)[0]? = some atz := by
  cases obdlink <;> cases readVin <;> cases mode <;> decide

end

/-- The startup of the identified model is the one that is under way. -/
theorem plan_startup {readVin : Bool} {mode : Mode} (hmode : mode ≠ .vin → readVin = true) :
    let count := if mode = .vin then (plan false readVin mode).length else 12
    count ≤ (plan false readVin mode).length ∧ count ≤ micStartup.length ∧
      micStartup.take count ++ (plan false readVin mode).drop count = plan false readVin mode := by
  revert hmode
  cases readVin <;> cases mode <;> decide

/-! ## The core of a session -/

/-- What the order of the commands depends on. -/
structure Core where
  readVin : Bool
  commands : List Command
  mode : Mode
  diagnosticActive : Bool
  cleanupError : Option String
  index : Nat
  started : Bool
  terminal : Option Response
  identified : Bool

namespace Session

def core (s : Session) : Core where
  readVin := s.readVin
  commands := s.commands
  mode := s.mode
  diagnosticActive := s.diagnosticActive
  cleanupError := s.cleanupError
  index := s.index
  started := s.started
  terminal := s.terminal
  identified := s.model.isSome

end Session

/-- What a value that is returned says of the commands. -/
inductive Observation where
  | validated (command : Command)
  | sent (command : Command)
  deriving DecidableEq, Repr

def noted : Option Response → List Observation
  | some (.send command completed) =>
    (completed.map fun c => Observation.validated c.command).toList ++ [.sent command]
  | some (.complete completed _) => [.validated completed.command]
  | _ => []

def sentOf (observations : List Observation) : List Command :=
  observations.filterMap fun
    | .sent command => some command
    | .validated _ => none

def validatedOf (observations : List Observation) : List Command :=
  observations.filterMap fun
    | .validated command => some command
    | .sent _ => none

theorem sentOf_append (xs ys : List Observation) : sentOf (xs ++ ys) = sentOf xs ++ sentOf ys :=
  List.filterMap_append

theorem validatedOf_append (xs ys : List Observation) :
    validatedOf (xs ++ ys) = validatedOf xs ++ validatedOf ys :=
  List.filterMap_append

/-- The stages of a session, with what it has sent and what has been validated so far. -/
inductive Stage (k : Core) : List Command → List Command → Prop where
  /-- Nothing has been sent. The profile can still be changed. -/
  | ready {obdlink : Bool} (hterminal : k.terminal = none) (hcleanup : k.cleanupError = none)
      (hmode : k.mode ≠ .vin → k.readVin = true)
      (hcommands : k.commands = plan obdlink k.readVin k.mode) (hstarted : k.started = false)
      (hindex : k.index = 0) (hactive : k.diagnosticActive = false) : Stage k [] []
  /-- The command at the index is under way. -/
  | running {obdlink : Bool} (hterminal : k.terminal = none) (hcleanup : k.cleanupError = none)
      (hmode : k.mode ≠ .vin → k.readVin = true)
      (hcommands : k.commands = plan obdlink k.readVin k.mode) (hstarted : k.started = true)
      (hindex : k.index < k.commands.length)
      (hactive : k.diagnosticActive = openAt k.commands k.index)
      (hidentified : 2 < k.index → k.identified = true) :
      Stage k (k.commands.take (k.index + 1)) (k.commands.take k.index)
  /-- After a failure, the stop of the diagnostic session is under way. -/
  | stopping {before validated : List Command} {close : Command} (hterminal : k.terminal = none)
      (hcleanup : k.cleanupError.isSome) (hmode : k.mode = .ecmDtc) (hstarted : k.started = true)
      (hcommands : k.commands = [sessionStop, close]) (hclose : close = vtpc ∨ close = stpc)
      (hindex : k.index = 0) (hactive : k.diagnosticActive = true)
      (hbefore : before.Nodup) (hstop : sessionStop ∉ before) :
      Stage k (before ++ [sessionStop]) validated
  /-- After a failure, the close of the adapter is under way. -/
  | closing {before validated : List Command} {close : Command} (hterminal : k.terminal = none)
      (hcleanup : k.cleanupError.isSome) (hmode : k.mode = .ecmDtc) (hstarted : k.started = true)
      (hcommand : k.commands[k.index]? = some close) (hclose : close = vtpc ∨ close = stpc)
      (hindex : k.index + 1 = k.commands.length) (hactive : k.diagnosticActive = false)
      (hbefore : before.Nodup) (hstop : sessionStop ∉ before) :
      Stage k (before ++ [sessionStop, close]) validated
  /-- Every command has been validated. -/
  | completed {obdlink : Bool} {completed : Completed} {result : WorkflowResult}
      (hterminal : k.terminal = some (.complete completed result))
      (hcleanup : k.cleanupError = none)
      (hcommands : k.commands = plan obdlink k.readVin k.mode)
      (hactive : k.diagnosticActive = false) :
      Stage k k.commands k.commands
  /-- A failure that needed no cleanup. -/
  | failed {e : String} {sent validated : List Command} (hterminal : k.terminal = some (.failed e false))
      (hcleanup : k.cleanupError = none) (hactive : k.diagnosticActive = false) (hsent : sent.Nodup)
      (hclosed : sessionStart ∈ sent → sessionStop ∈ sent) : Stage k sent validated
  /-- A failure of the close of the adapter. -/
  | unclosed {e : String} {before validated : List Command} {close : Command}
      (hterminal : k.terminal = some (.failed e false)) (hcleanup : k.cleanupError = some e)
      (hcommand : k.commands[k.index]? = some close) (hclose : close = vtpc ∨ close = stpc)
      (hactive : k.diagnosticActive = false) (hbefore : before.Nodup)
      (hstop : sessionStop ∉ before) : Stage k (before ++ [sessionStop, close]) validated
  /-- The cleanup after a failure is done. -/
  | cleaned {e : String} {before validated : List Command} {close : Command}
      (hterminal : k.terminal = some (.failed e true)) (hcleanup : k.cleanupError = some e)
      (hindex : k.index = k.commands.length) (hclose : close = vtpc ∨ close = stpc)
      (hactive : k.diagnosticActive = false) (hbefore : before.Nodup)
      (hstop : sessionStop ∉ before) : Stage k (before ++ [sessionStop, close]) validated

/-- A step without a panic that leads from a stage to a stage. -/
def Reaches (sent validated : List Command) (o : Outcome) : Prop :=
  o.1.isSome ∧
    Stage o.2.core (sent ++ sentOf (noted o.1)) (validated ++ validatedOf (noted o.1))

end OpenSaab.Vlinker
