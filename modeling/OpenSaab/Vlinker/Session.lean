import OpenSaab.Vlinker.Replies
import OpenSaab.Json
import Mathlib.Algebra.Group.Nat.Defs

/-!
# The host workflow

`vlinker.rs`: a session sends its commands to the adapter one by one, each after the reply to the
one before it. A failure during a diagnostic session first stops that session.
-/

namespace OpenSaab.Vlinker

open Text Json

/-! ## What a session answers -/

inductive Mode where
  | vin
  | ecmInfo
  | ecmDtc
  deriving DecidableEq, Repr

def Mode.text : Mode → String
  | vin => "vin"
  | ecmInfo => "ecm_info"
  | ecmDtc => "ecm_dtc"

/-- What a mode reads from the ECM, between the startup of the adapter and its close. -/
def Mode.reads : Mode → List Command
  | ecmDtc => dtcCommands
  | ecmInfo => infoCommands
  | vin => []

/-- A command with the reply to it. -/
structure Completed where
  command : Command
  reply : String
  deriving DecidableEq, Repr

structure WorkflowResult where
  mode : Mode
  ecmIdentifiers : List (String × IdentifierValue)
  dtcReport : Option (List DtcRecord)
  display : String
  diagnosticSessionStopped : Bool
  adapterModel : String
  adapterLabel : String
  commandFamily : String
  profileId : String
  product : String
  chipFirmware : String
  voltage : String
  vin : Option String
  requestOrigin : String
  flowControlOwner : String
  deriving DecidableEq, Repr

/-- The value that an event returns, by its `state`. -/
inductive Response where
  | idle
  | waiting
  | send (command : Command) (completed : Option Completed)
  | failed (error : String) (diagnosticStopAttempted : Bool)
  | complete (completed : Completed) (result : WorkflowResult)
  deriving DecidableEq, Repr

structure Session where
  readVin : Bool
  owned : Bool
  lease : Option String
  commands : List Command
  mode : Mode
  ecm : List (String × IdentifierValue)
  dtc : Option (List DtcRecord)
  diagnosticActive : Bool
  cleanupError : Option String
  origin : String
  index : Nat
  started : Bool
  born : Nat
  commandAt : Nat
  prompt : Prompt
  terminal : Option Response
  model : Option Model
  product : String
  firmware : String
  voltage : String
  vin : String
  deriving DecidableEq, Repr

/-- One event, with what the session finds around it: the clock in nanoseconds, the owner that holds
the lease, and the name that `ownership::unique` makes up. -/
structure Call where
  event : Value
  now : Nat
  holder : Option String
  fresh : String
  deriving Repr

/-- Nothing is returned after a panic. The session stays as the panic finds it. -/
abbrev Outcome := Option Response × Session

namespace Session

def new (now : Nat) (readVin : Bool) : Session where
  readVin
  owned := false
  lease := none
  commands := micStartup.take (if readVin then 13 else 5)
  mode := .vin
  ecm := []
  dtc := none
  diagnosticActive := false
  cleanupError := none
  origin := "host-bench-qualification"
  index := 0
  started := false
  born := now
  commandAt := now
  prompt := .empty
  terminal := none
  model := none
  product := ""
  firmware := ""
  voltage := ""
  vin := ""

def startup (now : Nat) : Session := { new now true with origin := "host-startup-discovery" }

def probe (now : Nat) (codes : Bool) : Session :=
  { new now true with
    origin := "host-hscan-probe"
    mode := if codes then .ecmDtc else .ecmInfo
    commands := micStartup.take 12 ++ (if codes then dtcCommands else infoCommands) ++ [.vtpc] }

/-! ## The lease -/

/-- `Lease::acquire`. -/
def acquires (holder : Option String) (owner : String) : Bool :=
  owner ≠ "" && owner.utf8ByteSize ≤ 100 && (holder = none || holder = some owner)

def claim (s : Session) (c : Call) : Bool × Session :=
  if ¬ s.owned ∨ s.lease.isSome then (true, s)
  else
    let owner := (c.event.get "owner").asStr.getD c.fresh
    if acquires c.holder owner then (true, { s with lease := some owner }) else (false, s)

/-! ## Sending and failing -/

def closeCommand (s : Session) : Command := if .stdi ∈ s.commands then .stpc else .vtpc

def selectObdlink (s : Session) : Except String Session :=
  if s.started then .error "Cannot change an active adapter profile"
  else
    .ok { s with
      commands := obdlinkStartup.take (if s.readVin then 22 else 5) ++ s.mode.reads ++
        if s.readVin then [.stpc] else [] }

def emit (s : Session) (now : Nat) : Outcome :=
  let s := { s with commandAt := now }
  match s.commands[s.index]? with
  | none => (none, s)
  | some command =>
    (some (.send command none),
      { s with
        diagnosticActive := s.diagnosticActive || command == .sessionStart
        prompt := .empty })

/-- The end of a session that has failed. -/
def stop (s : Session) (reason : String) : Outcome :=
  let result := Response.failed (s.cleanupError.getD reason) false
  (some result, { s with vin := "", terminal := some result })

/-- The first failure of a diagnostic session: it is stopped, unless that was under way. -/
def cleanUp (s : Session) (now : Nat) (reason : String) : Outcome :=
  let s := { s with cleanupError := some reason, vin := "", dtc := none }
  match s.commands[s.index]? with
  | none => (none, s)
  | some command =>
    if command = .sessionStop then
      { s with diagnosticActive := false, commands := [s.closeCommand], index := 0 }.emit now
    else { s with commands := [.sessionStop, s.closeCommand], index := 0 }.emit now

def fail (s : Session) (now : Nat) (reason : String) : Outcome :=
  if s.mode = .ecmDtc ∧ s.diagnosticActive ∧ s.cleanupError = none then s.cleanUp now reason
  else if s.cleanupError.isSome then
    match s.commands[s.index]? with
    | none => (none, s)
    | some command =>
      if command = .sessionStop then
        { s with diagnosticActive := false, index := s.index + 1 }.emit now
      else s.stop reason
  else s.stop reason

/-! ## Replies -/

def digits (s : List Char) : Bool := s.all Char.isDigit

/-- `12.1V`. -/
def validVoltage (reply : List Char) : Bool :=
  match reply.reverse with
  | unit :: rest =>
    let (whole, fraction) := rest.reverse.span (· ≠ '.')
    (unit == 'V' || unit == 'v') && fraction.head? == some '.' && 1 ≤ whole.length &&
      whole.length ≤ 2 && fraction.drop 1 ≠ [] && digits whole && digits (fraction.drop 1)
  | [] => false

/-- Some frame of the reply has the identifier of the ECM and starts with these bytes. -/
def confirmed (reply : List Char) (start : List UInt8) : Except String Bool := do
  return (← frames reply).any fun (id, data) => id == 0x7e8 && data.take 2 == start

/-- The product, which decides the startup commands. Slices that do not fit are a panic. -/
def identify (s : Session) (reply : List Char) : Option (Except String Session) :=
  match Model.fromProduct reply with
  | .error e => some (.error e)
  | .ok .obdlinkMxp => some (.error "MX+ requires its explicit STN profile")
  | .ok m =>
    let count := if s.mode = .vin then s.commands.length else 12
    let startup := m.profile.startup
    if count ≤ s.commands.length ∧ count ≤ startup.length then
      some (.ok { s with
        commands := startup.take count ++ s.commands.drop count
        model := some m
        product := String.ofList reply })
    else none

def identifyObdlink (s : Session) (reply : List Char) : Except String Session :=
  match Model.fromProduct reply with
  | .error e => .error e
  | .ok m =>
    if m ≠ .obdlinkMxp then .error "Selected MX+ returned a different product"
    else .ok { s with model := some m, product := String.ofList reply }

def qualify (s : Session) (reply : List Char) : Except String Session :=
  match s.model with
  | none => .error "Missing adapter model"
  | some m =>
    let qualified :=
      if s.mode = .vin then m.profile.vinFirmware reply else m.profile.probeFirmware reply
    if s.readVin ∧ ¬ qualified then
      .error (s.mode.text ++ " profile is not qualified for " ++ m.profile.label ++ " firmware: " ++
        String.ofList reply)
    else .ok { s with firmware := String.ofList reply }

def validate (s : Session) (command : Command) (reply : List Char) :
    Option (Except String Session) :=
  match command with
  | .atz => some (.ok s)
  | .vti => s.identify reply
  | .stdi => some (s.identifyObdlink reply)
  | .sti | .vtvers => some (s.qualify reply)
  | .atrv =>
    some (if validVoltage reply then .ok { s with voltage := String.ofList reply }
      else .error "Invalid adapter voltage reply")
  | .stpr | .vtpron =>
    some (if reply = ['6'] ∨ compact reply = "6[AT]".toList then .ok s
      else .error "Adapter did not select 11-bit HS-CAN protocol 6")
  | .stpbrr | .vtpbrd =>
    some (if reply = "500000".toList then .ok s else .error "Adapter CAN baud rate is not 500000")
  | .vinRequest => some ((parseVin reply).map fun vin => { s with vin })
  | .sessionStart =>
    some (match confirmed reply [1, 0x50] with
      | .error e => .error e
      | .ok false => .error "ECM diagnostic session start was not confirmed"
      | .ok true => .ok { s with diagnosticActive := true })
  | .sessionStop =>
    some (match confirmed reply [1, 0x60] with
      | .error e => .error e
      | .ok false => .error "ECM diagnostic session stop was not confirmed"
      | .ok true => .ok { s with diagnosticActive := false })
  | .dtcRead => some ((dtcReport reply).map fun records => { s with dtc := some records })
  | .info read =>
    some ((identifier reply read.pid).map fun bytes =>
      { s with
        ecm := (read.label, identifierValue bytes read.pid) :: s.ecm.filter (·.1 ≠ read.label) })
  | _ =>
    some (if reply = ['O', 'K'] then .ok s else .error (command.text ++ ": expected OK"))

/-! ## Completion -/

def displayIdentifiers (s : Session) : String :=
  String.join (InfoRead.all.filterMap fun read =>
    (s.ecm.lookup read.label).map fun v => read.label ++ ": " ++ v.value ++ "\n")

def displayReport (records : List DtcRecord) : String :=
  "Engine codes · current/history · complete report\n" ++
    (if records = [] then "No codes reported for mask 12\n" else "") ++
    String.join (records.map fun d =>
      d.code ++ " · failure " ++ d.failureType ++ " · status " ++ d.status ++ "\n") ++
    "Codes not cleared · ECM only\n"

def display (s : Session) (m : Model) : String :=
  (if s.readVin then
    (if s.mode = .vin then "Vehicle identification · HS-CAN" else "HS-CAN ECM probe") ++
      " · 500 kbit/s\nVIN: " ++ s.vin ++ "\n"
  else "Bluetooth adapter identification\n") ++
    "Adapter: " ++ m.profile.label ++ "\n" ++
    (if s.mode = .ecmInfo then s.displayIdentifiers else "") ++
    (s.dtc.map displayReport).getD "" ++
    "Adapter FW: " ++ s.firmware ++ "\nAdapter voltage: " ++ s.voltage ++
    "\nAdapter connection closed"

def result (s : Session) (m : Model) : WorkflowResult where
  mode := s.mode
  ecmIdentifiers := s.ecm
  dtcReport := s.dtc
  display := s.display m
  diagnosticSessionStopped := !s.diagnosticActive
  adapterModel := m.profile.id
  adapterLabel := m.profile.label
  commandFamily := if m = .obdlinkMxp then "STN" else "MIC"
  profileId := if s.mode = .vin then m.profile.vinProfile else m.probeProfileId (s.mode = .ecmDtc)
  product := s.product
  chipFirmware := s.firmware
  voltage := s.voltage
  vin := if s.readVin then some s.vin else none
  requestOrigin := s.origin
  flowControlOwner := if s.readVin then "adapter" else "none"

def finish (s : Session) (completed : Completed) : Outcome :=
  match s.cleanupError with
  | some e => (some (.failed e true), { s with terminal := some (.failed e true) })
  | none =>
    match s.model with
    | none => (none, s)
    | some m =>
      (some (.complete completed (s.result m)),
        { s with terminal := some (.complete completed (s.result m)) })

/-- The next command, or the end. -/
def advance (s : Session) (now : Nat) (completed : Completed) : Outcome :=
  let s := { s with index := s.index + 1 }
  if s.index = s.commands.length then s.finish completed
  else
    match s.emit now with
    | (some (.send command _), s) => (some (.send command (some completed)), s)
    | outcome => outcome

/-! ## Events -/

/-- A reply up to its prompt. -/
def answered (s : Session) (now : Nat) : Outcome :=
  match s.commands[s.index]? with
  | none => (none, s)
  | some command =>
    match checked command.text s.prompt.text with
    | .error e => s.fail now e
    | .ok reply =>
      match s.validate command reply with
      | none => (none, s)
      | some (.error e) => s.fail now e
      | some (.ok s) =>
        match s.commands[s.index]? with
        | none => (none, s)
        | some command => s.advance now ⟨command, String.ofList reply⟩

def byte (v : Value) : Option UInt8 :=
  v.asU64.bind fun n => if n < 256 then some n.toUInt8 else none

def receive (s : Session) (c : Call) : Outcome :=
  match (c.event.get "bytes").asArray with
  | none => s.fail c.now "Missing response bytes"
  | some input =>
    match input.mapM byte with
    | none => s.fail c.now "Invalid response byte"
    | some bytes =>
      match s.prompt.feed bytes with
      | (.error e, prompt) => { s with prompt }.fail c.now e
      | (.ok (), prompt) =>
        if prompt.done then { s with prompt }.answered c.now
        else (some .waiting, { s with prompt })

def op (c : Call) : String := (c.event.get "op").asStr.getD ""

/-- The watchdog of a session, and the limit of a reply. -/
def watchdog : Nat := 30 * 10 ^ 9

def promptTimeout : Nat := 4 * 10 ^ 9

def event (s : Session) (c : Call) : Outcome :=
  match s.terminal with
  | some terminal => (some terminal, s)
  | none =>
    if op c = "select_profile" then
      if (c.event.get "model").asStr = some "obdlink_mxp" then
        match s.selectObdlink with
        | .ok s => (some .idle, s)
        | .error e => s.fail c.now e
      else s.fail c.now "Unknown explicit adapter profile"
    else if op c = "claim" then
      match s.claim c with
      | (true, s) => (some .idle, s)
      | (false, s) => s.fail c.now "Finish the active workflow before connecting"
    else if op c ∈ ["cancel", "disconnected", "error"] then
      s.fail c.now ((c.event.get "message").asStr.getD "Bluetooth test stopped")
    else if watchdog ≤ c.now - s.born then
      s.fail c.now "Session watchdog expired; no automatic replay"
    else if s.started ∧ promptTimeout ≤ c.now - s.commandAt then
      s.fail c.now "Command prompt timeout; no automatic replay"
    else if op c = "start" then
      match s.claim c with
      | (false, s) => s.fail c.now "Finish the active workflow before connecting"
      | (true, s) =>
        if s.started then s.fail c.now "Session already started"
        else { s with started := true }.emit c.now
    else if op c = "tick" then (some .waiting, s)
    else if op c = "rx" ∧ s.started then s.receive c
    else s.fail c.now "Unexpected workflow event"

end Session

/-! ## The foreign function interface -/

/-- An event as the bytes that the caller hands over. -/
structure RawCall where
  input : List UInt8
  now : Nat
  holder : Option String
  fresh : String
  deriving Repr

/-- What the caller gets: the value of the session, or the report of a panic. -/
inductive Answer where
  | value (r : Response)
  | failedSafely
  deriving DecidableEq, Repr

namespace Session

def eventLimit : Nat := 131072

/-- What `opensaab_vlinker_event` does before it catches a panic. -/
def delivered (parse : List UInt8 → Option Value) (s : Session) (c : RawCall) : Outcome :=
  if eventLimit < c.input.length then s.fail c.now "Workflow event exceeds limit"
  else
    match parse c.input with
    | some event => s.event { event, now := c.now, holder := c.holder, fresh := c.fresh }
    | none => s.fail c.now "Invalid workflow JSON"

/-- `opensaab_vlinker_event` on a session and an input that are there. -/
def vlinkerEvent (parse : List UInt8 → Option Value) (s : Session) (c : RawCall) :
    Answer × Session :=
  match s.delivered parse c with
  | (some r, s) => (.value r, s)
  | (none, s) => (.failedSafely, s)

end Session

end OpenSaab.Vlinker
