import OpenSaab.Obdlink.Link

/-!
# The worker of the link

`adapters/obdlink_guest.rs`: setup, the selection of a bus, what is received, and the loop that
monitors and serves the requests of the guest one after the other.
-/

namespace OpenSaab.Obdlink

open Can Program

namespace Link

variable (W : World) (fuel : Nat)

/-- A command that has to be confirmed. -/
def confirm (cmd : String) : Act Unit := exact W fuel cmd "OK"

/-! ## Setup -/

/-- Bytes of the start are dropped. -/
def drain : Act Unit := do
  if ← ask W.late then refuse "STN startup bytes did not settle"
  else
    let items ← packet W false
    if items ≠ [] then record W else pure ()

def restart : Act Unit := change fun s => { s with parser := .default, receiving := false }

def resetAdapter : Act Unit := do
  let reset ← reply W fuel "ATZ".toList
  match reset with
  | [line] =>
    if "ELM327".toList.isPrefixOf line then pure ()
    else refuse ("STN reset rejected: " ++ debug reset)
  | _ => refuse ("STN reset rejected: " ++ debug reset)

/-- Only the number is left to the surroundings. -/
def voltage (volts : List (List Char)) : Bool :=
  match volts with
  | [line] =>
    let text := Text.trim line
    text.getLast? == some 'V' && W.inRange (Text.trim text.dropLast)
  | _ => false

def checkVoltage : Act Unit := do
  let volts ← reply W fuel "ATRV".toList
  if voltage W volts then record W
  else refuse ("Bench adapter voltage unavailable or outside 11.5–15.5 V: " ++ debug volts)

def setup : Act Unit := do
  loop .exhausted (ask W.settling) (fun _ => drain W) fuel ()
  restart
  resetAdapter W fuel
  confirm W fuel "ATE0"
  exact W fuel "STI" "STN2255 v5.12.4"
  exact W fuel "STDI" "OBDLink MX+ r3.1.3"
  exact W fuel "STSN" "225530563988"
  checkVoltage W fuel
  each (confirm W fuel)
    ["ATL0", "ATS1", "ATH1", "ATD1", "ATV1", "ATCAF0", "ATCFC0", "STCMM1", "STCSEGT0", "STCSEGR0",
      "ATR1", "ATAT0", "ATST0A", "STP31"]
  change fun s => { s with configured := true }
  exact W fuel "STPR" "31"
  exact W fuel "STPBRR" "500000"
  each (confirm W fuel) ["STFAC", "STFPA400,400", "STPO"]
  record W

/-- The commands for another bus. -/
def switchBus (controller : Nat) : Act Unit := do
  confirm W fuel "STPC"
  confirm W fuel (if controller = 0 then "STP31" else "STP61")
  exact W fuel "STPR" (if controller = 0 then "31" else "61")
  exact W fuel "STPBRR" (if controller = 0 then "500000" else "33333")
  each (confirm W fuel) ["STCMM1", "STCSEGT0", "STCSEGR0", "ATR1", "STFAC"]
  confirm W fuel (if controller = 0 then "STFPA400,400" else "STFPA000,000")
  confirm W fuel "STPO"
  if controller = 2 then confirm W fuel "STCSWM3" else pure ()

def selectBus (controller : Nat) : Act Unit := do
  if controller = (← read (·.controller)) then pure ()
  else if controller ≠ 0 ∧ controller ≠ 2 then refuse "MX+ controller unavailable"
  else
    switchBus W fuel controller
    change fun s => { s with controller }
    record W

/-! ## Receiving -/

/-- `try_send` of an event. -/
def publish (e : Event) (full : String) : Act Unit := do
  if ← ask W.accepts then log (.report e) else refuse full

def receiveFull : String := "STN receive queue full; session failed rather than discarding"

def reportFrame (f : Frame) : Act Unit := do
  record W
  let controller ← read (·.controller)
  publish W (.received controller f) receiveFull

/-- A line without a frame. -/
def status (monitoring : Bool) (line : List Char) : Except String Unit :=
  if Text.trim line = "STOPPED".toList ∧ ¬ monitoring then
    .error "STN ordinary CAN request was unexpectedly interrupted"
  else if Text.trim line ∉ ["", "OK", "STOPPED", "NO DATA"].map String.toList then
    .error ("STN raw status: " ++ String.ofList line)
  else .ok ()

def receiveItem (monitoring : Bool) : Item → Act Unit
  | .prompt => pure ()
  | .line l => do
    match ← given (frame l) with
    | some f => reportFrame W f
    | none => given (status monitoring l)

def receive : Act Unit := do
  let monitoring ← read (·.monitoring)
  let items ← packet W true
  each (receiveItem W monitoring) items

def requestLate : Act Unit := do
  desynchronize
  log .timeout
  refuse "STN ordinary request prompt timeout; no interrupt or replay"

def awaitRequest : Act Unit := do
  if ← ask W.late then requestLate else receive W

def finishRequest : Act Unit := do
  if ← read (·.monitoring) then
    refuse "Cannot finish indefinite monitoring as an ordinary request"
  else loop .exhausted (read (·.receiving)) (fun _ => awaitRequest W) fuel ()

def awaitInterrupt : Act Unit := do
  if ← ask W.late then refuse "STN prompt absent after interrupt" else receive W

def interrupt : Act Unit := do
  record W
  let reply ← socket W .interrupt
  if reply ≠ "WRITTEN".toList then refuse "STN interrupt failed"
  else loop .exhausted (read (·.receiving)) (fun _ => awaitInterrupt W) fuel ()

def interruptMonitor : Act Unit := do
  if ← read (!·.receiving) then pure ()
  else if ← read (!·.monitoring) then
    refuse "Refused implicit interruption of an ordinary CAN request"
  else interrupt W fuel

/-! ## Requests -/

/-- `try_recv`. -/
def next : Act (Option (Nat × Transmission)) := do
  if ← ask W.arrived then
    match ← read (·.queue) with
    | [] => pure none
    | (c, tx) :: rest =>
      change fun s => { s with queue := rest }
      log (.take c tx)
      pure (some (c, tx))
  else pure none

def setPhase (phase : String) : Act Unit :=
  change fun s => { s with activeTx := s.activeTx.map fun a => { a with phase } }

def wake (command : List Char) : Act Unit := do
  let lines ← reply W fuel command
  if lines.any fun s => Text.trim s ∉ ["OK", "NO DATA"].map String.toList then
    refuse ("STN zero-DLC wake rejected: " ++ debug lines)
  else
    confirm W fuel "STCSWM3"
    let _ ← reply W fuel "ATCS".toList
    record W
    record W
    record W

def ordinary (command : List Char) : Act Unit := do
  send W command
  finishRequest W fuel
  record W

/-- Only the single wire has a mode. -/
def wireMode (controller : Nat) (route : ElectricalRoute) : Act Unit :=
  if controller = 2 then
    confirm W fuel (if route.mode = .singleWireWake then "STCSWM2" else "STCSWM3")
  else pure ()

/-- What is set for a request before its own command. -/
def prepare (controller : Nat) (tx : Transmission) (route : ElectricalRoute) : Act Unit := do
  ensureProtocolOpen W fuel
  wireMode W fuel controller route
  confirm W fuel ("ATSH" ++ Text.hexId tx.frame.id)

def transmit (route : ElectricalRoute) (command : List Char) : Act Unit := do
  record W
  setPhase "can-request"
  if route.mode = .singleWireWake then wake W fuel command else ordinary W fuel command

def serve (controller : Nat) (tx : Transmission) : Act Unit := do
  interruptMonitor W fuel
  change fun s => { s with activeTx := some ⟨controller, tx, "bus-setup"⟩ }
  selectBus W fuel controller
  let route ← given (electricalRoute controller tx)
  prepare W fuel controller tx route
  let command ← given (encode controller tx)
  transmit W fuel route command
  publish W (.completed controller tx.ticket .stnRfcommWriteCompatibility) "STN event queue full"
  change fun s => { s with activeTx := none }

def turn : Act Unit := do
  if ← ask W.expired then refuse "Private MX+ read session reached its 30-minute limit"
  else
    match ← next W with
    | some (controller, tx) => serve W fuel controller tx
    | none => if ← read (!·.receiving) then send W "STM".toList else receive W

def work : Act Unit := do
  setup W fuel
  loop .exhausted (ask (!W.cancelled ·)) (fun _ => turn W fuel) fuel ()

/-! ## The end -/

def quiesce : Act Unit := do
  if ← read (·.monitoring) then interruptMonitor W fuel else finishRequest W fuel

def countersAndClose : Act Unit := do
  quiesce W fuel
  let _ ← reply W fuel "ATCS".toList
  record W
  if ← read (·.configured) then confirm W fuel "STPC" else pure ()

def closed (reply : Except String (List Char)) : Except String Unit :=
  match reply with
  | .ok text =>
    if text = "CLOSED".toList then .ok () else .error "Native Bluetooth close unconfirmed"
  | .error e => .error e

/-- A failure is noted, and running out of fuel stays what it is. -/
def noteFailure (r : Except Halt Unit) (context : Link → Option FailureContext) : Act Unit :=
  match r with
  | .ok () => pure ()
  | .error .exhausted => fail .exhausted
  | .error (.failed e) => do
    log (.failed e (← read context))

/-- The socket is closed even after an uncertain exchange. -/
def cleanup : Act Unit := do
  let protocol ← attempt (countersAndClose W fuel)
  match protocol with
  | .error .exhausted => fail .exhausted
  | _ =>
    let native ← command W .close
    noteFailure (protocol.bind fun _ => (closed native).mapError .failed) fun _ => none

def worker : Act Unit := do
  let result ← attempt (work W fuel)
  noteFailure result (·.activeTx)
  cleanup W fuel

/-- The link as the worker leaves it. -/
def session (queue : List (Nat × Transmission)) : Link := (worker W fuel (.new queue)).2

end Link

end OpenSaab.Obdlink
