import OpenSaab.Json
import OpenSaab.Library.Programs
import OpenSaab.Obdlink.Parser

/-!
# The link to the adapter

`adapters/obdlink_guest.rs`: the commands of setup, monitoring, guest requests and cleanup on one
half-duplex text link, and the worker that issues them.
-/

namespace OpenSaab.Obdlink

open Can Program

def encode (controller : Nat) (tx : Transmission) : Except String (List Char) :=
  match electricalRoute controller tx with
  | .error e => .error e
  | .ok route =>
    if route.mode = .singleWireWake then .ok "STPXH:100,D:,R:0".toList
    else if tx.frame.dlc = 0 then .error "Unverified zero-DLC frame outside native SW wake"
    else .ok ("STPXH:".toList ++ (Text.hexId tx.frame.id).toList ++ ",D:".toList ++
      tx.frame.data.flatMap (fun b => (Text.hexUpper b).toList) ++ ",R:0".toList)

/-! ## State -/

/-- What is sent over the socket. -/
inductive Command where
  | write (cmd : List Char)
  | read
  | interrupt
  | close
  deriving DecidableEq

/-- What a failure is about. The context of the source is made of these. -/
structure FailureContext where
  controller : Nat
  tx : Transmission
  phase : String

/-- What has happened. `reporting` is whether the items are looked at for frames. -/
inductive Entry where
  | exchange (c : Command) (reply : Except String (List Char))
  | parsed (reporting : Bool) (controller : Nat) (items : List Item)
  | take (controller : Nat) (tx : Transmission)
  | report (e : Event)
  | timeout
  | failed (message : String) (context : Option FailureContext)

/-- `queue` is what the guest has put in and the worker has not taken, and `trace` is what has
happened. Each question to the surroundings is a `tick`. -/
structure Link where
  parser : Parser
  receiving : Bool
  synchronized : Bool
  configured : Bool
  controller : Nat
  protocolOpen : Bool
  monitoring : Bool
  activeTx : Option FailureContext
  queue : List (Nat × Transmission)
  trace : List Entry
  tick : Nat

def Link.new (queue : List (Nat × Transmission)) : Link where
  parser := .default
  receiving := false
  synchronized := true
  configured := false
  controller := 0
  protocolOpen := false
  monitoring := false
  activeTx := none
  queue := queue
  trace := []
  tick := 0

/-- The answers of the surroundings: the socket, the clock, the transcript and the channels. -/
structure World where
  reply : Nat → Except String (List Char)
  json : List Char → Option Json.Value
  inRange : List Char → Bool
  late : Nat → Bool
  settling : Nat → Bool
  record : Nat → Except String Unit
  accepts : Nat → Bool
  arrived : Nat → Bool
  cancelled : Nat → Bool
  expired : Nat → Bool

/-- A loop that has run out of fuel has not failed, it is looked at no further. -/
inductive Halt where
  | failed (message : String)
  | exhausted

abbrev Act := Program Link Halt

namespace Link

variable (W : World) (fuel : Nat)

def refuse {α : Type} (message : String) : Act α := fail (.failed message)

def given {α : Type} (r : Except String α) : Act α := lift (r.mapError .failed)

def ask {α : Type} (f : Nat → α) : Act α := fun s => (.ok (f s.tick), { s with tick := s.tick + 1 })

def log (e : Entry) : Act Unit := change fun s => { s with trace := s.trace ++ [e] }

/-! ## The socket -/

def record : Act Unit := do
  let r ← ask W.record
  given r

def desynchronize : Act Unit := change fun s => { s with synchronized := false }

/-- `SocketUsb::command`. -/
def command (c : Command) : Act (Except String (List Char)) := do
  let r ← ask W.reply
  log (.exchange c r)
  pure r

def uncertain : String := "STN ordered transport uncertain; no replay or further in-band writes"

def settle (r : Except String (List Char)) : Act (List Char) :=
  match r with
  | .ok text => pure text
  | .error e => do
    desynchronize
    refuse e

def socket (c : Command) : Act (List Char) := do
  if ← read (·.synchronized) then
    let r ← command W c
    settle r
  else refuse uncertain

def send (cmd : List Char) : Act Unit := do
  if ← read (·.receiving) then refuse "STN command refused while another exchange is active"
  else
    record W
    let reply ← socket W (.write cmd)
    if reply ≠ "WRITTEN".toList then refuse "Native RFCOMM write failed"
    else change fun s => { s with receiving := true, monitoring := cmd == "STM".toList }

/-! ## Packets -/

def byteOf (v : Json.Value) : Except String UInt8 :=
  match v.asU64 with
  | some n => if n ≤ 255 then .ok n.toUInt8 else .error "Invalid STN byte"
  | none => .error "Invalid STN byte"

def packetBytes (reply : List Char) : Except String (List UInt8) :=
  match W.json reply with
  | none => .error "Invalid STN byte packet"
  | some value =>
    if ¬ (value.get "type").isStr "rx" then .error "Unexpected STN byte event"
    else
      match (value.get "bytes").asArray with
      | none => .error "Missing STN bytes"
      | some values =>
        if 1024 < values.length then .error "STN byte fragment too large" else values.mapM byteOf

def feed (bytes : List UInt8) : Act (List Item) := fun s =>
  let r := s.parser.feed bytes
  (r.1.mapError .failed, { s with parser := r.2 })

def closeMonitor : Act Unit := do
  change fun s => { s with protocolOpen := false, monitoring := false }
  record W

/-- A prompt ends what is received, and the protocol of a monitor with it. -/
def noticePrompt (items : List Item) : Act Unit :=
  if items.any Item.isPrompt then do
    change fun s => { s with receiving := false }
    if ← read (·.monitoring) then closeMonitor W else pure ()
  else pure ()

/-- The items are entered as soon as they are there, since what follows can fail. -/
def items (reporting : Bool) (reply : List Char) : Act (List Item) := do
  let bytes ← given (packetBytes W reply)
  record W
  let items ← feed bytes
  log (.parsed reporting (← read (·.controller)) items)
  noticePrompt W items
  pure items

def packet (reporting : Bool) : Act (List Item) := do
  let reply ← socket W .read
  if reply = "EMPTY".toList then pure [] else items W reporting reply

/-! ## Commands -/

/-- `{:?}` of a list of lines, which are printable. -/
def debug (lines : List (List Char)) : String :=
  let quoted (l : List Char) :=
    "\"" ++ String.ofList (l.flatMap fun c => if c = '"' ∨ c = '\\' then ['\\', c] else [c]) ++ "\""
  "[" ++ ", ".intercalate (lines.map quoted) ++ "]"

/-- The lines apart from the echo of the command. -/
def answers (cmd : List Char) (items : List Item) : List (List Char) :=
  items.filterMap fun
    | .line s => if Text.trim s ≠ cmd then some s else none
    | .prompt => none

def collect (cmd : List Char) (lines : List (List Char)) : Act (List (List Char)) := do
  if ← ask W.late then refuse ("STN command prompt timeout: " ++ String.ofList cmd)
  else
    let items ← packet W false
    pure (lines ++ answers cmd items)

def reply (cmd : List Char) : Act (List (List Char)) := do
  if ← read (·.receiving) then refuse "STN setup requires an idle prompt"
  else
    send W cmd
    loop .exhausted (read (·.receiving)) (collect W cmd) fuel []

/-- The line without its blanks. -/
def squeeze (s : List Char) : List Char := (Lines.words Text.whitespace s).flatten

def protocolAfter (cmd : List Char) (s : Link) : Link :=
  if cmd = "STPO".toList then { s with protocolOpen := true }
  else if cmd = "STPC".toList ∨ cmd = "STP31".toList ∨ cmd = "STP61".toList then
    { s with protocolOpen := false }
  else s

def exact (cmd expected : String) : Act Unit := do
  let lines ← reply W fuel cmd.toList
  if lines.map squeeze ≠ [squeeze expected.toList] then
    refuse ("STN readback rejected " ++ cmd ++ ": " ++ debug lines)
  else change (protocolAfter cmd.toList)

def ensureProtocolOpen : Act Unit := do
  exact W fuel "STPO" "OK"
  record W

end Link

end OpenSaab.Obdlink
