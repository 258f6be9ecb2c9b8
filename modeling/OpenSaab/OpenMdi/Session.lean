import OpenSaab.Library.Programs
import OpenSaab.OpenMdi.Trace

/-!
# Sessions with the device

`client.rs`: a session has a command socket, on which every request is followed by its reply, and a
notification socket. Time is in milliseconds and passes in the calls of the sockets.
-/

namespace OpenSaab.OpenMdi

open Json Program

def ioLimit : Nat := 2000

def attemptLimit : Nat := 15000

/-- How much later than its deadline a call on a socket may return. -/
def lagLimit : Nat := 1000

/-- What a call on a socket comes to: a record, nothing by the deadline, or a failure. -/
structure Answer where
  elapsed : Nat
  lag : Nat
  result : Except String (Option Record)
  prompt : lag ≤ lagLimit

/-- When the call returns. -/
def Answer.returns (a : Answer) (now deadline : Nat) : Nat :=
  min (now + a.elapsed) (max now deadline) + a.lag

def Answer.nothing : Answer := ⟨ioLimit, 0, .ok none, Nat.zero_le _⟩

/-- A connected socket, with all that will come of the calls on it. -/
structure Socket where
  answers : List Answer
  shutdown : Bool

/-- What the next call comes to. Nothing comes any more when the answers have run out. -/
def Socket.next (s : Socket) : Answer × Socket :=
  match s.answers with
  | [] => (.nothing, s)
  | a :: answers => (a, { s with answers })

/-- What connecting comes to. -/
structure Dial where
  elapsed : Nat
  socket : Except String Socket

/-- The device, as far as one client gets to see it. -/
structure Peer where
  command : Dial
  callback : Dial

/-- A request that was to be sent, whether it was, and what came of it. -/
structure Rpc where
  request : Record
  sent : Bool
  result : Except String Record

structure Session where
  command : Option Socket
  notification : Option Socket
  clock : Nat
  deadline : Nat
  session : UInt32
  link : UInt32
  receiver : UInt32
  created : Bool
  connected : Bool
  receiving : Bool
  requests : UInt32
  requestId : UInt32
  nextRequestToken : UInt32
  lastHeartbeat : Nat
  /-- How many events have not been taken yet. -/
  events : Nat
  cleanup : Value
  /-- All requests so far. -/
  journal : List Rpc

def newSession (start : Nat) : Session :=
  { command := none, notification := none, clock := start, deadline := start + attemptLimit,
    session := 0, link := 0, receiver := 0, created := false, connected := false, receiving := false,
    requests := 0, requestId := 0x7e0, nextRequestToken := 0, lastHeartbeat := start, events := 0,
    cleanup := .object [], journal := [] }

abbrev Action (α : Type) := Program Session String α

namespace Session

/-! ## Calls -/

def journaled (s : Session) (request : Record) (sent : Bool) (result : Except String Record) :
    Except String Record × Session :=
  (result, { s with journal := s.journal ++ [⟨request, sent, result⟩] })

def replied (expected : UInt32) (answer : Answer) : Except String Record := do
  match ← answer.result with
  | none => .error "RPC deadline"
  | some reply =>
    let _ ← reply.reply expected
    pure reply

def rpc (request : Record) (expected : UInt32) : Action Record := fun s =>
  let deadline := min (s.clock + ioLimit) s.deadline
  if deadline ≤ s.clock then s.journaled request false (.error "Attempt deadline")
  else
    match s.command, request.encoded with
    | none, _ => s.journaled request false (.error "Command connection absent")
    | some _, .error e => s.journaled request false (.error e)
    | some socket, .ok _ =>
      let (answer, socket) := socket.next
      let s := { s with command := some socket, clock := answer.returns s.clock deadline }
      s.journaled request true (replied expected answer)

/-- A request whose reply is not looked at any further. -/
def perform (request : Record) (expected : UInt32) : Action Unit := do
  let _ ← rpc request expected
  pure ()

def heartbeat : Action Unit := do
  let due ← read fun s => decide (s.lastHeartbeat + 1000 ≤ s.clock)
  if due then
    let reply ← rpc OpenMdi.heartbeat 0x889
    lift (heartbeatReply reply)
    change fun s => { s with lastHeartbeat := s.clock }
  else pure ()

/-- The events that a notification holds. -/
def itemsOf (record : Record) : Except String (List Value) := do
  if record.opcode ∉ eventOpcodes then .error "Unexpected notification opcode"
  else
    let wire ← record.encoded
    match decodeStream wire with
    | .error e => .error ("Callback byte " ++ toString e.offset ++ ": " ++ e.reason)
    | .ok decoded =>
      let value := (decoded.headD .null).get "decoded"
      if (value.get "kind").isStr "event_batch" then .ok (((value.get "items").asArray).getD [])
      else .ok [value]

/-- What the next call on the notification socket comes to. -/
def listen (deadline : Nat) : Action (Option Record) := fun s =>
  match s.notification with
  | none => (.error "Notification connection absent", s)
  | some socket =>
    let (answer, socket) := socket.next
    (answer.result,
      { s with notification := some socket, clock := answer.returns s.clock deadline })

def notifications (deadline : Nat) : Action (List Value) := do
  match ← listen deadline with
  | none => pure []
  | some record =>
    let items ← lift (itemsOf record)
    change fun s => { s with events := s.events + items.length }
    let events ← read Session.events
    if 4096 < events then fail "Callback count limit" else pure items

def rejectAsyncError (items : List Value) : Except String Unit :=
  if items.any fun e => ((e.get "data").get "kind").isStr "error" then
    .error "Asynchronous MDI error"
  else .ok ()

/-! ## Opening -/

def dial (d : Dial) : Action Socket := fun s => (d.socket, { s with clock := s.clock + d.elapsed })

/-- The session is registered a second time on the notification socket. -/
def registerCallback : Action Record := do
  let session ← read Session.session
  let deadline ← read fun s => s.clock + ioLimit
  match ← listen deadline with
  | none => fail "Callback registration deadline"
  | some reply =>
    let _ ← lift (registrationReply reply (some session))
    pure reply

/-- The registration on the command socket, and then on the other one. -/
def enroll (callback : Dial) : Action Unit := do
  let reply ← rpc (register 0) 0x885
  let session ← lift (registrationReply reply none)
  change fun s => { s with session }
  let socket ← dial callback
  change fun s => { s with notification := some socket }
  let _ ← registerCallback
  pure ()

def registerConnections (peer : Peer) : Action Unit := do
  let socket ← dial peer.command
  change fun s => { s with command := some socket }
  enroll peer.callback

/-- The parameters of a link, in the order in which they are set. -/
def linkParameters (spa raw : Bool) : List Parameter :=
  if spa then
    [⟨22, 3, if raw then 0 else 1⟩, ⟨177, 5, 0⟩, ⟨9, 5, 33333⟩, ⟨12, 5, 80⟩, ⟨153, 5, 0⟩,
      ⟨167, 5, 15⟩, ⟨133, 1, 10000⟩, ⟨152, 3, 2⟩]
  else if raw then
    [⟨9, 5, 500000⟩, ⟨177, 5, 2⟩, ⟨12, 5, 80⟩, ⟨153, 5, 0⟩, ⟨167, 5, 15⟩, ⟨22, 3, 0⟩, ⟨21, 3, 0⟩,
      ⟨129, 1, 0⟩, ⟨133, 1, 0⟩]
  else
    [⟨9, 5, 500000⟩, ⟨190, 3, 1⟩, ⟨22, 3, 0⟩, ⟨21, 3, 0⟩, ⟨25, 3, 0⟩, ⟨164, 3, 1⟩, ⟨129, 1, 0⟩,
      ⟨133, 1, 0⟩, ⟨27, 3, 0⟩]

def createRequest (spa raw : Bool) (link : UInt32) : Record :=
  match spa, raw with
  | true, true => createSwRaw link
  | true, false => createSwIso15765 link
  | false, true => createHsRaw link
  | false, false => createHsIso15765 link

def setParameter (link : UInt32) (p : Parameter) : Action Unit :=
  perform (setUnum32 link p.id p.cls p.value) 0x45a

/-- A request that may be refused before it is sent. -/
def performChecked (request : Except String Record) (expected : UInt32) : Action Unit := do
  let request ← lift request
  perform request expected

def receiveRequest (spa raw : Bool) (link receiver : UInt32) : Except String Record :=
  if spa && !raw then receiveOnId link receiver 0x65b
  else primitive link receiver 0x8004 [] [0xa0, 1, 0, 0] 0 (-1) (some 0x2534)

def hsTable (requestId : UInt32) (spa : Bool) : List (UInt32 × List Parameter) :=
  [(0, [⟨34, 6, if spa then 0x65b else 0x7e8⟩, ⟨33, 6, 5⟩, ⟨32, 6, 0⟩, ⟨31, 6, requestId⟩,
    ⟨30, 6, if spa then 37 else 5⟩, ⟨29, 6, 0⟩])]

def swTable : List (UInt32 × List Parameter) :=
  [(0, [⟨31, 6, 0x25b⟩, ⟨30, 6, 37⟩, ⟨29, 6, 0⟩, ⟨34, 6, 0x65b⟩, ⟨33, 6, 5⟩, ⟨32, 6, 0⟩,
    ⟨37, 6, 0⟩, ⟨36, 6, 0⟩, ⟨35, 6, 0⟩])]

/-- Callbacks from before the first request. Each turn takes one of the answers that are left. -/
def drain (raw : Bool) (drainDeadline : Nat) : List Answer → Action Unit
  | [] => do
    let now ← read Session.clock
    let _ ← notifications (min drainDeadline (now + 10))
    pure ()
  | _ :: left => do
    let now ← read Session.clock
    let items ← notifications (min drainDeadline (now + 10))
    if items.isEmpty then pure ()
    else
      lift (rejectAsyncError items)
      let late ← read fun s => decide (drainDeadline ≤ s.clock)
      if late then
        if raw then pure () else fail "Pre-request notifications did not settle"
      else drain raw drainDeadline left

/-- The tokens of a link and what is left of the tags. -/
def allocate (tags : Tags) : UInt32 × List UInt32 × Tags :=
  let (link, tags) := tags.link
  let (t0, tags) := tags.primitive
  let (t1, tags) := tags.primitive
  let (t2, tags) := tags.primitive
  let (t3, tags) := tags.primitive
  let (t4, tags) := tags.primitive
  let (t5, tags) := tags.primitive
  (link, [t0, t1, t2, t3, t4, t5], tags)

/-- What may be acquired even if the reply is lost is marked first. -/
def acquireLink (spa raw : Bool) (link : UInt32) : Action Unit := do
  change fun s => { s with created := true }
  perform (createRequest spa raw link) 0x450

def acquireBus (link : UInt32) : Action Unit := do
  change fun s => { s with connected := true }
  performChecked (linkOperation 0x45f link) 0x460

def acquireReceiver (spa raw : Bool) (link receiver : UInt32) : Action Unit := do
  change fun s => { s with receiving := true }
  performChecked (receiveRequest spa raw link receiver) 0x464

def runPrimitive (link token kind : UInt32) (flags : List UInt8) : Action Unit :=
  performChecked (primitive link token kind [] flags 0 0 none) 0x464

/-- Only the single-wire link has another request identifier. -/
def selectRequestId (spa : Bool) : Action Unit :=
  if spa then change fun s => { s with requestId := 0x25b } else pure ()

def setParameters (spa raw : Bool) (link : UInt32) : Action Unit := do
  each (setParameter link) ((linkParameters spa raw).filter fun p => !(raw && spa && p.id == 133))
  if raw && spa then setParameter link ⟨166, 3, 0⟩ else pure ()

def setTables (spa raw : Bool) (link : UInt32) : Action Unit :=
  if raw then do
    performChecked (responseTable link [(0xfffffffe, [])]) 0x45e
    setParameter link ⟨112, 3, 1⟩
  else do
    let requestId ← read Session.requestId
    performChecked (responseTable link (hsTable requestId spa)) 0x45e
    if spa then performChecked (responseTable link swTable) 0x45e else pure ()

/-- Nothing of the link has been acquired yet. -/
def startLink (link : UInt32) (tokens : List UInt32) (s : Session) : Session :=
  { s with created := false, connected := false, receiving := false, link,
           receiver := tokens.getD 1 0, nextRequestToken := tokens.getD 5 0 }

def setUp (spa raw : Bool) (link : UInt32) (tokens : List UInt32) : Action Unit := do
  selectRequestId spa
  acquireLink spa raw link
  setParameters spa raw link
  acquireBus link
  performChecked (responseTable link []) 0x45e
  runPrimitive link (tokens.getD 0 0) 0x8003 []
  acquireReceiver spa raw link (tokens.getD 1 0)
  runPrimitive link (tokens.getD 2 0) 0x8001 [0, 0, 0, 0]
  runPrimitive link (tokens.getD 3 0) 0x8003 []
  setTables spa raw link
  runPrimitive link (tokens.getD 4 0) 0x8003 []
  let drainDeadline ← read fun s => min (s.clock + 100) s.deadline
  let left ← read fun s => (s.notification.map Socket.answers).getD []
  drain raw drainDeadline left

def configureLink (spa raw : Bool) (tags : Tags) : Action Tags := do
  let (link, tokens, tags) := allocate tags
  change (startLink link tokens)
  setUp spa raw link tokens
  pure tags

/-! ## Closing -/

def note (s : Session) (key errorKey : String) (result : Except String Unit) : Session :=
  match result with
  | .ok () => { s with cleanup := s.cleanup.set key (.bool true) }
  | .error e =>
    { s with cleanup := (s.cleanup.set key (.bool false)).set errorKey (.string e) }

/-- The receiver has ended. -/
def isTerminal (link receiver : UInt32) (e : Value) : Bool :=
  (e.get "link").isU32 link && (e.get "token").isU32 receiver &&
    ((e.get "data").get "kind").isStr "status" && ((e.get "data").get "status").isU32 0x8013

/-- Notifications up to the terminal status of the receiver. Each turn takes one of the answers that
are left. -/
def awaitTerminal (deadline : Nat) (left : List Answer) (s : Session) : Bool × Session :=
  if deadline ≤ s.clock then (false, s)
  else
    match notifications deadline s with
    | (.error e, s) =>
      (false, { s with cleanup := s.cleanup.set "receiver_terminal_error" (.string e) })
    | (.ok items, s) =>
      if items.any (isTerminal s.link s.receiver) then (true, s)
      else
        match left with
        | [] => (false, s)
        | _ :: left => awaitTerminal deadline left s

def cancelReceiver (s : Session) : Session :=
  let (result, s) := perform (cancel s.link s.receiver) 0x466 s
  let s := s.note "receiver_cancel_rpc" "receiver_cancel_error" result
  let left := (s.notification.map Socket.answers).getD []
  let (terminal, s) := s.awaitTerminal (s.clock + ioLimit) left
  { s with cleanup := s.cleanup.set "receiver_cancel_terminal" (.bool terminal) }

def undoLink (s : Session) (op reply : UInt32) (name : String) : Session :=
  let (result, s) := performChecked (linkOperation op s.link) reply s
  s.note name (name ++ "_error") result

def closeLink (s : Session) : Session :=
  let s := { s with deadline := s.clock + 10000 }
  let s := if s.receiving then s.cancelReceiver else s
  let s := if s.connected then s.undoLink 0x461 0x462 "link_disconnect" else s
  let s := if s.created then s.undoLink 0x451 0x452 "link_destroy" else s
  { s with receiving := false, connected := false, created := false }

def release (session : UInt32) : Action Unit := do
  let reply ← rpc (releaseSession session) 0x887
  lift (sessionReleased reply)

def close (s : Session) : Session :=
  let s := s.closeLink
  let s :=
    if s.session ≠ 0 then
      let (result, s) := release s.session s
      s.note "session_release" "session_release_error" result
    else s
  let closed := (s.notification.map Socket.shutdown).getD true && (s.command.map Socket.shutdown).getD true
  { s with notification := none, command := none,
           cleanup := s.cleanup.set "sockets_shutdown" (.bool closed) }

end Session

end OpenSaab.OpenMdi
