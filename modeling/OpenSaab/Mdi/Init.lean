import OpenSaab.Library.Programs
import OpenSaab.Mdi.Raw
import OpenSaab.Translation.Session

/-!
# Startup of the MDI

`adapters/mdi/init.rs` and `readiness.rs`: one fresh request for the VIN, and the profiles that stop before
any request. Both give back what they have acquired.
-/

namespace OpenSaab.Mdi.Init

open Program Translation

/-! ## The driver -/

/-- What the driver can be asked. -/
inductive Call where
  | opens
  | version (device : UInt32)
  | voltage (device : UInt32)
  | connect (device : UInt32)
  | filter (channel : UInt32)
  | clearRx (channel : UInt32)
  | write (channel : UInt32) (message : Message)
  | read (channel : UInt32)
  | stopFilter (channel filter : UInt32)
  | disconnect (channel : UInt32)
  | close (device : UInt32)

@[reducible]
def Call.Reply : Call → Type
  | .opens => UInt32
  | .version _ => String × String × String
  | .voltage _ => UInt32
  | .connect _ => UInt32
  | .filter _ => UInt32
  | .clearRx _ => Unit
  | .write .. => UInt32
  | .read _ => Option Message
  | .stopFilter .. => Unit
  | .disconnect _ => Unit
  | .close _ => Unit

def Call.name : Call → String
  | .opens => "open"
  | .version _ => "version"
  | .voltage _ => "voltage"
  | .connect _ => "connect"
  | .filter _ => "filter"
  | .clearRx _ => "clear_rx"
  | .write .. => "write"
  | .read _ => "read"
  | .stopFilter .. => "stop_filter"
  | .disconnect _ => "disconnect"
  | .close _ => "close"

structure Entry where
  call : Call
  reply : Except String call.Reply

/-- A driver answers by what it has been asked before. -/
structure Driver where
  answer : List Entry → (c : Call) → Except String c.Reply

/-- `Message::observation`. -/
def observation (m : Message) (atUs : UInt64) : Except String (Option Observation) :=
  if 4128 < m.dataSize.toNat ∨ m.extraDataIndex ≠ 0 ∧ m.extraDataIndex ≠ m.dataSize then
    .error "Invalid MDI receive bounds/extra-data index"
  else if m.protocol ≠ 6 ∨ m.rxStatus ≠ 0 then .ok none
  else if m.dataSize < 4 then .error "Truncated MDI CAN identifier"
  else if 0x7ff < identifier m.data then .error "Invalid standard CAN identifier"
  else
    .ok (some
      { sessionId := 1, atUs
        packet :=
          .isoTpPayload .hsCan (identifier m.data) false ((m.data.take m.dataSize.toNat).drop 4) })

/-! ## The operations -/

/-- What has been asked, what is held, and what the outcomes tell. -/
structure State where
  calls : List Entry
  device : Option UInt32
  channel : Option UInt32
  filter : Option UInt32
  vin : Option String
  version : Option (String × String × String)
  voltageMv : Option UInt32
  vehicleRequests : UInt32
  rxRecords : Nat

def State.new : State where
  calls := []
  device := none
  channel := none
  filter := none
  vin := none
  version := none
  voltageMv := none
  vehicleRequests := 0
  rxRecords := 0

section Operations

variable (D : Driver)

def ask (c : Call) : Program State String c.Reply := fun s =>
  (D.answer s.calls c, { s with calls := s.calls ++ [⟨c, D.answer s.calls c⟩] })

/-- The answer is kept in the state. -/
def take (c : Call) (keep : c.Reply → State → State) : Program State String c.Reply := do
  let a ← ask D c
  change (keep a)
  pure a

/-- The device, if it is the one that the profile has been made for. -/
def identify : Program State String UInt32 := do
  let d ← take D .opens fun d s => { s with device := some d }
  let version ← ask D (.version d)
  if version.2.1 ≠ "2.5.33.154" ∨ version.2.2 ≠ "04.04" then
    fail "MDI driver/API identity differs from selected profile"
  else
    change fun s => { s with version := some version }
    pure d

def measure (d : UInt32) : Program State String UInt32 :=
  take D (.voltage d) fun mv s => { s with voltageMv := some mv }

def setUp (d : UInt32) : Program State String UInt32 := do
  let c ← take D (.connect d) fun c s => { s with channel := some c }
  let _ ← take D (.filter c) fun f s => { s with filter := some f }
  ask D (.clearRx c)
  pure c

/-- `transaction`. -/
def config : Config where
  sessionId := 1
  profile := ⟨.hsCan, .hostIsoTp, .isoTpPayload, .adapter⟩
  requestId := 0x7e0
  replyId := 0x7e8
  extended := false
  protocol := .isoTp 0x1a [0x5a, 0x90]
  limits := { payloadBytes := 19, idleUs := 5000000, totalUs := 5000000 }
  hostFlowControl := ⟨0, 0⟩

def capabilities : Capabilities where
  buses := [.hsCan]
  rawReceive := false
  rawTransmit := false
  assembledReceive := true
  adapterFlowControl := true

def request : Message := { Message.new 0x7e0 [0x1a, 0x90] with txFlags := 0x40 }

/-- `assembled_saab_vin`. -/
def assembledSaabVin (payload : List UInt8) : Except String String :=
  if payload.length ≠ 19 ∨ ¬ [0x5a, 0x90].isPrefixOf payload ∨
      ¬ [0x59, 0x53, 0x33].isPrefixOf (payload.drop 2) ∨
      ¬ (payload.drop 2).all IsoTp.VinReply.vinByte then
    .error "Invalid complete Saab VIN payload"
  else .ok (String.ofList ((payload.drop 2).map fun b => Char.ofNat b.toNat))

/-- A record goes to the transaction: the VIN, or the transaction as it goes on. -/
def hear (reply : Translation.Session) (seen : UInt64) (m : Message) :
    Program State String (Except Translation.Session String) := do
  change fun s => { s with rxRecords := s.rxRecords + 1 }
  if 1024 < (← read (·.rxRecords)) then fail "MDI receive record limit"
  else
    match ← lift (observation m seen) with
    | none => pure (.error reply)
    | some o =>
      match ← lift (reply.feed o).1 with
      | .complete (.payload payload) => do
        let vin ← lift (assembledSaabVin payload)
        pure (.ok vin)
      | .ignored | .pending | .progress => pure (.error (reply.feed o).2)
      | _ => fail "Unexpected MDI ISO-TP result/flow-control owner"

/-- The loop over the turns that begin in time. Each reads the clock, and again when there is a record;
after them the transaction is over its deadline. -/
def listen (c : UInt32) : List (UInt64 × UInt64) → Translation.Session → Program State String Unit
  | [], _ => fail "Incomplete transaction: bounded deadline expired"
  | (now, seen) :: turns, reply => do
    lift (reply.tick now).1
    match ← (ask D (.read c) : Program State String (Option Message)) with
    | none => listen c turns (reply.tick now).2
    | some m =>
      match ← hear (reply.tick now).2 seen m with
      | .ok vin => change fun s => { s with vin := some vin }
      | .error reply => listen c turns reply

/-- The operation of `read_vin`. -/
def exchange (turns : List (UInt64 × UInt64)) : Program State String Unit := do
  let d ← identify D
  let _ ← measure D d
  let c ← setUp D d
  let reply ← lift (Translation.Session.new config capabilities 0)
  let n ← take D (.write c request) fun n s => { s with vehicleRequests := n }
  if n ≠ 1 then fail "MDI did not accept exactly one VIN request; no retry"
  else listen D c turns reply

inductive Stage where
  | openOnly
  | deviceInfo
  | channelOnly
  deriving DecidableEq, Repr

/-- The operation of `run`. -/
def prepare (stage : Stage) : Program State String Unit := do
  let d ← identify D
  if stage = .openOnly then pure ()
  else do
    let _ ← measure D d
    if stage = .deviceInfo then pure ()
    else do
      let _ ← setUp D d
      pure ()

/-! ## The end -/

/-- The calls that give back what is held. -/
def State.releases (s : State) : List Call :=
  (s.channel.bind fun c => s.filter.map (.stopFilter c)).toList ++ (s.channel.map .disconnect).toList ++
    (s.device.map .close).toList

/-- Each call is made, whatever becomes of those before it, and errors are only noted. -/
def releaseEach : List Call → State → List String × State
  | [], s => ([], s)
  | c :: cs, s =>
    let rest := releaseEach cs (ask D c s).2
    match (ask D c s).1 with
    | .ok _ => rest
    | .error e => (e :: rest.1, rest.2)

/-- The error of an operation, and those of the end. -/
def failure (operation : Except String Unit) (errors : List String) : Option String :=
  let error := match operation with
    | .ok () => none
    | .error e => some e
  if errors = [] then error
  else some (error.getD "" ++ "; cleanup: " ++ "; ".intercalate errors)

end Operations

structure Outcome where
  vin : Option String
  version : Option (String × String × String)
  voltageMv : Option UInt32
  vehicleRequests : UInt32
  rxRecords : Nat
  cleanupOk : Bool
  error : Option String

def Outcome.success (o : Outcome) : Bool :=
  o.vin.isSome && o.version.isSome && o.voltageMv.isSome && o.vehicleRequests == 1 && o.cleanupOk &&
    o.error.isNone

/-- `read_vin`: what the driver has been asked, and the outcome. -/
def readVin (D : Driver) (turns : List (UInt64 × UInt64)) : List Entry × Outcome :=
  let (operation, s) := exchange D turns .new
  let (errors, t) := releaseEach D s.releases s
  (t.calls,
    { vin := t.vin, version := t.version, voltageMv := t.voltageMv, vehicleRequests := t.vehicleRequests
      rxRecords := t.rxRecords, cleanupOk := errors.isEmpty, error := failure operation errors })

/-- `calls` are the names of the calls, each noted before it is made. -/
structure Readiness where
  stage : Stage
  completed : Bool
  cleanupOk : Bool
  calls : List String
  version : Option (String × String × String)
  voltageMv : Option UInt32
  error : Option String

def Readiness.success (r : Readiness) : Bool := r.completed && r.cleanupOk && r.error.isNone

/-- `run`. -/
def run (D : Driver) (stage : Stage) : List Entry × Readiness :=
  let (operation, s) := prepare D stage .new
  let (errors, t) := releaseEach D s.releases s
  (t.calls,
    { stage, completed := operation.toBool, cleanupOk := errors.isEmpty, calls := t.calls.map (·.call.name)
      version := t.version, voltageMv := t.voltageMv, error := failure operation errors })

end OpenSaab.Mdi.Init
