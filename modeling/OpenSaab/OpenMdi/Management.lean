import Mathlib.Data.List.Basic
import OpenSaab.Library.Programs
import OpenSaab.Library.Reader
import OpenSaab.OpenMdi.Wire

/-!
# Management of the device

`management.rs`: one attempt asks for the applications of the device and, where it is asked to,
takes the ownership, starts the application or restarts the device, and gives the ownership back.
Records are encrypted; the cipher is a parameter.
-/

namespace OpenSaab.OpenMdi.Management

/-! ## Encryption -/

/-- A keyed cipher of blocks of eight bytes. -/
structure Blowfish where
  encryptBlock : List UInt8 → List UInt8
  decryptBlock : List UInt8 → List UInt8

/-- `Blowfish::new_from_slice`, which refuses keys of a wrong length. -/
abbrev Cipher := List UInt8 → Option Blowfish

def padded (b : List UInt8) : List UInt8 :=
  b ++ List.replicate ((b.length + 7) / 8 * 8 - b.length) 0

structure Codec where
  cipher : Blowfish

/-- The serial number is added to each word of the key. -/
def derive (baseKey : List UInt8) (serial : UInt32) : List UInt8 :=
  (baseKey.toChunks 4).flatMap fun w => word (ofWord w + serial)

def Codec.new (cipher : Cipher) (baseKey : List UInt8) (serial : UInt32) : Except String Codec :=
  if baseKey.length ≠ 56 ∨ serial = 0 then
    .error "Explicit 56-byte private key and nonzero adapter serial required"
  else
    match cipher (derive baseKey serial) with
    | some keyed => .ok ⟨keyed⟩
    | none => .error "Blowfish key size"

def Codec.encode (c : Codec) (r : Record) : Except String Record :=
  if r.opcode &&& 0x8000 ≠ 0 then .error "Opcode already encrypted"
  else if maxRecord - 15 < r.body.length then .error "Management body limit"
  else .ok ⟨r.opcode ||| 0x8000, ((padded r.body).toChunks 8).flatMap c.cipher.encryptBlock⟩

def Codec.decode (c : Codec) (r : Record) : Except String Record :=
  if r.opcode &&& 0x8000 = 0 ∨ r.body.isEmpty ∨ r.body.length % 8 ≠ 0 then
    .error "Encrypted management reply framing"
  else .ok ⟨r.opcode &&& ~~~0x8000, (r.body.toChunks 8).flatMap c.cipher.decryptBlock⟩

/-! ## Fields of a reply -/

abbrev Field := Reader UInt8 String

namespace Field

def take (n : Nat) : Field (List UInt8) := Reader.take n "Truncated management field"

def word : Field UInt32 := do
  let bytes ← take 4
  pure (ofWord bytes)

def expect (n : UInt32) : Field Unit := do
  let value ← word
  if value = n then pure () else Reader.fail "Management discriminator mismatch"

def string : Field String := do
  let n ← word
  if 4096 < n then Reader.fail "Management string bound"
  else
    let bytes ← take n.toNat
    match String.fromUTF8? ⟨bytes.toArray⟩ with
    | some text => pure text
    | none => Reader.fail "Management UTF-8"

/-- What is left is padding. -/
def finishBound (maximum : Nat) : Field Unit := fun c =>
  if c.rest.length ≤ maximum ∧ c.rest.all (· == 0) then .ok ((), c)
  else .error ⟨c.offset, "Management padding differs"⟩

def finish : Field Unit := finishBound 7

/-- The fields of a whole body. -/
def parse {α : Type} (p : Field α) (body : List UInt8) : Except String α :=
  match p ⟨body, 0⟩ with
  | .ok (a, _) => .ok a
  | .error fault => .error fault.reason

end Field

def status (r : Record) (opcode : UInt32) : Except String Unit := do
  let _ ← r.reply opcode
  pure ()

/-! ## Requests and replies -/

structure Application where
  version : String
  build : String
  start : String
  running : String
  kind : String
  name : String
  stop : String
  trailer : List UInt8
  deriving DecidableEq

def inventoryRequest : Record := ⟨0x82e, words [1]⟩

def applicationFields : Field Application := do
  Field.expect 0x841
  Field.expect 1
  Field.expect 0x85f
  Field.expect 2
  let version ← Field.string
  let build ← Field.string
  let start ← Field.string
  let running ← Field.string
  let kind ← Field.string
  let name ← Field.string
  let stop ← Field.string
  let trailer ← Field.take 34
  pure ⟨version, build, start, running, kind, name, stop, trailer⟩

def inventoryFields : Field (List Application) := do
  Field.expect 0
  Field.expect 1
  let count ← Field.word
  if ¬ (1 ≤ count ∧ count ≤ 16) then Reader.fail "Application count boundary"
  else
    let apps ← Reader.times count.toNat applicationFields
    Field.finish
    pure apps

def inventoryReply (r : Record) : Except String (List Application) := do
  status r 0x842
  Field.parse inventoryFields r.body

def ascii (text : String) : List UInt8 := text.toUTF8.toList

/-- The label of the owner. -/
def registrationRequest (label : String) : Except String Record :=
  if label.isEmpty ∨ 96 < label.utf8ByteSize ∨ label.toList.any (fun c => 128 ≤ c.toNat) then
    .error "Fresh management instance label boundary"
  else
    .ok ⟨0x834, words [7] ++ blob (ascii "OpenMDI") ++ words [0] ++ blob (ascii label) ++
      words [0x1241, 0, 1] ++ [0, 1] ++ words [0, 0]⟩

def registrationFields : Field UInt32 := do
  Field.expect 0
  Field.expect 6
  let handle ← Field.word
  if handle = 0 then Reader.fail "Management handle boundary"
  else
    Field.expect 0
    let _ ← Reader.times 6 Field.string
    Field.finishBound 8
    pure handle

def registrationReply (r : Record) : Except String UInt32 := do
  status r 0x835
  Field.parse registrationFields r.body

def properties (items : List (String × String)) : List UInt8 :=
  words [0x84b, 0, 1, 0, UInt32.ofNat items.length] ++
    items.flatMap fun item => words [0x84a, 1] ++ blob (ascii item.1) ++ blob (ascii item.2)

def startRequest (handle : UInt32) : Except String Record :=
  if handle = 0 then .error "Fresh management handle required"
  else .ok ⟨0x830, words [2, 0] ++ properties [("APP_NAME", "PDU"), ("COMMAND", "START")] ++
    words [handle]⟩

/-- The request is echoed, without the handle. -/
def startReply (r request : Record) : Except String Unit := do
  status r 0x831
  let tail := request.body.length - 4
  let expected := Bytes.overwrite (Bytes.overwrite request.body 0 (words [0, 2])) tail [0, 0, 0, 0]
  if r.body ≠ padded expected then .error "Start acknowledgement/properties differ" else .ok ()

def rebootRequest (handle : UInt32) : Except String Record :=
  if handle = 0 then .error "Fresh management handle required"
  else .ok ⟨0x85e, words [1, 0x85d, 0, 1, 1, 0x100] ++ properties [("power-ctrl", "reboot")] ++
    words [handle]⟩

def releaseRequest (handle : UInt32) : Record := ⟨0x836, words [1, handle, 0]⟩

def simpleReply (r : Record) (opcode : UInt32) : Except String Unit := do
  status r opcode
  if r.body ≠ words [0, 1] then .error "Management acknowledgement differs" else .ok ()

/-! ## Sockets -/

/-- What comes of one read of the reply. -/
inductive Reading
  | late
  | timeoutRefused (error : String)
  | failed (error : String)
  | bytes (received : List UInt8)
  deriving DecidableEq, Repr

/-- What the other side makes of one request. -/
structure Exchange where
  writeTimeout : Except String Unit
  written : Except String Unit
  readings : List Reading

/-- A connection, with what becomes of the requests that are sent on it. -/
structure Socket where
  exchanges : List Exchange

def Socket.next (s : Socket) : Exchange × Socket :=
  match s.exchanges with
  | [] => (⟨.ok (), .ok (), []⟩, s)
  | e :: rest => (e, ⟨rest⟩)

/-- A connection that is asked for. -/
structure Dial where
  connected : Except String Unit
  nodelay : Except String Unit
  socket : Socket

/-- The next `n` bytes of the reply. A read gives no more than what is missing. -/
def exact : Nat → List Reading → Except String (List UInt8 × List Reading)
  | 0, rest => .ok ([], rest)
  | _ + 1, [] => .error "Management reply deadline"
  | _ + 1, .late :: _ => .error "Management reply deadline"
  | _ + 1, .timeoutRefused e :: _ => .error e
  | _ + 1, .failed e :: _ => .error ("Management reply: " ++ e)
  | n + 1, .bytes received :: rest =>
    if received.isEmpty then .error "Management peer closed inside reply"
    else do
      let (more, rest) ← exact (n + 1 - received.length) rest
      pure (received.take (n + 1) ++ more, rest)

def Codec.received (c : Codec) (readings : List Reading) : Except String Record := do
  let (h, rest) ← exact 8 readings
  let size := (ofWord (h.take 4)).toNat
  if size < 8 ∨ maxRecord < size then .error "Management reply record bound"
  else
    let (body, _) ← exact (size - 8) rest
    c.decode ⟨ofWord (h.drop 4), body⟩

/-! ## The attempt -/

structure Operation where
  request : Record
  requestSent : Bool
  reply : Option Record
  deriving DecidableEq, Repr

structure Attempt where
  /-- The connections that are still to be asked for. -/
  dials : List Dial
  operations : List Operation
  apps : List Application
  access : Option UInt32
  owner : Option Socket
  rebootCommands : Nat
  startCommands : Nat
  acknowledged : Bool

def newAttempt (dials : List Dial) : Attempt := ⟨dials, [], [], none, none, 0, 0, false⟩

abbrev Action := Program Attempt String

open Program

def Attempt.noted (s : Attempt) (o : Operation) : Attempt :=
  { s with operations := s.operations ++ [o] }

/-- A change of the last operation. -/
def Attempt.amended (s : Attempt) (f : Operation → Operation) : Attempt :=
  { s with operations := s.operations.dropLast ++ (s.operations.getLast?.map f).toList }

def dial (port : Nat) : Action Socket := fun s =>
  match s.dials with
  | [] => (.error s!"Management TCP {port}: connection timed out", s)
  | d :: rest =>
    let opened := do
      d.connected.mapError fun e => s!"Management TCP {port}: {e}"
      d.nodelay
      pure d.socket
    (opened, { s with dials := rest })

def exchange (codec : Codec) (socket : Socket) (request : Record) : Action (Record × Socket) := do
  let wire ← lift (codec.encode request)
  let (answer, socket) := socket.next
  change (·.noted ⟨request, false, none⟩)
  lift answer.writeTimeout
  let _ ← lift wire.encoded
  lift (answer.written.mapError ("MDI send: " ++ ·))
  change (·.amended fun o => { o with requestSent := true })
  let reply ← lift (codec.received answer.readings)
  change (·.amended fun o => { o with reply := some reply })
  pure (reply, socket)

/-- Whether the attempt goes on to a command, for the applications of the device. -/
def proceed (mode : String) (apps : List Application) : Except String Bool :=
  match apps.find? (·.name = "PDU") with
  | none => .error "PDU application absent"
  | some pdu =>
    if pdu.version ≠ "2.5.33.154" ∨ pdu.kind ≠ "application" then .error "Unqualified PDU profile"
    else if mode = "query" then .ok false
    else if mode = "start" ∧ pdu.running ≠ "false" then
      .error "PDU was already running; first-start witness required"
    else .ok true

def inventory (codec : Codec) : Action (List Application) := do
  let query ← dial 9000
  let (reply, _) ← exchange codec query inventoryRequest
  let apps ← lift (inventoryReply reply)
  change fun s => { s with apps := apps }
  pure apps

/-- The handle of a reply, saved before the rest of the reply is looked at. -/
def granted (reply : Record) : Option UInt32 :=
  if reply.opcode = 0x835 ∧ 12 ≤ reply.body.length ∧ reply.body.take 4 = [0, 0, 0, 0] then
    let token := ofWord ((reply.body.drop 8).take 4)
    if token ≠ 0 then some token else none
  else none

def acquire (codec : Codec) (label : String) : Action UInt32 := do
  let socket ← dial 9002
  let request ← lift (registrationRequest label)
  let (reply, socket) ← exchange codec socket request
  change fun s => { s with access := granted reply, owner := some socket }
  lift (registrationReply reply)

def commandRequest (mode : String) (handle : UInt32) : Except String Record :=
  if mode = "reboot" then rebootRequest handle else startRequest handle

def commandReply (mode : String) (reply request : Record) : Except String Unit :=
  if mode = "reboot" then simpleReply reply 0x85c else startReply reply request

def command (codec : Codec) (mode : String) (handle : UInt32) : Action Unit := do
  let request ← lift (commandRequest mode handle)
  let socket ← dial (if mode = "reboot" then 9004 else 9000)
  change fun s =>
    if mode = "reboot" then { s with rebootCommands := s.rebootCommands + 1 }
    else { s with startCommands := s.startCommands + 1 }
  let (reply, _) ← exchange codec socket request
  lift (commandReply mode reply request)
  change fun s => { s with acknowledged := true }

def supported (mode : String) : Except String Unit :=
  if mode = "query" ∨ mode = "start" ∨ mode = "reboot" then .ok ()
  else .error "Unsupported management mode"

def pursue (codec : Codec) (mode label : String) : Action Unit := do
  let apps ← inventory codec
  let on ← lift (proceed mode apps)
  if on then
    let handle ← acquire codec label
    command codec mode handle
  else pure ()

/-- All of the attempt before the ownership is given back. -/
def undertake (cipher : Cipher) (serial : UInt32) (baseKey : List UInt8) (mode label : String) :
    Action Unit := do
  lift (supported mode)
  let codec ← lift (Codec.new cipher baseKey serial)
  pursue codec mode label

def release (codec : Codec) (socket : Socket) (handle : UInt32) : Action Unit := do
  let (reply, _) ← exchange codec socket (releaseRequest handle)
  lift (simpleReply reply 0x837)

structure Report where
  mode : String
  operations : List Operation
  applications : List Application
  accessHandle : Option UInt32
  managementReleased : Bool
  acknowledged : Bool
  rebootCommandCount : Nat
  startCommandCount : Nat
  errors : List String

def Report.success (r : Report) : Bool := r.errors.isEmpty

def reported (mode : String) (s : Attempt) (released : Bool) (errors : List String) : Report :=
  ⟨mode, s.operations, s.apps, s.access, released, s.acknowledged, s.rebootCommands,
    s.startCommands, errors⟩

def errorsOf : Except String Unit → List String
  | .error e => [e]
  | .ok () => []

def attempt (cipher : Cipher) (dials : List Dial) (serial : UInt32) (baseKey : List UInt8)
    (mode label : String) : Report :=
  let (result, s) := undertake cipher serial baseKey mode label (newAttempt dials)
  let errors := errorsOf result
  match s.owner, s.access, Codec.new cipher baseKey serial with
  | some socket, some handle, .ok codec =>
    match release codec socket handle s with
    | (.ok (), s) => reported mode s true errors
    | (.error e, s) => reported mode s false (errors ++ ["Management release: " ++ e])
  | _, _, _ => reported mode s false errors

end OpenSaab.OpenMdi.Management
