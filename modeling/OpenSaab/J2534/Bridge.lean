import OpenSaab.Library.Sender
import OpenSaab.Mdi.Raw
import Mathlib.Logic.Function.Basic

/-!
# The bridge to the J2534 helper

`adapters/j2534/bridge.rs`: commands go to the helper as lines, and what it prints comes back as lines,
the acceptance of commands, their echoes and the traffic of the bus among them.
-/

namespace OpenSaab.J2534

open Can Lines Mdi

/-! ## Lines -/

def bytes (s : List Char) : Except String (List UInt8) :=
  hexData 24 "Invalid raw frame hex" "Invalid hex" s

def txFlags : ElectricalMode → UInt32
  | .data => 0
  | .singleWireWake => 0x400

def encode (controller : Nat) (tx : Transmission) : Except String (List Char) :=
  match electricalRoute controller tx with
  | .error e => .error e
  | .ok route =>
    .ok (join ' '
      ["TX".toList, digits 10 controller, digits 10 tx.ticket.toNat,
        padded 4 16 (txFlags route.mode).toNat, padded 3 16 tx.frame.id.toNat, hex tx.frame.data])

/-- A frame on a bus, which is an echo of what was sent or not. -/
structure Indication where
  controller : Fin 3
  frame : Frame
  echo : Bool
  deriving DecidableEq

def rawBus (c protocol : Nat) : Except String (Fin 3) :=
  if c = 0 ∧ protocol = 5 then .ok 0
  else if c = 2 ∧ protocol = 0x8008 then .ok 2
  else .error "Mismatched raw bus/protocol"

/-- Bit 16 marks a high-voltage frame on the single wire, and is no part of the status. -/
def frameStatus (c : Fin 3) (status : UInt32) : UInt32 :=
  if c = 2 then status &&& ~~~0x10000 else status

/-- The frame that a receive line carries. -/
def indication (c protocol status data : List Char) : Except String Indication := do
  let c ← number 10 (2 ^ 64) c "Bad RX controller"
  let protocol ← number 10 (2 ^ 32) protocol "Bad protocol"
  let status ← number 16 (2 ^ 32) status "Bad RX status"
  let bus ← rawBus c protocol
  let data ← bytes data
  if data.length < 4 then .error "Truncated CAN ID"
  else do
    let frame : Frame :=
      ⟨identifier data, false, false, UInt8.ofNat (data.length - 4), data.drop 4⟩
    frame.validate
    if frameStatus bus (UInt32.ofNat status) = 0 then .ok ⟨bus, frame, false⟩
    else if frameStatus bus (UInt32.ofNat status) = 1 then .ok ⟨bus, frame, true⟩
    else .error ("Unsupported raw RX status " ++ String.ofList (digits 16 status))

inductive Record where
  | ready
  | accept (controller : Nat) (ticket : UInt64)
  | receive (i : Indication)
  | note
  deriving DecidableEq

def readyLine : List Char := "READY version=1 raw=true generated_requests=0".toList

def malformed (line : List Char) : String := "Malformed bridge record: " ++ String.ofList line

def acceptance (c ticket : List Char) : Except String Record := do
  let c ← number 10 (2 ^ 64) c "Bad ACCEPT controller"
  let ticket ← number 10 (2 ^ 64) ticket "Bad ACCEPT ticket"
  .ok (.accept c (UInt64.ofNat ticket))

/-- What a line of the helper says. -/
def Record.read (line : List Char) : Except String Record :=
  match words Text.whitespace line with
  | [] => .error (malformed line)
  | kind :: rest =>
    if line = readyLine then .ok .ready
    else if kind = "ERROR".toList ∨ kind = "EXIT".toList then
      .error ("Native J2534 " ++ String.ofList line)
    else if kind ∈ ["CALL", "TX", "CLEAN", "ADAPTER", "IDENTITY"].map String.toList then .ok .note
    else
      match rest with
      | [c, ticket] =>
        if kind = "ACCEPT".toList then acceptance c ticket else .error (malformed line)
      | [c, protocol, status, _, data] =>
        if kind = "RX".toList then (indication c protocol status data).map .receive
        else .error (malformed line)
      | _ => .error (malformed line)

def linePrefix : List Char := "BRIDGE ".toList

/-- Lines of others are passed over. -/
def lineRecord (line : List Char) : Option (Except String Record) :=
  if linePrefix.isPrefixOf line then some (Record.read (line.drop linePrefix.length)) else none

/-- A line as the reader hands it on. -/
def handedOn (raw : List Char) : List Char :=
  if 1024 < (raw.map Char.utf8Size).sum then "BRIDGE ERROR output limit".toList else Text.trim raw

/-! ## The bridge -/

structure Pending where
  tx : Transmission
  accepted : Bool
  deadline : Nat
  deriving DecidableEq

/-- The lines in `output` have been printed by the helper and are to be read. -/
structure Bridge where
  input : Option (Sender (List Char))
  output : List (List Char)
  connected : Bool
  pending : Fin 3 → Option Pending
  lastTicket : Fin 3 → UInt64
  heartbeat : Nat
  ready : Bool
  closed : Bool
  confirmations : Nat

/-- What a poll meets outside: the clock, which of its log lines are written, whether the helper has
ended, whether the line of a heartbeat is logged, and the flush at the end. -/
structure Surroundings where
  now : Nat
  written : Nat → Bool
  exited : Option String
  logged : Bool
  flushed : Except String Unit

def confirmedTicket (pending : Option Pending) (frame : Frame) : Except String UInt64 :=
  match pending with
  | none => .error "Unmatched TX indication"
  | some p =>
    if !p.accepted || p.tx.frame != frame then .error "Mismatched TX indication"
    else .ok p.tx.ticket

namespace Bridge

def second : Nat := 10 ^ 9

def default (now : Nat) : Bridge where
  input := none
  output := []
  connected := true
  pending := fun _ => none
  lastTicket := fun _ => 0
  heartbeat := now
  ready := false
  closed := false
  confirmations := 0

def logFailure : String := "log write failed"

def send (b : Bridge) (line : List Char) (logged : Bool) : Bridge × Except String Unit :=
  if !logged then (b, .error logFailure)
  else
    match b.input with
    | none => (b, .error "Bridge closed")
    | some q =>
      match q.trySend line with
      | .error _ => (b, .error "Bridge command queue")
      | .ok q => ({ b with input := some q }, .ok ())

/-- A controller beyond the slots would panic; what is encoded has none. -/
def transmit (b : Bridge) (controller : Nat) (tx : Transmission) (now : Nat) (logged : Bool) :
    Bridge × Except String Unit :=
  match encode controller tx with
  | .error e => (b, .error e)
  | .ok line =>
    if hc : controller < 3 then
      let c : Fin 3 := ⟨controller, hc⟩
      if b.closed ∨ !b.ready ∨ (b.pending c).isSome ∨ tx.ticket ≤ b.lastTicket c then
        (b, .error "Unavailable bridge or stale/pending TX")
      else
        match b.send line logged with
        | (b', .error e) => (b', .error e)
        | (b', .ok ()) =>
          ({ b' with
            lastTicket := Function.update b'.lastTicket c tx.ticket
            pending := Function.update b'.pending c (some ⟨tx, false, now + 2 * second⟩) }, .ok ())
    else (b, .error "index out of bounds")

def accept (b : Bridge) (controller : Nat) (ticket : UInt64) : Except String Bridge :=
  if hc : controller < 3 then
    let c : Fin 3 := ⟨controller, hc⟩
    match b.pending c with
    | none => .error "Unmatched ACCEPT"
    | some p =>
      if p.tx.ticket ≠ ticket ∨ p.accepted then .error "Stale/duplicate ACCEPT"
      else .ok { b with pending := Function.update b.pending c (some { p with accepted := true }) }
  else .error "Unmatched ACCEPT"

def receive (b : Bridge) (i : Indication) : Except String (Bridge × Event) :=
  if !i.echo then .ok (b, .received i.controller i.frame)
  else
    match confirmedTicket (b.pending i.controller) i.frame with
    | .error e => .error e
    | .ok ticket =>
      .ok ({ b with
        pending := Function.update b.pending i.controller none
        confirmations := b.confirmations + 1 },
        .completed i.controller ticket .j2534SoftwareLoopback)

/-- The bridge after a line, and the event that it makes. -/
def take (b : Bridge) (line : List Char) : Except String (Bridge × Option Event) :=
  match lineRecord line with
  | none => .ok (b, none)
  | some (.error e) => .error e
  | some (.ok .note) => .ok (b, none)
  | some (.ok .ready) =>
    if b.ready then .error (malformed (line.drop linePrefix.length))
    else .ok ({ b with ready := true }, none)
  | some (.ok (.accept c ticket)) => (b.accept c ticket).map (·, none)
  | some (.ok (.receive i)) => (b.receive i).map fun r => (r.1, some r.2)

/-- What the loop of a poll leaves: the bridge, the lines that were taken without an error, and the
events. -/
structure Drained where
  bridge : Bridge
  taken : List (List Char)
  result : Except String (List Event)

/-- The loop of a poll ends with the first event. -/
def drain (b : Bridge) (written : Nat → Bool) : Nat → Drained
  | 0 => ⟨b, [], .ok []⟩
  | n + 1 =>
    match b.output with
    | [] =>
      ⟨b, [], if b.connected then .ok [] else .error "Native J2534 bridge output disconnected"⟩
    | line :: rest =>
      let b := { b with output := rest }
      if !written n then ⟨b, [], .error logFailure⟩
      else
        match b.take line with
        | .error e => ⟨b, [], .error e⟩
        | .ok (b', some event) => ⟨b', [line], .ok [event]⟩
        | .ok (b', none) =>
          let d := b'.drain written n
          { d with taken := line :: d.taken }

def expired (b : Bridge) (now : Nat) : Prop := ∃ c, (b.pending c).any fun p => p.deadline ≤ now

instance decidableExpired (b : Bridge) (now : Nat) : Decidable (b.expired now) :=
  inferInstanceAs (Decidable (∃ _, _))

/-- The end of a poll. -/
def settle (b : Bridge) (s : Surroundings) (events : List Event) :
    Bridge × Except String (List Event) :=
  if b.expired s.now then (b, .error "Native CAN TX confirmation timeout; outcome unknown")
  else
    match s.exited with
    | some e => (b, .error e)
    | none =>
      let beat : Bridge × Except String Unit :=
        if b.ready ∧ b.input.isSome ∧ second ≤ s.now - b.heartbeat then
          match b.send "PING".toList s.logged with
          | (b', .ok ()) => ({ b' with heartbeat := s.now }, Except.ok ())
          | (b', .error e) => (b', .error e)
        else (b, .ok ())
      match beat with
      | (b', .error e) => (b', .error e)
      | (b', .ok ()) => (b', s.flushed.map fun _ => events)

def pollLines : Nat := 64

def poll (b : Bridge) (s : Surroundings) : Bridge × Except String (List Event) :=
  if b.closed then (b, .error "Native J2534 bridge closed")
  else
    match b.drain s.written pollLines with
    | ⟨b', _, .error e⟩ => (b', .error e)
    | ⟨b', _, .ok events⟩ => b'.settle s events

/-- The lines that a poll takes without an error. -/
def taken (b : Bridge) (s : Surroundings) : List (List Char) :=
  if b.closed then [] else (b.drain s.written pollLines).taken

def close (b : Bridge) : Bridge := { b with closed := true, input := none, output := [] }

/-- Calls of the bridge, and what its helper and its writer do in between. -/
inductive Op where
  | transmit (controller : Nat) (tx : Transmission) (now : Nat) (logged : Bool)
  | poll (s : Surroundings)
  | connect (logged : Bool)
  | close
  | prints (line : List Char)
  | ends
  | writes
  | writerEnds

def step (b : Bridge) : Op → Bridge
  | .transmit controller tx now logged => (b.transmit controller tx now logged).1
  | .poll s => (b.poll s).1
  | .connect logged => ({ b with input := some ⟨16, [], true⟩ }.send "PING".toList logged).1
  | .close => b.close
  | .prints line => { b with output := b.output ++ [line] }
  | .ends => { b with connected := false }
  | .writes => { b with input := b.input.map Sender.take }
  | .writerEnds => { b with input := b.input.map ({ · with connected := false }) }

end Bridge

end OpenSaab.J2534
