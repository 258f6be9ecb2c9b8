import OpenSaab.Can.Frame

/-!
# The command gate

`adapters/common/policy.rs`: which requests of the original firmware a session lets out. Instants are
counted in nanoseconds.
-/

namespace OpenSaab.Policy

open Can

/-- Mutually exclusive permissions for firmware requests. -/
inductive Profile where
  | read
  | seeds
  | clearDtc
  deriving DecidableEq, Repr

def Profile.collection (seeds : Bool) : Profile := if seeds then .seeds else .read

/-! ## Single frames -/

/-- An identifier of a packet that can be read. -/
def packetId (v : UInt8) : Bool := 1 ≤ v && v ≤ 0x7f || 0x90 ≤ v && v ≤ 0xfe

/-- The identifiers that diagnostic requests go to. -/
def requestId (controller : Nat) (id : UInt32) : Bool :=
  id == 0x101 || id == 0x7e0 || controller == 0 && id == 0x7e1 || 0x240 ≤ id && id ≤ 0x25f

/-- Requests for seeds, in a session that collects them. -/
def seedRequest (controller : Nat) (id : UInt32) (request : List UInt8) : Bool :=
  let module := 0x240 ≤ id && id ≤ 0x25f
  request == [0xae, 0] && controller == 2 && id == 0x241 ||
    request == [0x27, 1] &&
      (controller == 0 && (id == 0x7e0 || id == 0x7e1 || module) || controller == 2 && module) ||
    request == [0x27, 0x0b] && controller == 2 && id == 0x241

def clearRequest (request : List UInt8) : Bool := request == [0x04] || request == [0xa9, 0x81, 0x0a]

def spsState : List UInt8 := [0xfe, 1, 0xa2, 0, 0, 0, 0, 0]

/-- Requests that are let out in every session. -/
def readRequest (controller : Nat) (id : UInt32) (data : List UInt8) : List UInt8 → Bool
  | [service] =>
    if service = 0xa2 then controller == 0 && id == 0x101 && data == spsState
    else service == 0x3e || service == 0x20
  | service :: sub :: rest =>
    service == 0x1a && rest == [] ||
      service == 0xaa && sub == 1 && rest.length == 1 ||
      service == 0xa9 && sub == 0x81 && (rest == [0x10] || rest == [0x12] || rest == [0x0c]) ||
      service == 0x10 && (sub == 1 || sub == 2) && rest == [] ||
      service == 0x2c && 0xf3 ≤ sub && sub ≤ 0xfe && controller == 0 && id == 0x7e0 && rest != [] &&
        rest.length % 2 == 0 ||
      service == 0xaa && sub ≤ 4 && controller == 0 && id == 0x7e0 && (sub == 0 || rest != []) &&
        rest.all packetId
  | [] => false

def allowedForProfile (controller : Nat) (tx : Transmission) (profile : Profile) : Bool :=
  match electricalRoute controller tx with
  | .error _ => false
  | .ok route =>
    let id := tx.frame.id
    let data := tx.frame.data
    if route.mode = .singleWireWake then controller == 2 && id == 0x100 && data.isEmpty
    else if data.isEmpty || !requestId controller id then false
    else
      let offset := if data[0]? = some 0xfe then 1 else 0
      match data[offset]? with
      | none => false
      | some pci =>
        -- Flow control belongs to the guest.
        if pci = 0x30 then 3 ≤ data.length - offset
        else
          let n := pci.toNat
          if n < 1 ∨ 7 < n ∨ data.length < offset + 1 + n then false
          else
            let request := (data.drop (offset + 1)).take n
            profile == .seeds && offset == 0 && seedRequest controller id request ||
              profile == .clearDtc && clearRequest request ||
              readRequest controller id data request

/-! ## Segmented requests of the engine -/

structure PacketContinuation where
  remaining : Nat
  sequence : UInt8
  deadline : Nat
  profile : Profile
  packetRead : Bool
  deriving DecidableEq, Repr

structure CommandGate where
  packet : Option PacketContinuation
  deriving DecidableEq, Repr

def CommandGate.default : CommandGate := ⟨none⟩

def engine (controller : Nat) (tx : Transmission) : Bool := controller == 0 && tx.frame.id == 0x7e0

/-- Between two frames of a request. -/
def continuationLimit : Nat := 3000000000

def firstLength (d : List UInt8) : Nat := (d.getD 0 0 &&& 15).toNat * 256 + (d.getD 1 0).toNat

/-- The first frame of a read of packets. -/
def opensRead (d : List UInt8) : Bool :=
  d.getD 2 0 == 0xaa && d.getD 3 0 ≤ 4 && 8 ≤ firstLength d && firstLength d ≤ 32 &&
    (d.drop 4).all packetId

/-- The first frame of the definition of a packet. -/
def opensDefinition (d : List UInt8) : Bool :=
  d.getD 2 0 == 0x2c && 0xf3 ≤ d.getD 3 0 && d.getD 3 0 ≤ 0xfe && 8 ≤ firstLength d &&
    firstLength d ≤ 16 && firstLength d % 2 == 0

/-- A consecutive frame that goes on with the request. -/
def PacketContinuation.takes (p : PacketContinuation) (engine : Bool) (d : List UInt8)
    (profile : Profile) (now : Nat) : Bool :=
  engine && d.length == 8 && now < p.deadline && profile == p.profile &&
    d.getD 0 0 == (0x20 ||| p.sequence) &&
    (!p.packetRead || ((d.drop 1).take (min p.remaining 7)).all packetId)

def PacketContinuation.advance (p : PacketContinuation) (now : Nat) : Option PacketContinuation :=
  if p.remaining - 7 = 0 then none
  else some { p with
    remaining := p.remaining - 7
    sequence := (p.sequence + 1) &&& 15
    deadline := now + continuationLimit }

def CommandGate.allowed (g : CommandGate) (controller : Nat) (tx : Transmission)
    (profile : Profile) (now : Nat) : CommandGate × Bool :=
  match electricalRoute controller tx with
  | .error _ => (g, false)
  | .ok _ =>
    let d := tx.frame.data
    let engine := engine controller tx
    if engine ∧ d.length = 8 ∧ d.getD 0 0 &&& 0xf0 = 0x10 then
      if g.packet.isSome ∨ ¬ (opensRead d ∨ opensDefinition d) then (g, false)
      else
        (⟨some ⟨firstLength d - 6, 1, now + continuationLimit, profile, opensRead d⟩⟩, true)
    else if d ≠ [] ∧ d.getD 0 0 &&& 0xf0 = 0x20 then
      match g.packet with
      | none => (g, false)
      | some p => if p.takes engine d profile now then (⟨p.advance now⟩, true) else (g, false)
    else if engine ∧ g.packet.isSome then (g, false)
    else (g, allowedForProfile controller tx profile)

/-! ## Key status -/

structure KeyStatusGate where
  enabled : Bool
  sent : UInt8
  deriving DecidableEq, Repr

def keyStatusRequest : List UInt8 := [3, 0xae, 3, 2, 0, 0, 0, 0]

def KeyStatusGate.allowed (g : KeyStatusGate) (controller : Nat) (tx : Transmission) :
    KeyStatusGate × Bool :=
  if ¬ g.enabled ∨ 3 ≤ g.sent ∨ controller ≠ 2 ∨ tx.frame.id ≠ 0x241 ∨
      tx.frame.data ≠ keyStatusRequest then (g, false)
  else
    match electricalRoute controller tx with
    | .error _ => (g, false)
    | .ok _ => ({ g with sent := g.sent + 1 }, true)

end OpenSaab.Policy
