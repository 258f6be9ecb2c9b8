import OpenSaab.Library.Words
import OpenSaab.Policy.CommandGate
import OpenSaab.VcxNano.Codec

/-!
# Writes in flight

`adapters/vcx_nano/native.rs` and `channel.rs`: one write per controller on the way to the adapter, and
the completion that its outcome is worth. Instants are counted in nanoseconds.
-/

namespace OpenSaab.VcxNano

open Can Policy

/-! ## CAN frames on the wire -/

def modeFlags : ElectricalMode → UInt32
  | .data => 0
  | .singleWireWake => 0x1000

def encodeAuthorized (controller : Nat) (tx : Transmission) (sequence : UInt8) :
    Except String Frame :=
  match electricalRoute controller tx with
  | .error e => .error e
  | .ok route =>
    .ok {
      header := #v[0x80, sequence, 0, route.channel]
      payload := Words.big 4 (modeFlags route.mode).toNat ++ Words.big 2 (4 + tx.frame.data.length) ++
        Words.big 4 tx.frame.id.toNat ++ tx.frame.data }

structure RawCan where
  channel : UInt8
  sequence : UInt8
  flags : UInt32
  id : UInt32
  data : List UInt8
  deriving DecidableEq, Repr

theorem kind_lt : 0 < 4 := by decide

theorem sequence_lt : 1 < 4 := by decide

theorem reserved_lt : 2 < 4 := by decide

theorem channel_lt : 3 < 4 := by decide

def RawCan.decode (f : Frame) : Except String RawCan :=
  if getElem f.header 0 kind_lt ≠ 0x80 ∨ getElem f.header 2 reserved_lt ≠ 0 ∨
      (1 : UInt8) < getElem f.header 3 channel_lt ∨ f.payload.length < 10 then
    .error "Unexpected Nano CAN header/size"
  else
    let size := Words.ofBig ((f.payload.drop 4).take 2)
    if size < 4 ∨ 12 < size ∨ f.payload.length ≠ size + 6 then
      .error "Unexpected Nano CAN declared length"
    else
      let id := UInt32.ofNat (Words.ofBig ((f.payload.drop 6).take 4))
      if 0x1fffffff < id then .error "Nano CAN identifier exceeds 29 bits"
      else
        .ok {
          channel := getElem f.header 3 channel_lt
          sequence := getElem f.header 1 sequence_lt
          flags := UInt32.ofNat (Words.ofBig (f.payload.take 4))
          id
          data := f.payload.drop 10 }

/-! ## The ledger -/

structure Prepared where
  controller : Nat
  ticket : UInt64
  wire : List UInt8
  deadline : Nat
  deriving DecidableEq, Repr

/-- At most one write per controller. -/
structure TxLedger where
  pending : Vector (Option Prepared) 3
  lastTicket : Vector UInt64 3
  sequence : Vector UInt8 3
  closed : Bool
  gate : CommandGate
  deriving DecidableEq, Repr

def writeLimit : Nat := 2000000000

def sessionClosed : String := "Native Nano session closed; create a fresh connection"

def writePending : String := "Native Nano write already pending on this controller"

def gateRejected : String := "Native Android command/continuation gate rejected request"

namespace TxLedger

def default : TxLedger :=
  ⟨Vector.replicate 3 none, Vector.replicate 3 0, Vector.replicate 3 0, false, .default⟩

def close (l : TxLedger) : TxLedger :=
  { l with closed := true, gate := .default, pending := Vector.replicate 3 none }

def fail {α : Type} (l : TxLedger) (message : String) : TxLedger × Except String α :=
  (l.close, .error message)

def checkDeadline (l : TxLedger) (now : Nat) : TxLedger × Except String Unit :=
  if l.closed then (l, .error sessionClosed)
  else if l.pending.toList.any (·.any fun p => p.deadline ≤ now) then
    l.fail "Native Nano USB write deadline expired; outcome unknown"
  else (l, .ok ())

/-- The write under way on a controller. -/
def pendingOn (l : TxLedger) (controller : Nat) : Option Prepared := (l.pending[controller]?).join

def record (l : TxLedger) (p : Prepared) (sequence : UInt8) : TxLedger :=
  { l with
    lastTicket := l.lastTicket.setIfInBounds p.controller p.ticket
    sequence := l.sequence.setIfInBounds p.controller sequence
    pending := l.pending.setIfInBounds p.controller (some p) }

/-- The frame on the wire, once the gate has let it through. -/
def encode (controller : Nat) (tx : Transmission) (sequence : UInt8) : Except String (List UInt8) :=
  (encodeAuthorized controller tx sequence).bind Frame.encode

def prepareForProfile (l : TxLedger) (controller : Nat) (tx : Transmission) (now : Nat)
    (profile : Profile) : TxLedger × Except String Prepared :=
  match l.checkDeadline now with
  | (l, .error e) => (l, .error e)
  | (l, .ok ()) =>
    let sequence := (l.sequence[controller]?).getD 0 + 1
    if (l.pendingOn controller).isSome then (l, .error writePending)
    else if (l.lastTicket[controller]?).any (tx.ticket ≤ ·) then
      l.fail "Stale/reused native Nano transmission ticket"
    else
      match l.gate.allowed controller tx profile now with
      | (gate, false) => ({ l with gate }, .error gateRejected)
      | (gate, true) =>
        match encode controller tx sequence with
        | .error e => ({ l with gate }, .error e)
        | .ok wire =>
          let p : Prepared := ⟨controller, tx.ticket, wire, now + writeLimit⟩
          (record { l with gate } p sequence, .ok p)

def usbWriteFinished (l : TxLedger) (controller : Nat) (ticket : UInt64)
    (outcome : Except String Nat) (now : Nat) : TxLedger × Except String Event :=
  match l.checkDeadline now with
  | (l, .error e) => (l, .error e)
  | (l, .ok ()) =>
    match l.pendingOn controller with
    | none => l.fail "USB completion has no pending native ticket"
    | some p =>
      if p.ticket ≠ ticket then l.fail "USB completion does not match the pending native ticket"
      else if outcome ≠ .ok p.wire.length then
        l.fail "Native Nano USB write failed or was short; outcome unknown"
      else
        ({ l with pending := l.pending.setIfInBounds controller none },
          .ok (.completed controller ticket .vcxUsbWriteCompatibility))

end TxLedger

/-! ## What the wire carries -/

/-- The bytes decode to one frame, which decodes to the transmission on its route. -/
def Carries (wire : List UInt8) (sequence : UInt8) (controller : Nat) (tx : Transmission) : Prop :=
  ∃ (d : Decoder) (f : Frame) (route : ElectricalRoute),
    Decoder.default.feed wire = (d, .ok [f]) ∧ d.finish = .ok () ∧
    electricalRoute controller tx = .ok route ∧
    RawCan.decode f =
      .ok ⟨route.channel, sequence, modeFlags route.mode, tx.frame.id, tx.frame.data⟩

/-- The fields of a payload, by their places. -/
theorem payload_fields {flags size id data : List UInt8} (h1 : flags.length = 4)
    (h2 : size.length = 2) (h3 : id.length = 4) :
    (flags ++ size ++ id ++ data).take 4 = flags ∧
      ((flags ++ size ++ id ++ data).drop 4).take 2 = size ∧
      ((flags ++ size ++ id ++ data).drop 6).take 4 = id ∧
      (flags ++ size ++ id ++ data).drop 10 = data ∧
      (flags ++ size ++ id ++ data).length = 10 + data.length := by
  match flags, size, id, h1, h2, h3 with
  | [_, _, _, _], [_, _], [_, _, _, _], _, _, _ =>
    refine ⟨rfl, rfl, rfl, rfl, ?_⟩
    simp only [List.cons_append, List.nil_append, List.length_cons]
    omega

theorem decode_authorized {controller : Nat} {tx : Transmission} {route : ElectricalRoute} {f : Frame}
    {sequence : UInt8} (hroute : electricalRoute controller tx = .ok route)
    (hf : encodeAuthorized controller tx sequence = .ok f) :
    f.payload.length ≤ 18 ∧ RawCan.decode f =
      .ok ⟨route.channel, sequence, modeFlags route.mode, tx.frame.id, tx.frame.data⟩ := by
  have hrouted := electricalRoute_routed hroute
  have hdlc : tx.frame.data.length ≤ 8 := by
    rw [hrouted.data]
    exact UInt8.le_iff_toNat_le.mp hrouted.dlc
  have hid : tx.frame.id.toNat ≤ 0x7ff := UInt32.le_iff_toNat_le.mp hrouted.id
  have hchannel : ¬ (1 : UInt8) < route.channel := by
    rcases hrouted.channel with h | h
    · rw [h]
      decide
    · rw [h]
      decide
  have hflags : Words.ofBig (Words.big 4 (modeFlags route.mode).toNat) = (modeFlags route.mode).toNat :=
    Words.ofBig_big (modeFlags route.mode).toNat_lt
  have hsize : Words.ofBig (Words.big 2 (4 + tx.frame.data.length)) = 4 + tx.frame.data.length :=
    Words.ofBig_big (by omega)
  have hword : Words.ofBig (Words.big 4 tx.frame.id.toNat) = tx.frame.id.toNat :=
    Words.ofBig_big (by omega)
  have hhigh : ¬ (0x1fffffff : UInt32) < tx.frame.id := by
    rw [UInt32.lt_iff_toNat_lt]
    exact Nat.not_lt.mpr (Nat.le_trans hid (by decide))
  unfold encodeAuthorized at hf
  rw [hroute] at hf
  obtain rfl := Except.ok.inj hf
  obtain ⟨htake, hsizes, hids, hdata, hlen⟩ := @payload_fields
    (Words.big 4 (modeFlags route.mode).toNat) (Words.big 2 (4 + tx.frame.data.length))
    (Words.big 4 tx.frame.id.toNat) tx.frame.data (Words.length_big _ _) (Words.length_big _ _)
    (Words.length_big _ _)
  refine ⟨by simp only [hlen]; omega, ?_⟩
  unfold RawCan.decode
  simp only [htake, hsizes, hids, hdata, hlen, hflags, hsize, hword, UInt32.ofNat_toNat]
  rw [if_neg, if_neg, if_neg hhigh]
  · rfl
  · omega
  · simp only [not_or, not_not]
    exact ⟨rfl, rfl, hchannel, by omega⟩

/-- What the gate lets through has a frame on the wire, and it is the one that carries it. -/
theorem encode_carries {controller : Nat} {tx : Transmission} {route : ElectricalRoute}
    (sequence : UInt8) (hroute : electricalRoute controller tx = .ok route) :
    ∃ wire, TxLedger.encode controller tx sequence = .ok wire ∧
      Carries wire sequence controller tx := by
  cases hf : encodeAuthorized controller tx sequence with
  | error e => simp [encodeAuthorized, hroute] at hf
  | ok f =>
    obtain ⟨hlen, hdecode⟩ := decode_authorized hroute hf
    cases hwire : f.encode with
    | error e =>
      unfold Frame.encode at hwire
      rw [if_neg (by simp only [maxBody]; omega)] at hwire
      cases hwire
    | ok wire =>
      refine ⟨wire, by rw [TxLedger.encode, hf]; exact hwire, reading [], f, route, ?_, rfl, hroute,
        hdecode⟩
      have hfeed : Decoder.default.feedChunk wire = (reading [], .ok [f]) := feed_frame hwire rfl
      rw [Decoder.feed, hfeed]
      rfl

end OpenSaab.VcxNano
