import OpenSaab.Can.Frame
import OpenSaab.Library.Lines
import OpenSaab.Library.Words

/-!
# Lines of the raw MDI server

`adapters/mdi/raw.rs`: the commands that the server reads, the messages of the driver, and the lines in
which it prints what it receives. A line is a list of characters.
-/

namespace OpenSaab.Mdi

open Can Lines

def swProtocol : UInt32 := 0x8008

def hvTx : UInt32 := 0x400

def hvRx : UInt32 := 0x10000

/-- A message of the driver. -/
structure Message where
  protocol : UInt32
  rxStatus : UInt32
  txFlags : UInt32
  timestamp : UInt32
  dataSize : UInt32
  extraDataIndex : UInt32
  data : List UInt8
  sized : data.length = 4128

/-- The identifier and the payload, filled up with zeros. A payload that is too long panics in the
source, and no frame has one. -/
def Message.new (id : UInt32) (payload : List UInt8) : Message where
  protocol := 6
  rxStatus := 0
  txFlags := 0
  timestamp := 0
  dataSize := UInt32.ofNat (4 + payload.length)
  extraDataIndex := 0
  data := (Words.big 4 id.toNat ++ payload ++ List.replicate 4124 0).take 4128
  sized := by
    simp only [List.length_take, List.length_append, Words.length_big, List.length_replicate]
    omega

def protocol (c : Nat) : Except String UInt32 :=
  if c = 0 then .ok 5
  else if c = 2 then .ok swProtocol
  else .error "MDI unmapped CAN controller"

def hex (data : List UInt8) : List Char :=
  if data = [] then ['-'] else data.flatMap fun v => padded 2 16 v.toNat

/-- `u32::from_be_bytes` of the first four. -/
def identifier (data : List UInt8) : UInt32 := UInt32.ofNat (Words.ofBig (data.take 4))

theorem new_identifier (id : UInt32) (payload : List UInt8) :
    identifier (Message.new id payload).data = id := by
  have hlen : (Words.big 4 id.toNat).length = 4 := Words.length_big 4 _
  have hfirst : (Message.new id payload).data.take 4 = Words.big 4 id.toNat := by
    rw [Message.new]
    dsimp only
    rw [List.take_take, List.append_assoc, List.take_append_of_le_length (by rw [hlen]; decide),
      List.take_of_length_le (by rw [hlen]; decide)]
  rw [identifier, hfirst, Words.ofBig_big id.toNat_lt, UInt32.ofNat_toNat]

theorem new_payload {id : UInt32} {payload : List UInt8} (h : payload.length ≤ 8) :
    (Message.new id payload).dataSize.toNat = 4 + payload.length ∧
      ((Message.new id payload).data.take (4 + payload.length)).drop 4 = payload := by
  have hlen : (Words.big 4 id.toNat).length = 4 := Words.length_big 4 _
  constructor
  · change (UInt32.ofNat (4 + payload.length)).toNat = _
    rw [UInt32.toNat_ofNat']
    exact Nat.mod_eq_of_lt (by omega)
  · rw [Message.new]
    dsimp only
    rw [List.take_take, Nat.min_eq_left (by omega),
      List.take_left' (by rw [List.length_append, hlen]), List.drop_left' hlen]

def validateRx (c : Nat) (m : Message) : Except String Unit := do
  let protocol ← protocol c
  if m.protocol ≠ protocol ∨ ¬ (4 ≤ m.dataSize ∧ m.dataSize ≤ 12) ∨
      m.extraDataIndex ≠ 0 ∧ m.extraDataIndex ≠ m.dataSize ∨
      ¬ ((m.rxStatus = 0 ∨ m.rxStatus = 1) ∨ c = 2 ∧ (m.rxStatus = hvRx ∨ m.rxStatus = 0x10001)) then
    .error "MDI raw receive protocol/status/bounds rejected"
  else if 0x7ff < identifier m.data then .error "MDI raw extended/invalid identifier rejected"
  else .ok ()

/-- What the server prints for a message that it has received. -/
def receiveLine (c : Nat) (m : Message) : List Char :=
  join ' '
    ["BRIDGE".toList, "RX".toList, digits 10 c, digits 10 m.protocol.toNat,
      padded 8 16 m.rxStatus.toNat, digits 10 m.timestamp.toNat,
      hex (m.data.take m.dataSize.toNat)]

/-! ## Commands -/

/-- A word as a number. -/
def number (radix bound : Nat) (word : List Char) (error : String) : Except String Nat :=
  match parse radix bound word with
  | none => .error error
  | some n => .ok n

def hexPairs : List Char → Option (List UInt8)
  | [] => some []
  | [_] => none
  | a :: b :: rest => do
    let v ← parse 16 256 [a, b]
    let vs ← hexPairs rest
    some (UInt8.ofNat v :: vs)

/-- Two digits a byte, in ASCII: the count of the characters is that of the bytes. -/
def hexData (limit : Nat) (invalid unreadable : String) (s : List Char) :
    Except String (List UInt8) :=
  if limit < s.length ∨ s.length % 2 ≠ 0 ∨ ¬ (s.all fun c => c.toNat < 128) then .error invalid
  else
    match hexPairs s with
    | none => .error unreadable
    | some data => .ok data

/-- The electrical state that a command stands for. -/
def commandState (c : Nat) (flags : UInt32) : ElectricalState :=
  if c = 0 then .standardCan else .singleWireGpio (if flags = hvTx then 2 else 3) 0 3

/-- The message and the transmission of a command with these fields. -/
def command (c : Nat) (ticket : UInt64) (protocol flags id : UInt32) (data : List UInt8) :
    Except String (Nat × UInt64 × Message × Transmission) :=
  let frame : Frame := ⟨id, false, false, UInt8.ofNat data.length, data⟩
  match frame.validate with
  | .error e => .error e
  | .ok () =>
    .ok (c, ticket, { Message.new id data with protocol, txFlags := flags },
      { ticket, frame, btr0 := if c = 0 then 0xc1 else 0xdd, btr1 := 0x36
        electrical := commandState c flags })

def invalidCommand : String := "Invalid MDI raw command"

def parseTx (line : List Char) : Except String (Nat × UInt64 × Message × Transmission) :=
  match words Text.whitespace line with
  | [kind, c, ticket, flags, id, data] =>
    if 256 < (line.map Char.utf8Size).sum ∨ kind ≠ "TX".toList then .error invalidCommand
    else do
      let c ← number 10 (2 ^ 64) c "Invalid controller"
      let protocol ← protocol c
      let ticket ← number 10 (2 ^ 64) ticket "Invalid ticket"
      let flags ← number 16 (2 ^ 32) flags "Invalid flags"
      let id ← number 16 (2 ^ 32) id "Invalid CAN ID"
      let flags := UInt32.ofNat flags
      let id := UInt32.ofNat id
      if flags ≠ 0 ∧ ¬ (c = 2 ∧ flags = hvTx ∧ id = 0x100 ∧ data = ['-']) then
        .error "Unqualified MDI electrical flags"
      else if data = ['-'] then command c (UInt64.ofNat ticket) protocol flags id []
      else do
        let data ← hexData 16 "Invalid CAN data" "Invalid CAN hex" data
        command c (UInt64.ofNat ticket) protocol flags id data
  | _ => .error invalidCommand

end OpenSaab.Mdi
