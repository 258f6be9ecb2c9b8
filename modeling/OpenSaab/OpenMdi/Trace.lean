import OpenSaab.Json
import OpenSaab.Library.Reader
import OpenSaab.OpenMdi.Wire
import OpenSaab.Text

/-!
# The offline decoder

`trace.rs`: a reassembled stream is read into one JSON value a record. The decoder shares nothing
with the code that writes the records.
-/

namespace OpenSaab.OpenMdi

open Json

def maxStreamBytes : Nat := 32 * 1024 * 1024

def maxRecordBytes : Nat := 1024 * 1024

def maxArrayItems : Nat := 4096

def maxRecords : Nat := 65536

abbrev DecodeError := Reader.Fault String

abbrev Decoder (α : Type) := Reader UInt8 String α

def hex (bytes : List UInt8) : String :=
  String.ofList (bytes.flatMap fun b : UInt8 =>
    [Text.hexDigit false (b >>> 4).toNat, Text.hexDigit false (b &&& 15).toNat])

def number (n : UInt32) : Value := .number (.unsigned n.toUInt64)

def signed (n : Int32) : Value :=
  if n < 0 then .number (.negative n.toInt) else .number (.unsigned (UInt64.ofNat n.toInt.toNat))

/-! ## Fields -/

namespace Decoder

def take (n : Nat) : Decoder (List UInt8) := Reader.take n "truncated field"

def u32 : Decoder UInt32 := do
  let bytes ← take 4
  pure (ofWord bytes)

def boolean : Decoder Bool := do
  let bytes ← take 1
  match bytes with
  | [0] => pure false
  | [1] => pure true
  | _ => Reader.fail "invalid presence byte"

def expect (n : UInt32) : Decoder Unit := do
  let m ← u32
  if m ≠ n then Reader.fail "unexpected discriminator" else pure ()

def count : Decoder Nat := do
  let n ← u32
  if maxArrayItems < n.toNat then Reader.fail "array limit exceeded" else pure n.toNat

def blob : Decoder (List UInt8) := do
  let n ← u32
  take n.toNat

/-- What has to be present. -/
def present (reason : String) : Decoder Unit := do
  if ← boolean then pure () else Reader.fail reason

end Decoder

/-! ## Bodies of requests -/

open Decoder

def pinValue (pin kind : UInt32) : Value := .object [("pin", number pin), ("type", number kind)]

def resourceValue (bus protocol : UInt32) (pins : List Value) : Value :=
  .object [("bus", number bus), ("protocol", number protocol), ("pins", .array pins)]

def createLinkValue (link : UInt32) (resource : Value) (resourceId : UInt32) (flags : Value) : Value :=
  .object [("kind", .string "create_link"), ("link", number link), ("resource", resource),
    ("resource_id", number resourceId), ("flags_hex", flags)]

def readPin : Decoder Value := do
  let pin ← u32
  let kind ← u32
  pure (pinValue pin kind)

def readResource : Decoder Value := do
  let bus ← u32
  let protocol ← u32
  let n ← count
  let pins ← Reader.times n readPin
  pure (resourceValue bus protocol pins)

def readHex : Decoder Value := do
  let bytes ← Decoder.blob
  pure (.string (hex bytes))

/-- A field behind its presence byte. -/
def readOptional (field : Decoder Value) : Decoder Value := do
  if ← boolean then field else pure .null

def readCreateLink : Decoder Value := do
  let link ← u32
  let resource ← readOptional readResource
  let resourceId ← u32
  let flags ← readOptional readHex
  pure (createLinkValue link resource resourceId flags)

def unum32Value (link id cls value : UInt32) : Value :=
  .object [("kind", .string "set_unum32_param"), ("link", number link), ("id", number id),
    ("class", number cls), ("value", number value)]

def readUnum32 : Decoder Value := do
  let link ← u32
  expect 0x105
  expect 0x1200
  present "UNUM32 parameter item absent"
  expect 0x1200
  let id ← u32
  expect 0x105
  let cls ← u32
  present "UNUM32 parameter value absent"
  let value ← u32
  pure (unum32Value link id cls value)

def parameterValue (id cls value : UInt32) : Value :=
  .object [("id", number id), ("class", number cls), ("value", number value)]

def entryValue (uniqueResponseId : UInt32) (params : List Value) : Value :=
  .object [("unique_response_id", number uniqueResponseId), ("params", .array params)]

def tableValue (link : UInt32) (entries : List Value) : Value :=
  .object [("kind", .string "unique_response_table"), ("link", number link),
    ("entries", .array entries)]

def readParameter : Decoder Value := do
  expect 0x105
  expect 0x1200
  let id ← u32
  expect 0x105
  let cls ← u32
  present "table parameter value absent"
  let value ← u32
  pure (parameterValue id cls value)

def readEntry : Decoder Value := do
  let uniqueResponseId ← u32
  let np ← count
  let params ← Reader.times np readParameter
  pure (entryValue uniqueResponseId params)

def readTable : Decoder Value := do
  let link ← u32
  expect 0x1700
  expect 0x1700
  let n ← count
  let entries ← Reader.times n readEntry
  pure (tableValue link entries)

def expectedValue (responseType acceptanceId : UInt32) (mask pattern : List UInt8)
    (ids : List UInt32) : Value :=
  .object [("response_type", number responseType), ("acceptance_id", number acceptanceId),
    ("mask_hex", .string (hex mask)), ("pattern_hex", .string (hex pattern)),
    ("unique_response_ids", .array (ids.map number))]

def controlValue (timeMs : UInt32) (sendCycles receiveCycles : Int32) (temporaryParams : UInt32)
    (flags : List UInt8) (expected : List Value) : Value :=
  .object [("time_ms", number timeMs), ("send_cycles", signed sendCycles),
    ("receive_cycles", signed receiveCycles), ("temporary_params", number temporaryParams),
    ("flags_hex", .string (hex flags)), ("expected_responses", .array expected)]

def primitiveValue (link token primitiveType : UInt32) (data : List UInt8) (control : Value) : Value :=
  .object [("kind", .string "start_primitive"), ("link", number link), ("token", number token),
    ("primitive_type", number primitiveType), ("data_hex", .string (hex data)), ("control", control)]

def readExpected : Decoder Value := do
  let responseType ← u32
  let acceptanceId ← u32
  let nmask ← u32
  let mask ← take nmask.toNat
  let pattern ← take nmask.toNat
  let nids ← count
  let ids ← Reader.times nids u32
  pure (expectedValue responseType acceptanceId mask pattern ids)

def readControl : Decoder Value := do
  let timeMs ← u32
  let sendCycles ← u32
  let receiveCycles ← u32
  let temporaryParams ← u32
  let flags ← Decoder.blob
  let n ← count
  let expected ← Reader.times n readExpected
  pure (controlValue timeMs sendCycles.toInt32 receiveCycles.toInt32 temporaryParams flags expected)

def readPrimitive : Decoder Value := do
  let link ← u32
  let token ← u32
  let primitiveType ← u32
  let data ← Decoder.blob
  let control ← readOptional readControl
  pure (primitiveValue link token primitiveType data control)

def linkValue (kind : String) (link : UInt32) : Value :=
  .object [("kind", .string kind), ("link", number link)]

def readLink (opcode : UInt32) : Decoder Value := do
  let kind := if opcode = 0x451 then "destroy_link" else if opcode = 0x45f then "connect" else "disconnect"
  let link ← u32
  pure (linkValue kind link)

def cancelValue (link token : UInt32) : Value :=
  .object [("kind", .string "cancel_primitive"), ("link", number link), ("token", number token)]

def readCancel : Decoder Value := do
  let link ← u32
  let token ← u32
  pure (cancelValue link token)

/-! ## Bodies of events and replies -/

def readExtra : Decoder Value := do
  let nh ← u32
  let nf ← u32
  let header ← take nh.toNat
  let footer ← take nf.toNat
  pure (.object [("header_hex", .string (hex header)), ("footer_hex", .string (hex footer))])

def readResult : Decoder Value := do
  let rxFlags ← Decoder.blob
  let uniqueResponseId ← u32
  let acceptanceId ← u32
  let timestampFlags ← Decoder.blob
  let txDoneTimestamp ← u32
  let startTimestamp ← u32
  let extra ← readOptional readExtra
  let data ← Decoder.blob
  pure (.object [("kind", .string "result"), ("rx_flags_hex", .string (hex rxFlags)),
    ("unique_response_id", number uniqueResponseId), ("acceptance_id", number acceptanceId),
    ("timestamp_flags_hex", .string (hex timestampFlags)),
    ("tx_done_timestamp", number txDoneTimestamp), ("start_timestamp", number startTimestamp),
    ("extra", extra), ("data_hex", .string (hex data))])

def readStatus : Decoder Value := do
  let status ← u32
  let trailer ← take 4
  pure (.object [("kind", .string "status"), ("status", number status),
    ("unknown_trailer_hex", .string (hex trailer))])

def readNotice (kind : String) : Decoder Value := do
  let code ← u32
  let extra ← u32
  pure (.object [("kind", .string kind), ("code", number code), ("extra", number extra)])

def readEventData (opcode itemType : UInt32) : Decoder Value :=
  if (opcode = 0x863 ∨ opcode = 0x5e1) ∧ itemType = 0x1300 then readResult
  else if opcode = 0x863 ∧ itemType = 0x1301 then readStatus
  else if opcode = 0x5e3 ∧ itemType = 0x1303 then readNotice "info"
  else if opcode = 0x5df ∧ itemType = 0x1302 then readNotice "error"
  else Reader.fail "unsupported event opcode/type combination"

def readEventItem (opcode link : UInt32) : Decoder Value := do
  let itemType ← u32
  expect itemType
  if opcode = 0x863 then expect itemType else pure ()
  let token ← u32
  let timestamp ← u32
  present "event data absent"
  let data ← readEventData opcode itemType
  pure (.object [("kind", .string "event"), ("link", number link), ("token", number token),
    ("device_timestamp", number timestamp), ("item_type", number itemType), ("data", data)])

def readEvent (opcode : UInt32) : Decoder Value := do
  let link ← u32
  let n ← if opcode = 0x863 then count else pure 1
  if n = 0 then Reader.fail "empty event batch" else
    let items ← Reader.times n (readEventItem opcode link)
    pure (match items with
      | [item] => item
      | items => .object [("kind", .string "event_batch"), ("link", number link),
          ("items", .array items)])

/-- The status only: the rest of a reply is not interpreted. -/
def readReply : Decoder Value := do
  let status ← u32
  let tail ← Reader.rest
  pure (.object [("kind", .string "rpc_reply"), ("status", number status),
    ("opaque_tail_hex", .string (hex tail))])

def unknownValue (bytes : List UInt8) : Value :=
  .object [("kind", .string "opaque"), ("body_hex", .string (hex bytes))]

def readUnknown : Decoder Value := do
  let bytes ← Reader.rest
  pure (unknownValue bytes)

/-! ## Records -/

def eventOpcodes : List UInt32 := [0x863, 0x5e1, 0x5e3, 0x5df]

def replyOpcodes : List UInt32 :=
  [0x44e, 0x450, 0x452, 0x45a, 0x45e, 0x460, 0x462, 0x464, 0x466, 0x468, 0x885, 0x887, 0x889]

def readBody (opcode : UInt32) : Decoder Value :=
  if opcode = 0x44f then readCreateLink
  else if opcode = 0x459 then readUnum32
  else if opcode = 0x45d then readTable
  else if opcode = 0x463 then readPrimitive
  else if opcode = 0x451 ∨ opcode = 0x45f ∨ opcode = 0x461 then readLink opcode
  else if opcode = 0x465 then readCancel
  else if opcode ∈ eventOpcodes then readEvent opcode
  else if opcode ∈ replyOpcodes then readReply
  else readUnknown

def decodeBody (opcode : UInt32) (bytes : List UInt8) (base : Nat) : Except DecodeError Value :=
  (Reader.whole (readBody opcode) "unexpected trailing bytes" ⟨bytes, base⟩).map Prod.fst

/-- The length, the opcode and the body of the next record. -/
def readRecord : Decoder (Nat × UInt32 × List UInt8) := do
  let length ← u32
  let opcode ← u32
  if 8 ≤ length.toNat ∧ length.toNat ≤ maxRecordBytes then
    let body ← take (length.toNat - 8)
    pure (length.toNat, opcode, body)
  else Reader.fail "invalid record length"

def recordValue (offset length : Nat) (opcode : UInt32) (decoded : Value) : Value :=
  .object [("offset", .nat offset), ("length", .nat length), ("opcode", number opcode),
    ("decoded", decoded)]

/-- The loop of `decode_stream`; `left` records may still come. -/
def decodeRecords : Nat → List UInt8 → Nat → Except DecodeError (List Value)
  | left, bytes, offset =>
    if bytes.isEmpty then .ok []
    else
      match left with
      | 0 => .error ⟨offset, "record count limit exceeded"⟩
      | left + 1 => do
        let ((length, opcode, body), _) ← readRecord ⟨bytes, offset⟩
        let decoded ← decodeBody opcode body (offset + 8)
        let records ← decodeRecords left (bytes.drop length) (offset + length)
        pure (recordValue offset length opcode decoded :: records)

def decodeStream (bytes : List UInt8) : Except DecodeError (List Value) :=
  if maxStreamBytes < bytes.length then .error ⟨0, "stream limit exceeded"⟩
  else decodeRecords maxRecords bytes 0

end OpenSaab.OpenMdi
