import OpenSaab.Vlinker.Commands
import OpenSaab.Translation.IsoTp
import OpenSaab.Translation.Gm

/-!
# Replies of an adapter

`vlinker.rs`: the text that an adapter sends up to its prompt, and what is read from it.
-/

namespace OpenSaab.Vlinker

open Text Translation IsoTp

/-! ## The prompt -/

structure Prompt where
  bytes : List UInt8
  done : Bool
  deriving DecidableEq, Repr

namespace Prompt

def empty : Prompt := ⟨[], false⟩

/-- What is read before an error stays read. -/
def feed (p : Prompt) : List UInt8 → Except String Unit × Prompt
  | [] => (.ok (), p)
  | byte :: rest =>
    if p.done then
      if byte ∈ [13, 10, 32] then p.feed rest
      else (.error "Unexpected bytes after command prompt", p)
    else if byte = 62 then { p with done := true }.feed rest
    else if byte ∉ [9, 10, 13] ∧ ¬ (32 ≤ byte ∧ byte ≤ 126) then
      (.error "Non-ASCII adapter reply", p)
    else if 16384 ≤ p.bytes.length then (.error "Adapter reply exceeded 16 KiB", p)
    else { p with bytes := p.bytes ++ [byte] }.feed rest

/-- The reply as text: all of its bytes are ASCII. -/
def text (p : Prompt) : List Char := p.bytes.map fun b => Char.ofNat b.toNat

end Prompt

/-! ## Lines -/

def lineBreak (c : Char) : Bool := c == '\r' || c == '\n'

/-- The reports of an adapter that are errors. -/
def adapterError (line : List Char) : Bool :=
  let upper := asciiUppercase line
  ["?", "NO DATA", "STOPPED", "UNABLE TO CONNECT"].any (·.toList == upper) ||
    ["ERROR", "BUFFER FULL", "BUS INIT"].any fun token => containsText token.toList upper

/-- The reply to a command without its echo. -/
def checked (command : String) (raw : List Char) : Except String (List Char) :=
  let echo := compact command.toList
  let lines := ((raw.splitOnP lineBreak).map trim).filter fun line =>
    line ≠ [] ∧ ¬ eqIgnoreAsciiCase (compact line) echo
  if lines = [] then .error (command ++ ": empty reply")
  else
    match lines.find? adapterError with
    | some line => .error (command ++ ": " ++ String.ofList line)
    | none => .ok (['\n'].intercalate lines)

/-! ## Frames -/

def hexValue (c : Char) : Option Nat :=
  if '0' ≤ c ∧ c ≤ '9' then some (c.toNat - 48)
  else if 'A' ≤ c ∧ c ≤ 'F' then some (c.toNat - 55)
  else if 'a' ≤ c ∧ c ≤ 'f' then some (c.toNat - 87)
  else none

def pairs : List Nat → List UInt8
  | high :: low :: rest => UInt8.ofNat (16 * high + low) :: pairs rest
  | _ => []

/-- The identifier and the eight bytes of one line. -/
def frame (line : List Char) : Except String (UInt32 × List UInt8) :=
  match (compact line).mapM hexValue with
  | some (a :: b :: c :: digits) =>
    if digits.length = 16 then .ok (UInt32.ofNat (256 * a + 16 * b + c), pairs digits)
    else .error "Unexpected or truncated CAN frame"
  | _ => .error "Unexpected or truncated CAN frame"

def frames (reply : List Char) : Except String (List (UInt32 × List UInt8)) :=
  ((reply.splitOnP lineBreak).filter fun line => trim line ≠ []).mapM frame

/-- The flow control of the host, which the adapter shows among the replies. -/
def flowControl (id : UInt32) (data : List UInt8) : Bool :=
  id == 0x7e0 && data == [0x30, 0, 0, 0, 0, 0, 0, 0]

def identifierFrames (pid : UInt8) :
    List (UInt32 × List UInt8) → Receiver → Option (List UInt8) → Except String (Option (List UInt8))
  | [], _, payload => .ok payload
  | (id, data) :: rest, receiver, payload =>
    if flowControl id data then identifierFrames pid rest receiver payload
    else if id ≠ 0x7e8 then .error "Unexpected ECM identifier CAN ID"
    else if data.take 3 = [3, 0x7f, 0x1a] then
      if data.getD 3 0 = 0x78 ∧ ¬ receiver.started then identifierFrames pid rest receiver payload
      else
        .error ("ECM identifier " ++ hexUpper pid ++ " rejected: NRC " ++ hexUpper (data.getD 3 0))
    else
      match receiver.push data with
      | (.error e, _) => .error e
      | (.ok (.complete bytes), receiver) => identifierFrames pid rest receiver (some bytes)
      | (.ok _, receiver) => identifierFrames pid rest receiver payload

def identifier (reply : List Char) (pid : UInt8) : Except String (List UInt8) := do
  let receiver ← Receiver.new 512
  let payload ← identifierFrames pid (← frames reply) receiver none
  match payload with
  | none => .error "Incomplete ECM identifier reply"
  | some payload =>
    if payload.length < 3 ∨ payload.take 2 ≠ [0x5a, pid] then
      .error "Incomplete or mismatched ECM identifier reply"
    else .ok (payload.drop 2)

structure IdentifierValue where
  value : String
  rawHex : String
  identifier : String
  deriving DecidableEq, Repr

def identifierValue (bytes : List UInt8) (pid : UInt8) : IdentifierValue where
  value :=
    if pid = 0x7c ∧ bytes.length = 4 then
      toString (bytes.foldl (fun n b => 256 * n + b.toNat) 0)
    else if bytes.all (fun b => b == 0 || 32 ≤ b && b ≤ 126) ∧
        bytes.any (fun b => 33 ≤ b && b ≤ 126) then
      String.ofList (trim ((bytes.filter (· ≠ 0)).map fun b => Char.ofNat b.toNat))
    else "Hex: " ++ hexBytes bytes
  rawHex := hexBytes bytes
  identifier := "1A " ++ hexUpper pid

def vinFrames : List (UInt32 × List UInt8) → VinReply → Except String VinReply
  | [], receiver => .ok receiver
  | (id, data) :: rest, receiver =>
    if flowControl id data then vinFrames rest receiver
    else if id ≠ 0x7e8 then .error "Unexpected CAN ID in VIN reply"
    else if data.take 3 = [3, 0x7f, 0x1a] then
      if data.getD 3 0 = 0x78 then vinFrames rest receiver
      else .error ("ECM rejected VIN read: NRC " ++ hexUpper (data.getD 3 0))
    else
      match receiver.feed data with
      | (.error e, _) => .error e
      | (.ok _, receiver) => vinFrames rest receiver

def parseVin (reply : List Char) : Except String String := do
  let receiver ← vinFrames (← frames reply) .default
  match receiver.vin with
  | none => .error "Incomplete ECM VIN reply"
  | some vin =>
    if "YS3".toList.isPrefixOf vin.toList then .ok vin else .error "Invalid Saab VIN characters"

example : parseVin ("7E8 10 13 5A 90 59 53 33 46\r7E8 21 44 34 39 59 58 34 31\r" ++
    "7E8 22 30 30 30 30 30 31 00\r").toList = .ok "YS3FD49YX41000001" := by decide +kernel

/-! ## The report of the engine codes -/

structure DtcRecord where
  code : String
  failureType : String
  status : String
  warningIndicatorRequested : Bool
  current : Bool
  history : Bool
  deriving DecidableEq, Repr

def DtcRecord.of (d : Dtc) : DtcRecord where
  code := d.code
  failureType := hexUpper d.failureType
  status := hexUpper d.status
  warningIndicatorRequested := d.status &&& 0x80 != 0
  current := d.status &&& 2 != 0
  history := d.status &&& 0x10 != 0

def reportFrames : List (UInt32 × List UInt8) → Report → Except String Report
  | [], report => .ok report
  | (id, data) :: rest, report =>
    if id ≠ 0x7e8 ∧ id ≠ 0x5e8 then .error "Unexpected DTC report CAN ID"
    else if id = 0x7e8 ∧ data.take 3 ≠ [3, 0x7f, 0xa9] then
      .error "Unexpected DTC report control response"
    else if id = 0x5e8 ∧ data.getD 0 0 ≠ 0x81 then .error "Unexpected DTC report record"
    else if id = 0x5e8 ∧ (data.drop 1).take 3 = [0, 0, 0] ∧ data.getD 4 0 ≠ 0xff then
      .error "Invalid DTC report end marker"
    else
      match report.receive id data with
      | (.error e, _) => .error e
      | (.ok (), report) => reportFrames rest report

/-- The records of a complete report. -/
def dtcReport (reply : List Char) : Except String (List DtcRecord) := do
  let report ← reportFrames (← frames reply) .default
  return (← report.finish).map DtcRecord.of

end OpenSaab.Vlinker
