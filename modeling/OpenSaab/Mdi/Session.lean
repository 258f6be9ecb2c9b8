import OpenSaab.Library.Programs
import OpenSaab.Mdi.Raw
import OpenSaab.Policy.CommandGate
import Mathlib.Logic.Function.Basic

/-!
# The raw session of the MDI

`adapters/mdi/raw.rs` and `polling.rs`: a session opens the device and a channel for each bus, writes
what it is told to, and gives everything back when it is closed.
-/

namespace OpenSaab.Mdi

open Can Policy Program

/-! ## Polling -/

inductive Action where
  | start (i : Fin 4)
  | stop (i : Fin 4)
  deriving DecidableEq

namespace Polling

def ids : Fin 4 → UInt32
  | 0 => 0x242
  | 1 => 0x24f
  | 2 => 0x241
  | 3 => 0x246

def stop : List UInt8 := [2, 0xaa, 0, 0, 0, 0, 0, 0]

def starts : Fin 4 → List UInt8
  | 0 => [3, 0xaa, 3, 3, 0, 0, 0, 0]
  | 1 => [5, 0xaa, 3, 4, 5, 10, 0, 0]
  | 2 => [4, 0xaa, 3, 2, 1, 0, 0, 0]
  | 3 => [3, 0xaa, 3, 4, 0, 0, 0, 0]

/-- What a frame with this identifier and this payload does. -/
def action (id : UInt32) (data : List UInt8) : Option Action :=
  match (List.finRange 4).find? (ids · = id) with
  | none => none
  | some i =>
    if data = starts i then some (.start i) else if data = stop then some (.stop i) else none

def classify (controller : Nat) (tx : Transmission) : Option Action :=
  if controller ≠ 2 ∨ tx.frame.extended ∨ tx.frame.rtr ∨ tx.frame.dlc ≠ 8 then none
  else
    match electricalRoute controller tx with
    | .error _ => none
    | .ok route => if route.mode ≠ .data then none else action tx.frame.id tx.frame.data

end Polling

/-! ## The driver -/

/-- What the driver can be asked. -/
inductive Call where
  | opens
  | version (device : UInt32)
  | voltage (device : UInt32)
  | connect (device protocol baud : UInt32)
  | config (channel parameter value : UInt32)
  | filter (channel protocol : UInt32)
  | clearRx (channel : UInt32)
  | read (channel : UInt32)
  | write (channel : UInt32) (message : Message)
  | stopFilter (channel filter : UInt32)
  | disconnect (channel : UInt32)
  | close (device : UInt32)

@[reducible]
def Call.Reply : Call → Type
  | .opens => UInt32
  | .version _ => String × String × String
  | .voltage _ => UInt32
  | .connect .. => UInt32
  | .config .. => Unit
  | .filter .. => UInt32
  | .clearRx _ => Unit
  | .read _ => Option Message
  | .write .. => UInt32
  | .stopFilter .. => Unit
  | .disconnect _ => Unit
  | .close _ => Unit

structure Entry where
  call : Call
  reply : Except String call.Reply

/-- A driver answers by what it has been asked before. -/
structure Driver where
  answer : List Entry → (c : Call) → Except String c.Reply

/-! ## The session -/

/-- `calls` is what the driver has been asked, and what it has answered. -/
structure Session where
  calls : List Entry
  device : Option UInt32
  channels : Fin 3 → Option UInt32
  filters : Fin 3 → Option UInt32
  gate : CommandGate
  tickets : Fin 3 → UInt64
  pollingActive : Fin 4 → Bool
  cleanupOk : Bool
  wakeNotices : Nat

def Session.new : Session where
  calls := []
  device := none
  channels := fun _ => none
  filters := fun _ => none
  gate := .default
  tickets := fun _ => 0
  pollingActive := fun _ => false
  cleanupOk := true
  wakeNotices := 0

def swBaud : UInt32 := 33333

def pins : UInt32 := 0x8001

def pin1 : UInt32 := 0x0100

def loopback : UInt32 := 3

def isWakeNotice (c : Nat) (m : Message) : Bool :=
  c == 2 && m.protocol == swProtocol && m.rxStatus == hvRx && m.dataSize == 0 &&
    m.extraDataIndex == 0

namespace Session

variable (D : Driver)

def ask (c : Call) : Program Session String c.Reply := fun s =>
  (D.answer s.calls c, { s with calls := s.calls ++ [⟨c, D.answer s.calls c⟩] })

def setDevice (d : Option UInt32) : Program Session String Unit :=
  change fun s => { s with device := d }

def setChannel (c : Fin 3) (ch : Option UInt32) : Program Session String Unit :=
  change fun s => { s with channels := Function.update s.channels c ch }

def setFilter (c : Fin 3) (f : Option UInt32) : Program Session String Unit :=
  change fun s => { s with filters := Function.update s.filters c f }

/-- Only the single wire is on a pin of its own. -/
def configurePins (c : Fin 3) (ch : UInt32) : Program Session String Unit :=
  if c = 2 then ask D (.config ch pins pin1) else pure ()

/-- What is set up on a channel that has been connected. -/
def setUp (c : Fin 3) (protocol ch : UInt32) : Program Session String Unit := do
  configurePins D c ch
  ask D (.config ch loopback 1)
  let f ← ask D (.filter ch protocol)
  setFilter c (some f)
  ask D (.clearRx ch)

def startBus (d : UInt32) (c : Fin 3) : Program Session String Unit := do
  let protocol ← lift (protocol c)
  let ch ← ask D (.connect d protocol (if c = 0 then 500000 else swBaud))
  setChannel c (some ch)
  setUp D c protocol ch

def start (highSpeed : Bool) : Program Session String Unit := do
  if ← read (·.device.isSome) then fail "MDI raw session already open"
  else
    let d ← ask D .opens
    setDevice (some d)
    let version ← ask D (.version d)
    if version.2.1 ≠ "2.5.33.154" ∨ version.2.2 ≠ "04.04" then
      fail "Unexpected classic MDI DLL/API version"
    else
      let _ ← ask D (.voltage d)
      each (startBus D d) (if highSpeed then [0, 2] else [2])

def guardText (c : Nat) (tx : Transmission) : String :=
  let offset := if tx.frame.data.head? = some 0xfe then 1 else 0
  let service := tx.frame.data.getD (offset + 1) 0
  "MDI command guard blocked before USB: controller=" ++ toString c ++ " CAN_ID=" ++
    String.ofList (Lines.padded 3 16 tx.frame.id.toNat) ++ " service=" ++
    String.ofList (Lines.padded 2 16 service.toNat) ++ " profile=Read; frame=" ++
    String.ofList (hex tx.frame.data)

/-- What is noted before a write whose outcome may stay unknown. -/
def record (c : Fin 3) (ticket : UInt64) (action : Option Action) (s : Session) : Session :=
  { s with
    tickets := Function.update s.tickets c ticket
    pollingActive :=
      match action with
      | some (.start i) => Function.update s.pollingActive i true
      | some (.stop i) => Function.update s.pollingActive i false
      | none => s.pollingActive }

/-- A stop that is not known to have been written cannot pass as clean. -/
def written (action : Option Action) (write : Except String UInt32) (s : Session) : Session :=
  match action, write with
  | some (.stop _), .ok n => { s with cleanupOk := s.cleanupOk && n == 1 }
  | some (.stop _), .error _ => { s with cleanupOk := false }
  | _, _ => s

/-- The write of what has been let through. -/
def deliver (c : Fin 3) (ticket : UInt64) (message : Message) (action : Option Action)
    (ch : UInt32) : Program Session String (Nat × UInt64) := do
  change (record c ticket action)
  let write ← attempt (ask D (.write ch message))
  change (written action write)
  let n : UInt32 ← lift write
  if n ≠ 1 then fail "MDI short raw write; outcome unknown" else pure (c.val, ticket)

/-- `enabled` is whether the build has the polling treatment. -/
def transmit (enabled : Bool) (now : Nat) (line : List Char) :
    Program Session String (Nat × UInt64) := do
  let (c, ticket, message, tx) ← lift (parseTx line)
  if hc : c < 3 then
    match ← read (·.channels ⟨c, hc⟩) with
    | none => fail "MDI raw bus is not open"
    | some ch =>
      if ticket = 0 ∨ ticket ≤ (← read (·.tickets ⟨c, hc⟩)) then
        fail "MDI stale/zero transmission ticket"
      else
        match if enabled then Polling.classify c tx else none with
        | some action => deliver D ⟨c, hc⟩ ticket message (some action) ch
        | none =>
          let (gate, allowed) ← read (·.gate.allowed c tx .read now)
          change fun s => { s with gate }
          if allowed then deliver D ⟨c, hc⟩ ticket message none ch else fail (guardText c tx)
  else fail "index out of bounds"

def receiveText (error : String) (c : Nat) (m : Message) : String :=
  error ++ ": controller=" ++ toString c ++ " protocol=" ++ toString m.protocol ++ " status=" ++
    String.ofList (Lines.padded 8 16 m.rxStatus.toNat) ++ " size=" ++ toString m.dataSize ++
    " extra=" ++ toString m.extraDataIndex ++ " timestamp=" ++ toString m.timestamp ++ " data=" ++
    String.ofList (hex (m.data.take (min m.dataSize.toNat 4128)))

def receive (c : Nat) : Program Session String (Option Message) := do
  if hc : c < 3 then
    match ← read (·.channels ⟨c, hc⟩) with
    | none => pure none
    | some ch =>
      match ← (ask D (.read ch) : Program Session String (Option Message)) with
      | none => pure none
      | some message =>
        if isWakeNotice c message then
          change fun s => { s with wakeNotices := s.wakeNotices + 1 }
          pure none
        else
          match validateRx c message with
          | .error e => fail (receiveText e c message)
          | .ok () => pure (some message)
  else pure none

/-! ## The end -/

/-- A call whose failure is only noted. -/
def release (c : Call) (good : Except String c.Reply → Bool) : Program Session String Unit := do
  let r ← attempt (ask D c)
  change fun s => { s with cleanupOk := s.cleanupOk && good r }

def stopMessage (i : Fin 4) : Message :=
  { Message.new (Polling.ids i) Polling.stop with protocol := swProtocol }

def isOne : Except String UInt32 → Bool
  | .ok n => n == 1
  | .error _ => false

def stopPolling (ch : UInt32) (i : Fin 4) : Program Session String Unit := do
  let active ← read (·.pollingActive i)
  change fun s => { s with pollingActive := Function.update s.pollingActive i false }
  if active then release D (.write ch (stopMessage i)) isOne else pure ()

def stopFilter (ch : UInt32) (filter : Option UInt32) : Program Session String Unit :=
  match filter with
  | some f => release D (.stopFilter ch f) Except.toBool
  | none => pure ()

def closeBus (c : Fin 3) : Program Session String Unit := do
  match ← read (·.channels c) with
  | none => pure ()
  | some ch =>
    let filter ← read (·.filters c)
    setFilter c none
    stopFilter D ch filter
    setChannel c none
    release D (.disconnect ch) Except.toBool

def stopAll (ch : Option UInt32) : Program Session String Unit :=
  match ch with
  | some ch => each (stopPolling D ch) (List.finRange 4)
  | none => pure ()

def closeDevice (device : Option UInt32) : Program Session String Unit :=
  match device with
  | some d => release D (.close d) Except.toBool
  | none => pure ()

def close : Program Session String Bool := do
  let ch ← read (·.channels 2)
  stopAll D ch
  each (closeBus D) [2, 0]
  let device ← read (·.device)
  setDevice none
  closeDevice D device
  read (·.cleanupOk)

end Session

end OpenSaab.Mdi
