import OpenSaab.Can.Frame
import OpenSaab.Json
import OpenSaab.Library.Runs
import Mathlib.Algebra.Ring.Nat

/-!
# The wake serial barrier

`candi_wake_ordering.rs`. Once the guest has sent the wake frame, later serial frames are held until
the wake has been transmitted, completed and answered by the restored GPIO.
-/

namespace OpenSaab.Wake

open Can Json Text

/-- SHA-256, in lower case hex digits. -/
class Sha256 where
  hex : List UInt8 → String

def hz : UInt64 := 16777216
def totalCycles : UInt64 := 10 * hz
def restoreCycles : UInt64 := 1677722
def maxBytes : Nat := 4096
def maxFrames : Nat := 512
def maxDelimiterBytes : Nat := 32
def maxEvents : Nat := 2048
def wake : List UInt8 := [0x88, 0x0e, 0x6a]
def hashEncoding : String := "u64be_payload_length+payload+u64be_delimiter_length+delimiter_utf8"

example : restoreCycles.toNat = (hz.toNat + 9) / 10 := by decide

structure SerialFrame where
  bytes : List UInt8
  delimiter : String
  deriving DecidableEq, Repr

inductive Admission where
  | send (frame : SerialFrame)
  | held
  deriving DecidableEq, Repr

inductive Phase where
  | idle
  | awaitIntent
  | awaitCompletion (ticket : UInt64)
  | awaitRestore (ticket completedAt deadline : UInt64)
  | releasing
  | failed (reason : String)
  deriving DecidableEq, Repr

structure Queued where
  sequence : UInt64
  arrivedAt : UInt64
  frame : SerialFrame
  deriving DecidableEq, Repr

/-- A hash is the bytes that went into it. -/
structure Barrier where
  phase : Phase
  wakeSource : CompletionSource
  ordinarySource : CompletionSource
  releaseClock : Option (UInt64 × UInt64)
  deadline : Option UInt64
  lastCycles : UInt64
  queue : List Queued
  queuedBytes : Nat
  nextSequence : UInt64
  queuedCount : UInt64
  releasedCount : UInt64
  queuedHash : List UInt8
  releasedHash : List UInt8
  ordinaryPending : Option UInt64
  events : List Value
  deriving Repr

/-- `u64::checked_add`. -/
def checkedAdd (a b : UInt64) : Option UInt64 :=
  if a.toNat + b.toNat < 2 ^ 64 then some (a + b) else none

/-- `u64::to_be_bytes`. -/
def beBytes (n : Nat) : List UInt8 :=
  (List.range 8).map fun i => UInt8.ofNat (n / 256 ^ (7 - i))

def hashFrame (hash : List UInt8) (frame : SerialFrame) : List UInt8 :=
  hash ++ beBytes frame.bytes.length ++ frame.bytes ++ beBytes frame.delimiter.utf8ByteSize ++
    frame.delimiter.toUTF8.toList

section

variable [Sha256]

def frameAudit (frame : SerialFrame) : Value :=
  .object [("bytes_hex", .string (hexBytes frame.bytes)),
    ("payload_bytes", .nat frame.bytes.length), ("end", .string frame.delimiter),
    ("modeled_delimiter_bytes", .nat 1), ("sha256", .string (Sha256.hex (hashFrame [] frame))),
    ("hash_encoding", .string hashEncoding)]

end

/-- The result of an operation, and the barrier that it leaves. -/
abbrev Result (α : Type) := Except String α × Barrier

/-- Rust's `?`. -/
def Result.andThen {α γ : Type} (r : Result α) (f : α → Barrier → Result γ) : Result γ :=
  match r with
  | (.error e, b) => (.error e, b)
  | (.ok a, b) => f a b

theorem Result.andThen_assoc {α γ δ : Type} (r : Result α) (f : α → Barrier → Result γ)
    (h : γ → Barrier → Result δ) :
    (r.andThen f).andThen h = r.andThen fun a b => (f a b).andThen h := by
  obtain ⟨r, b⟩ := r
  cases r <;> rfl

/-- `with_completion_sources`; `new` is the case of the two MIC sources. -/
def Barrier.withCompletionSources (wake ordinary : CompletionSource) : Barrier where
  phase := .idle
  wakeSource := wake
  ordinarySource := ordinary
  releaseClock := none
  deadline := none
  lastCycles := 0
  queue := []
  queuedBytes := 0
  nextSequence := 1
  queuedCount := 0
  releasedCount := 0
  queuedHash := []
  releasedHash := []
  ordinaryPending := none
  events := []

namespace Barrier

def new : Barrier :=
  withCompletionSources .micTranslatedWakeWriteCompatibility .micByteTransportWriteCompatibility

def active (b : Barrier) : Bool := b.phase != .idle

def waitingForWake (b : Barrier) : Bool :=
  match b.phase with
  | .awaitIntent | .awaitCompletion _ | .awaitRestore .. => true
  | _ => false

def nextReleasableBytes (b : Barrier) : Option (List UInt8) :=
  match b.phase with
  | .releasing => b.queue.head?.map fun q => q.frame.bytes
  | _ => none

def takeEvents (b : Barrier) : List Value × Barrier := (b.events, { b with events := [] })

section

variable [Sha256]

/-! ## The audit -/

def failedEvent (b : Barrier) (reason : String) (now : UInt64) : Value :=
  .object [("wake_serial_barrier_failed", .object [("reason", .string reason),
    ("native_cycles", .u64 now), ("queued_frames", .nat b.queue.length),
    ("queued_modeled_bytes", .nat b.queuedBytes), ("release_permitted", .bool false),
    ("queued_frames_cumulative", .u64 b.queuedCount),
    ("released_frames_cumulative", .u64 b.releasedCount),
    ("queued_stream_sha256", .string (Sha256.hex b.queuedHash)),
    ("released_stream_sha256", .string (Sha256.hex b.releasedHash)),
    ("physical_can_ack_verified", .bool false)])]

def armedEvent (frame : SerialFrame) (now deadline : UInt64) : Value :=
  .object [("wake_serial_barrier_armed", .object [("frame", frameAudit frame),
    ("native_cycles", .u64 now), ("total_deadline_cycles", .u64 deadline),
    ("restore_budget_cycles", .u64 restoreCycles), ("maximum_queued_modeled_bytes", .nat maxBytes),
    ("maximum_queued_frames", .nat maxFrames), ("physical_can_ack_verified", .bool false),
    ("guest_bytes_modified", .bool false)])]

def queuedEvent (sequence : UInt64) (frame : SerialFrame) (queuedHash : List UInt8) (now : UInt64) :
    Value :=
  .object [("wake_serial_barrier_queued", .object [("sequence", .u64 sequence),
    ("frame", frameAudit frame), ("native_cycles", .u64 now),
    ("queued_stream_sha256", .string (Sha256.hex queuedHash)),
    ("hash_encoding", .string hashEncoding), ("physical_can_ack_verified", .bool false),
    ("guest_bytes_modified", .bool false)])]

omit [Sha256] in
/-- What the audit says of an intent; the two kinds differ in their name and in one more field. -/
def intentEvent (name : String) (controller : Nat) (tx : Transmission) (now : UInt64)
    (more : List (String × Value)) : Value :=
  .object [(name, .object ([("controller", .nat controller), ("ticket", .u64 tx.ticket),
    ("native_cycles", .u64 now), ("original_id", .nat tx.frame.id.toNat),
    ("original_dlc", .nat tx.frame.dlc.toNat), ("original_gpio", .string tx.electrical.text),
    ("electrical_route_guard_passed", .bool true),
    ("physical_can_ack_verified", .bool false)] ++ more))]

omit [Sha256] in
def completionEvent (name : String) (controller : Nat) (ticket : UInt64) (source : CompletionSource)
    (applied : Bool) (now : UInt64) (more : List (String × Value)) : Value :=
  .object [(name, .object ([("controller", .nat controller), ("ticket", .u64 ticket),
    ("source", .string source.label), ("emulated_completion_applied", .bool applied),
    ("native_cycles", .u64 now), ("physical_can_ack_verified", .bool false)] ++ more))]

omit [Sha256] in
def restoreEvent (b : Barrier) (ticket : UInt64) (state : ElectricalState) (now : UInt64) : Value :=
  .object [("wake_serial_barrier_native_gpio_restore_observed", .object [("controller", .nat 2),
    ("ticket", .u64 ticket), ("native_cycles", .u64 now), ("gpio", .string state.text),
    ("fresh_after_completion", .bool true), ("queued_frames", .nat b.queue.length),
    ("guest_gpio_modified", .bool false), ("physical_can_ack_verified", .bool false)])]

def rearmedEvent (b : Barrier) (front : Queued) (now : UInt64) : Value :=
  .object [("wake_serial_barrier_queued_wake_rearmed", .object [("sequence", .u64 front.sequence),
    ("frame", frameAudit front.frame), ("native_cycles", .u64 now),
    ("total_deadline_cycles", b.deadline.elim .null Value.u64),
    ("retained_later_frames", .nat (b.queue.length - 1)),
    ("physical_can_ack_verified", .bool false), ("guest_bytes_modified", .bool false)])]

def releasedEvent (front : Queued) (releasedHash : List UInt8) (now : UInt64) : Value :=
  .object [("wake_serial_barrier_released", .object [("sequence", .u64 front.sequence),
    ("frame", frameAudit front.frame), ("native_cycles", .u64 now),
    ("released_stream_sha256", .string (Sha256.hex releasedHash)),
    ("hash_encoding", .string hashEncoding), ("physical_can_ack_verified", .bool false),
    ("guest_bytes_modified", .bool false)])]

def drainedEvent (b : Barrier) (now : UInt64) : Value :=
  .object [("wake_serial_barrier_drained", .object [("native_cycles", .u64 now),
    ("queued_frames_cumulative", .u64 b.queuedCount),
    ("released_frames_cumulative", .u64 b.releasedCount),
    ("queued_stream_sha256", .string (Sha256.hex b.queuedHash)),
    ("released_stream_sha256", .string (Sha256.hex b.releasedHash)),
    ("hash_encoding", .string hashEncoding), ("physical_can_ack_verified", .bool false)])]

/-! ## Failing -/

/-- The first failure is final. -/
def fail (b : Barrier) (reason : String) (now : UInt64) : String × Barrier :=
  match b.phase with
  | .failed existing => (existing, b)
  | _ =>
    (reason,
      { b with phase := .failed reason, events := b.events ++ [b.failedEvent reason now] })

/-- `Err(self.fail(..))`. -/
def reject {α : Type} (b : Barrier) (reason : String) (now : UInt64) : Result α :=
  (.error (b.fail reason now).1, (b.fail reason now).2)

def event (b : Barrier) (e : Value) (now : UInt64) : Result Unit :=
  if maxEvents ≤ b.events.length then b.reject "Wake serial barrier audit queue full" now
  else (.ok (), { b with events := b.events ++ [e] })

def abort (b : Barrier) (reason : String) (now : UInt64) : String × Barrier := b.fail reason now

/-! ## The operations -/

def restoreExpired (b : Barrier) (now : UInt64) : Bool :=
  match b.phase with
  | .awaitRestore _ _ deadline => deadline ≤ now
  | _ => false

def tick (b : Barrier) (now : UInt64) : Result Unit :=
  match b.phase with
  | .failed reason => (.error reason, b)
  | .idle => (.ok (), b)
  | _ =>
    if now < b.lastCycles then b.reject "Wake serial barrier native clock regressed" now
    else
      let b := { b with lastCycles := now }
      if b.deadline.any (· ≤ now) then
        b.reject "Wake serial barrier total native deadline exceeded" now
      else if b.restoreExpired now then
        b.reject "Wake serial barrier native GPIO restore deadline exceeded" now
      else (.ok (), b)

/-- A frame that comes while the gate is idle: the wake frame arms it. -/
def arm (b : Barrier) (frame : SerialFrame) (now : UInt64) : Result Admission :=
  if frame.bytes ≠ wake then (.ok (.send frame), b)
  else
    match checkedAdd now totalCycles with
    | none => b.reject "Wake serial barrier native deadline overflow" now
    | some deadline =>
      let b := { b with phase := .awaitIntent, deadline := some deadline, lastCycles := now }
      (b.event (armedEvent frame now deadline) now).andThen fun _ b => (.ok (.send frame), b)

/-- A frame that comes while the gate is active is held. -/
def hold (b : Barrier) (frame : SerialFrame) (now : UInt64) : Result Admission :=
  let cost := frame.bytes.length + 1
  if 2 ^ 64 ≤ cost then b.reject "Wake serial barrier serial frame size overflow" now
  else if maxFrames ≤ b.queue.length ∨ maxBytes - b.queuedBytes < cost then
    b.reject "Wake serial barrier serial queue full" now
  else
    match checkedAdd b.nextSequence 1 with
    | none => b.reject "Wake serial barrier sequence exhausted" now
    | some nextSequence =>
      let sequence := b.nextSequence
      let queuedHash := hashFrame b.queuedHash frame
      (b.event (queuedEvent sequence frame queuedHash now) now).andThen fun _ b =>
        (.ok .held,
          { b with
            nextSequence
            queuedCount := b.queuedCount + 1
            queuedHash
            queuedBytes := b.queuedBytes + cost
            queue := b.queue ++ [{ sequence, arrivedAt := now, frame }] })

/-- `WakeSerialBarrier::admit`. -/
def admitFrame (b : Barrier) (frame : SerialFrame) (now : UInt64) : Result Admission :=
  (b.tick now).andThen fun _ b =>
    if maxDelimiterBytes < frame.delimiter.utf8ByteSize then
      b.reject "Wake serial barrier delimiter label exceeds bound" now
    else if b.active then b.hold frame now
    else b.arm frame now

/-- An intent while frames are released: an ordinary one, and one at a time. -/
def ordinaryIntent (b : Barrier) (controller : Nat) (tx : Transmission) (now : UInt64) :
    Result Unit :=
  match electricalRoute controller tx with
  | .error e =>
    b.reject ("Wake serial barrier ordinary electrical route rejected: " ++ e) now
  | .ok route =>
    if tx.ticket = 0 ∨ b.ordinaryPending.isSome ∨ route.channel ≠ 1 ∨ route.mode ≠ .data then
      b.reject "Wake serial barrier unexpected high-voltage or overlapping ordinary intent" now
    else
      (b.event (intentEvent "wake_serial_barrier_ordinary_intent_observed" controller tx now
          [("wake_phase_advanced", .bool false)]) now).andThen fun _ b =>
        (.ok (), { b with ordinaryPending := some tx.ticket })

/-- The intent that transmits the wake. -/
def exactWake (tx : Transmission) : Bool :=
  tx.ticket != 0 && tx.btr0 == 0xdd && tx.btr1 == 0x36 && tx.frame.id == 0x100 &&
    !tx.frame.extended && !tx.frame.rtr && tx.frame.dlc == 0 && tx.frame.data.isEmpty &&
      tx.electrical == .singleWireGpio 0x26 0 0x7f

def wakeIntent (b : Barrier) (controller : Nat) (tx : Transmission) (now : UInt64) : Result Unit :=
  if ¬ (b.phase = .awaitIntent ∧ exactWake tx) then
    b.reject "Wake serial barrier unexpected controller2 intent" now
  else
    match electricalRoute controller tx with
    | .error e => b.reject ("Wake serial barrier electrical route rejected: " ++ e) now
    | .ok route =>
      if route.channel ≠ 1 ∨ route.mode ≠ .singleWireWake then
        b.reject "Wake serial barrier electrical route mismatch" now
      else
        (b.event (intentEvent "wake_serial_barrier_intent_associated" controller tx now
            []) now).andThen fun _ b =>
          (.ok (), { b with phase := .awaitCompletion tx.ticket })

def associateIntent (b : Barrier) (controller : Nat) (tx : Transmission) (now : UInt64) :
    Result Unit :=
  (b.tick now).andThen fun _ b =>
    if ¬ b.active ∨ controller ≠ 2 then (.ok (), b)
    else if b.phase = .releasing then b.ordinaryIntent controller tx now
    else b.wakeIntent controller tx now

/-- The completion of the ordinary intent that is pending. -/
def ordinaryCompletion (b : Barrier) (ticket : UInt64) (source : CompletionSource) : Bool :=
  b.ordinaryPending == some ticket && source == b.ordinarySource

/-- The completion of the wake intent that is awaited. -/
def wakeCompletion (b : Barrier) (ticket : UInt64) (source : CompletionSource) : Bool :=
  b.phase == .awaitCompletion ticket && source == b.wakeSource

def mismatch : String :=
  "Wake serial barrier completion ticket/source mismatch before application"

def validateCompletion (b : Barrier) (controller : Nat) (ticket : UInt64)
    (source : CompletionSource) (now : UInt64) : Result Unit :=
  (b.tick now).andThen fun _ b =>
    if ¬ b.active ∨ controller ≠ 2 then (.ok (), b)
    else if ¬ b.ordinaryCompletion ticket source ∧ ¬ b.wakeCompletion ticket source then
      b.reject mismatch now
    else (.ok (), b)

/-- A completion that is valid reaches the controller. -/
def applyCompletion (b : Barrier) (controller : Nat) (ticket : UInt64) (source : CompletionSource)
    (applied : Bool) (now : UInt64) : Result Unit :=
  if ¬ applied then
    b.reject "Wake serial barrier completion was not applied by native controller" now
  else if b.ordinaryCompletion ticket source then
    (b.event (completionEvent "wake_serial_barrier_ordinary_completion_observed" controller ticket
        source applied now [("wake_phase_advanced", .bool false)]) now).andThen fun _ b =>
      (.ok (), { b with ordinaryPending := none })
  else
    match checkedAdd now restoreCycles with
    | none => b.reject "Wake serial barrier restore deadline overflow" now
    | some deadline =>
      (b.event (completionEvent "wake_serial_barrier_completion_observed" controller ticket source
          applied now [("restore_deadline_cycles", .u64 deadline)]) now).andThen fun _ b =>
        (.ok (), { b with phase := .awaitRestore ticket now deadline })

def completed (b : Barrier) (controller : Nat) (ticket : UInt64) (source : CompletionSource)
    (applied : Bool) (now : UInt64) : Result Unit :=
  (b.validateCompletion controller ticket source now).andThen fun _ b =>
    if ¬ b.active ∨ controller ≠ 2 then
      if b.ordinaryCompletion ticket source ∧ controller = 2 ∧ applied then
        (.ok (), { b with ordinaryPending := none })
      else (.ok (), b)
    else b.applyCompletion controller ticket source applied now

/-- The GPIO state after the firmware has restored the line. -/
def restored : ElectricalState := .singleWireGpio 0x27 0 0x7f

def observeGpio (b : Barrier) (state : ElectricalState) (now : UInt64) : Result Unit :=
  (b.tick now).andThen fun _ b =>
    match b.phase with
    | .awaitRestore ticket completedAt _ =>
      if now ≤ completedAt ∨ state ≠ restored then (.ok (), b)
      else
        (b.event (b.restoreEvent ticket state now) now).andThen fun _ b =>
          (.ok (), { b with phase := .releasing, releaseClock := none })
    | _ => (.ok (), b)

def close (b : Barrier) (now : UInt64) : Result Unit :=
  if b.queuedCount ≠ b.releasedCount ∨ Sha256.hex b.queuedHash ≠ Sha256.hex b.releasedHash then
    b.reject "Wake serial barrier queued/released stream mismatch" now
  else
    (b.event (b.drainedEvent now) now).andThen fun _ b =>
      (.ok (), { b with phase := .idle, deadline := none, releaseClock := none })

/-- A queued wake frame arms the gate again, with the deadline that it had. -/
def rearm (b : Barrier) (front : Queued) (now : UInt64) : Result Unit :=
  if front.frame.bytes = wake then
    (b.event (b.rearmedEvent front now) now).andThen fun _ b =>
      (.ok (), { b with phase := .awaitIntent })
  else (.ok (), b)

/-- How many events a release may put into the audit. -/
def requiredEvents (finalFrame queuedWake : Bool) : Nat := if finalFrame || queuedWake then 2 else 1

/-- The front frame leaves the queue. -/
def release (b : Barrier) (front : Queued) (rest : List Queued) (now : UInt64) :
    Result (Option SerialFrame) :=
  let releasedHash := hashFrame b.releasedHash front.frame
  let finalFrame := rest.isEmpty
  let queuedWake := decide (front.frame.bytes = wake)
  if maxEvents - requiredEvents finalFrame queuedWake < b.events.length then
    b.reject "Wake serial barrier audit queue full before release" now
  else if finalFrame ∧ (b.queuedCount ≠ b.releasedCount + 1 ∨
      Sha256.hex b.queuedHash ≠ Sha256.hex releasedHash) then
    b.reject "Wake serial barrier final queued/released stream mismatch" now
  else
    (b.rearm front now).andThen fun _ b =>
      (b.event (releasedEvent front releasedHash now) now).andThen fun _ b =>
        let b :=
          { b with
            queue := rest
            queuedBytes := b.queuedBytes - (front.frame.bytes.length + 1)
            releasedHash
            releasedCount := b.releasedCount + 1 }
        if rest.isEmpty ∧ ¬ queuedWake then
          (b.close now).andThen fun _ b => (.ok (some front.frame), b)
        else (.ok (some front.frame), b)

/-- The frames of a release keep the distances in time that they arrived with. -/
def popReleasable (b : Barrier) (now : UInt64) : Result (Option SerialFrame) :=
  (b.tick now).andThen fun _ b =>
    if b.phase ≠ .releasing then (.ok none, b)
    else
      match b.queue with
      | [] => (b.close now).andThen fun _ b => (.ok none, b)
      | front :: rest =>
        let clock := b.releaseClock.getD (now, front.arrivedAt)
        let b := { b with releaseClock := some clock }
        match checkedAdd clock.1
            (if clock.2 ≤ front.arrivedAt then front.arrivedAt - clock.2 else 0) with
        | none => (.error "Wake serial barrier release clock overflow", b)
        | some due => if now < due then (.ok none, b) else b.release front rest now

end

end Barrier

/-! ## Runs -/

inductive Op where
  | admitFrame (frame : SerialFrame) (now : UInt64)
  | associateIntent (controller : Nat) (tx : Transmission) (now : UInt64)
  | validateCompletion (controller : Nat) (ticket : UInt64) (source : CompletionSource)
      (now : UInt64)
  | completed (controller : Nat) (ticket : UInt64) (source : CompletionSource) (applied : Bool)
      (now : UInt64)
  | observeGpio (state : ElectricalState) (now : UInt64)
  | tick (now : UInt64)
  | popReleasable (now : UInt64)
  | abort (reason : String) (now : UInt64)
  | takeEvents
  deriving DecidableEq, Repr

/-- What an operation returns: a frame to deliver, an error, or nothing that matters. -/
inductive Reply where
  | done
  | admitted (a : Admission)
  | popped (frame : Option SerialFrame)
  | failed (reason : String)
  deriving DecidableEq, Repr

def Reply.of {α : Type} (ok : α → Reply) : Except String α → Reply
  | .error e => .failed e
  | .ok a => ok a

variable [Sha256]

def perform (b : Barrier) : Op → Reply × Barrier
  | .admitFrame frame now =>
    let r := b.admitFrame frame now
    (.of .admitted r.1, r.2)
  | .associateIntent controller tx now =>
    let r := b.associateIntent controller tx now
    (.of (fun _ => .done) r.1, r.2)
  | .validateCompletion controller ticket source now =>
    let r := b.validateCompletion controller ticket source now
    (.of (fun _ => .done) r.1, r.2)
  | .completed controller ticket source applied now =>
    let r := b.completed controller ticket source applied now
    (.of (fun _ => .done) r.1, r.2)
  | .observeGpio state now =>
    let r := b.observeGpio state now
    (.of (fun _ => .done) r.1, r.2)
  | .tick now =>
    let r := b.tick now
    (.of (fun _ => .done) r.1, r.2)
  | .popReleasable now =>
    let r := b.popReleasable now
    (.of .popped r.1, r.2)
  | .abort reason now => (.done, (b.abort reason now).2)
  | .takeEvents => (.done, b.takeEvents.2)

def reply (b : Barrier) (op : Op) : Reply := (perform b op).1

def step (b : Barrier) (op : Op) : Barrier := (perform b op).2

end OpenSaab.Wake
