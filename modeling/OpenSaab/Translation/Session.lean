import OpenSaab.Text
import OpenSaab.Translation.IsoTp
import OpenSaab.Translation.Gm

/-!
# Host transactions

`lib.rs` and `profile.rs`: what an adapter reports, and what it is qualified for. `host.rs`: a session
takes the observations of an adapter until the reply to one request is complete.
-/

namespace OpenSaab.Translation

inductive Bus where
  | hsCan
  | swCan
  | other (n : UInt16)
  deriving DecidableEq, Repr

structure RawFrame where
  bus : Bus
  id : UInt32
  extended : Bool
  rtr : Bool
  dlc : UInt8
  data : List UInt8
  deriving DecidableEq, Repr

def RawFrame.validate (f : RawFrame) : Except String Unit :=
  if (if f.extended then 0x1fffffff else 0x7ff) < f.id ∨ 8 < f.dlc ∨
      f.data.length ≠ if f.rtr then 0 else f.dlc.toNat then
    .error "Invalid classical CAN frame"
  else .ok ()

theorem RawFrame.validate_iff (f : RawFrame) :
    f.validate = .ok () ↔ f.id ≤ (if f.extended then 0x1fffffff else 0x7ff) ∧ f.dlc ≤ 8 ∧
      f.data.length = if f.rtr then 0 else f.dlc.toNat := by
  unfold RawFrame.validate
  rw [ite_eq_right_iff]
  simp only [reduceCtorEq, imp_false, not_or, UInt32.not_lt, UInt8.not_lt, ne_eq, Decidable.not_not]

/-- `RawFrame::standard`. -/
def RawFrame.standard (bus : Bus) (id : UInt32) (data : List UInt8) : Except String RawFrame :=
  if 8 < data.length then .error "Classical CAN exceeds eight bytes"
  else
    let frame : RawFrame :=
      { bus, id, extended := false, rtr := false, dlc := UInt8.ofNat data.length, data }
    match frame.validate with
    | .error e => .error e
    | .ok () => .ok frame

inductive Packet where
  | raw (frame : RawFrame)
  | isoTpPayload (bus : Bus) (id : UInt32) (extended : Bool) (data : List UInt8)
  deriving DecidableEq, Repr

structure Observation where
  sessionId : UInt64
  atUs : UInt64
  packet : Packet
  deriving DecidableEq, Repr

/-! ## Profiles -/

inductive FlowControlOwner where
  | guest
  | host
  | adapter
  | none
  deriving DecidableEq, Repr

inductive Mode where
  | guestRaw
  | hostIsoTp
  | hostGmReport
  deriving DecidableEq, Repr

inductive Representation where
  | rawCan
  | isoTpPayload
  deriving DecidableEq, Repr

structure SessionProfile where
  bus : Bus
  mode : Mode
  representation : Representation
  flowControl : FlowControlOwner
  deriving DecidableEq, Repr

structure Capabilities where
  buses : List Bus
  rawReceive : Bool
  rawTransmit : Bool
  assembledReceive : Bool
  adapterFlowControl : Bool
  deriving Repr

namespace Capabilities

def validateMode (c : Capabilities) (p : SessionProfile) : Except String Unit :=
  match p.mode with
  | .guestRaw =>
    if p.representation ≠ .rawCan ∨ p.flowControl ≠ .guest ∨ ¬ c.rawTransmit then
      .error "Guest requires raw RX/TX and guest-owned CAN flow control"
    else .ok ()
  | .hostGmReport =>
    if p.representation ≠ .rawCan ∨ p.flowControl ≠ .none ∨ ¬ c.rawTransmit then
      .error "GM A9/81 report requires raw frames with CAN auto-flow-control disabled"
    else .ok ()
  | .hostIsoTp =>
    if p.flowControl = .host ∧ p.representation = .rawCan ∧ c.rawTransmit ∨
        p.flowControl = .adapter ∧ c.adapterFlowControl then .ok ()
    else .error "ISO-TP requires one qualified host or adapter flow-control owner"

def validate (c : Capabilities) (p : SessionProfile) : Except String Unit :=
  if p.bus ∉ c.buses then .error "Bus is not qualified for this adapter profile"
  else if p.representation = .rawCan ∧ ¬ c.rawReceive then .error "Raw reception unavailable"
  else if p.representation = .isoTpPayload ∧ ¬ c.assembledReceive then
    .error "Assembled reception unavailable"
  else c.validateMode p

end Capabilities

end OpenSaab.Translation

/-!
## Host transactions

`host.rs`: a session takes the observations of an adapter until the reply to one request is
complete.
-/

namespace OpenSaab.Translation

open Runs Text IsoTp

inductive Protocol where
  | isoTp (service : UInt8) (positivePrefix : List UInt8)
  | gmA9Report (reportId : UInt32)
  deriving DecidableEq, Repr

structure Limits where
  payloadBytes : Nat := 512
  reportRecords : Nat := 128
  idleUs : UInt64 := 1000000
  totalUs : UInt64 := 10000000
  deriving DecidableEq, Repr

structure FlowControl where
  blockSize : UInt8
  stMin : UInt8
  deriving DecidableEq, Repr

def FlowControl.validate (f : FlowControl) : Except String Unit :=
  if 0x7f < f.stMin ∧ ¬ (0xf1 ≤ f.stMin ∧ f.stMin ≤ 0xf9) then
    .error "Reserved ISO-TP separation time"
  else .ok ()

structure Config where
  sessionId : UInt64
  profile : SessionProfile
  requestId : UInt32
  replyId : UInt32
  extended : Bool
  protocol : Protocol
  limits : Limits
  hostFlowControl : FlowControl
  deriving DecidableEq, Repr

inductive ResultData where
  | payload (data : List UInt8)
  | gmReport (records : List Dtc)
  deriving DecidableEq, Repr

inductive Action where
  | ignored
  | pending
  | progress
  | sendFlowControl (frame : RawFrame)
  | complete (result : ResultData)
  deriving DecidableEq, Repr

inductive SessionState where
  | active
  | complete
  | failed
  | cancelled
  deriving DecidableEq, Repr

structure Session where
  config : Config
  iso : Receiver
  gm : Option Report
  startUs : UInt64
  lastUs : UInt64
  progressUs : UInt64
  blockCount : UInt8
  state : SessionState
  deriving DecidableEq, Repr

/-- A new session for a configuration. -/
def Config.session (config : Config) (iso : Receiver) (gm : Option Report) (start : UInt64) :
    Session :=
  { config, iso, gm, startUs := start, lastUs := start, progressUs := start, blockCount := 0
    state := .active }

namespace Session

/-- The report that a session starts with; ISO-TP has none. -/
def newReport (config : Config) (maxId : UInt32) : Except String (Option Report) :=
  match config.protocol with
  | .gmA9Report reportId =>
    if config.profile.mode ≠ .hostGmReport ∨ maxId < reportId ∨ reportId = config.replyId then
      .error "Invalid GM transaction profile/addresses"
    else (Report.new config.limits.reportRecords).map some
  | .isoTp _ positivePrefix =>
    if config.profile.mode ≠ .hostIsoTp ∨ positivePrefix = [] ∨
        config.limits.payloadBytes < positivePrefix.length then
      .error "Invalid ISO-TP transaction profile/expected reply"
    else .ok none

def new (config : Config) (capabilities : Capabilities) (startUs : UInt64) :
    Except String Session := do
  capabilities.validate config.profile
  if config.profile.mode = .guestRaw then
    throw "Guest traffic must bypass host assembly"
  if config.limits.idleUs = 0 ∨ config.limits.totalUs = 0 ∨
      config.limits.totalUs < config.limits.idleUs then
    throw "Invalid host transaction deadlines"
  config.hostFlowControl.validate
  let maxId := if config.extended then 0x1fffffff else 0x7ff
  if maxId < config.requestId ∨ maxId < config.replyId then
    throw "Invalid transaction CAN address"
  let gm ← newReport config maxId
  let iso ← Receiver.new config.limits.payloadBytes
  return config.session iso gm startUs

def cancel (s : Session) : Session :=
  if s.state = .active then { s with state := .cancelled, gm := none } else s

def tick (s : Session) (now : UInt64) : Except String Unit × Session :=
  if s.state ≠ .active then (.error "Host transaction is terminal", s)
  else if now < s.lastUs then
    (.error "Session clock moved backwards", { s with state := .failed })
  else
    let s := { s with lastUs := now }
    if s.config.limits.totalUs ≤ now - s.startUs ∨ s.config.limits.idleUs ≤ now - s.progressUs then
      (.error "Incomplete transaction: bounded deadline expired",
        { s with state := .failed, gm := none })
    else (.ok (), s)

def selected (s : Session) (bus : Bus) (id : UInt32) (extended : Bool) : Bool :=
  bus == s.config.profile.bus && extended == s.config.extended &&
    (id == s.config.replyId || s.config.protocol == .gmA9Report id)

def flowControl (s : Session) : Action :=
  .sendFlowControl
    { bus := s.config.profile.bus, id := s.config.requestId, extended := s.config.extended
      rtr := false, dlc := 8
      data := [0x30, s.config.hostFlowControl.blockSize, s.config.hostFlowControl.stMin,
        0, 0, 0, 0, 0] }

/-- A frame of a report. -/
def consumeGm (s : Session) (reportId : UInt32) (frame : RawFrame) :
    Except String Action × Session :=
  if frame.id = reportId ∧ frame.data.head? ≠ some 0x81 ∨
      frame.id = s.config.replyId ∧ ¬ Report.refusal.isPrefixOf frame.data then
    (.error "Unexpected GM report/control frame", s)
  else
    match s.gm with
    -- the source unwraps here: an active session has its report
    | none => (.error "called `Option::unwrap()` on a `None` value", s)
    | some report =>
      match report.receiveForIds frame.id frame.data s.config.replyId reportId with
      | (.error e, report) => (.error e, { s with gm := some report })
      | (.ok (), report) =>
        if report.isComplete then
          (report.finish.map fun records => .complete (.gmReport records), { s with gm := none })
        else if frame.id = s.config.replyId then (.ok .pending, { s with gm := some report })
        else (.ok .progress, { s with gm := some report })

/-- A payload that is complete has to answer the request. -/
def finish (positivePrefix data : List UInt8) : Except String Action :=
  if positivePrefix.isPrefixOf data then .ok (.complete (.payload data))
  else .error "Completed payload does not match active request"

/-- What the host does with a frame that its receiver has taken. -/
def received (s : Session) (positivePrefix : List UInt8) : Step → Except String Action × Session
  | .firstFrame =>
    let s := { s with blockCount := 0 }
    if s.config.profile.flowControl = .host then (.ok s.flowControl, s) else (.ok .progress, s)
  | .consecutiveFrame =>
    if s.config.profile.flowControl = .host ∧ s.config.hostFlowControl.blockSize ≠ 0 then
      let s := { s with blockCount := s.blockCount + 1 }
      if s.blockCount = s.config.hostFlowControl.blockSize then
        let s := { s with blockCount := 0 }
        (.ok s.flowControl, s)
      else (.ok .progress, s)
    else (.ok .progress, s)
  | .complete data => (finish positivePrefix data, s)

/-- A frame of an ISO-TP reply. -/
def consumeIsoTp (s : Session) (service : UInt8) (positivePrefix : List UInt8) (frame : RawFrame) :
    Except String Action × Session :=
  if [3, 0x7f].isPrefixOf frame.data then
    if frame.data.length < 4 ∨ frame.data.getD 2 0 ≠ service then
      (.error "Negative reply does not match active service", s)
    else if frame.data.getD 3 0 = 0x78 ∧ ¬ s.iso.started then (.ok .pending, s)
    else (.error ("ECU rejected active service: NRC " ++ hexUpper (frame.data.getD 3 0)), s)
  else
    match s.iso.push frame.data with
    | (.error e, iso) => (.error e, { s with iso })
    | (.ok step, iso) => received { s with iso } positivePrefix step

def consumeRaw (s : Session) (frame : RawFrame) : Except String Action × Session :=
  match frame.validate with
  | .error e => (.error e, s)
  | .ok () =>
    if ¬ s.selected frame.bus frame.id frame.extended then (.ok .ignored, s)
    else if frame.rtr then (.error "RTR cannot carry a diagnostic reply", s)
    else if s.config.profile.representation ≠ .rawCan then
      (.error "Unexpected raw representation", s)
    else
      match s.config.protocol with
      | .gmA9Report reportId => s.consumeGm reportId frame
      | .isoTp service positivePrefix => s.consumeIsoTp service positivePrefix frame

def consumePayload (s : Session) (bus : Bus) (id : UInt32) (extended : Bool) (data : List UInt8) :
    Except String Action :=
  if ¬ s.selected bus id extended then .ok .ignored
  else
    match s.config.profile.representation, s.config.protocol with
    | .isoTpPayload, .isoTp service positivePrefix =>
      if data = [] ∨ s.config.limits.payloadBytes < data.length then
        .error "Invalid assembled payload length"
      else if data.head? = some 0x7f then
        if data.length ≠ 3 ∨ data.getD 1 0 ≠ service then
          .error "Invalid negative payload for active service"
        else if data.getD 2 0 = 0x78 then .ok .pending
        else .error ("ECU rejected active service: NRC " ++ hexUpper (data.getD 2 0))
      else finish positivePrefix data
    | _, _ => .error "Assembled payload cannot supply raw CAN/GM report evidence"

def consume (s : Session) : Packet → Except String Action × Session
  | .raw frame => s.consumeRaw frame
  | .isoTpPayload bus id extended data => (s.consumePayload bus id extended data, s)

/-- The session after a packet was consumed at a time. -/
def record (atUs : UInt64) : Except String Action × Session → Except String Action × Session
  | (.ok .ignored, s) => (.ok .ignored, s)
  | (.ok (.complete result), s) =>
    (.ok (.complete result), { s with progressUs := atUs, state := .complete })
  | (.ok action, s) => (.ok action, { s with progressUs := atUs })
  | (.error e, s) => (.error e, { s with state := .failed, gm := none })

def feed (s : Session) (o : Observation) : Except String Action × Session :=
  match s.tick o.atUs with
  | (.error e, s) => (.error e, s)
  | (.ok (), s) =>
    if o.sessionId ≠ s.config.sessionId then (.ok .ignored, s)
    else record o.atUs (s.consume o.packet)

end Session

/-! ## Runs -/

inductive Event where
  | observe (o : Observation)
  | tick (now : UInt64)
  | cancel
  deriving DecidableEq, Repr

namespace Session

def step (s : Session) : Event → Session
  | .observe o => (s.feed o).2
  | .tick now => (s.tick now).2
  | .cancel => s.cancel

end Session

/-! ## The transactions of the contract tests -/

/-- An adapter that can do all that is asked for. -/
def allCapabilities : Capabilities where
  buses := [.hsCan, .swCan]
  rawReceive := true
  rawTransmit := true
  assembledReceive := true
  adapterFlowControl := true

/-- A request of service `1a`, reassembled by the host. -/
def isoTpConfig : Config where
  sessionId := 1
  profile := ⟨.hsCan, .hostIsoTp, .rawCan, .host⟩
  requestId := 0x7e0
  replyId := 0x7e8
  extended := false
  protocol := .isoTp 0x1a [0x5a]
  limits := {}
  hostFlowControl := ⟨0, 0x10⟩

/-- A request for the report `542`. -/
def gmConfig : Config where
  sessionId := 1
  profile := ⟨.swCan, .hostGmReport, .rawCan, .none⟩
  requestId := 0x242
  replyId := 0x642
  extended := false
  protocol := .gmA9Report 0x542
  limits := {}
  hostFlowControl := ⟨0, 0x10⟩

def isoTpSession : Session := isoTpConfig.session ⟨512, none, [], 1, false, false⟩ none 0

def gmSession : Session :=
  gmConfig.session ⟨512, none, [], 1, false, false⟩ (some ⟨[], false, false, 128⟩) 0

end OpenSaab.Translation
