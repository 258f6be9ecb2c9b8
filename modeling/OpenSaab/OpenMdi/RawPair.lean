import OpenSaab.Library.Table
import OpenSaab.OpenMdi.Session

/-!
# Two raw links of one session

`client.rs`: the high-speed and the single-wire link share one session and one supply of tokens. A
frame that has been sent is pending until the device indicates it.
-/

namespace OpenSaab.OpenMdi

open Json Program Std

/-- The place of one link while the session works on the other. -/
structure LinkState where
  link : UInt32
  receiver : UInt32
  created : Bool
  connected : Bool
  receiving : Bool
  sw : Bool
  deriving DecidableEq, Repr

def LinkState.capture (s : Session) (sw : Bool) : LinkState :=
  ⟨s.link, s.receiver, s.created, s.connected, s.receiving, sw⟩

def LinkState.select (c : LinkState) (s : Session) : Session :=
  { s with link := c.link, receiver := c.receiver, created := c.created, connected := c.connected,
           receiving := c.receiving }

structure Pending where
  channel : Nat
  id : UInt32
  data : List UInt8
  deadline : Nat
  deriving DecidableEq, Repr

structure RawPair where
  inner : Session
  channels : List LinkState
  nextToken : UInt32
  pending : TreeMap UInt32 Pending
  count : Nat
  closed : Bool
  cleanup : Value

inductive RawEvent where
  | received (id : UInt32) (data : List UInt8) (deviceTimestamp : UInt32)
  | observedMdiData (id : UInt32) (data : List UInt8) (deviceTimestamp : UInt32)
      (originalRxFlags : String)
  | transmitted (token id : UInt32) (data : List UInt8)
  | metadata (item : Value)

/-! ## Events of the device -/

def hexValue (c : Char) : Option Nat :=
  if '0' ≤ c ∧ c ≤ '9' then some (c.toNat - 48)
  else if 'a' ≤ c ∧ c ≤ 'f' then some (c.toNat - 87)
  else if 'A' ≤ c ∧ c ≤ 'F' then some (c.toNat - 55)
  else none

/-- `u8::from_str_radix(_, 16)` of two characters. -/
def byteOfHex (high low : Char) : Option UInt8 := do
  let low ← hexValue low
  if high = '+' then some (UInt8.ofNat low)
  else
    let high ← hexValue high
    some (UInt8.ofNat (16 * high + low))

/-- The bytes of a text of hex digits, two for a byte. -/
def unhex : List Char → Except String (List UInt8)
  | high :: low :: rest =>
    match byteOfHex high low with
    | none => .error "Raw result hex"
    | some b => (unhex rest).map (b :: ·)
  | _ => .ok []

/-- A number that has to be there and to fit. -/
def wordOf (v : Value) (absent boundary : String) : Except String UInt32 :=
  match v.asU64 with
  | none => .error absent
  | some n => if n.toNat < 2 ^ 32 then .ok n.toUInt32 else .error boundary

/-- A frame that has been received, or that has been sent. -/
def frameEvent (item : Value) (receiver : UInt32) (flags : String) (observedData : Bool) (id : UInt32)
    (data : List UInt8) : Except String RawEvent :=
  if flags = "00000000" ∨ observedData then
    if !(item.get "token").isU32 receiver then .error "Raw result receiver mismatch"
    else do
      let deviceTimestamp ←
        wordOf (item.get "device_timestamp") "Raw timestamp absent" "Raw timestamp boundary"
      if observedData then .ok (.observedMdiData id data deviceTimestamp flags)
      else .ok (.received id data deviceTimestamp)
  else if flags = "00010001" ∧ (id ≠ 0x100 ∨ ¬ data.isEmpty) then
    .error "Unselected HV raw indication"
  else do
    let token ← wordOf (item.get "token") "Raw TX token absent" "Raw TX token boundary"
    .ok (.transmitted token id data)

def rawEventObservedMdi (item : Value) (link receiver : UInt32) (observedMdi : Bool) :
    Except String (Option RawEvent) :=
  let result := item.get "data"
  if !(item.get "link").isU32 link || !(result.get "kind").isStr "result" then .ok none
  else
    match (result.get "rx_flags_hex").asStr with
    | none => .error "Raw RX flags absent"
    | some flags =>
      let observedData := observedMdi && flags == "80000000" &&
        (result.get "data_hex").asStr.any fun text => text.utf8ByteSize == 24
      if !observedData && !(flags ∈ ["00000000", "00000001", "00010001"]) then
        .ok (some (.metadata item))
      else
        match (result.get "data_hex").asStr with
        | none => .error "Raw data absent"
        | some text =>
          if text.utf8ByteSize < 8 ∨ 24 < text.utf8ByteSize ∨ text.utf8ByteSize % 2 ≠ 0 then
            .error "Raw result frame length boundary"
          else do
            let bytes ← unhex text.toList
            let id := UInt32.ofNat (Words.ofBig (bytes.take 4))
            if 0x7ff < id then .error "Unselected extended/invalid raw CAN ID"
            else
              let event ← frameEvent item receiver flags observedData id (bytes.drop 4)
              .ok (some event)

namespace RawPair

abbrev PairAction (α : Type) := Program RawPair String α

/-- A call of the session. -/
def inside {α : Type} (p : Action α) : PairAction α :=
  within RawPair.inner (fun pair inner => { pair with inner }) p

/-! ## Sending -/

/-- The parameters for the frame, set first. -/
def stage (link : UInt32) (wake : Bool) : PairAction Unit := do
  if wake then
    inside (Session.perform (setUnum32 link 166 3 1) 0x45a)
    inside (Session.perform (setUnum32 link 150 4 60) 0x45a)
  else inside (Session.perform (setUnum32 link 166 3 0) 0x45a)

def transmit (channel : Nat) (id : UInt32) (data : List UInt8) (wake : Bool) : PairAction UInt32 := do
  let refused ← read fun p =>
    p.closed || decide (16 ≤ p.pending.size) || decide (p.channels.length ≤ channel) ||
      wake && channel != 1
  if refused then fail "Raw pair ownership/channel/TX boundary"
  else
    change fun p => { p with inner := (p.channels[channel]?.map (·.select p.inner)).getD p.inner }
    let token ← read RawPair.nextToken
    let link ← read fun p => p.inner.link
    let request ← lift (rawFrame link token id data wake)
    if token = 0xffffffff then fail "Raw pair token exhausted"
    else
      change fun p => { p with nextToken := token + 1 }
      stage link wake
      change fun p =>
        { p with pending := p.pending.insert token ⟨channel, id, data, p.inner.clock + ioLimit⟩,
                 inner := { p.inner with requests := p.inner.requests + 1 } }
      inside (Session.perform request 0x464)
      pure token

/-! ## Polling -/

/-- An indication has to be that of a pending frame. -/
def complete (channel : Nat) (token id : UInt32) (data : List UInt8) : PairAction Unit := do
  match ← read fun p => p.pending[token]? with
  | none => fail "Unmatched raw pair TX indication"
  | some wanted =>
    if channel ≠ wanted.channel ∨ id ≠ wanted.id ∨ data ≠ wanted.data then
      fail "Mismatched raw pair TX indication"
    else change fun p => { p with pending := p.pending.erase token }

def report (channel : Nat) (event : RawEvent) : PairAction (List (Nat × RawEvent)) := do
  match event with
  | .transmitted token id data => complete channel token id data
  | _ => pure ()
  pure [(channel, event)]

def pollItem (item : Value) : PairAction (List (Nat × RawEvent)) := do
  change fun p => { p with count := p.count + 1 }
  let count ← read RawPair.count
  if 1000000 < count then fail "Raw pair event boundary"
  else
    match ← read fun p => p.channels.zipIdx.find? fun c => (item.get "link").isU32 c.1.link with
    | none => pure []
    | some (c, channel) =>
      match ← lift (rawEventObservedMdi item c.link c.receiver true) with
      | none => pure []
      | some event => report channel event

def pollItems : List Value → PairAction (List (Nat × RawEvent))
  | [] => pure []
  | item :: items => do
    let events ← pollItem item
    let more ← pollItems items
    pure (events ++ more)

def pollRounds (deadline : Nat) : Nat → PairAction (List (Nat × RawEvent))
  | 0 => pure []
  | n + 1 => do
    let items ← inside (Session.notifications deadline)
    lift (Session.rejectAsyncError items)
    if items.isEmpty then pure []
    else
      let events ← pollItems items
      let late ← read fun p => decide (deadline ≤ p.inner.clock)
      if late then pure events
      else
        let more ← pollRounds deadline n
        pure (events ++ more)

def poll : PairAction (List (Nat × RawEvent)) := do
  let refused ← read fun p => p.closed || decide (p.inner.deadline ≤ p.inner.clock)
  if refused then fail "Raw pair closed/deadline"
  else
    inside Session.heartbeat
    let deadline ← read fun p => p.inner.clock + 2
    let result ← pollRounds deadline 128
    let overdue ← read fun p => (Table.values p.pending).any fun w => decide (w.deadline ≤ p.inner.clock)
    if overdue then fail "Raw pair TX indication deadline; outcome uncertain, no replay"
    else pure result

/-- The journals of the session are handed out. -/
def takeActivity (p : RawPair) : RawPair := { p with inner := { p.inner with events := 0 } }

/-! ## Closing -/

/-- Whether everything that a link had acquired is gone. -/
def isClean (c : LinkState) (cleanup : Value) : Bool :=
  [(c.receiving, "receiver_cancel_rpc"), (c.receiving, "receiver_cancel_terminal"),
    (c.connected, "link_disconnect"), (c.created, "link_destroy")].all fun e =>
      !e.1 || (cleanup.get e.2).isTrue

/-- One link after the other, with a report on each. -/
def closeLinks : List LinkState → Session → List Value × Session
  | [], s => ([], s)
  | c :: cs, s =>
    let s := { c.select s with cleanup := .object [] }
    let s := s.closeLink
    let link := .object [("bus", .string (if c.sw then "SW" else "HS")), ("cleanup", s.cleanup),
      ("cleanup_ok", .bool (isClean c s.cleanup))]
    let (links, s) := closeLinks cs s
    (link :: links, s)

def close (p : RawPair) : Value × RawPair :=
  if p.closed then (p.cleanup, p)
  else
    let (links, inner) := closeLinks p.channels.reverse p.inner
    let inner := { inner with cleanup := .object [] }.close
    let ownerOk := (inner.session == 0 || (inner.cleanup.get "session_release").isTrue) &&
      (inner.cleanup.get "sockets_shutdown").isTrue
    let cleanup := .object
      [("cleanup_ok", .bool (ownerOk && links.all fun c => (c.get "cleanup_ok").isTrue)),
        ("links", .array links), ("owner", inner.cleanup), ("pending_transmissions", .nat p.pending.size),
        ("vehicle_transmissions", number inner.requests)]
    (cleanup, { p with closed := true, inner, cleanup })

/-! ## Opening -/

def fresh (start : Nat) : RawPair :=
  { inner := newSession start, channels := [], nextToken := 0, pending := ∅, count := 0,
    closed := false, cleanup := .null }

/-- The state of the link is kept even if it could not be configured. -/
def acquireChannel (sw : Bool) (tags : Tags) : PairAction Tags := fun p =>
  let (result, inner) := Session.configureLink sw true tags p.inner
  (result, { p with inner, channels := p.channels ++ [LinkState.capture inner sw] })

/-- The rest of the tokens is for frames. -/
def handOver (tags : Tags) : PairAction Unit :=
  change fun p =>
    { p with nextToken := tags.primitive.1,
             inner := { p.inner with deadline := p.inner.clock + 900000 } }

/-- The high-speed link first, then the single-wire link. -/
def acquireChannels : PairAction Unit := do
  let session ← read fun p => p.inner.session
  let tags ← acquireChannel false (Tags.forSession session)
  let tags ← acquireChannel true tags
  handOver tags

def acquire (peer : Peer) : PairAction Unit := do
  inside (Session.registerConnections peer)
  acquireChannels

structure RawOpenFailure where
  error : String
  cleanup : Value

/-- What could not be opened is closed again. -/
def «open» (start : Nat) (peer : Peer) : Except RawOpenFailure Unit × RawPair :=
  match acquire peer (fresh start) with
  | (.ok (), p) => (.ok (), p)
  | (.error error, p) =>
    let (cleanup, p) := p.close
    (.error ⟨error, cleanup⟩, p)

/-! ## Calls -/

/-- What the owner does with an open pair. -/
inductive Call where
  | transmit (channel : Nat) (id : UInt32) (data : List UInt8) (wake : Bool)
  | poll
  | takeActivity
  | close

def step (p : RawPair) : Call → RawPair
  | .transmit channel id data wake => (p.transmit channel id data wake).2
  | .poll => (poll p).2
  | .takeActivity => p.takeActivity
  | .close => p.close.2

end RawPair

end OpenSaab.OpenMdi
