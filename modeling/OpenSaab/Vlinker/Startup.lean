import Mathlib.Data.List.Basic
import Mathlib.Data.List.Perm.Basic
import OpenSaab.Json
import OpenSaab.Vlinker.Commands

/-!
# Connecting to a vehicle

`shared/vlinker-workflow/src/ownership.rs`: one owner at a time, which may hold several leases.
`connection_startup.rs`: the adapter is chosen, the vehicle is asked for its VIN, and the VIN is looked
up. The clock is in nanoseconds.
-/

namespace OpenSaab.Lease

/-- `OWNER`: who it is, and how many leases are out. -/
abbrev Owner := Option (String × Nat)

/-- `Lease::acquire`: the owner after it, if the lease is granted. -/
def acquire (current : Owner) (owner : String) : Option Owner :=
  if owner = "" ∨ 100 < owner.utf8ByteSize then none
  else
    match current with
    | none => some (some (owner, 1))
    | some (id, refs) => if id = owner then some (some (id, refs + 1)) else none

/-- `Drop` of a lease. -/
def drop (current : Owner) (owner : String) : Owner :=
  match current with
  | none => none
  | some (id, refs) =>
    if id = owner then if refs - 1 = 0 then none else some (id, refs - 1) else some (id, refs)

/-! ## The leases that are out -/

/-- The owner holds all the leases that are out. -/
def Counts (current : Owner) (held : List String) : Prop :=
  match current with
  | none => held = []
  | some (id, refs) => (∀ h ∈ held, h = id) ∧ held.length = refs ∧ refs ≠ 0

variable {current next : Owner} {owner : String} {held held' : List String}

theorem Counts.perm (h : Counts current held) (hp : held.Perm held') : Counts current held' := by
  unfold Counts at *
  cases current with
  | none =>
    subst h
    exact hp.nil_eq.symm
  | some r =>
    obtain ⟨hid, hlen, hpos⟩ := h
    exact ⟨fun x hx => hid x (hp.mem_iff.mpr hx), by rw [← hp.length_eq, hlen], hpos⟩

theorem acquire_counts (h : acquire current owner = some next) (hcounts : Counts current held) :
    Counts next (owner :: held) := by
  unfold acquire at h
  split_ifs at h with hname
  cases current with
  | none =>
    obtain rfl := Option.some.inj h
    obtain rfl : held = [] := hcounts
    exact ⟨by simp, rfl, Nat.one_ne_zero⟩
  | some r =>
    obtain ⟨id, refs⟩ := r
    dsimp only at h
    split_ifs at h with hid
    obtain rfl := Option.some.inj h
    obtain ⟨hall, hlen, -⟩ := hcounts
    refine ⟨?_, by rw [List.length_cons, hlen], Nat.succ_ne_zero refs⟩
    intro x hx
    rcases List.mem_cons.mp hx with rfl | hx
    · exact hid.symm
    · exact hall x hx

theorem drop_counts (hcounts : Counts current (owner :: held)) : Counts (drop current owner) held := by
  cases current with
  | none => exact absurd hcounts (List.cons_ne_nil owner held)
  | some r =>
    obtain ⟨id, refs⟩ := r
    obtain ⟨hall, hlen, hpos⟩ := hcounts
    have hid : id = owner := (hall owner List.mem_cons_self).symm
    rw [List.length_cons] at hlen
    unfold drop
    dsimp only
    rw [if_pos hid]
    split_ifs with hlast
    · exact List.length_eq_zero_iff.mp (by omega)
    · exact ⟨fun x hx => hall x (List.mem_cons_of_mem _ hx), by omega, hlast⟩

/-- All leases are the owner's. -/
theorem Counts.eq (h : Counts current held) {a b : String} (ha : a ∈ held) (hb : b ∈ held) :
    a = b := by
  cases current with
  | none =>
    obtain rfl : held = [] := h
    cases ha
  | some r => exact (h.1 a ha).trans (h.1 b hb).symm

theorem Counts.holder (h : Counts current held) {a : String} (ha : a ∈ held) :
    ∃ refs, current = some (a, refs) := by
  cases current with
  | none =>
    obtain rfl : held = [] := h
    cases ha
  | some r => exact ⟨r.2, by rw [h.1 a ha]⟩

example : drop (drop ((acquire none "a").bind (acquire · "a")).join "a") "a" = none := by decide

end OpenSaab.Lease

/-!
## Connecting to a vehicle

`shared/vlinker-workflow/src/connection_startup.rs`: the adapter is chosen, the vehicle is asked for its
VIN, and the VIN is looked up. The clock is in nanoseconds.
-/

namespace OpenSaab.Startup

open Json Text

def endpoint : String := "https://relevant-diann-djfremen2-c013cdc3.koyeb.app/api/lookup/"

def nano : String := "vcx_nano_bridge"

/-! ## What is read of reports and lookups -/

/-- `char::is_control` -/
def control (c : Char) : Bool := c.toNat < 0x20 || 0x7f ≤ c.toNat && c.toNat ≤ 0x9f

def text (v : Value) (key : String) : String :=
  let chars := ((v.get key).asStr.getD "").toList.map fun c => if control c then ' ' else c
  String.ofList ((trim chars).take 160)

def validVin (vin : String) : Bool :=
  vin.utf8ByteSize = 17 && ['Y', 'S', '3'].isPrefixOf vin.toList &&
    vin.toList.all fun c => c.isDigit || c.isUpper && !(['I', 'O', 'Q'].contains c)

/-- `saab_tech2_year` of `vin_probe.rs`. -/
def saabTech2Year (vin : String) : Except String Nat :=
  if vin.utf8ByteSize ≠ 17 ∨ !(['Y', 'S', '3'].isPrefixOf vin.toList) then
    .error "Expected a 17-character Saab VIN"
  else
    let b := (vin.toUTF8.toList.getD 9 0).toNat
    if b = 'W'.toNat then .ok 1998
    else if b = 'X'.toNat then .ok 1999
    else if b = 'Y'.toNat then .ok 2000
    else if '1'.toNat ≤ b ∧ b ≤ '9'.toNat then .ok (2000 + (b - '0'.toNat))
    else if 'A'.toNat ≤ b ∧ b ≤ 'C'.toNat then .ok (2010 + (b - 'A'.toNat))
    else .error "VIN year is outside this Saab Tech2 card's supported era"

/-- The flag with which the transport of an adapter confirms its release. -/
def closedFlag (adapter : String) : String :=
  if adapter = nano ∨ adapter = "chipsoft" then "usb_closed" else "bluetooth_closed"

/-- What an adapter reports: whether it is released, where the request came from, and the VIN. -/
def reported (adapter : String) (report : Value) : Except String (Bool × Value × Value) :=
  let closed := (report.get (closedFlag adapter)).isTrue
  if adapter = nano then
    if !(report.get "channel_cleanup").isTrue || !(report.get "hardware").isStr "VCX-NANO" ||
        !(report.get "origin").isStr "macos-native-cdc-serial" || !(report.get "vehicle_tx").isU32 2 ||
        !(report.get "host_vehicle_requests_written").isU32 1 ||
        !(report.get "host_vehicle_request_attempts").isU32 1 ||
        !(report.get "automatic_replay").isFalse then
      .error "Nano discovery or channel cleanup was not verified"
    else .ok (closed, report.get "request_origin", report.get "vin")
  else if adapter = "chipsoft" then .ok (closed, report.get "request_origin", report.get "vin")
  else if adapter = "vlinker_mc_plus" ∨ adapter = "bluetooth_mic" then
    if !(report.get "host_vehicle_request_attempts").isU32 1 ||
        !(report.get "host_vehicle_requests_written").isU32 1 ||
        !(report.get "automatic_replay").isFalse then
      .error "Vehicle discovery did not complete exactly one request"
    else
      .ok (closed, (report.get "result").get "request_origin", (report.get "result").get "vin")
  else .error "Adapter startup transport is unavailable"

def source (adapter : String) : String :=
  if adapter = "chipsoft" then "Chipsoft P-bus ECU VIN reply"
  else if adapter = nano then "Nano USB bridge P-bus ECU VIN reply"
  else "Bluetooth P-bus ECU VIN reply"

/-- The vehicle with a VIN, before it is looked up. -/
def identity (adapter : String) (report : Value) (vin utc : String) : Value :=
  let result := report.get "result"
  .object
    [("schema", .nat 1), ("vin", .string vin), ("observed_utc", .string utc),
      ("source", .string (source adapter)), ("adapter_model", result.get "adapter_model"),
      ("adapter_label", result.get "adapter_label"), ("adapter_profile", result.get "profile_id"),
      ("adapter_product", result.get "product"), ("adapter_firmware", result.get "chip_firmware"),
      ("adapter_voltage", result.get "voltage"),
      ("model_year", .nat ((saabTech2Year vin).toOption.getD 0)),
      ("lookup_status", .string "pending"), ("platform", .string ""), ("engine", .string ""),
      ("color", .string ""), ("gearbox", .string ""), ("body", .string "")]

def fromProbe (adapter : String) (report : Value) (utc : String) : Except String Value := do
  let (closed, origin, vin) ← reported adapter report
  if !closed || !(report.get "status").isStr "vin_received" ||
      !origin.isStr "host-startup-discovery" then
    .error "No verified fresh VIN reply with confirmed transport release"
  else
    match vin.asStr.filter validVin with
    | none => .error "Expected a complete Saab VIN from the vehicle"
    | some vin => .ok (identity adapter report vin utc)

/-- The fields of a lookup that are kept, and their names there. -/
def lookupFields : List (String × String) :=
  [("platform", "platform"), ("engine", "engine"), ("gearbox", "gearbox"), ("body", "body_display")]

def applyLookup (vehicle payload : Value) : Except String Value :=
  if !(payload.get "vin").same (vehicle.get "vin") then
    .error "Vehicle lookup returned a different VIN"
  else if !(payload.get "success").isTrue then
    .ok (vehicle.set "lookup_status" (.string "not_found"))
  else
    let car := payload.get "vehicle"
    let known := (vehicle.get "model_year").asI64.getD 0
    let year := (car.get "model_year").asI64.getD known
    if !car.isObject then .error "Missing vehicle lookup fields"
    else if ¬ (0 ≤ year ∧ year ≤ 9999) ∨
        0 < known ∧ (car.get "model_year").asI64.getD year ≠ known then
      .error "Vehicle lookup returned a different model year"
    else
      let dated := (vehicle.set "model_year" (.nat year.toNat)).set "lookup_status"
        (.string "available")
      let filled := lookupFields.foldl (fun v f => v.set f.1 (.string (text car f.2))) dated
      .ok (filled.set "color" (.string (text (car.get "color") "english")))

def description (v : Value) : String :=
  let year := match (v.get "model_year").asU64 with
    | some n => if 0 < n then [toString n.toNat] else []
    | none => []
  let parts := year ++ ["platform", "engine", "color"].filterMap fun key =>
    (v.get key).asStr.filter (· ≠ "")
  if parts = [] then "Vehicle identified" else " · ".intercalate parts

/-! ## The session -/

inductive Phase where
  | idle
  | setupRequired
  | selecting
  | discovering
  | lookup
  | stopping
  | identified
  | cancelled
  | failed
  deriving DecidableEq, Repr

def Phase.text : Phase → String
  | .idle => "idle"
  | .setupRequired => "setup_required"
  | .selecting => "selecting"
  | .discovering => "discovering"
  | .lookup => "lookup"
  | .stopping => "stopping"
  | .identified => "identified"
  | .cancelled => "cancelled"
  | .failed => "failed"

def Phase.busy (p : Phase) : Bool := [.selecting, .discovering, .lookup, .stopping].contains p

/-- What the session asks of its surroundings. -/
inductive Effect where
  | none
  | setup
  | selectAdapter
  | discoverVin
  | lookup (url : String) (maximumBytes timeoutSeconds : Nat)
  | cancelTransport
  deriving DecidableEq, Repr

def Effect.text : Effect → String
  | .none => "none"
  | .setup => "setup"
  | .selectAdapter => "select_adapter"
  | .discoverVin => "discover_vin"
  | .lookup .. => "lookup"
  | .cancelTransport => "cancel_transport"

def Effect.isLookup : Effect → Bool
  | .lookup .. => true
  | _ => false

structure Session where
  id : String
  born : Nat
  stoppingSince : Option Nat
  timedOut : Bool
  phase : Phase
  adapter : String
  vehicle : Value
  message : String
  lease : Option String

structure Snapshot where
  state : Phase
  busy : Bool
  effect : Effect
  attemptId : String
  adapter : String
  vehicle : Value
  description : String
  message : String
  vehicleConnected : Bool
  firmwareRunning : Bool
  firmwareTransportAvailable : Bool
  automaticReplay : Bool

/-- An event, the clocks, and how saving the identity ends. -/
structure Call where
  event : Value
  now : Nat
  utc : String
  saved : Except String Unit

def Call.op (c : Call) : String := (c.event.get "op").asStr.getD ""

namespace Session

/-- An answer, with the session and the owner after it. -/
structure After where
  session : Session
  owner : Lease.Owner
  answer : Snapshot

def new (id : String) (now : Nat) : Session where
  id
  born := now
  stoppingSince := none
  timedOut := false
  phase := .idle
  adapter := ""
  vehicle := .null
  message := ""
  lease := none

def snapshot (s : Session) (effect : Effect) : Snapshot where
  state := s.phase
  busy := s.phase.busy
  effect
  attemptId := s.id
  adapter := s.adapter
  vehicle := s.vehicle
  description := match s.vehicle with
    | .null => ""
    | v => Startup.description v
  message := s.message
  vehicleConnected := false
  firmwareRunning := false
  firmwareTransportAvailable := false
  automaticReplay := false

/-- The owner when the session drops its lease. -/
def released (s : Session) (owner : Lease.Owner) : Lease.Owner :=
  match s.lease with
  | none => owner
  | some lease => Lease.drop owner lease

def fail (s : Session) (owner : Lease.Owner) (message : String) : After :=
  let s' := { s with phase := .failed, vehicle := .null, message, lease := none }
  ⟨s', s.released owner, s'.snapshot .none⟩

/-- Nothing but the answer. -/
def ignore (s : Session) (owner : Lease.Owner) : After := ⟨s, owner, s.snapshot .none⟩

def cancelled (s : Session) (owner : Lease.Owner) (effect : Effect) : After :=
  let s' := { s with
    phase := .cancelled, message := "Connection stopped · No vehicle connection", lease := none }
  ⟨s', s.released owner, s'.snapshot effect⟩

def stopTransport (s : Session) (owner : Lease.Owner) (now : Nat) (timedOut : Bool) : After :=
  let s' := { s with
    phase := .stopping, stoppingSince := some now, timedOut, vehicle := .null
    message := "Stopping connection · Waiting for adapter release…" }
  ⟨s', owner, s'.snapshot .cancelTransport⟩

def notConfirmed : String := "Connection stopped · Adapter release was not confirmed"

def timeout : String := "Vehicle connection timed out; reconnect for a fresh VIN"

def second : Nat := 1000000000

/-- How long the transport may take to confirm its release. -/
def stopDeadline (s : Session) : Nat := (if s.adapter = nano then 10 else 6) * second

/-- The transport has had its time. -/
def overdue (s : Session) (now : Nat) : Bool :=
  s.stoppingSince.any fun t => s.stopDeadline < now - t

/-- The attempt takes too long. -/
def late (s : Session) (now : Nat) : Prop := 45 * second < now - s.born

instance decidableLate (s : Session) (now : Nat) : Decidable (s.late now) :=
  inferInstanceAs (Decidable (_ < _))

def selectable : List String := ["vlinker_mc_plus", "bluetooth_mic", nano]

/-- An event while the transport stops. -/
def eventStopping (s : Session) (owner : Lease.Owner) (c : Call) : After :=
  if c.op = "transport_closed" then
    let flag := if s.adapter = nano then "usb_closed" else "bluetooth_closed"
    if !(c.event.get flag).isTrue then s.fail owner notConfirmed
    else if s.timedOut then s.fail owner timeout
    else s.cancelled owner .none
  else if s.overdue c.now then s.fail owner notConfirmed
  else s.ignore owner

def begin (s : Session) (owner : Lease.Owner) (c : Call) : After :=
  if !(c.event.get "firmware_ready").isTrue then
    let s' := { s with
      phase := .setupRequired, message := "Firmware setup is required before connecting" }
    ⟨s', owner, s'.snapshot .setup⟩
  else
    let granted := if (c.event.get "other_workflow_running").isTrue then none
      else Lease.acquire owner s.id
    match granted with
    | none => { s with lease := none }.fail (s.released owner)
        "Finish the active workflow before connecting"
    | some owner' =>
      let s' := { s with phase := .selecting, message := "Select adapter", lease := some s.id }
      ⟨s', s.released owner', s'.snapshot .selectAdapter⟩

def selectAdapter (s : Session) (owner : Lease.Owner) (c : Call) : After :=
  let adapter := (c.event.get "adapter").asStr.getD ""
  if !selectable.contains adapter || !(c.event.get "transport_available").isTrue then
    s.fail owner "No supported adapter connection is available in this build"
  else
    let s' := { s with
      adapter, phase := .discovering
      message := "Opening selected adapter · Reading a fresh vehicle VIN…" }
    ⟨s', owner, s'.snapshot .discoverVin⟩

def lookupEffect (vehicle : Value) : Effect :=
  .lookup (endpoint ++ (vehicle.get "vin").asStr.getD "" ++
    "?include_rpo=true&include_options=false&include_recalls=false") (256 * 1024) 10

def probeResult (s : Session) (owner : Lease.Owner) (c : Call) : After :=
  let report := c.event.get "report"
  if s.adapter = nano ∧ !(report.get "attempt_id").isStr s.id then
    s.fail owner "Bridge reply belongs to another connection attempt"
  else
    match fromProbe s.adapter report c.utc with
    | .ok vehicle =>
      let s' := { s with
        vehicle, phase := .lookup
        message := "Vehicle identified · Loading OpenSAAB vehicle details…" }
      ⟨s', owner, s'.snapshot (lookupEffect vehicle)⟩
    | .error e => s.fail owner ("Could not identify vehicle · " ++ e)

variable (parse : String → Option Value)

/-- The vehicle after the lookup, found or not. -/
def updated (vehicle : Value) (c : Call) : Value :=
  let found :=
    if c.op = "lookup_result" ∧ (c.event.get "http_status").isU32 200 then
      (((c.event.get "body").asStr.filter (·.utf8ByteSize ≤ 256 * 1024)).bind parse).bind fun p =>
        (applyLookup vehicle p).toOption
    else none
  found.getD (vehicle.set "lookup_status" (.string "unavailable"))

def looked (s : Session) (owner : Lease.Owner) (c : Call) : After :=
  let vehicle := updated parse s.vehicle c
  match c.saved with
  | .error e => { s with vehicle }.fail owner ("Vehicle identity could not be saved · " ++ e)
  | .ok () =>
    let s' := { s with
      vehicle, phase := .identified
      message := if s.adapter = nano then
          "Vehicle identified · USB bridge firmware transport is not implemented in this build"
        else "Vehicle identified · Bluetooth firmware transport is not implemented in this build" }
    ⟨{ s' with lease := none }, s.released owner, s'.snapshot .none⟩

def event (s : Session) (owner : Lease.Owner) (c : Call) : After :=
  if s.phase = .stopping then s.eventStopping owner c
  else if c.op = "cancel" then
    if s.phase = .discovering then s.stopTransport owner c.now false
    else { s with vehicle := .null }.cancelled owner .cancelTransport
  else if s.phase.busy ∧ s.late c.now then
    if s.phase = .discovering then s.stopTransport owner c.now true else s.fail owner timeout
  else if s.phase = .idle ∧ c.op = "begin" then s.begin owner c
  else if s.phase = .selecting ∧ c.op = "select_adapter" then s.selectAdapter owner c
  else if s.phase = .discovering ∧ c.op = "probe_result" then s.probeResult owner c
  else if s.phase = .lookup ∧ (c.op = "lookup_result" ∨ c.op = "lookup_unavailable") then
    s.looked parse owner c
  else s.ignore owner

end Session

end OpenSaab.Startup
