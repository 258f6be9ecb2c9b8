import OpenSaab.Library.Runs
import OpenSaab.Vlinker.Startup
import Mathlib.Data.List.Nodup
import Mathlib.Tactic.SplitIfs

/-!
# Attempts to connect

What an event can do to a session, and what follows for every order of events: a vehicle is shown only
after its report, an attempt that has ended stays ended, and one session at a time has the adapter.
-/

namespace OpenSaab.Startup

open Json

/-! ## The VIN of a report -/

/-- The VIN stands where the adapter reports it. -/
def reportedVin (adapter : String) (report : Value) : Value :=
  if adapter = nano ∨ adapter = "chipsoft" then report.get "vin"
  else (report.get "result").get "vin"

theorem reported_ok {adapter : String} {report origin vin : Value} {closed : Bool}
    (h : reported adapter report = .ok (closed, origin, vin)) :
    closed = (report.get (closedFlag adapter)).isTrue ∧ vin = reportedVin adapter report := by
  unfold reported reportedVin at *
  dsimp only at h
  split_ifs at h with hnano hrefused hchipsoft hbluetooth hrefused
  · simp only [Except.ok.injEq, Prod.mk.injEq] at h
    exact ⟨h.1.symm, by rw [if_pos (Or.inl hnano), h.2.2]⟩
  · simp only [Except.ok.injEq, Prod.mk.injEq] at h
    exact ⟨h.1.symm, by rw [if_pos (Or.inr hchipsoft), h.2.2]⟩
  · simp only [Except.ok.injEq, Prod.mk.injEq] at h
    exact ⟨h.1.symm, by rw [if_neg (not_or.mpr ⟨hnano, hchipsoft⟩), h.2.2]⟩

/-- A vehicle is made of a report that confirms the release, with the VIN of the report. -/
theorem fromProbe_ok {adapter utc : String} {report v : Value}
    (h : fromProbe adapter report utc = .ok v) :
    (report.get (closedFlag adapter)).isTrue = true ∧
      v.get "vin" = reportedVin adapter report ∧ v ≠ .null := by
  unfold fromProbe at h
  rcases hreported : reported adapter report with e | ⟨closed, origin, vin⟩
  · rw [hreported] at h
    cases h
  · rw [hreported] at h
    obtain ⟨hclosed, hvin⟩ := reported_ok hreported
    change (if _ then _ else _) = _ at h
    split_ifs at h with hrefused
    have hconfirmed : closed = true := by
      cases closed with
      | true => rfl
      | false => exact absurd rfl hrefused
    split at h
    · cases h
    · rename_i text htext
      obtain rfl := Except.ok.inj h
      have hstr : vin.asStr = some text := (Option.filter_eq_some_iff.mp htext).1
      have hstring : vin = .string text := by
        cases vin with
        | string s => exact congrArg _ (Option.some.inj hstr)
        | null | bool | number | array | object => cases hstr
      exact ⟨hclosed.symm.trans hconfirmed, by rw [← hvin, hstring]; rfl, nofun⟩

theorem applyLookup_vin {v payload v' : Value} (h : applyLookup v payload = .ok v') :
    v'.get "vin" = v.get "vin" := by
  unfold applyLookup at h
  dsimp only at h
  split_ifs at h
  · rw [← Except.ok.inj h, Value.get_set_ne _ _ (by decide)]
  · rw [← Except.ok.inj h, Value.get_set_ne _ _ (by decide)]
    simp only [lookupFields, List.foldl_cons, List.foldl_nil]
    iterate 6 rw [Value.get_set_ne _ _ (by decide)]

theorem updated_vin (parse : String → Option Value) (v : Value) (c : Call) :
    (Session.updated parse v c).get "vin" = v.get "vin" := by
  unfold Session.updated
  dsimp only
  split_ifs with hok
  · cases hfound : (((c.event.get "body").asStr.filter (·.utf8ByteSize ≤ 256 * 1024)).bind parse).bind
        fun p => (applyLookup v p).toOption with
    | none => exact Value.get_set_ne _ _ (by decide)
    | some v' =>
      obtain ⟨payload, -, hpayload⟩ := Option.bind_eq_some_iff.mp hfound
      rw [Option.getD_some]
      cases happly : applyLookup v payload with
      | error e => rw [happly] at hpayload; cases hpayload
      | ok v'' =>
        rw [happly] at hpayload
        obtain rfl := Option.some.inj hpayload
        exact applyLookup_vin happly
  · exact Value.get_set_ne _ _ (by decide)

/-! ## One event -/

namespace Session

variable {parse : String → Option Value} {s : Session} {owner : Lease.Owner} {c : Call}

/-- Everything that an event can do. -/
inductive Reacts (s : Session) (owner : Lease.Owner) (c : Call) : After → Prop where
  | ignored : Reacts s owner c (s.ignore owner)
  | failed (message : String)
      (hprobe : s.phase = .discovering → c.op = "probe_result" ∧ ¬ s.late c.now)
      (hstop : s.phase = .stopping → c.op = "transport_closed" ∨ s.overdue c.now = true) :
      Reacts s owner c (s.fail owner message)
  | released (h : s.phase = .stopping) (hclosed : c.op = "transport_closed") :
      Reacts s owner c (s.cancelled owner .none)
  | cancelled (h : s.phase ≠ .stopping) (h' : s.phase ≠ .discovering) :
      Reacts s owner c ({ s with vehicle := .null }.cancelled owner .cancelTransport)
  | stopped (timedOut : Bool) (h : s.phase = .discovering) :
      Reacts s owner c (s.stopTransport owner c.now timedOut)
  | setup (h : s.phase = .idle) (message : String) :
      Reacts s owner c
        ⟨{ s with phase := .setupRequired, message }, owner,
          { s with phase := .setupRequired, message }.snapshot .setup⟩
  | began (h : s.phase = .idle) {owner' : Lease.Owner}
      (hgranted : Lease.acquire owner s.id = some owner') (message : String) :
      Reacts s owner c
        ⟨{ s with phase := .selecting, message, lease := some s.id }, s.released owner',
          { s with phase := .selecting, message, lease := some s.id }.snapshot .selectAdapter⟩
  | chose (h : s.phase = .selecting) (adapter message : String) :
      Reacts s owner c
        ⟨{ s with phase := .discovering, adapter, message }, owner,
          { s with phase := .discovering, adapter, message }.snapshot .discoverVin⟩
  | found (h : s.phase = .discovering) (hop : c.op = "probe_result") (hlate : ¬ s.late c.now)
      {vehicle : Value}
      (hnano : s.adapter = nano → ((c.event.get "report").get "attempt_id").isStr s.id = true)
      (hvehicle : fromProbe s.adapter (c.event.get "report") c.utc = .ok vehicle)
      (message : String) :
      Reacts s owner c
        ⟨{ s with phase := .lookup, vehicle, message }, owner,
          { s with phase := .lookup, vehicle, message }.snapshot (lookupEffect vehicle)⟩
  | identified (h : s.phase = .lookup) {vehicle : Value}
      (hvin : vehicle.get "vin" = s.vehicle.get "vin") (message : String) :
      Reacts s owner c
        ⟨{ s with phase := .identified, vehicle, message, lease := none }, s.released owner,
          { s with phase := .identified, vehicle, message, lease := none }.snapshot .none⟩

theorem eventStopping_reacts (h : s.phase = .stopping) :
    Reacts s owner c (s.eventStopping owner c) := by
  have hprobe : s.phase = .discovering → c.op = "probe_result" ∧ ¬ s.late c.now := by
    intro hd
    rw [h] at hd
    cases hd
  unfold eventStopping
  dsimp only
  split_ifs with hclosed hnano hflag htimed hflag htimed hover
  · exact .failed _ hprobe fun _ => Or.inl hclosed
  · exact .failed _ hprobe fun _ => Or.inl hclosed
  · exact .released h hclosed
  · exact .failed _ hprobe fun _ => Or.inl hclosed
  · exact .failed _ hprobe fun _ => Or.inl hclosed
  · exact .released h hclosed
  · exact .failed _ hprobe fun _ => Or.inr hover
  · exact .ignored

/-- What a session does that neither waits for a report nor for its transport. -/
theorem Reacts.fail (message : String) (h : s.phase ≠ .discovering) (h' : s.phase ≠ .stopping) :
    Reacts s owner c (s.fail owner message) :=
  .failed message (fun hd => absurd hd h) fun hs => absurd hs h'

theorem begin_reacts (h : s.phase = .idle) : Reacts s owner c (s.begin owner c) := by
  have hd : s.phase ≠ .discovering := by rw [h]; decide
  have hs : s.phase ≠ .stopping := by rw [h]; decide
  unfold begin
  split_ifs
  · exact .setup h _
  · exact Reacts.fail _ hd hs
  · dsimp only
    split
    · exact Reacts.fail _ hd hs
    · rename_i owner' hgranted
      exact .began h hgranted _

theorem selectAdapter_reacts (h : s.phase = .selecting) :
    Reacts s owner c (s.selectAdapter owner c) := by
  have hd : s.phase ≠ .discovering := by rw [h]; decide
  have hs : s.phase ≠ .stopping := by rw [h]; decide
  unfold selectAdapter
  dsimp only
  split_ifs
  · exact Reacts.fail _ hd hs
  · exact .chose h _ _

theorem probeResult_reacts (h : s.phase = .discovering) (hop : c.op = "probe_result")
    (hlate : ¬ s.late c.now) : Reacts s owner c (s.probeResult owner c) := by
  have hfail (message : String) : Reacts s owner c (s.fail owner message) := by
    refine .failed message (fun _ => ⟨hop, hlate⟩) fun hs => ?_
    rw [h] at hs
    cases hs
  unfold probeResult
  dsimp only
  split_ifs with hforeign
  · exact hfail _
  · split
    · rename_i vehicle hvehicle
      refine .found h hop hlate (fun hnano => ?_) hvehicle _
      simpa [hnano] using hforeign
    · exact hfail _

theorem looked_reacts (h : s.phase = .lookup) : Reacts s owner c (s.looked parse owner c) := by
  have hd : s.phase ≠ .discovering := by rw [h]; decide
  have hs : s.phase ≠ .stopping := by rw [h]; decide
  unfold looked
  dsimp only
  split
  · exact Reacts.fail _ hd hs
  · exact .identified h (updated_vin parse s.vehicle c) _

theorem event_reacts (parse : String → Option Value) (s : Session) (owner : Lease.Owner) (c : Call) :
    Reacts s owner c (s.event parse owner c) := by
  unfold event
  split_ifs with hstopping hcancel hdiscovering hintime hdiscovering hidle hselecting hprobe hlookup
  · exact eventStopping_reacts hstopping
  · exact .stopped false hdiscovering
  · exact .cancelled hstopping hdiscovering
  · exact .stopped true hdiscovering
  · exact Reacts.fail _ hdiscovering hstopping
  · exact begin_reacts hidle.1
  · exact selectAdapter_reacts hselecting.1
  · refine probeResult_reacts hprobe.1 hprobe.2 fun hlate => hintime ⟨?_, hlate⟩
    rw [hprobe.1]
    rfl
  · exact looked_reacts hlookup.1
  · exact .ignored

end Session

/-! ## The history of a session -/

/-- An event that was delivered, the session that it found, and the answer. -/
structure Entry where
  before : Session
  call : Call
  answer : Snapshot

/-- The answer to a report from which a vehicle was made. -/
def Entry.Accepted (e : Entry) : Prop :=
  e.answer.effect.isLookup = true ∧ e.before.phase = .discovering ∧ e.call.op = "probe_result" ∧
    ∃ v, fromProbe e.before.adapter (e.call.event.get "report") e.call.utc = .ok v

def Entry.vin (e : Entry) : Value := reportedVin e.before.adapter (e.call.event.get "report")

/-- Stopped, cancelled, timed out or failed. -/
def Phase.ended (p : Phase) : Bool := [.stopping, .cancelled, .failed].contains p

def Entry.Silent (e : Entry) : Prop :=
  e.answer.vehicle = .null ∧ e.answer.effect ≠ .discoverVin ∧ e.answer.effect.isLookup = false

/-- What a session has shown and asked for so far, and what it holds. -/
structure Conforms (history : List Entry) (s : Session) : Prop where
  discoverOnce : history.countP (·.answer.effect = .discoverVin) ≤ 1
  lookupOnce : history.countP (·.answer.effect.isLookup) ≤ 1
  answered : ∀ e ∈ history, e.answer.effect.isLookup = true → e.Accepted
  shown : Runs.Justified (fun earlier e => e.answer.vehicle ≠ .null →
    (e.answer.state = .lookup ∨ e.answer.state = .identified) ∧
      ∃ f ∈ earlier ++ [e], f.Accepted ∧ e.answer.vehicle.get "vin" = f.vin) history
  vehicle : s.vehicle ≠ .null → (s.phase = .lookup ∨ s.phase = .identified) ∧
    ∃ f ∈ history, f.Accepted ∧ s.vehicle.get "vin" = f.vin
  final : Runs.Justified (fun earlier e => (∃ f ∈ earlier, f.answer.state.ended = true) → e.Silent)
    history
  lease : s.lease = if s.phase.busy then some s.id else none

theorem Conforms.unknown {history : List Entry} {s : Session} (h : Conforms history s)
    (hlookup : s.phase ≠ .lookup) (hidentified : s.phase ≠ .identified) : s.vehicle = .null := by
  by_contra hv
  exact (h.vehicle hv).1.elim hlookup hidentified

/-- How often a session in this phase may still ask for the VIN, and for the lookup. -/
def Phase.discoveries (p : Phase) : Nat := if p = .idle ∨ p = .selecting then 1 else 0

def Phase.lookups (p : Phase) : Nat := if p = .idle ∨ p = .selecting ∨ p = .discovering then 1 else 0

structure Invariant (history : List Entry) (s : Session) : Prop extends Conforms history s where
  discoveries : history.countP (·.answer.effect = .discoverVin) + s.phase.discoveries ≤ 1
  lookups : history.countP (·.answer.effect.isLookup) + s.phase.lookups ≤ 1
  ended : (∃ e ∈ history, e.answer.state.ended = true) → s.phase.ended = true
  looking : s.phase = .lookup → ∃ f ∈ history, f.Accepted ∧ s.vehicle.get "vin" = f.vin

namespace Session

variable {s : Session} {owner : Lease.Owner} {c : Call} {r : After} {history : List Entry}

theorem Reacts.id (h : Reacts s owner c r) : r.session.id = s.id := by
  cases h <;> rfl

theorem Reacts.answer (h : Reacts s owner c r) :
    r.answer.state = r.session.phase ∧ r.answer.vehicle = r.session.vehicle := by
  cases h <;> exact ⟨rfl, rfl⟩

theorem Reacts.lease (h : Reacts s owner c r)
    (hs : s.lease = if s.phase.busy then some s.id else none) :
    r.session.lease = if r.session.phase.busy then some r.session.id else none := by
  cases h with
  | ignored => exact hs
  | failed | released | cancelled | began | identified => rfl
  | setup h | stopped timedOut h | chose h | found h =>
    rw [h] at hs
    exact hs

/-- A VIN is asked for once, and so is a lookup. -/
theorem Reacts.once (h : Reacts s owner c r) :
    (if r.answer.effect = .discoverVin then 1 else 0) + r.session.phase.discoveries ≤
        s.phase.discoveries ∧
      (if r.answer.effect.isLookup then 1 else 0) + r.session.phase.lookups ≤ s.phase.lookups := by
  cases h with
  | ignored => exact ⟨Nat.le_of_eq (Nat.zero_add _), Nat.le_of_eq (Nat.zero_add _)⟩
  | failed | released | cancelled | stopped | identified => exact ⟨Nat.zero_le _, Nat.zero_le _⟩
  | setup h | began h | chose h | found h =>
    rw [h]
    exact ⟨Nat.le_of_ble_eq_true rfl, Nat.le_of_ble_eq_true rfl⟩

theorem Reacts.lookup (h : Reacts s owner c r) (hlookup : r.answer.effect.isLookup = true) :
    Entry.Accepted ⟨s, c, r.answer⟩ := by
  cases h with
  | found h hop hlate hnano hvehicle => exact ⟨rfl, h, hop, _, hvehicle⟩
  | _ => cases hlookup

theorem Reacts.final (h : Reacts s owner c r) (hs : s.phase.ended = true) (hv : s.vehicle = .null) :
    r.session.phase.ended = true ∧ Entry.Silent ⟨s, c, r.answer⟩ := by
  cases h with
  | ignored => exact ⟨hs, hv, nofun, rfl⟩
  | failed | stopped | cancelled => exact ⟨rfl, rfl, nofun, rfl⟩
  | released => exact ⟨rfl, hv, nofun, rfl⟩
  | setup h | began h | chose h | found h | identified h =>
    rw [h] at hs
    cases hs

/-- The vehicle of a session is that of the report that it has accepted. -/
theorem Reacts.vehicle (h : Reacts s owner c r) (hi : Conforms history s)
    (hlooking : s.phase = .lookup → ∃ f ∈ history, f.Accepted ∧ s.vehicle.get "vin" = f.vin)
    (hv : r.session.vehicle ≠ .null) :
    (r.session.phase = .lookup ∨ r.session.phase = .identified) ∧
      ∃ f ∈ history ++ [⟨s, c, r.answer⟩], f.Accepted ∧ r.session.vehicle.get "vin" = f.vin := by
  cases h with
  | ignored =>
    obtain ⟨hphase, f, hf, hvin⟩ := hi.vehicle hv
    exact ⟨hphase, f, List.mem_append_left _ hf, hvin⟩
  | failed | stopped | cancelled => exact absurd rfl hv
  | released h => exact absurd (hi.unknown (by rw [h]; decide) (by rw [h]; decide)) hv
  | setup h | began h | chose h =>
    exact absurd (hi.unknown (by rw [h]; decide) (by rw [h]; decide)) hv
  | found h hop hlate hnano hvehicle =>
    exact ⟨Or.inl rfl, _, List.mem_append_right _ List.mem_cons_self, ⟨rfl, h, hop, _, hvehicle⟩,
      (fromProbe_ok hvehicle).2.1⟩
  | identified h hvin =>
    obtain ⟨f, hf, haccepted, hf'⟩ := hlooking h
    exact ⟨Or.inr rfl, f, List.mem_append_left _ hf, haccepted, hvin.trans hf'⟩

theorem Reacts.looking (h : Reacts s owner c r)
    (hlooking : s.phase = .lookup → ∃ f ∈ history, f.Accepted ∧ s.vehicle.get "vin" = f.vin)
    (hphase : r.session.phase = .lookup) :
    ∃ f ∈ history ++ [⟨s, c, r.answer⟩], f.Accepted ∧ r.session.vehicle.get "vin" = f.vin := by
  cases h with
  | ignored =>
    obtain ⟨f, hf, hvin⟩ := hlooking hphase
    exact ⟨f, List.mem_append_left _ hf, hvin⟩
  | found h hop hlate hnano hvehicle =>
    exact ⟨_, List.mem_append_right _ List.mem_cons_self, ⟨rfl, h, hop, _, hvehicle⟩,
      (fromProbe_ok hvehicle).2.1⟩
  | _ => cases hphase

end Session

theorem invariant_new (id : String) (now : Nat) : Invariant [] (.new id now) where
  discoverOnce := Nat.zero_le 1
  lookupOnce := Nat.zero_le 1
  answered := fun _ he => absurd he List.not_mem_nil
  shown := .nil
  vehicle := fun h => absurd rfl h
  final := .nil
  lease := rfl
  discoveries := Nat.le_refl 1
  lookups := Nat.le_refl 1
  ended := fun ⟨_, he, _⟩ => absurd he List.not_mem_nil
  looking := fun h => nomatch h

theorem Invariant.step {history : List Entry} {s : Session} {owner : Lease.Owner} {c : Call}
    {r : Session.After} (h : Invariant history s) (hr : s.Reacts owner c r) :
    Invariant (history ++ [⟨s, c, r.answer⟩]) r.session := by
  obtain ⟨hdiscover, hlookup⟩ := hr.once
  have hdiscoveries := h.discoveries
  have hlookups := h.lookups
  have hvehicle := hr.vehicle h.toConforms h.looking
  have hends : (∃ e ∈ history, e.answer.state.ended = true) →
      r.session.phase.ended = true ∧ Entry.Silent ⟨s, c, r.answer⟩ := by
    intro he
    have hs := h.ended he
    refine hr.final hs (h.toConforms.unknown ?_ ?_)
    · intro hp
      rw [hp] at hs
      cases hs
    · intro hp
      rw [hp] at hs
      cases hs
  have hcount : (history ++ [(⟨s, c, r.answer⟩ : Entry)]).countP
      (·.answer.effect = .discoverVin) + r.session.phase.discoveries ≤ 1 := by
    rw [List.countP_append, List.countP_singleton]
    simp only [decide_eq_true_eq]
    omega
  have hcount' : (history ++ [(⟨s, c, r.answer⟩ : Entry)]).countP
      (·.answer.effect.isLookup) + r.session.phase.lookups ≤ 1 := by
    rw [List.countP_append, List.countP_singleton]
    dsimp only
    omega
  exact
    { discoverOnce := Nat.le_trans (Nat.le_add_right _ _) hcount
      lookupOnce := Nat.le_trans (Nat.le_add_right _ _) hcount'
      answered := fun e he hl => by
        rcases List.mem_append.mp he with he | he
        · exact h.answered e he hl
        · rw [List.mem_singleton.mp he] at hl ⊢
          exact hr.lookup hl
      shown := Runs.Justified.snoc h.shown fun hv => by
        obtain ⟨hstate, hsame⟩ := hr.answer
        dsimp only at hv ⊢
        rw [hsame] at hv ⊢
        rw [hstate]
        exact hvehicle hv
      vehicle := hvehicle
      final := Runs.Justified.snoc h.final fun he => (hends he).2
      lease := hr.lease h.lease
      discoveries := hcount
      lookups := hcount'
      ended := by
        rintro ⟨e, he, hended⟩
        rcases List.mem_append.mp he with he | he
        · exact (hends ⟨e, he, hended⟩).1
        · rw [List.mem_singleton.mp he] at hended
          rwa [← hr.answer.1]
      looking := hr.looking h.looking }

/-! ## Many sessions -/

/-- A session and what has been delivered to it. -/
structure Tracked where
  session : Session
  history : List Entry

/-- The owner, the sessions, and the leases that are out elsewhere. -/
structure World where
  owner : Lease.Owner
  sessions : List Tracked
  others : List String

inductive Action where
  | create (id : String) (now : Nat)
  | deliver (n : Nat) (c : Call)
  | close (n : Nat)
  | acquire (owner : String)
  | release (owner : String)

namespace World

def initial : World := ⟨none, [], []⟩

/-- An identifier that is taken is not given out again. -/
def step (parse : String → Option Value) (w : World) : Action → World
  | .create id now =>
    if id ∈ w.sessions.map (·.session.id) then w
    else { w with sessions := w.sessions ++ [⟨.new id now, []⟩] }
  | .deliver n c =>
    match w.sessions[n]? with
    | none => w
    | some t =>
      let r := t.session.event parse w.owner c
      { w with
        owner := r.owner
        sessions := w.sessions.set n ⟨r.session, t.history ++ [⟨t.session, c, r.answer⟩]⟩ }
  | .close n =>
    match w.sessions[n]? with
    | none => w
    | some t =>
      { w with owner := t.session.released w.owner, sessions := w.sessions.eraseIdx n }
  | .acquire owner =>
    match Lease.acquire w.owner owner with
    | none => w
    | some owner' => { w with owner := owner', others := owner :: w.others }
  | .release owner =>
    if owner ∈ w.others then
      { w with owner := Lease.drop w.owner owner, others := w.others.erase owner }
    else w

/-- All the leases that are out. -/
def held (sessions : List Tracked) (others : List String) : List String :=
  sessions.flatMap (·.session.lease.toList) ++ others

structure Sound (w : World) : Prop where
  sessions : ∀ t ∈ w.sessions, Invariant t.history t.session
  distinct : (w.sessions.map (·.session.id)).Nodup
  counts : Lease.Counts w.owner (held w.sessions w.others)

end World

namespace Session

variable {s : Session} {owner : Lease.Owner} {c : Call} {r : After} {rest : List String}

theorem released_counts (hcounts : Lease.Counts owner (s.lease.toList ++ rest)) :
    Lease.Counts (s.released owner) rest := by
  unfold released
  cases hlease : s.lease with
  | none =>
    rw [hlease] at hcounts
    exact hcounts
  | some lease =>
    rw [hlease] at hcounts
    exact Lease.drop_counts hcounts

/-- The owner goes on counting the leases that are out. -/
theorem Reacts.counts (h : Reacts s owner c r)
    (hlease : s.lease = if s.phase.busy then some s.id else none)
    (hcounts : Lease.Counts owner (s.lease.toList ++ rest)) :
    Lease.Counts r.owner (r.session.lease.toList ++ rest) := by
  cases h with
  | ignored | stopped | setup | chose | found => exact hcounts
  | failed | released | cancelled | identified => exact released_counts hcounts
  | began h hgranted =>
    have hnone : s.lease = none := by
      rw [hlease, h]
      rfl
    rw [hnone] at hcounts
    unfold Session.released
    rw [hnone]
    exact Lease.acquire_counts hgranted hcounts

end Session

namespace World

variable {parse : String → Option Value} {w : World}

theorem held_split (before after : List Tracked) (t : Tracked) (others : List String) :
    (held (before ++ t :: after) others).Perm
      (t.session.lease.toList ++ held (before ++ after) others) := by
  simp only [held, List.flatMap_append, List.flatMap_cons, List.append_assoc]
  exact List.perm_append_comm_assoc _ _ _

/-- An event for one session leaves the others as they are. -/
theorem deliver_sound {owner : Lease.Owner} {before after : List Tracked} {t : Tracked}
    {others : List String} {c : Call} {r : Session.After}
    (h : Sound ⟨owner, before ++ t :: after, others⟩) (hr : t.session.Reacts owner c r) :
    Sound ⟨r.owner, before ++ ⟨r.session, t.history ++ [⟨t.session, c, r.answer⟩]⟩ :: after,
      others⟩ := by
  have ht := h.sessions t (List.mem_append_right _ List.mem_cons_self)
  refine ⟨fun u hu => ?_, ?_, ?_⟩
  · rcases List.mem_append.mp hu with hu | hu
    · exact h.sessions u (List.mem_append_left _ hu)
    · rcases List.mem_cons.mp hu with rfl | hu
      · exact ht.step hr
      · exact h.sessions u (List.mem_append_right _ (List.mem_cons_of_mem _ hu))
  · have hids := h.distinct
    simp only [List.map_append, List.map_cons] at hids ⊢
    rwa [hr.id]
  · have hcounts := h.counts.perm (held_split before after t others)
    exact (hr.counts ht.lease hcounts).perm (held_split before after ⟨r.session, _⟩ others).symm

theorem close_sound {owner : Lease.Owner} {before after : List Tracked} {t : Tracked}
    {others : List String} (h : Sound ⟨owner, before ++ t :: after, others⟩) :
    Sound ⟨t.session.released owner, before ++ after, others⟩ := by
  have hsub : (before ++ after).Sublist (before ++ t :: after) :=
    (List.sublist_cons_self t after).append_left before
  refine ⟨fun u hu => h.sessions u (hsub.subset hu), h.distinct.sublist (hsub.map _), ?_⟩
  exact Session.released_counts (h.counts.perm (held_split before after t others))

theorem create_sound (h : w.Sound) {id : String} (hid : id ∉ w.sessions.map (·.session.id))
    (now : Nat) : Sound { w with sessions := w.sessions ++ [⟨.new id now, []⟩] } := by
  refine ⟨fun u hu => ?_, ?_, ?_⟩
  · rcases List.mem_append.mp hu with hu | hu
    · exact h.sessions u hu
    · rw [List.mem_singleton.mp hu]
      exact invariant_new id now
  · rw [List.map_append, List.nodup_append]
    refine ⟨h.distinct, List.nodup_singleton _, fun a ha b hb hab => ?_⟩
    have hb' : b = id := List.mem_singleton.mp hb
    exact hid (hb' ▸ hab ▸ ha)
  · have hcounts := h.counts
    unfold held at *
    rw [List.flatMap_append]
    exact (List.append_nil (w.sessions.flatMap (·.session.lease.toList))).symm ▸ hcounts

theorem split_at {α : Type*} {l : List α} {n : Nat} {a : α} (h : l[n]? = some a) :
    ∃ before after, l = before ++ a :: after ∧ before.length = n := by
  obtain ⟨hn, rfl⟩ := List.getElem?_eq_some_iff.mp h
  refine ⟨l.take n, l.drop (n + 1), ?_, List.length_take_of_le (Nat.le_of_lt hn)⟩
  rw [← List.drop_eq_getElem_cons hn, List.take_append_drop]

theorem step_sound (h : w.Sound) (a : Action) : (w.step parse a).Sound := by
  obtain ⟨owner, sessions, others⟩ := w
  cases a with
  | create id now =>
    unfold step
    dsimp only
    split_ifs with hid
    · exact h
    · exact create_sound h hid now
  | deliver n c =>
    unfold step
    dsimp only
    split
    · exact h
    · rename_i t ht
      obtain ⟨before, after, rfl, rfl⟩ := split_at ht
      rw [List.set_append_right _ _ (Nat.le_refl _), Nat.sub_self]
      exact deliver_sound h (Session.event_reacts parse t.session owner c)
  | close n =>
    unfold step
    dsimp only
    split
    · exact h
    · rename_i t ht
      obtain ⟨before, after, rfl, rfl⟩ := split_at ht
      rw [List.eraseIdx_append_of_length_le (Nat.le_refl _), Nat.sub_self]
      exact close_sound h
  | acquire id =>
    unfold step
    dsimp only
    split
    · exact h
    · rename_i owner' hgranted
      refine ⟨h.sessions, h.distinct, ?_⟩
      exact (Lease.acquire_counts hgranted h.counts).perm List.perm_middle.symm
  | release id =>
    unfold step
    dsimp only
    split_ifs with hmem
    · refine ⟨h.sessions, h.distinct, Lease.drop_counts (h.counts.perm ?_)⟩
      have hfirst := List.Perm.append_left (sessions.flatMap (·.session.lease.toList))
        (List.perm_cons_erase hmem)
      exact hfirst.trans List.perm_middle
    · exact h

theorem initial_sound : initial.Sound := ⟨nofun, List.nodup_nil, rfl⟩

theorem run_sound (parse : String → Option Value) (actions : List Action) :
    (Runs.run (step parse) initial actions).Sound :=
  Runs.run_invariant (I := Sound) (fun _ a h => step_sound h a) actions initial_sound

/-- The lease of a session is out. -/
theorem mem_held {t : Tracked} {sessions : List Tracked} {others : List String} {lease : String}
    (ht : t ∈ sessions) (h : t.session.lease = some lease) : lease ∈ held sessions others := by
  refine List.mem_append_left _ (List.mem_flatMap.mpr ⟨t, ht, ?_⟩)
  rw [h]
  exact List.mem_singleton_self lease

theorem Sound.busy_eq (h : w.Sound) {t u : Tracked} (ht : t ∈ w.sessions) (hu : u ∈ w.sessions)
    (hbusy : t.session.phase.busy = true) (hbusy' : u.session.phase.busy = true) : t = u := by
  have hlease : t.session.lease = some t.session.id := by
    rw [(h.sessions t ht).lease, if_pos hbusy]
  have hlease' : u.session.lease = some u.session.id := by
    rw [(h.sessions u hu).lease, if_pos hbusy']
  have hid : t.session.id = u.session.id := h.counts.eq (mem_held ht hlease) (mem_held hu hlease')
  exact List.inj_on_of_nodup_map h.distinct ht hu hid

/-- Whatever is delivered to the sessions, and in whatever order: each asks for a VIN and for a lookup at
most once, shows a vehicle only after its report, and is silent once it has ended; and one session at
most is busy, which is the one with the lease. -/
theorem attempts_conform (parse : String → Option Value) (actions : List Action) :
    let w := Runs.run (step parse) initial actions
    (∀ t ∈ w.sessions, Conforms t.history t.session) ∧
      ∀ t ∈ w.sessions, t.session.phase.busy = true →
        (∃ leases, w.owner = some (t.session.id, leases)) ∧
          ∀ u ∈ w.sessions, u.session.phase.busy = true → t = u := by
  have h := run_sound parse actions
  refine ⟨fun t ht => (h.sessions t ht).toConforms, fun t ht hbusy => ⟨?_, fun u hu hbusy' => ?_⟩⟩
  · have hlease := (h.sessions t ht).lease
    rw [if_pos hbusy] at hlease
    exact h.counts.holder (mem_held ht hlease)
  · exact h.busy_eq ht hu hbusy hbusy'

end World

end OpenSaab.Startup
