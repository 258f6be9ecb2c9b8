import OpenSaab.Vlinker.Attempts

/-!
# Until the adapter is released

Once a VIN has been asked for, the lease is to be kept until the adapter confirms its release. A report
that does not confirm it ends the attempt all the same, and then the lease is given back too early.
-/

namespace OpenSaab.Startup

open Json

/-- An event as it is delivered. Whether it was sent for this attempt the code sees in a report of the
USB bridge only. -/
structure Delivery where
  owner : Lease.Owner
  call : Call
  own : Bool

namespace Session

variable (s : Session) (d : Delivery)

def Belongs : Prop :=
  if s.adapter = nano ∧ d.call.op = "probe_result" then
    ((d.call.event.get "report").get "attempt_id").isStr s.id = true
  else d.own = true

/-- A report, or the end of the transport, with the flag that the adapter is closed. -/
def Confirms : Prop :=
  s.Belongs d ∧
    (d.call.op = "probe_result" ∧
        ((d.call.event.get "report").get (closedFlag s.adapter)).isTrue = true ∨
      d.call.op = "transport_closed" ∧ (d.call.event.get (closedFlag s.adapter)).isTrue = true)

/-- What ends the attempt confirms the release. -/
def Guarded : Prop :=
  (s.phase = .discovering → d.call.op = "probe_result" → ¬ s.late d.call.now → s.Confirms d) ∧
    (s.phase = .stopping → d.call.op = "transport_closed" →
      s.Confirms d ∨ s.overdue d.call.now = true)

instance decidableBelongs : Decidable (s.Belongs d) :=
  inferInstanceAs (Decidable (ite (s.adapter = nano ∧ d.call.op = "probe_result") (_ = true)
    (_ = true)))

instance decidableConfirms : Decidable (s.Confirms d) := inferInstanceAs (Decidable (_ ∧ _))

instance decidableGuarded : Decidable (s.Guarded d) := inferInstanceAs (Decidable (_ ∧ _))

end Session

/-- A session, and what has been seen of it: it has asked for a VIN, and since then the release has been
confirmed, or the transport has had its time. -/
structure Watched where
  session : Session
  asked : Bool
  confirmed : Bool
  expired : Bool

namespace Watched

def new (id : String) (now : Nat) : Watched := ⟨.new id now, false, false, false⟩

def step (parse : String → Option Value) (w : Watched) (d : Delivery) : Watched :=
  let r := w.session.event parse d.owner d.call
  { session := r.session
    asked := w.asked || decide (r.answer.effect = .discoverVin)
    confirmed := w.confirmed || (w.asked && decide (w.session.Confirms d))
    expired := w.expired ||
      (decide (w.session.phase = .stopping) && w.session.overdue d.call.now) }

/-- The lease is kept until the release. -/
def Keeps (w : Watched) : Prop :=
  w.asked = true → w.confirmed = false → w.expired = false →
    w.session.lease = some w.session.id

instance decidableKeeps (w : Watched) : Decidable w.Keeps :=
  inferInstanceAs (Decidable (_ → _))

/-- Between the question and the release the session waits. -/
structure Waits (w : Watched) : Prop where
  lease : w.session.lease = if w.session.phase.busy then some w.session.id else none
  phase : w.asked = true → w.confirmed = false → w.expired = false →
    w.session.phase = .discovering ∨ w.session.phase = .stopping

variable {parse : String → Option Value} {w : Watched} {d : Delivery}

theorem Waits.keeps (h : w.Waits) : w.Keeps := by
  intro ha hc he
  rw [h.lease]
  rcases h.phase ha hc he with hp | hp
  · rw [hp]
    rfl
  · rw [hp]
    rfl

def call (event : Value) : Call := ⟨event, 0, "", .ok ()⟩

end Watched

end OpenSaab.Startup
