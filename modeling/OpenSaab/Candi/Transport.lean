import OpenSaab.Can.Frame
import OpenSaab.Library.Runs
import Mathlib.Data.List.Nodup

/-!
# The raw CAN session

`candi/transport.rs`: one physical channel with one frame under way, confirmed by the echo of the
driver.
-/

namespace OpenSaab.CandiTransport

open Can

/-! ## Routes -/

inductive PhysicalBus where
  | highSpeed
  | middle
  | singleWire
  deriving DecidableEq, Repr

def PhysicalBus.text : PhysicalBus → String
  | .highSpeed => "HighSpeed"
  | .middle => "Middle"
  | .singleWire => "SingleWire"

structure Route where
  nativeChannel : Nat
  address : Nat
  bus : PhysicalBus
  deriving DecidableEq, Repr

def routes : List Route :=
  [⟨4, 0x200000, .highSpeed⟩, ⟨2, 0x201000, .middle⟩, ⟨0, 0x202000, .singleWire⟩]

def Route.unavailable (r : Route) : String :=
  "Bus unavailable: " ++ r.bus.text ++ ", native channel " ++ toString r.nativeChannel ++
    ", window 0x" ++ String.ofList (Nat.toDigits 16 r.address) ++
    "; no remapping to high-speed CAN"

/-! ## The session -/

/-- One second, in nanoseconds. -/
def second : Nat := 1000000000

structure Pending where
  tx : Transmission
  accepted : Bool
  deadline : Nat
  deriving DecidableEq, Repr

structure NanoHsSession where
  pending : Option Pending
  lastTicket : UInt64
  closed : Bool
  deriving DecidableEq, Repr

inductive Event where
  | transmitted (controller : Nat) (ticket : UInt64)
  | received (controller : Nat) (frame : Frame)
  deriving DecidableEq, Repr

namespace NanoHsSession

def new : NanoHsSession := ⟨none, 0, false⟩

def close (s : NanoHsSession) : NanoHsSession := { s with pending := none, closed := true }

def timeout : String := "CAN transmit confirmation timeout; outcome unknown; reopen adapter channel"

def staleTicket : String := "Stale or reused CAN transmission ticket"

def checkDeadline (s : NanoHsSession) (now : Nat) : NanoHsSession × Except String Unit :=
  if s.closed then (s, .error "Raw CAN session closed; reopen adapter channel")
  else if s.pending.any fun p => p.deadline ≤ now then (s.close, .error timeout)
  else (s, .ok ())

/-- `u32::to_be_bytes`. -/
def idBytes (id : UInt32) : List UInt8 :=
  [(id >>> 24).toUInt8, (id >>> 16).toUInt8, (id >>> 8).toUInt8, id.toUInt8]

/-- `u32::from_be_bytes`. -/
def bytesId (bytes : List UInt8) : UInt32 := bytes.foldl (fun id b => id <<< 8 ||| b.toUInt32) 0

/-- What `prepare` refuses without a look at the session. -/
def admissible (controller : Nat) (tx : Transmission) : Except String Unit :=
  match routes[controller]? with
  | none => .error "Unknown CANdi controller"
  | some route =>
    if route.bus ≠ .highSpeed then .error route.unavailable
    else if tx.electrical ≠ .standardCan then
      .error "Unsupported electrical state for Nano high-speed route; no wake-up mode conversion"
    else if ¬ (tx.btr0 = 0xc1 ∧ tx.btr1 = 0x36) then
      .error "Unverified CAN bit timing for Nano 500000-baud route"
    else
      match tx.frame.validate with
      | .error e => .error e
      | .ok () =>
        if tx.frame.extended ∨ tx.frame.rtr then
          .error "Nano bench route supports standard data frames only"
        else .ok ()

def prepare (s : NanoHsSession) (controller : Nat) (tx : Transmission) (now : Nat) :
    NanoHsSession × Except String (List UInt8) :=
  match s.checkDeadline now with
  | (s, .error e) => (s, .error e)
  | (s, .ok ()) =>
    match admissible controller tx with
    | .error e => (s, .error e)
    | .ok () =>
      if s.pending.isSome then (s, .error "CAN transmit already pending")
      else if tx.ticket ≤ s.lastTicket then (s.close, .error staleTicket)
      else
        ({ s with lastTicket := tx.ticket, pending := some ⟨tx, false, now + second⟩ },
          .ok (idBytes tx.frame.id ++ tx.frame.data))

def driverAccepted (s : NanoHsSession) (count : UInt32) (now : Nat) :
    NanoHsSession × Except String Unit :=
  match s.checkDeadline now with
  | (s, .error e) => (s, .error e)
  | (s, .ok ()) =>
    match s.pending with
    | some p =>
      if count ≠ 1 ∨ p.accepted then (s.close, .error "Unexpected raw CAN driver acceptance")
      else ({ s with pending := some { p with accepted := true } }, .ok ())
    | none => (s.close, .error "Unexpected raw CAN driver acceptance")

/-- The frame in a message of the driver. -/
def messageFrame (data : List UInt8) : Frame :=
  ⟨bytesId (data.take 4), false, false, UInt8.ofNat (data.length - 4), data.drop 4⟩

/-- A received frame, or the confirmation of the one that is under way. -/
def deliver (s : NanoHsSession) (status : UInt32) (frame : Frame) :
    NanoHsSession × Except String Event :=
  if status = 0 then
    if frame.id ≠ 0x7e8 then
      (s.close, .error "Unexpected CAN ID outside Nano bench receive filter")
    else (s, .ok (.received 0 frame))
  else
    let unmatched := "Unmatched CAN transmit confirmation; reopen adapter channel"
    match s.pending with
    | some p =>
      if p.accepted ∧ p.tx.frame = frame then
        ({ s with pending := none }, .ok (.transmitted 0 p.tx.ticket))
      else (s.close, .error unmatched)
    | none => (s.close, .error unmatched)

def receive (s : NanoHsSession) (protocol status : UInt32) (data : List UInt8) (now : Nat) :
    NanoHsSession × Except String Event :=
  match s.checkDeadline now with
  | (s, .error e) => (s, .error e)
  | (s, .ok ()) =>
    if protocol ≠ 5 ∨ ¬ (status = 0 ∨ status = 1) ∨ ¬ (4 ≤ data.length ∧ data.length ≤ 12) then
      (s.close, .error "Unsupported or malformed raw CAN driver message")
    else
      match (messageFrame data).validate with
      | .error _ => (s.close, .error "Invalid raw CAN driver identifier")
      | .ok () => s.deliver status (messageFrame data)

/-! ## Operations and what they report -/

inductive Op where
  | prepare (controller : Nat) (tx : Transmission) (now : Nat)
  | driverAccepted (count : UInt32) (now : Nat)
  | receive (protocol status : UInt32) (data : List UInt8) (now : Nat)
  | checkDeadline (now : Nat)
  | close
  deriving DecidableEq, Repr

inductive Reply where
  | data (bytes : List UInt8)
  | event (event : Event)
  | done
  deriving DecidableEq, Repr

def apply (s : NanoHsSession) : Op → NanoHsSession × Except String Reply
  | .prepare controller tx now =>
    let r := s.prepare controller tx now
    (r.1, r.2.map .data)
  | .driverAccepted count now =>
    let r := s.driverAccepted count now
    (r.1, r.2.map fun _ => .done)
  | .receive protocol status data now =>
    let r := s.receive protocol status data now
    (r.1, r.2.map .event)
  | .checkDeadline now =>
    let r := s.checkDeadline now
    (r.1, r.2.map fun _ => .done)
  | .close => (s.close, .ok .done)

/-- What has come of the operations that succeeded. -/
inductive Record where
  | prepared (tx : Transmission) (now : Nat)
  | accepted (now : Nat)
  | transmitted (ticket : UInt64) (frame : Frame) (now : Nat)
  | received (frame : Frame)
  deriving DecidableEq, Repr

def record (s : NanoHsSession) (op : Op) : List Record :=
  match op, (s.apply op).2 with
  | .prepare _ tx now, .ok _ => [.prepared tx now]
  | .driverAccepted _ now, .ok _ => [.accepted now]
  | .receive _ _ data now, .ok (.event (.transmitted _ ticket)) =>
    [.transmitted ticket (messageFrame data) now]
  | .receive _ _ _ _, .ok (.event (.received _ frame)) => [.received frame]
  | _, _ => []

/-! ## What one operation does -/

variable {s s' : NanoHsSession}

inductive Step (s : NanoHsSession) : NanoHsSession → List Record → Prop where
  | same : Step s s []
  | closed : Step s s.close []
  | prepared {tx : Transmission} {now : Nat} (hpending : s.pending = none)
      (hticket : s.lastTicket < tx.ticket) :
      Step s { s with lastTicket := tx.ticket, pending := some ⟨tx, false, now + second⟩ }
        [.prepared tx now]
  | accepted {p : Pending} {now : Nat} (hpending : s.pending = some p)
      (hfirst : p.accepted = false) (hnow : now < p.deadline) :
      Step s { s with pending := some { p with accepted := true } } [.accepted now]
  | received {frame : Frame} : Step s s [.received frame]
  | transmitted {p : Pending} {now : Nat} (hpending : s.pending = some p)
      (haccepted : p.accepted = true) (hnow : now < p.deadline) :
      Step s { s with pending := none } [.transmitted p.tx.ticket p.tx.frame now]

/-- The check passes, or it leaves the session as it is or closes it. -/
theorem checkDeadline_cases (s : NanoHsSession) (now : Nat) :
    s.checkDeadline now = (s, .ok ()) ∧ s.closed = false ∧ (∀ p ∈ s.pending, now < p.deadline) ∨
      ∃ e, s.checkDeadline now = (s, .error e) ∨
        s.checkDeadline now = (s.close, .error e) ∧ e = timeout := by
  unfold checkDeadline
  split_ifs with hclosed hdeadline
  · exact .inr ⟨_, .inl rfl⟩
  · exact .inr ⟨_, .inr ⟨rfl, rfl⟩⟩
  · refine .inl ⟨rfl, by simpa using hclosed, ?_⟩
    intro p hp
    rw [hp] at hdeadline
    simpa using hdeadline

theorem prepare_step (s : NanoHsSession) (controller : Nat) (tx : Transmission) (now : Nat) :
    Step s (s.prepare controller tx now).1
      (match (s.prepare controller tx now).2 with
        | .ok _ => [.prepared tx now]
        | .error _ => []) := by
  unfold prepare
  rcases checkDeadline_cases s now with ⟨h, -, -⟩ | ⟨e, h | ⟨h, -⟩⟩
  · rw [h]
    dsimp only
    cases admissible controller tx with
    | error e => exact .same
    | ok =>
      dsimp only
      split_ifs with hpending hticket
      · exact .same
      · exact .closed
      · exact .prepared (Option.not_isSome_iff_eq_none.mp hpending) (UInt64.not_le.mp hticket)
  · rw [h]
    exact .same
  · rw [h]
    exact .closed

theorem driverAccepted_step (s : NanoHsSession) (count : UInt32) (now : Nat) :
    Step s (s.driverAccepted count now).1
      (match (s.driverAccepted count now).2 with
        | .ok _ => [.accepted now]
        | .error _ => []) := by
  unfold driverAccepted
  rcases checkDeadline_cases s now with ⟨h, -, hdeadline⟩ | ⟨e, h | ⟨h, -⟩⟩
  · rw [h]
    dsimp only
    cases hpending : s.pending with
    | none => exact .closed
    | some p =>
      dsimp only
      split_ifs with hrefused
      · exact .closed
      · have hfirst := (not_or.mp hrefused).2
        exact .accepted hpending (by simpa using hfirst) (hdeadline p hpending)
  · rw [h]
    exact .same
  · rw [h]
    exact .closed

theorem deliver_step (status : UInt32) (frame : Frame) {now : Nat}
    (hdeadline : ∀ p ∈ s.pending, now < p.deadline) :
    Step s (s.deliver status frame).1
      (match (s.deliver status frame).2 with
        | .ok (.transmitted _ ticket) => [.transmitted ticket frame now]
        | .ok (.received _ frame) => [.received frame]
        | .error _ => []) := by
  unfold deliver
  cases hpending : s.pending with
  | none =>
    dsimp only
    split_ifs
    · exact .closed
    · exact .received
    · exact .closed
  | some p =>
    dsimp only
    split_ifs with _ _ hmatch
    · exact .closed
    · exact .received
    · have htransmitted := Step.transmitted hpending hmatch.1 (hdeadline p hpending)
      rw [hmatch.2] at htransmitted
      exact htransmitted
    · exact .closed

theorem receive_step (s : NanoHsSession) (protocol status : UInt32) (data : List UInt8) (now : Nat) :
    Step s (s.receive protocol status data now).1
      (match (s.receive protocol status data now).2 with
        | .ok (.transmitted _ ticket) => [.transmitted ticket (messageFrame data) now]
        | .ok (.received _ frame) => [.received frame]
        | .error _ => []) := by
  unfold receive
  rcases checkDeadline_cases s now with ⟨h, -, hdeadline⟩ | ⟨e, h | ⟨h, -⟩⟩
  · rw [h]
    dsimp only
    split_ifs
    · exact .closed
    · cases (messageFrame data).validate with
      | error e => exact .closed
      | ok => exact deliver_step status (messageFrame data) hdeadline
  · rw [h]
    exact .same
  · rw [h]
    exact .closed

theorem apply_step (s : NanoHsSession) (op : Op) : Step s (s.apply op).1 (s.record op) := by
  unfold record apply
  cases op with
  | prepare controller tx now =>
    have hstep := prepare_step s controller tx now
    dsimp only
    revert hstep
    rcases s.prepare controller tx now with ⟨s', e | bytes⟩
    · exact id
    · exact id
  | driverAccepted count now =>
    have hstep := driverAccepted_step s count now
    dsimp only
    revert hstep
    rcases s.driverAccepted count now with ⟨s', e | _⟩
    · exact id
    · exact id
  | receive protocol status data now =>
    have hstep := receive_step s protocol status data now
    dsimp only
    revert hstep
    rcases s.receive protocol status data now with ⟨s', e | event⟩
    · exact id
    · cases event with
      | transmitted controller ticket => exact id
      | received controller frame => exact id
  | checkDeadline now =>
    dsimp only
    rcases checkDeadline_cases s now with ⟨h, -, -⟩ | ⟨e, h | ⟨h, -⟩⟩
    · rw [h]
      exact .same
    · rw [h]
      exact .same
    · rw [h]
      exact .closed
  | close => exact .closed

/-! ## Refusals -/

/-- A closed session stays closed and refuses everything but to be closed. -/
theorem apply_closed (h : s.closed = true) (op : Op) :
    (s.apply op).1.closed = true ∧ (op ≠ .close → ∃ e, (s.apply op).2 = .error e) := by
  have hcheck : ∀ now, s.checkDeadline now =
      (s, .error "Raw CAN session closed; reopen adapter channel") := fun now => if_pos h
  cases op with
  | prepare controller tx now =>
    rw [apply, prepare, hcheck]
    exact ⟨h, fun _ => ⟨_, rfl⟩⟩
  | driverAccepted count now =>
    rw [apply, driverAccepted, hcheck]
    exact ⟨h, fun _ => ⟨_, rfl⟩⟩
  | receive protocol status data now =>
    rw [apply, receive, hcheck]
    exact ⟨h, fun _ => ⟨_, rfl⟩⟩
  | checkDeadline now =>
    rw [apply, hcheck]
    exact ⟨h, fun _ => ⟨_, rfl⟩⟩
  | close => exact ⟨rfl, fun hne => absurd rfl hne⟩

theorem prepare_refused {controller : Nat} {tx : Transmission} {now : Nat} {e : String}
    (h : s.prepare controller tx now = (s', .error e)) (htimeout : e ≠ timeout)
    (hstale : e ≠ staleTicket) : s' = s := by
  unfold prepare at h
  rcases checkDeadline_cases s now with ⟨hcheck, -, -⟩ | ⟨e', hcheck | ⟨hcheck, he⟩⟩
  · rw [hcheck] at h
    dsimp only at h
    cases hadmissible : admissible controller tx with
    | error e' =>
      rw [hadmissible] at h
      exact (Prod.mk.inj h).1.symm
    | ok =>
      rw [hadmissible] at h
      dsimp only at h
      split_ifs at h
      · exact (Prod.mk.inj h).1.symm
      · exact absurd (Except.error.inj (Prod.mk.inj h).2).symm hstale
      · cases (Prod.mk.inj h).2
  · rw [hcheck] at h
    exact (Prod.mk.inj h).1.symm
  · rw [hcheck] at h
    subst he
    exact absurd (Except.error.inj (Prod.mk.inj h).2).symm htimeout

/-! ## Histories -/

/-- A session and what has come of its operations so far. -/
structure Traced where
  session : NanoHsSession
  history : List Record

def Traced.new : Traced := ⟨.new, []⟩

def Traced.step (t : Traced) (op : Op) : Traced :=
  ⟨(t.session.apply op).1, t.history ++ t.session.record op⟩

def preparedTickets (history : List Record) : List UInt64 :=
  history.filterMap fun
    | .prepared tx _ => some tx.ticket
    | _ => none

def transmittedTickets (history : List Record) : List UInt64 :=
  history.filterMap fun
    | .transmitted ticket _ _ => some ticket
    | _ => none

/-- Nothing but received frames. -/
def Quiet (history : List Record) : Prop := ∀ r ∈ history, ∃ frame, r = .received frame

/-- The history ends with the preparation of `tx`, not followed by an acceptance yet. -/
def Prepared (history : List Record) (tx : Transmission) (deadline : Nat) : Prop :=
  ∃ before after now, history = before ++ .prepared tx now :: after ∧ Quiet after ∧
    deadline = now + second

/-- The history ends with the preparation of `tx` and its acceptance in time. -/
def Accepted (history : List Record) (tx : Transmission) (deadline : Nat) : Prop :=
  ∃ before after now, history = before ++ .accepted now :: after ∧ Quiet after ∧ now < deadline ∧
    Prepared before tx deadline

/-- Every confirmation is about the frame that was prepared and accepted last, and in time. -/
def Confirmed (history : List Record) : Prop :=
  ∀ before ticket frame now after, history = before ++ .transmitted ticket frame now :: after →
    ∃ tx deadline, tx.ticket = ticket ∧ tx.frame = frame ∧ now < deadline ∧
      Accepted before tx deadline

theorem Quiet.nil : Quiet [] := fun _ h => absurd h List.not_mem_nil

theorem Quiet.received {history : List Record} (h : Quiet history) (frame : Frame) :
    Quiet (history ++ [.received frame]) := by
  intro r hr
  rcases List.mem_append.mp hr with hr | hr
  · exact h r hr
  · exact ⟨frame, List.mem_singleton.mp hr⟩

theorem Prepared.received {history : List Record} {tx : Transmission} {deadline : Nat}
    (h : Prepared history tx deadline) (frame : Frame) :
    Prepared (history ++ [.received frame]) tx deadline := by
  obtain ⟨before, after, now, rfl, hquiet, hdeadline⟩ := h
  exact ⟨before, after ++ [.received frame], now, by simp, hquiet.received frame, hdeadline⟩

theorem Accepted.received {history : List Record} {tx : Transmission} {deadline : Nat}
    (h : Accepted history tx deadline) (frame : Frame) :
    Accepted (history ++ [.received frame]) tx deadline := by
  obtain ⟨before, after, now, rfl, hquiet, hnow, hprepared⟩ := h
  exact ⟨before, after ++ [.received frame], now, by simp, hquiet.received frame, hnow, hprepared⟩

theorem Confirmed.append {history : List Record} (h : Confirmed history) {r : Record}
    (hr : ∀ ticket frame now, r = .transmitted ticket frame now →
      ∃ tx deadline, tx.ticket = ticket ∧ tx.frame = frame ∧ now < deadline ∧
        Accepted history tx deadline) : Confirmed (history ++ [r]) := by
  intro before ticket frame now after heq
  rcases List.eq_nil_or_concat after with rfl | ⟨rest, last, rfl⟩
  · obtain ⟨rfl, hlast⟩ := List.append_inj' heq rfl
    exact hr ticket frame now (List.cons.inj hlast).1
  · rw [List.concat_eq_append, ← List.cons_append, ← List.append_assoc] at heq
    exact h before ticket frame now rest (List.append_inj' heq rfl).1

/-- What the history says about the ticket of the session. -/
structure Ordered (s : NanoHsSession) (history : List Record) : Prop where
  prepared : (preparedTickets history).Pairwise (· < ·)
  preparedLast : ∀ ticket ∈ preparedTickets history, ticket ≤ s.lastTicket
  transmitted : (transmittedTickets history).Pairwise (· < ·)
  transmittedLast : ∀ ticket ∈ transmittedTickets history, ticket ≤ s.lastTicket
  pendingLast : ∀ p, s.pending = some p → p.tx.ticket = s.lastTicket ∧
    ∀ ticket ∈ transmittedTickets history, ticket < s.lastTicket

/-- What the history says about the frame under way. -/
structure Evident (s : NanoHsSession) (history : List Record) : Prop where
  waiting : ∀ p, s.pending = some p → p.accepted = false → Prepared history p.tx p.deadline
  accepted : ∀ p, s.pending = some p → p.accepted = true → Accepted history p.tx p.deadline
  confirmed : Confirmed history

theorem preparedTickets_append (history rs : List Record) :
    preparedTickets (history ++ rs) = preparedTickets history ++ preparedTickets rs :=
  List.filterMap_append

theorem transmittedTickets_append (history rs : List Record) :
    transmittedTickets (history ++ rs) = transmittedTickets history ++ transmittedTickets rs :=
  List.filterMap_append

theorem pairwise_snoc {xs : List UInt64} {x : UInt64} (h : xs.Pairwise (· < ·))
    (hx : ∀ y ∈ xs, y < x) : (xs ++ [x]).Pairwise (· < ·) := by
  refine List.pairwise_append.mpr ⟨h, List.pairwise_singleton _ _, ?_⟩
  intro y hy z hz
  rw [List.mem_singleton.mp hz]
  exact hx y hy

theorem le_of_mem_snoc {xs : List UInt64} {x y : UInt64} (hx : ∀ z ∈ xs, z < x)
    (h : y ∈ xs ++ [x]) : y ≤ x := by
  rcases List.mem_append.mp h with h | h
  · exact UInt64.le_of_lt (hx y h)
  · rw [List.mem_singleton.mp h]
    exact UInt64.le_refl x

/-- What brings no ticket and changes none. -/
theorem Ordered.same {history rs : List Record} (h : Ordered s history)
    (hlast : s'.lastTicket = s.lastTicket) (hprepared : preparedTickets rs = [])
    (htransmitted : transmittedTickets rs = [])
    (hpending : ∀ p, s'.pending = some p → ∃ q, s.pending = some q ∧ q.tx = p.tx) :
    Ordered s' (history ++ rs) := by
  have hp : preparedTickets (history ++ rs) = preparedTickets history := by
    rw [preparedTickets_append, hprepared, List.append_nil]
  have ht : transmittedTickets (history ++ rs) = transmittedTickets history := by
    rw [transmittedTickets_append, htransmitted, List.append_nil]
  refine ⟨hp ▸ h.prepared, ?_, ht ▸ h.transmitted, ?_, ?_⟩
  · rw [hp, hlast]
    exact h.preparedLast
  · rw [ht, hlast]
    exact h.transmittedLast
  · intro p hp'
    obtain ⟨q, hq, htx⟩ := hpending p hp'
    rw [ht, hlast, ← htx]
    exact h.pendingLast q hq

theorem Ordered.step {history rs : List Record} (h : Ordered s history) (hs : Step s s' rs) :
    Ordered s' (history ++ rs) := by
  cases hs with
  | same => exact h.same rfl rfl rfl fun p hp => ⟨p, hp, rfl⟩
  | closed => exact h.same rfl rfl rfl fun p hp => (nomatch hp)
  | received => exact h.same rfl rfl rfl fun p hp => ⟨p, hp, rfl⟩
  | @accepted p now hpending =>
    refine h.same rfl rfl rfl ?_
    intro q hq
    obtain rfl := Option.some.inj hq
    exact ⟨p, hpending, rfl⟩
  | @prepared tx now hpending hticket =>
    have hold : ∀ ticket ∈ preparedTickets history, ticket < tx.ticket := fun ticket ht =>
      UInt64.lt_of_le_of_lt (h.preparedLast ticket ht) hticket
    have hsent : ∀ ticket ∈ transmittedTickets history, ticket < tx.ticket := fun ticket ht =>
      UInt64.lt_of_le_of_lt (h.transmittedLast ticket ht) hticket
    have hp : preparedTickets (history ++ [.prepared tx now]) =
        preparedTickets history ++ [tx.ticket] := preparedTickets_append history _
    have ht : transmittedTickets (history ++ [.prepared tx now]) = transmittedTickets history := by
      rw [transmittedTickets_append]
      exact List.append_nil _
    refine ⟨hp ▸ pairwise_snoc h.prepared hold, ?_, ht ▸ h.transmitted, ?_, ?_⟩
    · rw [hp]
      exact fun _ hmem => le_of_mem_snoc hold hmem
    · rw [ht]
      exact fun ticket hmem => UInt64.le_of_lt (hsent ticket hmem)
    · intro p hpending'
      obtain rfl := Option.some.inj hpending'
      rw [ht]
      exact ⟨rfl, hsent⟩
  | @transmitted p now hpending =>
    obtain ⟨hlast, hless⟩ := h.pendingLast p hpending
    have hp : preparedTickets (history ++ [.transmitted p.tx.ticket p.tx.frame now]) =
        preparedTickets history := by
      rw [preparedTickets_append]
      exact List.append_nil _
    have ht : transmittedTickets (history ++ [.transmitted p.tx.ticket p.tx.frame now]) =
        transmittedTickets history ++ [s.lastTicket] := by
      rw [transmittedTickets_append, ← hlast]
      rfl
    refine ⟨hp ▸ h.prepared, ?_, ht ▸ pairwise_snoc h.transmitted hless, ?_, fun _ hq => (nomatch hq)⟩
    · rw [hp]
      exact h.preparedLast
    · rw [ht]
      exact fun _ hmem => le_of_mem_snoc hless hmem

theorem Evident.step {history rs : List Record} (h : Evident s history) (hs : Step s s' rs) :
    Evident s' (history ++ rs) := by
  cases hs with
  | same => rwa [List.append_nil]
  | closed =>
    rw [List.append_nil]
    exact ⟨fun _ hp => (nomatch hp), fun _ hp => (nomatch hp), h.confirmed⟩
  | @received frame =>
    exact ⟨fun p hp hw => (h.waiting p hp hw).received frame,
      fun p hp ha => (h.accepted p hp ha).received frame, h.confirmed.append fun _ _ _ hr => (nomatch hr)⟩
  | @prepared tx now hpending hticket =>
    refine ⟨?_, ?_, h.confirmed.append fun _ _ _ hr => (nomatch hr)⟩
    · intro p hp _
      obtain rfl := Option.some.inj hp
      exact ⟨history, [], now, rfl, .nil, rfl⟩
    · intro p hp ha
      obtain rfl := Option.some.inj hp
      cases ha
  | @accepted p now hpending hfirst hnow =>
    refine ⟨?_, ?_, h.confirmed.append fun _ _ _ hr => (nomatch hr)⟩
    · intro q hq hw
      obtain rfl := Option.some.inj hq
      cases hw
    · intro q hq _
      obtain rfl := Option.some.inj hq
      exact ⟨history, [], now, rfl, .nil, hnow, h.waiting p hpending hfirst⟩
  | @transmitted p now hpending haccepted hnow =>
    refine ⟨fun _ hq => (nomatch hq), fun _ hq => (nomatch hq), h.confirmed.append ?_⟩
    intro ticket frame now' hr
    cases hr
    exact ⟨p.tx, p.deadline, rfl, rfl, hnow, h.accepted p hpending haccepted⟩

theorem run_inv (ops : List Op) :
    Ordered (Runs.run Traced.step .new ops).session (Runs.run Traced.step .new ops).history ∧
      Evident (Runs.run Traced.step .new ops).session (Runs.run Traced.step .new ops).history := by
  refine Runs.run_invariant (I := fun t : Traced => Ordered t.session t.history ∧
    Evident t.session t.history) ?_ ops ⟨?_, ?_⟩
  · rintro t op ⟨hordered, hevident⟩
    have hstep := apply_step t.session op
    exact ⟨hordered.step hstep, hevident.step hstep⟩
  · exact ⟨.nil, fun _ h => (nomatch h), .nil, fun _ h => (nomatch h), fun _ h => (nomatch h)⟩
  · refine ⟨fun _ h => (nomatch h), fun _ h => (nomatch h), ?_⟩
    intro before ticket frame now after h
    exact absurd h.symm (List.append_ne_nil_of_right_ne_nil _ (List.cons_ne_nil _ _))

theorem run_closed {t : Traced} (h : t.session.closed = true) (ops : List Op) :
    (Runs.run Traced.step t ops).session.closed = true :=
  Runs.run_invariant (I := fun t : Traced => t.session.closed = true)
    (fun _ op hclosed => (apply_closed hclosed op).1) ops h

/-- Whatever the order of the operations: no ticket is confirmed twice; a confirmation is about the
frame prepared last, accepted and echoed before its deadline; tickets increase; a closed session
refuses everything from then on; and a refused preparation leaves the session as it is, unless the
frame under way has expired or the ticket is stale. -/
theorem transmissions_accounted (ops : List Op) :
    let t := Runs.run Traced.step .new ops
    (transmittedTickets t.history).Nodup ∧
    Confirmed t.history ∧
    (preparedTickets t.history).Pairwise (· < ·) ∧
    (t.session.closed = true → ∀ more : List Op,
      (Runs.run Traced.step t more).session.closed = true ∧
      ∀ op, op ≠ .close → ∃ e, ((Runs.run Traced.step t more).session.apply op).2 = .error e) ∧
    (∀ controller tx now s' e, t.session.prepare controller tx now = (s', .error e) →
      e ≠ timeout → e ≠ staleTicket → s' = t.session) := by
  intro t
  obtain ⟨hordered, hevident⟩ := run_inv ops
  refine ⟨?_, hevident.confirmed, hordered.prepared, ?_, ?_⟩
  · exact hordered.transmitted.imp UInt64.ne_of_lt
  · intro hclosed more
    have hmore := run_closed hclosed more
    exact ⟨hmore, fun op => (apply_closed hmore op).2⟩
  · intro controller tx now s' e h htimeout hstale
    exact prepare_refused h htimeout hstale

end NanoHsSession

end OpenSaab.CandiTransport
