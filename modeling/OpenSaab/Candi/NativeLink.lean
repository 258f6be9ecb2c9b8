import OpenSaab.Candi.Sja1000
import OpenSaab.Library.Drain

/-!
# Batched delivery to the controllers

`can_adapter.rs`, `cpu.rs`, `native_link.rs`: what a driver reports is staged for each controller,
and a poll delivers it. A frame waits only while the guest is about to make room for it.
-/

namespace OpenSaab.Candi

open Runs Can Text Drain

/-! ## The staging -/

structure ReceiveStaging where
  queues : Vector (List Frame) 3
  deriving DecidableEq, Repr

namespace ReceiveStaging

def empty : ReceiveStaging := ⟨Vector.replicate 3 []⟩

/-- What is staged for one controller. -/
def staged (s : ReceiveStaging) (c : Fin 3) : List Frame := s.queues[c]

def len (s : ReceiveStaging) : Nat := (s.queues.toList.map List.length).sum

def push (s : ReceiveStaging) (controller : Nat) (f : Frame) : Except String ReceiveStaging :=
  match f.validate with
  | .error e => .error e
  | .ok () =>
    if h : controller < 3 then
      if 4096 ≤ s.len then .error "Live CANdi receive staging queue full; no silent frame discard"
      else .ok ⟨s.queues.set controller (s.queues[controller] ++ [f])⟩
    else .error "CAN controller is not mapped"

/-- One round over the controllers. The result counts those that were left waiting. -/
def drain {σ : Type} (s : ReceiveStaging) (deliver : Callback σ Frame String 3) (state : σ) :
    Except String Nat × ReceiveStaging × σ :=
  let (result, queues, state) := Drain.queues deliver (List.finRange 3) s.queues state
  (result, ⟨queues⟩, state)

end ReceiveStaging

/-! ## The machine -/

/-- What reception reads and writes of the machine. -/
structure Machine where
  can : Option (Vector Controller 3)
  canEvents : List String
  /-- The byte at `0x11f` of the peripherals, which routes the interrupt pins. -/
  interruptPins : UInt8
  deriving DecidableEq, Repr

/-- The interrupt levels of `ROUTES`. -/
def interruptLevels : Vector UInt8 3 := #v[4, 3, 2]

namespace Machine

def unmapped : String := "CAN controller is not mapped"

def chip (m : Machine) (controller : Nat) : Option Controller := m.can.bind (·[controller]?)

def setChip (m : Machine) (controller : Nat) (chip : Controller) : Machine :=
  { m with can := m.can.map (·.setIfInBounds controller chip) }

def externalIrqEnabled (m : Machine) (level : UInt8) : Bool :=
  2 ≤ level && level ≤ 4 && m.interruptPins &&& (1 <<< level) != 0

def canInterruptRouted (m : Machine) (controller : Nat) : Except String Bool :=
  match interruptLevels[controller]? with
  | none => .error unmapped
  | some level => .ok (m.externalIrqEnabled level)

def canReceiveState (m : Machine) (controller : Nat) : Except String ReceiveState :=
  match m.chip controller with
  | none => .error unmapped
  | some chip => .ok chip.receiveState

/-- The overrun bit, as a read of the status register shows it. -/
def overrunSignalled (chip : Controller) : Bool := (chip.read 2).1.getD 0 &&& 2 != 0

def receiveCanFrameAtTiming (m : Machine) (controller : Nat) (f : Frame) (btr0 btr1 : UInt8) :
    Except String Bool × Machine :=
  match m.chip controller with
  | none => (.error unmapped, m)
  | some chip =>
    if chip.bitTiming ≠ (btr0, btr1) then (.ok false, m)
    else
      match chip.receive f with
      | (.error e, chip') => (.error e, m.setChip controller chip')
      | (.ok received, chip') =>
        let m := m.setChip controller chip'
        if ¬ overrunSignalled chip ∧ overrunSignalled chip' then
          if 1023 ≤ m.canEvents.length then (.error "CAN trace full at RX overrun", m)
          else
            (.ok received,
              { m with
                canEvents := m.canEvents ++
                  ["CAN RX FIFO overrun controller=" ++ toString controller ++
                    "; new frame dropped; native status/interrupt signalled"] })
        else (.ok received, m)

def canReceiveWouldOverrun (m : Machine) (controller : Nat) (f : Frame) (btr0 btr1 : UInt8) :
    Except String Bool :=
  match m.chip controller with
  | none => .error unmapped
  | some chip => if chip.bitTiming = (btr0, btr1) then chip.receiveWouldOverrun f else .ok false

/-- Waiting helps only while the guest takes the receive interrupt. -/
def shouldDeferCanReceive (m : Machine) (controller : Nat) (f : Frame) (btr0 btr1 : UInt8) :
    Except String Bool :=
  match m.canReceiveWouldOverrun controller f btr0 btr1 with
  | .error e => .error e
  | .ok false => .ok false
  | .ok true =>
    match m.canInterruptRouted controller with
    | .error e => .error e
    | .ok false => .ok false
    | .ok true => (m.canReceiveState controller).map fun state => state.interruptEnable &&& 1 != 0

end Machine

/-! ## The link -/

/-- What a delivery reads and writes of the link. -/
structure Receiver where
  machine : Machine
  rxOverruns : Vector Nat 3
  deriving DecidableEq, Repr

/-- `u64::saturating_add`. -/
def saturatingAdd (n m : Nat) : Nat := min (n + m) (2 ^ 64 - 1)

/-- The fixed rates of the attached buses. -/
def busBtr0 (controller : Fin 3) : UInt8 := if controller = 0 then 0xc1 else 0xdd

/-- The delivery of one frame in a poll. -/
def deliver : Callback Receiver Frame String 3 := fun c f r =>
  let btr0 := busBtr0 c
  match r.machine.shouldDeferCanReceive c f btr0 0x36 with
  | .error e => (.error e, r)
  | .ok true => (.ok false, r)
  | .ok false =>
    match r.machine.canReceiveWouldOverrun c f btr0 0x36 with
    | .error e => (.error e, r)
    | .ok overrun =>
      match r.machine.receiveCanFrameAtTiming c f btr0 0x36 with
      | (.error e, machine) =>
        (.error ("controller=" ++ toString c.val ++ " id=" ++ hexId f.id ++ ": " ++ e),
          { r with machine })
      | (.ok accepted, machine) =>
        (.ok true,
          { machine
            rxOverruns :=
              if ¬ accepted ∧ overrun then r.rxOverruns.set c (saturatingAdd r.rxOverruns[c] 1)
              else r.rxOverruns })

structure Link where
  receiver : Receiver
  pendingRx : ReceiveStaging
  rxDeferredPolls : Nat
  deriving DecidableEq, Repr

namespace Link

/-- The receive half of `poll_bridge`. -/
def poll (l : Link) : Except String Unit × Link :=
  match l.pendingRx.drain deliver l.receiver with
  | (.error e, pendingRx, receiver) => (.error e, { l with pendingRx, receiver })
  | (.ok deferred, pendingRx, receiver) =>
    (.ok (), ⟨receiver, pendingRx, saturatingAdd l.rxDeferredPolls deferred⟩)

def push (l : Link) (controller : Nat) (f : Frame) : Except String Unit × Link :=
  match l.pendingRx.push controller f with
  | .error e => (.error e, l)
  | .ok pendingRx => (.ok (), { l with pendingRx })

/-- What happens between two moments of a link: the driver reports a frame, the link polls, and the
guest runs, which may do anything to the machine. -/
inductive Event where
  | push (controller : Nat) (f : Frame)
  | poll
  | guest (f : Machine → Machine)

def step (l : Link) : Event → Link
  | .push controller f => (l.push controller f).2
  | .poll => l.poll.2
  | .guest f => { l with receiver := { l.receiver with machine := f l.receiver.machine } }

end Link

/-! ## What the deferral test predicts -/

/-- The chip accepts the frame at this timing and does not store it, because its queue is full. -/
def Machine.Drops (m : Machine) (controller : Nat) (f : Frame) (btr0 btr1 : UInt8) : Prop :=
  ∃ chip, m.chip controller = some chip ∧ chip.bitTiming = (btr0, btr1) ∧ chip.accepts f = .ok true ∧
    (chip.receive f).1 = .ok false

/-- The receive interrupt of the controller is routed and enabled. -/
def Machine.Receiving (m : Machine) (controller : Nat) : Prop :=
  m.canInterruptRouted controller = .ok true ∧
    ∃ state, m.canReceiveState controller = .ok state ∧ state.interruptEnable &&& 1 ≠ 0

theorem Controller.receiveWouldOverrun_iff {chip : Controller} {f : Frame} :
    chip.receiveWouldOverrun f = .ok true ↔
      chip.accepts f = .ok true ∧ (chip.receive f).1 = .ok false := by
  unfold receiveWouldOverrun receive
  rcases haccepts : chip.accepts f with e | (_ | _)
  · simp [Except.map]
  · simp [Except.map]
  · by_cases hroom : 64 < chip.rxBytes + f.encode.length <;> simp [Except.map, hroom]

namespace Machine

variable {m : Machine} {controller : Nat} {f : Frame} {btr0 btr1 : UInt8}

theorem canReceiveWouldOverrun_iff :
    m.canReceiveWouldOverrun controller f btr0 btr1 = .ok true ↔ m.Drops controller f btr0 btr1 := by
  unfold canReceiveWouldOverrun Drops
  cases m.chip controller with
  | none => simp
  | some chip =>
    by_cases htiming : chip.bitTiming = (btr0, btr1)
    · simp [htiming, Controller.receiveWouldOverrun_iff]
    · simp [htiming]

/-- The test is exact: it holds back what would be dropped, and only while the guest takes the
interrupt. -/
theorem shouldDeferCanReceive_iff :
    m.shouldDeferCanReceive controller f btr0 btr1 = .ok true ↔
      m.Drops controller f btr0 btr1 ∧ m.Receiving controller := by
  rw [← canReceiveWouldOverrun_iff]
  unfold shouldDeferCanReceive Receiving
  rcases m.canReceiveWouldOverrun controller f btr0 btr1 with e | (_ | _)
  · simp
  · simp
  · rcases m.canInterruptRouted controller with e | (_ | _)
    · simp
    · simp
    · cases m.canReceiveState controller with
      | error e => simp [Except.map]
      | ok state => simp [Except.map]

/-- The test looks at one chip and at the pins. -/
theorem shouldDeferCanReceive_congr {m' : Machine} (hchip : m'.chip controller = m.chip controller)
    (hpins : m'.interruptPins = m.interruptPins) :
    m'.shouldDeferCanReceive controller f btr0 btr1 =
      m.shouldDeferCanReceive controller f btr0 btr1 := by
  unfold shouldDeferCanReceive canReceiveWouldOverrun canInterruptRouted canReceiveState
    externalIrqEnabled
  rw [hchip, hpins]

theorem chip_setChip_ne {chip : Controller} {other : Nat} (hne : controller ≠ other) :
    (m.setChip controller chip).chip other = m.chip other := by
  unfold Machine.chip setChip
  cases m.can with
  | none => rfl
  | some chips => exact Vector.getElem?_setIfInBounds_ne hne

/-- Reception at one controller leaves the others and the pins as they are. -/
theorem receiveCanFrameAtTiming_frame {other : Nat} (hne : controller ≠ other) :
    (m.receiveCanFrameAtTiming controller f btr0 btr1).2.chip other = m.chip other ∧
      (m.receiveCanFrameAtTiming controller f btr0 btr1).2.interruptPins = m.interruptPins := by
  unfold receiveCanFrameAtTiming
  split
  · exact ⟨rfl, rfl⟩
  · split
    · exact ⟨rfl, rfl⟩
    · split
      · exact ⟨chip_setChip_ne hne, rfl⟩
      · dsimp only
        split
        · split
          · exact ⟨chip_setChip_ne hne, rfl⟩
          · exact ⟨chip_setChip_ne hne, rfl⟩
        · exact ⟨chip_setChip_ne hne, rfl⟩

end Machine

/-! ## Deliveries -/

/-- A controller holds the frame back. -/
def Receiver.Defers (r : Receiver) (c : Fin 3) (f : Frame) : Prop :=
  r.machine.shouldDeferCanReceive c f (busBtr0 c) 0x36 = .ok true

theorem deliver_left {c : Fin 3} {f : Frame} {r : Receiver} (h : (deliver c f r).1 = .ok false) :
    (deliver c f r).2.Defers c f := by
  unfold deliver at h ⊢
  dsimp only at h ⊢
  split at h
  · cases h
  · next hdefer => exact hdefer
  · split at h
    · cases h
    · split at h <;> cases h

/-- What a controller takes, it does not hold back. -/
theorem deliver_taken {c : Fin 3} {f : Frame} {r : Receiver} (h : (deliver c f r).1 = .ok true) :
    ¬ r.Defers c f := by
  intro hdefer
  unfold Receiver.Defers at hdefer
  unfold deliver at h
  simp [hdefer] at h

/-- A delivery to one controller does not change what another holds back. -/
theorem deliver_defers {c c' : Fin 3} (hne : c' ≠ c) {f f' : Frame} {r : Receiver}
    (h : r.Defers c f) : (deliver c' f' r).2.Defers c f := by
  obtain ⟨hchip, hpins⟩ := @Machine.receiveCanFrameAtTiming_frame r.machine c' f' (busBtr0 c') 0x36
    c (Fin.val_ne_iff.mpr hne)
  unfold Receiver.Defers at h ⊢
  unfold deliver
  dsimp only
  split
  · exact h
  · exact h
  · split
    · exact h
    · split
      · next heq =>
        rw [heq] at hchip hpins
        exact (Machine.shouldDeferCanReceive_congr hchip hpins).trans h
      · next heq =>
        rw [heq] at hchip hpins
        exact (Machine.shouldDeferCanReceive_congr hchip hpins).trans h

/-! ## Runs -/

theorem ReceiveStaging.push_staged {s s' : ReceiveStaging} {controller : Nat} {f : Frame}
    (h : s.push controller f = .ok s') (c : Fin 3) :
    s'.staged c = s.staged c ++ if controller = c then [f] else [] := by
  unfold push at h
  split at h
  · cases h
  split at h
  · split at h
    · cases h
    · cases h
      by_cases hc : controller = c
      · simp [staged, hc]
      · simp [staged, hc, Vector.getElem_set_ne _ _ hc]
  · cases h

/-- A record of a round is made beside the same steps. -/
theorem ReceiveStaging.drain_recorded {σ : Type} (s : ReceiveStaging)
    (callback : Callback σ Frame String 3) (state : σ) :
    ∃ taken, s.drain (recorded callback) (state, []) =
        ((s.drain callback state).1, (s.drain callback state).2.1,
          (s.drain callback state).2.2, taken) ∧
      (∀ c : Fin 3, s.staged c = Taken.of c taken ++ (s.drain callback state).2.1.staged c) ∧
      ∀ t ∈ taken, t.Valid callback := by
  obtain ⟨taken, hrecord, hsplit, hvalid⟩ :=
    queues_recorded callback (List.finRange 3) s.queues state []
  refine ⟨taken, ?_, hsplit, hvalid⟩
  simp only [drain, hrecord, List.nil_append]

/-- A round that fails keeps the frame on which the callback failed. -/
theorem ReceiveStaging.drain_fails {σ : Type} {s : ReceiveStaging}
    {callback : Callback σ Frame String 3} {state : σ} {e : String}
    (h : (s.drain callback state).1 = .error e) :
    ∃ c : Fin 3, ∃ f rest before, (s.drain callback state).2.1.staged c = f :: rest ∧
      callback c f before = (.error e, (s.drain callback state).2.2) := by
  obtain ⟨c, -, f, rest, before, hfront, hfailed⟩ :=
    queues_fails (List.nodup_finRange 3) s.queues state h
  exact ⟨c, f, rest, before, hfront, hfailed⟩

namespace Link

/-- The frame that is accepted for the controller. -/
def pushed (c : Fin 3) (l : Link) : Event → List Frame
  | .push controller f =>
    match l.pendingRx.push controller f with
    | .ok _ => if controller = c then [f] else []
    | .error _ => []
  | _ => []

/-- The frames that the controllers take in a poll, each with the state in which it is taken. -/
def delivered (l : Link) : Event → List (Taken Receiver Frame 3)
  | .poll => (l.pendingRx.drain (recorded deliver) (l.receiver, [])).2.2.2
  | _ => []

theorem poll_pendingRx (l : Link) :
    l.poll.2.pendingRx = (l.pendingRx.drain deliver l.receiver).2.1 ∧
      l.poll.2.receiver = (l.pendingRx.drain deliver l.receiver).2.2 := by
  unfold poll
  rcases l.pendingRx.drain deliver l.receiver with ⟨_ | _, _, _⟩ <;> exact ⟨rfl, rfl⟩

theorem delivered_valid {l : Link} {event : Event} {t : Taken Receiver Frame 3}
    (ht : t ∈ delivered l event) : t.Valid deliver := by
  cases event with
  | poll =>
    obtain ⟨taken, hrecord, -, hvalid⟩ := l.pendingRx.drain_recorded deliver l.receiver
    simp only [delivered, hrecord] at ht
    exact hvalid t ht
  | push controller f => cases ht
  | guest f => cases ht

theorem step_balance (c : Fin 3) (l : Link) (event : Event) :
    l.pendingRx.staged c ++ pushed c l event =
      Taken.of c (delivered l event) ++ (l.step event).pendingRx.staged c := by
  cases event with
  | push controller f =>
    simp only [pushed, delivered, step, push, Taken.of, List.filter_nil, List.map_nil, List.nil_append]
    cases hpush : l.pendingRx.push controller f with
    | error e => simp
    | ok pendingRx => exact (ReceiveStaging.push_staged hpush c).symm
  | poll =>
    obtain ⟨taken, hrecord, hsplit, -⟩ := l.pendingRx.drain_recorded deliver l.receiver
    simp only [pushed, delivered, step, hrecord, List.append_nil, (poll_pendingRx l).1]
    exact hsplit c
  | guest f => simp [pushed, delivered, step, Taken.of]

theorem poll_waits {l : Link} (h : l.poll.1 = .ok ()) (c : Fin 3) :
    Waiting (l.poll.2.receiver.Defers c) (l.poll.2.pendingRx.staged c) := by
  rw [(poll_pendingRx l).1, (poll_pendingRx l).2]
  have hdrain : ∃ deferred, (l.pendingRx.drain deliver l.receiver).1 = .ok deferred := by
    unfold poll at h
    split at h
    · cases h
    · next heq => exact ⟨_, by rw [heq]⟩
  obtain ⟨deferred, hdrain⟩ := hdrain
  exact queues_waits (W := Receiver.Defers) (fun c f r => deliver_left)
    (fun c c' hne f f' r => deliver_defers hne) (List.nodup_finRange 3) _ _ hdrain c
    (List.mem_finRange c)

/-- Over any run of reports, polls and guest steps nothing is lost: what a controller was given and
what is staged for it are in order what was pushed for it; what is taken while the receive interrupt
is routed and enabled is not dropped; after a poll that ends well a frame is left only because its
own controller would drop it; and a callback that fails keeps its frame. -/
theorem delivery_loses_nothing (start : Link) (events : List Event) :
    let taken := log step delivered start events
    let l := run step start events
    (∀ c : Fin 3, start.pendingRx.staged c ++ log step (pushed c) start events =
      Taken.of c taken ++ l.pendingRx.staged c) ∧
    (∀ t ∈ taken, t.before.machine.Receiving t.queue →
      ¬ t.before.machine.Drops t.queue t.entry (busBtr0 t.queue) 0x36) ∧
    (∀ (m : Machine) (controller : Nat) (f : Frame) (btr0 btr1 : UInt8),
      m.shouldDeferCanReceive controller f btr0 btr1 = .ok true ↔
        m.Drops controller f btr0 btr1 ∧ m.Receiving controller) ∧
    (l.poll.1 = .ok () → ∀ (c : Fin 3) (f : Frame) (rest : List Frame),
      l.poll.2.pendingRx.staged c = f :: rest →
        l.poll.2.receiver.machine.shouldDeferCanReceive c f (busBtr0 c) 0x36 = .ok true) ∧
    ∀ (σ : Type) (callback : Callback σ Frame String 3) (s : ReceiveStaging) (state : σ) (e : String),
      (s.drain callback state).1 = .error e →
        ∃ c : Fin 3, ∃ f rest before, (s.drain callback state).2.1.staged c = f :: rest ∧
          callback c f before = (.error e, (s.drain callback state).2.2) := by
  intro taken l
  refine ⟨fun c => ?_, fun t ht hreceiving hdrops => ?_, fun m controller f btr0 btr1 =>
    Machine.shouldDeferCanReceive_iff, fun hpoll c => poll_waits hpoll c,
    fun σ callback s state e => ReceiveStaging.drain_fails⟩
  · rw [log_hom (f := Taken.of c) rfl (Taken.of_append c)]
    exact @log_balance _ _ _ step (fun _ => True) (fun l => l.pendingRx.staged c) _ _
      (fun _ _ _ => trivial) (fun l event _ => step_balance c l event) start trivial events
  · have hvalid := forall_mem_log (fun l event t ht => delivered_valid ht) start events t ht
    exact deliver_taken hvalid (Machine.shouldDeferCanReceive_iff.mpr ⟨hdrops, hreceiving⟩)

end Link

end OpenSaab.Candi
