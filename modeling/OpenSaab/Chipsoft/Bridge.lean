import OpenSaab.Chipsoft.Protocol
import OpenSaab.Seatbelt.Policy
import OpenSaab.VcxNano.Bridge

/-!
# The bridge to the Chipsoft worker

`adapters/chipsoft/channel.rs` and `backend.rs`: what is transmitted has an electrical route and, but for
the full native mode, a permission from the command gate, the key status gate or the reminder policy.
-/

namespace OpenSaab.Chipsoft

open Can Policy Text

/-! ## CAN frames on the wire -/

def command (opcode : UInt16) (payload : List UInt8) : Frame := ⟨opcode, 0, payload⟩

def words (values : List UInt32) : List UInt8 := values.flatMap fun x => Words.little 4 x.toNat

def protocols : List UInt32 := [5, 0x8008]

def modeFlags : ElectricalMode → UInt32
  | .data => 0
  | .singleWireWake => 0x400

/-- A packed message: timeout, protocol, token, size, flags, status, identifier and data. -/
def channelTransmit (controller : Nat) (tx : Transmission) : Except String Frame :=
  match electricalRoute controller tx with
  | .error e => .error e
  | .ok route =>
    .ok (command 0xf (words [50, protocols.getD route.channel.toNat 0, 0] ++
      Words.little 2 (4 + tx.frame.data.length) ++ Words.little 4 (modeFlags route.mode).toNat ++
      [0, 0] ++ Words.big 4 tx.frame.id.toNat ++ tx.frame.data))

/-! ## The bridge -/

/-- There is no policy either when its lock is poisoned. -/
structure Bridge where
  input : Option (Sender (Nat × Transmission))
  gate : CommandGate
  fullNative : Bool
  keyStatus : KeyStatusGate
  profile : Profile
  policy : Option Seatbelt.Policy
  deriving DecidableEq, Repr

def profileText : Profile → String
  | .read => "Read"
  | .seeds => "Seeds"
  | .clearDtc => "ClearDtc"

def blocked (controller : Nat) (tx : Transmission) (profile : Profile) : String :=
  let offset := if tx.frame.data[0]? = some 0xfe then 1 else 0
  let service := match tx.frame.data[offset + 1]? with
    | some s => hexUpper s
    | none => "unknown"
  "Chipsoft command guard blocked before USB: controller=" ++ toString controller ++ " CAN_ID=" ++
    hexId tx.frame.id ++ " service=" ++ service ++ " profile=" ++ profileText profile ++
    "; no ECU rejection"

namespace Bridge

/-- The states of the two gates. -/
def admission (b : Bridge) : CommandGate × KeyStatusGate := (b.gate, b.keyStatus)

def screen (b : Bridge) (controller : Nat) (tx : Transmission) (now : Nat) :
    (CommandGate × KeyStatusGate) × Except String Unit :=
  match channelTransmit controller tx with
  | .error e => (b.admission, .error e)
  | .ok _ =>
    if b.fullNative then (b.admission, .ok ())
    else
      match b.gate.allowed controller tx b.profile now with
      | (gate, true) => ((gate, b.keyStatus), .ok ())
      | (gate, false) =>
        match b.keyStatus.allowed controller tx with
        | (keyStatus, true) => ((gate, keyStatus), .ok ())
        | (keyStatus, false) =>
          if b.policy.any (·.allows controller tx) then ((gate, keyStatus), .ok ())
          else ((gate, keyStatus), .error (blocked controller tx b.profile))

def transmit (b : Bridge) (controller : Nat) (tx : Transmission) (now : Nat) :
    Bridge × Except String Unit :=
  let r := Sender.submit (b.screen controller tx now) "Chipsoft closed" "Chipsoft transmit queue full"
    b.input (controller, tx)
  ({ b with gate := r.1.1.1, keyStatus := r.1.1.2, input := r.1.2 }, r.2)

def close (b : Bridge) : Bridge := { b with input := none }

inductive Op where
  | transmit (controller : Nat) (tx : Transmission) (now : Nat)
  | take
  | ends
  | close

def step (b : Bridge) : Op → Bridge
  | .transmit controller tx now => (b.transmit controller tx now).1
  | .take => { b with input := b.input.map Sender.take }
  | .ends => { b with input := b.input.map ({ · with connected := false }) }
  | .close => b.close

/-! ## Failed calls -/

def Undisturbed (b : Bridge) : Op → Prop
  | .transmit controller tx now => ∀ e, (b.transmit controller tx now).2 = .error e →
      (b.transmit controller tx now).1.admission = b.admission ∧
      ∀ input later, transmit { (b.transmit controller tx now).1 with input } controller tx later =
        transmit { b with input } controller tx later
  | _ => True

/-- The frame moves one of the gates: it is of a segmented request that the command gate lets out, or
it is a request for the key status that the other gate lets out. -/
def Counted (b : Bridge) (controller : Nat) (tx : Transmission) (now : Nat) : Prop :=
  b.fullNative = false ∧
    ((b.gate.allowed controller tx b.profile now).2 = true ∧ segment tx.frame.data = true ∨
      (b.gate.allowed controller tx b.profile now).2 = false ∧
        (b.keyStatus.allowed controller tx).2 = true)

def Roomy (b : Bridge) : Op → Prop
  | .transmit controller tx now =>
    Sender.ready b.input = true ∨ ¬ b.Counted controller tx now
  | _ => True

theorem keyStatus_moves_iff {g : KeyStatusGate} {controller : Nat} {tx : Transmission} :
    (g.allowed controller tx).1 ≠ g ↔ (g.allowed controller tx).2 = true := by
  unfold KeyStatusGate.allowed
  split_ifs with hbad
  · simp
  · rw [not_or, not_or] at hbad
    cases electricalRoute controller tx with
    | error e => simp
    | ok route =>
      refine iff_of_true (fun h => ?_) rfl
      have hsent := congrArg KeyStatusGate.sent h
      have hfew := UInt8.not_le.mp hbad.2.1
      dsimp only at hsent
      have hnat := congrArg UInt8.toNat hsent
      rw [UInt8.toNat_add] at hnat
      have hthree : g.sent.toNat < 3 := UInt8.lt_iff_toNat_lt.mp hfew
      have hone : (1 : UInt8).toNat = 1 := rfl
      omega

theorem keyStatus_refused {g : KeyStatusGate} {controller : Nat} {tx : Transmission}
    (h : (g.allowed controller tx).2 = false) : (g.allowed controller tx).1 = g := by
  by_contra hne
  exact absurd ((keyStatus_moves_iff.mp hne).symm.trans h) (by decide)

/-- A frame without a route is refused by both gates. -/
theorem unrouted {b : Bridge} {controller : Nat} {tx : Transmission} {now : Nat} {e : String}
    (h : channelTransmit controller tx = .error e) : ¬ b.Counted controller tx now := by
  have hroute : ∀ route, electricalRoute controller tx ≠ .ok route := by
    intro route hok
    rw [channelTransmit, hok] at h
    cases h
  rintro ⟨-, ⟨hgate, -⟩ | ⟨-, hkey⟩⟩
  · obtain ⟨route, hok⟩ := allowed_route hgate
    exact hroute route hok
  · unfold KeyStatusGate.allowed at hkey
    split_ifs at hkey
    cases hr : electricalRoute controller tx with
    | error e => simp [hr] at hkey
    | ok route => exact hroute route hr

/-- The gates move exactly with the frames that they count. -/
theorem screen_moves_iff (b : Bridge) (controller : Nat) (tx : Transmission) (now : Nat) :
    (b.screen controller tx now).1 = b.admission ↔ ¬ b.Counted controller tx now := by
  unfold screen
  cases hroute : channelTransmit controller tx with
  | error e => exact iff_of_true rfl (unrouted hroute)
  | ok f =>
    dsimp only
    by_cases hfull : b.fullNative = true
    · rw [if_pos hfull]
      exact iff_of_true rfl fun h => absurd (hfull.symm.trans h.1) (by decide)
    · have hmoves := @allowed_moves_iff b.gate controller tx b.profile now
      have hkeep := @allowed_refused b.gate controller tx b.profile now
      rw [if_neg hfull]
      rw [Bool.not_eq_true] at hfull
      unfold Counted admission
      rcases hallowed : b.gate.allowed controller tx b.profile now with ⟨gate, _ | _⟩
      · rw [hallowed] at hkeep
        obtain rfl : gate = b.gate := hkeep rfl
        have hstatus := @keyStatus_moves_iff b.keyStatus controller tx
        rcases hkey : b.keyStatus.allowed controller tx with ⟨keyStatus, _ | _⟩
        · rw [hkey] at hstatus
          have hsame : keyStatus = b.keyStatus := by simpa using hstatus
          subst hsame
          dsimp only
          refine iff_of_true (by split <;> rfl) ?_
          simp
        · rw [hkey] at hstatus
          have hne : keyStatus ≠ b.keyStatus := hstatus.mpr rfl
          refine iff_of_false (fun h => hne (Prod.mk.inj h).2) ?_
          simp [hfull]
      · rw [hallowed] at hmoves
        dsimp only at hmoves ⊢
        simp only [Prod.mk.injEq, and_true, hfull, true_and, Bool.true_eq_false, false_and, or_false]
        rw [← not_iff_not, not_not, ← ne_eq, hmoves]
        simp

theorem screen_refused {b : Bridge} {controller : Nat} {tx : Transmission} {now : Nat} {e : String}
    (h : (b.screen controller tx now).2 = .error e) :
    (b.screen controller tx now).1 = b.admission := by
  unfold screen at h ⊢
  cases hroute : channelTransmit controller tx with
  | error e => rfl
  | ok f =>
    rw [hroute] at h
    dsimp only at h ⊢
    by_cases hfull : b.fullNative = true
    · rw [if_pos hfull] at h
      cases h
    · have hkeep := @allowed_refused b.gate controller tx b.profile now
      rw [if_neg hfull] at h ⊢
      rcases hallowed : b.gate.allowed controller tx b.profile now with ⟨gate, _ | _⟩
      · rw [hallowed] at h hkeep
        obtain rfl : gate = b.gate := hkeep rfl
        have hsame := @keyStatus_refused b.keyStatus controller tx
        rcases hkey : b.keyStatus.allowed controller tx with ⟨keyStatus, _ | _⟩
        · rw [hkey] at hsame
          obtain rfl : keyStatus = b.keyStatus := hsame rfl
          dsimp only
          split <;> rfl
        · rw [hkey] at h
          cases h
      · rw [hallowed] at h
        cases h

theorem undisturbed_iff (b : Bridge) (op : Op) : b.Undisturbed op ↔ b.Roomy op := by
  cases op with
  | transmit controller tx now =>
    have hkeeps := @Sender.submit_keeps_iff _ _ _ (b.screen controller tx now) "Chipsoft closed"
      "Chipsoft transmit queue full" b.input (controller, tx) b.admission fun e he => screen_refused he
    rw [screen_moves_iff] at hkeeps
    refine Iff.trans ⟨fun h e he => (h e he).1, fun h e he => ⟨h e he, fun input later => ?_⟩⟩ hkeeps
    have hadmission : (b.transmit controller tx now).1.admission = b.admission := h e he
    have hsame : { (b.transmit controller tx now).1 with input } = { b with input } := by
      rw [Bridge.mk.injEq]
      exact ⟨rfl, (Prod.mk.inj hadmission).1, rfl, (Prod.mk.inj hadmission).2, rfl, rfl⟩
    rw [hsame]
  | take => exact Iff.rfl
  | ends => exact Iff.rfl
  | close => exact Iff.rfl

/-- On both bridges, failed calls leave the admission alone exactly as long as no frame that a gate
counts meets a queue without room. -/
theorem failed_enqueue_iff (nano : VcxNano.Bridge) (nanoOps : List VcxNano.Bridge.Op) (b : Bridge)
    (ops : List Op) :
    (Runs.Each VcxNano.Bridge.step VcxNano.Bridge.Undisturbed nano nanoOps ↔
      Runs.Each VcxNano.Bridge.step VcxNano.Bridge.Roomy nano nanoOps) ∧
    (Runs.Each step Undisturbed b ops ↔ Runs.Each step Roomy b ops) :=
  ⟨Runs.each_congr VcxNano.Bridge.undisturbed_iff, Runs.each_congr undisturbed_iff⟩

end Bridge

end OpenSaab.Chipsoft
