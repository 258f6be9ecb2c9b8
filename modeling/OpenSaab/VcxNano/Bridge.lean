import OpenSaab.Library.Sender
import OpenSaab.Policy.Transactions

/-!
# The bridge to the Nano worker

`adapters/vcx_nano/backend.rs`: what is transmitted passes the command gate and then the bounded queue
to the worker thread.
-/

namespace OpenSaab.VcxNano

open Can Policy

structure Bridge where
  input : Option (Sender (Nat × Transmission))
  gate : CommandGate
  profile : Profile
  deriving DecidableEq, Repr

namespace Bridge

def opened (profile : Profile) : Bridge := ⟨some ⟨16, [], true⟩, .default, profile⟩

def screen (b : Bridge) (controller : Nat) (tx : Transmission) (now : Nat) :
    CommandGate × Except String Unit :=
  match b.gate.allowed controller tx b.profile now with
  | (gate, false) => (gate, .error "Native USB command rejected by collection profile")
  | (gate, true) => (gate, .ok ())

def transmit (b : Bridge) (controller : Nat) (tx : Transmission) (now : Nat) :
    Bridge × Except String Unit :=
  let r := Sender.submit (b.screen controller tx now) "Native USB bridge closed"
    "Native USB TX queue full/closed" b.input (controller, tx)
  ({ b with gate := r.1.1, input := r.1.2 }, r.2)

def close (b : Bridge) : Bridge := { b with input := none }

/-- Calls of the bridge, and what the worker does to the queue in between. -/
inductive Op where
  | transmit (controller : Nat) (tx : Transmission) (now : Nat)
  | take
  | ends
  | close

def step (b : Bridge) : Op → Bridge
  | .transmit controller tx now => (b.transmit controller tx now).1
  | .take => { b with input := b.input.map Sender.take }
  | .ends => { b with input := b.input.map ({ · with connected := false }) }
  | .close => b.close

/-! ## Failed calls -/

/-- If the call fails, the gate is as it was, and the next try is decided as if the call had not been
made. -/
def Undisturbed (b : Bridge) : Op → Prop
  | .transmit controller tx now => ∀ e, (b.transmit controller tx now).2 = .error e →
      (b.transmit controller tx now).1.gate = b.gate ∧
      ∀ input later, transmit { (b.transmit controller tx now).1 with input } controller tx later =
        transmit { b with input } controller tx later
  | _ => True

/-- There is room for the frame, or it is no frame of a segmented request that the gate lets out. -/
def Roomy (b : Bridge) : Op → Prop
  | .transmit controller tx now => Sender.ready b.input = true ∨
      ¬ ((b.gate.allowed controller tx b.profile now).2 = true ∧ segment tx.frame.data = true)
  | _ => True

instance decidableRoomy (b : Bridge) : (op : Op) → Decidable (b.Roomy op)
  | .transmit controller tx now => inferInstanceAs (Decidable (Sender.ready b.input = true ∨
      ¬ ((b.gate.allowed controller tx b.profile now).2 = true ∧ segment tx.frame.data = true)))
  | .take => isTrue trivial
  | .ends => isTrue trivial
  | .close => isTrue trivial

theorem screen_gate (b : Bridge) (controller : Nat) (tx : Transmission) (now : Nat) :
    (b.screen controller tx now).1 = (b.gate.allowed controller tx b.profile now).1 := by
  unfold screen
  split
  · next h => rw [h]
  · next h => rw [h]

theorem screen_refused {b : Bridge} {controller : Nat} {tx : Transmission} {now : Nat} {e : String}
    (h : (b.screen controller tx now).2 = .error e) : (b.screen controller tx now).1 = b.gate := by
  rw [screen_gate]
  apply allowed_refused
  unfold screen at h
  split at h
  · next hallowed => rw [hallowed]
  · cases h

theorem undisturbed_iff (b : Bridge) (op : Op) : b.Undisturbed op ↔ b.Roomy op := by
  cases op with
  | transmit controller tx now =>
    have hkeeps := @Sender.submit_keeps_iff _ _ _ (b.screen controller tx now)
      "Native USB bridge closed" "Native USB TX queue full/closed" b.input (controller, tx) b.gate
      fun e he => screen_refused he
    have hsame : (b.gate.allowed controller tx b.profile now).1 = b.gate ↔
        ¬ ((b.gate.allowed controller tx b.profile now).2 = true ∧ segment tx.frame.data = true) := by
      rw [← allowed_moves_iff, ne_eq, not_not]
    rw [screen_gate, hsame] at hkeeps
    refine Iff.trans ⟨fun h e he => (h e he).1, fun h e he => ⟨h e he, fun input later => ?_⟩⟩ hkeeps
    have hgate : (b.transmit controller tx now).1.gate = b.gate := h e he
    have hsame : { (b.transmit controller tx now).1 with input } = { b with input } := by
      rw [Bridge.mk.injEq]
      exact ⟨rfl, hgate, rfl⟩
    rw [hsame]
  | take => exact Iff.rfl
  | ends => exact Iff.rfl
  | close => exact Iff.rfl

/-- A frame for the engine on the high-speed bus. -/
def engineTransmission (data : List UInt8) : Transmission where
  ticket := 1
  frame := ⟨0x7e0, false, false, UInt8.ofNat data.length, data⟩
  btr0 := 0xc1
  btr1 := 0x36
  electrical := .standardCan

/-- Sixteen reads fill the queue; the first frame of a definition is then refused for lack of room, and
the gate waits for its next frame all the same. -/
theorem full_queue_disturbs : ¬ Runs.Each step Undisturbed (opened .read)
    (List.replicate 16 (.transmit 0 (engineTransmission [2, 0x1a, 0x90]) 0) ++
      [.transmit 0 (engineTransmission [0x10, 0x10, 0x2c, 0xf3, 0, 0x0f, 0x11, 0]) 0]) := by
  intro h
  have hlast := ((Runs.each_append _ _ _).mp h).2.1
  exact absurd ((undisturbed_iff _ _).mp hlast) (by decide +kernel)

end Bridge

end OpenSaab.VcxNano
