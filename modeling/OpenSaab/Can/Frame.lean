import Mathlib.Tactic.SplitIfs
import OpenSaab.Text
import Mathlib.Algebra.Ring.Nat

/-!
# CAN frames and their electrical route

`sja1000.rs` and `can_adapter.rs`: what the firmware transmits, and the electrical state that it has
selected for it.
-/

namespace OpenSaab.Can

open Text

/-! There are three buses. -/

instance instNeZeroBuses : NeZero 3 := ⟨by decide⟩

/-- The electrical context of a transmission, as virtual register state. -/
inductive ElectricalState where
  | unspecified
  | standardCan
  | singleWireGpio (latch assignment direction : UInt8)
  deriving DecidableEq, Repr

def ElectricalState.wakeControlSelected : ElectricalState → Bool
  | .singleWireGpio latch assignment direction =>
    assignment == 0 && latch &&& 3 == 2 && direction &&& 3 == 3
  | _ => false

def ElectricalState.text : ElectricalState → String
  | .unspecified => "unspecified"
  | .standardCan => "standard-can"
  | s@(.singleWireGpio latch assignment direction) =>
    "single-wire-gpio latch=" ++ hexPrefixed latch ++ " assignment=" ++ hexPrefixed assignment ++
      " direction=" ++ hexPrefixed direction ++ " wake_control_selected=" ++
      (if s.wakeControlSelected then "true" else "false") ++ " board_mapping=unverified"

structure Frame where
  id : UInt32
  extended : Bool
  rtr : Bool
  dlc : UInt8
  data : List UInt8
  deriving DecidableEq, Repr

def Frame.validate (f : Frame) : Except String Unit :=
  if (if f.extended then 0x1fffffff else 0x7ff) < f.id ∨ 8 < f.dlc ∨
      f.data.length ≠ if f.rtr then 0 else f.dlc.toNat then
    .error "Invalid classical CAN frame"
  else .ok ()

structure Transmission where
  ticket : UInt64
  frame : Frame
  btr0 : UInt8
  btr1 : UInt8
  electrical : ElectricalState
  deriving DecidableEq, Repr

inductive ElectricalMode where
  | data
  | singleWireWake
  deriving DecidableEq, Repr

structure ElectricalRoute where
  channel : UInt8
  mode : ElectricalMode
  deriving DecidableEq, Repr

/-- The route on the single wire, by the mode bits of the latch. -/
def singleWireRoute (latch : UInt8) (f : Frame) : Except String ElectricalRoute :=
  if latch &&& 3 = 2 ∧ f.id = 0x100 ∧ f.dlc = 0 then .ok ⟨1, .singleWireWake⟩
  else if latch &&& 3 = 3 then .ok ⟨1, .data⟩
  else .error "Unverified SWCAN electrical state/frame combination"

def electricalRoute (controller : Nat) (tx : Transmission) : Except String ElectricalRoute :=
  match tx.frame.validate with
  | .error e => .error e
  | .ok () =>
    if tx.frame.extended ∨ tx.frame.rtr then
      .error "Native electrical route supports standard data frames only"
    else
      let unsupported :=
        Except.error "Unsupported native CAN controller, timing or electrical route"
      match tx.electrical with
      | .standardCan =>
        if controller = 0 ∧ tx.btr0 = 0xc1 ∧ tx.btr1 = 0x36 then .ok ⟨0, .data⟩ else unsupported
      | .singleWireGpio latch assignment direction =>
        if controller = 2 ∧ tx.btr0 = 0xdd ∧ tx.btr1 = 0x36 ∧ assignment = 0 ∧ direction &&& 3 = 3 then
          singleWireRoute latch tx.frame
        else unsupported
      | .unspecified => unsupported

/-- What a transmission with a route is. -/
structure Routed (controller : Nat) (f : Frame) (route : ElectricalRoute) : Prop where
  standard : f.extended = false ∧ f.rtr = false
  id : f.id ≤ 0x7ff
  dlc : f.dlc ≤ 8
  data : f.data.length = f.dlc.toNat
  controller : controller = 0 ∨ controller = 2
  channel : route.channel = 0 ∨ route.channel = 1

theorem singleWireRoute_channel {latch : UInt8} {f : Frame} {route : ElectricalRoute}
    (h : singleWireRoute latch f = .ok route) : route.channel = 1 := by
  unfold singleWireRoute at h
  split_ifs at h <;> cases h <;> rfl

theorem validate_standard {f : Frame} (hext : f.extended = false) (hrtr : f.rtr = false)
    (h : f.validate = .ok ()) : f.id ≤ 0x7ff ∧ f.dlc ≤ 8 ∧ f.data.length = f.dlc.toNat := by
  unfold Frame.validate at h
  rw [hext, hrtr] at h
  simp only [Bool.false_eq_true, if_false] at h
  split_ifs at h with hbad
  rw [not_or, not_or] at hbad
  exact ⟨UInt32.not_lt.mp hbad.1, UInt8.not_lt.mp hbad.2.1, Decidable.of_not_not hbad.2.2⟩

theorem electricalRoute_routed {controller : Nat} {tx : Transmission} {route : ElectricalRoute}
    (h : electricalRoute controller tx = .ok route) : Routed controller tx.frame route := by
  unfold electricalRoute at h
  cases hvalid : tx.frame.validate with
  | error e =>
    rw [hvalid] at h
    cases h
  | ok =>
    rw [hvalid] at h
    by_cases hkind : tx.frame.extended = true ∨ tx.frame.rtr = true
    · simp [hkind] at h
    · simp only [if_neg hkind] at h
      rw [not_or, Bool.not_eq_true, Bool.not_eq_true] at hkind
      have hframe := validate_standard hkind.1 hkind.2 hvalid
      have hroute : (controller = 0 ∨ controller = 2) ∧ (route.channel = 0 ∨ route.channel = 1) := by
        split at h
        · split_ifs at h with hc
          exact ⟨Or.inl hc.1, Or.inl (Except.ok.inj h ▸ rfl)⟩
        · split_ifs at h with hc
          exact ⟨Or.inr hc.1, Or.inr (singleWireRoute_channel h)⟩
        · cases h
      exact ⟨hkind, hframe.1, hframe.2.1, hframe.2.2, hroute.1, hroute.2⟩

/-- Where the completion of a transmission comes from. None of them is evidence of a CAN ACK. -/
inductive CompletionSource where
  | j2534SoftwareLoopback
  | stnRfcommWriteCompatibility
  | micByteTransportWriteCompatibility
  | micTranslatedWakeWriteCompatibility
  | vcxUsbWriteCompatibility
  | chipsoftDeviceReplyCompatibility
  deriving DecidableEq, Repr

def CompletionSource.label : CompletionSource → String
  | .stnRfcommWriteCompatibility => "stn-rfcomm-write-compatibility"
  | .micByteTransportWriteCompatibility => "mic-byte-transport-write-compatibility"
  | .micTranslatedWakeWriteCompatibility => "mic-translated-wake-write-compatibility"
  | .j2534SoftwareLoopback => "j2534-software-loopback"
  | .vcxUsbWriteCompatibility => "vcx-usb-write-compatibility"
  | .chipsoftDeviceReplyCompatibility => "chipsoft-device-reply-compatibility"

/-- What an adapter reports. -/
inductive Event where
  | completed (controller : Nat) (ticket : UInt64) (source : CompletionSource)
  | received (controller : Nat) (frame : Frame)
  deriving DecidableEq, Repr

end OpenSaab.Can
