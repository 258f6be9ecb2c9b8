import OpenSaab.Library.Runs

/-!
# The keypad

`bus.rs`: keys are queued as the two codes of the encoder, pressed and released. The guest reads each
code a few times, so that its filters see it.
-/

namespace OpenSaab.Bus

open Runs

def keypadIdle : UInt8 := 0x00

def keypadActiveBit : UInt8 := 0x04

structure Keypad where
  queue : List UInt8
  active : Option UInt8
  irq : Bool
  holdCount : Nat
  events : Nat
  reads : Nat
  consumed : Nat
  deriving DecidableEq, Repr

namespace Keypad

def empty : Keypad := ⟨[], none, false, 0, 0, 0, 0⟩

def latchNextKey (k : Keypad) : Keypad :=
  { k with
    queue := k.queue.tail
    active := k.queue.head?
    holdCount := 6
    irq := k.queue.head?.isSome }

def downByte (code : UInt8) : UInt8 := (code &&& 0x1f) <<< 3 ||| keypadActiveBit

def upByte (code : UInt8) : UInt8 := (code &&& 0x1f) <<< 3

def pressKey (k : Keypad) (code : UInt8) : Keypad :=
  let k := { k with queue := k.queue ++ [downByte code, upByte code], events := k.events + 1 }
  if k.active = none then k.latchNextKey else k

/-- A read of the encoder. -/
def read (k : Keypad) : UInt8 × Keypad :=
  let k := { k with reads := k.reads + 1 }
  match k.active with
  | none => (keypadIdle, k)
  | some raw =>
    let k := { k with holdCount := k.holdCount - 1 }
    if k.holdCount = 0 then
      (raw, { k with consumed := k.consumed + 1, irq := false }.latchNextKey)
    else (raw, k)

/-! ## Runs -/

inductive Op where
  | press (code : UInt8)
  | read
  deriving DecidableEq, Repr

def step (k : Keypad) : Op → Keypad
  | .press code => k.pressKey code
  | .read => k.read.2

/-- What a key gives the guest to read. -/
def waveform (code : UInt8) : List UInt8 :=
  List.replicate 6 (downByte code) ++ List.replicate 6 (upByte code)

def Op.pressed : Op → List UInt8
  | .press code => [code]
  | .read => []

/-- What the guest reads while the interrupt is asserted. -/
def delivers (k : Keypad) : Op → List UInt8
  | .press _ => []
  | .read => if k.irq then [k.read.1] else []

/-- What is still to be read. -/
def owed (k : Keypad) : List UInt8 :=
  k.active.toList.flatMap (List.replicate k.holdCount) ++ k.queue.flatMap (List.replicate 6)

/-- The interrupt stands for a code at hand, and codes wait only behind one. -/
structure Sound (k : Keypad) : Prop where
  irq : k.irq = k.active.isSome
  hold : k.active.isSome → 0 < k.holdCount
  idle : k.active = none → k.queue = []

theorem empty_sound : empty.Sound := ⟨rfl, fun h => absurd h Bool.false_ne_true, fun _ => rfl⟩

theorem latchNextKey_sound (k : Keypad) : k.latchNextKey.Sound where
  irq := rfl
  hold _ := Nat.succ_pos 5
  idle h := by
    have hnil : k.queue = [] := List.head?_eq_none_iff.mp h
    rw [latchNextKey, hnil]
    rfl

theorem latchNextKey_owed (k : Keypad) :
    k.latchNextKey.owed = k.queue.flatMap (List.replicate 6) := by
  unfold latchNextKey owed
  cases k.queue <;> simp

theorem Sound.step {k : Keypad} (h : k.Sound) (op : Op) : (k.step op).Sound := by
  cases op with
  | press code =>
    unfold Keypad.step pressKey
    dsimp only
    split
    · exact latchNextKey_sound _
    · next hactive =>
      exact ⟨h.irq, h.hold, fun hnone => absurd hnone hactive⟩
  | read =>
    unfold Keypad.step read
    dsimp only
    split
    · exact ⟨h.irq, h.hold, h.idle⟩
    · next raw hactive =>
      split
      · exact latchNextKey_sound _
      · next hhold =>
        exact ⟨h.irq, fun _ => Nat.pos_of_ne_zero hhold, h.idle⟩

/-- A press adds what it gives, and a read takes the first value off, if there is one. -/
theorem Sound.owed_step {k : Keypad} (h : k.Sound) (op : Op) :
    k.owed ++ op.pressed.flatMap waveform = k.delivers op ++ (k.step op).owed := by
  obtain ⟨hirq, hhold, hidle⟩ := h
  cases op with
  | press code =>
    unfold Keypad.step pressKey
    dsimp only
    split
    · next hactive =>
      rw [latchNextKey_owed]
      simp [owed, delivers, Op.pressed, waveform, hactive, hidle hactive]
    · simp [owed, delivers, Op.pressed, waveform]
  | read =>
    unfold Keypad.step delivers read
    dsimp only
    cases hactive : k.active with
    | none => simp [owed, Op.pressed, hirq, hactive]
    | some raw =>
      obtain ⟨n, hn⟩ : ∃ n, k.holdCount = n + 1 := Nat.exists_eq_succ_of_ne_zero
        (Nat.pos_iff_ne_zero.mp (hhold (by rw [hactive]; rfl)))
      simp only [hirq, hactive, Option.isSome_some, if_true, hn, Nat.add_sub_cancel]
      split
      · next hzero =>
        rw [latchNextKey_owed]
        simp [owed, Op.pressed, hactive, hn, hzero]
      · simp [owed, Op.pressed, hactive, hn, List.replicate_succ]

/-- What a read gives is the first value that is owed. -/
theorem Sound.read_owed {k : Keypad} (h : k.Sound) :
    k.read.1 = k.owed.head?.getD keypadIdle ∧ (k.irq = true ↔ k.owed ≠ []) := by
  obtain ⟨hirq, hhold, hidle⟩ := h
  cases hactive : k.active with
  | none => simp [read, owed, hirq, hactive, hidle hactive]
  | some raw =>
    obtain ⟨n, hn⟩ : ∃ n, k.holdCount = n + 1 := Nat.exists_eq_succ_of_ne_zero
      (Nat.pos_iff_ne_zero.mp (hhold (by rw [hactive]; rfl)))
    have howed : k.owed = raw :: (List.replicate n raw ++ k.queue.flatMap (List.replicate 6)) := by
      simp [owed, hactive, hn, List.replicate_succ]
    have hread : k.read.1 = raw := by
      simp only [read, hactive]
      split <;> rfl
    rw [hread, howed]
    simp [hirq, hactive]

theorem log_pressed (k : Keypad) (ops : List Op) :
    log step (fun _ op => op.pressed.flatMap waveform) k ops =
      (ops.flatMap Op.pressed).flatMap waveform := by
  induction ops generalizing k with
  | nil => rfl
  | cons op ops ih => rw [log, ih, List.flatMap_cons, List.flatMap_append]

/-- In every run: what has been read under the interrupt, and what is still owed, is what the keys
that were pressed give, in order; a read gives the first of what is owed, or the idle value; and the
interrupt is asserted as long as something is owed. -/
theorem keys_in_order (ops : List Op) :
    let k := run step empty ops
    log step delivers empty ops ++ k.owed = (ops.flatMap Op.pressed).flatMap waveform ∧
      k.read.1 = k.owed.head?.getD keypadIdle ∧ (k.irq = true ↔ k.owed ≠ []) := by
  intro k
  have hsound : k.Sound := run_invariant (fun _ op h => h.step op) ops empty_sound
  have hbalance : empty.owed ++ log step (fun _ op => op.pressed.flatMap waveform) empty ops =
      log step delivers empty ops ++ k.owed :=
    log_balance (I := Sound) (fun _ op h => h.step op) (fun _ op h => h.owed_step op) empty_sound ops
  rw [log_pressed] at hbalance
  exact ⟨hbalance.symm, hsound.read_owed⟩

end Keypad

end OpenSaab.Bus
