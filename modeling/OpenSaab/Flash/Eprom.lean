import OpenSaab.Library.Bytes
import OpenSaab.Library.Runs

/-!
# The boot flash

`bus.rs`: the flash at the bottom of the address space, its command cycles and the bytes of the bus
that make them up.
-/

namespace OpenSaab.BootFlash

open Bytes

/-! ## The chip -/

def flashSize : Nat := 0x40000

/-- The first byte that may change. -/
def protectedEnd : Nat := 0x8018

structure Chip where
  flash : List UInt8
  status : Bool
  eraseArmed : Bool
  programArmed : Bool
  writes : Nat
  erases : Nat
  deriving DecidableEq, Repr

def Chip.new (flash : List UInt8) : Chip := ⟨flash, false, false, false, 0, 0⟩

/-- A cycle on the 16-bit device. -/
structure Cycle where
  address : Nat
  high : UInt8
  low : UInt8
  deriving DecidableEq, Repr

/-- `u16::from_be_bytes`. -/
def Cycle.word (w : Cycle) : UInt16 := w.high.toUInt16 <<< 8 ||| w.low.toUInt16

def blockStart (address : Nat) : Nat := address / 0x10000 * 0x10000

def Chip.programmed (c : Chip) (w : Cycle) : List UInt8 :=
  if protectedEnd ≤ w.address then
    let flash := c.flash.set w.address w.high
    if w.address + 1 < flash.length then flash.set (w.address + 1) w.low else flash
  else c.flash

def Chip.erased (c : Chip) (address : Nat) : List UInt8 :=
  let start := max (blockStart address) protectedEnd
  let stop := min (blockStart address + 0x10000) flashSize
  if start < stop then fill c.flash start stop 0xff else c.flash

def Chip.writeWord (c : Chip) (w : Cycle) : Chip :=
  if c.programArmed then
    { c with
      programArmed := false
      status := true
      writes := c.writes + 2
      flash := c.programmed w }
  else if w.word = 0x5050 then { c with status := false }
  else if w.word = 0x2020 then { c with eraseArmed := true }
  else if w.word = 0xd0d0 ∧ c.eraseArmed then
    { c with
      eraseArmed := false
      status := true
      erases := c.erases + 1
      flash := c.erased w.address }
  else if w.word = 0x4040 ∨ w.word = 0x1010 then { c with programArmed := true }
  else if w.word = 0x7070 then { c with status := true }
  else if w.word = 0xffff then { c with status := false }
  else c

/-! ## The bytes of the bus -/

/-- The chip and the first lane of a word. -/
structure Eprom where
  chip : Chip
  pendingByte : Option (Nat × UInt8)
  deriving DecidableEq, Repr

def Eprom.new (flash : List UInt8) : Eprom := ⟨.new flash, none⟩

/-- An isolated byte stands on both lanes. -/
def lane (c : Chip) (address : Nat) (value : UInt8) : Eprom :=
  if address % 2 = 0 then ⟨c, some (address, value)⟩
  else ⟨c.writeWord ⟨address - address % 2, value, value⟩, none⟩

/-- `write_eprom_byte`. -/
def Eprom.writeByte (e : Eprom) (address : Nat) (value : UInt8) : Eprom :=
  match e.pendingByte with
  | some (first, high) =>
    if first + 1 = address ∧ first % 2 = 0 then ⟨e.chip.writeWord ⟨first, high, value⟩, none⟩
    else lane (e.chip.writeWord ⟨first - first % 2, high, high⟩) address value
  | none => lane e.chip address value

/-- The address lines of the processor. -/
def lines (address : UInt32) : Nat := (address &&& 0x00ffffff).toNat

/-- The part of `write_byte` that reaches the flash. -/
def Eprom.busByte (e : Eprom) (address : UInt32) (value : UInt8) : Eprom :=
  let a := lines address
  if a < flashSize ∧ ¬ (2 ≤ a ∧ a < 0x8000) then e.writeByte a value else e

inductive Write where
  | byte (address : UInt32) (value : UInt8)
  | word (address : UInt32) (high low : UInt8)
  deriving DecidableEq, Repr

def Eprom.write (e : Eprom) : Write → Eprom
  | .byte address value => e.busByte address value
  | .word address high low => (e.busByte address high).busByte (address + 1) low

/-! ## The cycles that the bytes make up -/

def laneCycles (address : Nat) (value : UInt8) : List Cycle :=
  if address % 2 = 0 then [] else [⟨address - address % 2, value, value⟩]

def Eprom.byteCycles (e : Eprom) (address : Nat) (value : UInt8) : List Cycle :=
  match e.pendingByte with
  | some (first, high) =>
    if first + 1 = address ∧ first % 2 = 0 then [⟨first, high, value⟩]
    else ⟨first - first % 2, high, high⟩ :: laneCycles address value
  | none => laneCycles address value

def Eprom.busCycles (e : Eprom) (address : UInt32) (value : UInt8) : List Cycle :=
  let a := lines address
  if a < flashSize ∧ ¬ (2 ≤ a ∧ a < 0x8000) then e.byteCycles a value else []

/-- The cycles that a write completes. -/
def Eprom.cycles (e : Eprom) : Write → List Cycle
  | .byte address value => e.busCycles address value
  | .word address high low =>
    e.busCycles address high ++ (e.busByte address high).busCycles (address + 1) low

theorem lane_chip (c : Chip) (address : Nat) (value : UInt8) :
    (lane c address value).chip = Runs.run Chip.writeWord c (laneCycles address value) := by
  unfold lane laneCycles
  split_ifs <;> rfl

theorem writeByte_chip (e : Eprom) (address : Nat) (value : UInt8) :
    (e.writeByte address value).chip =
      Runs.run Chip.writeWord e.chip (e.byteCycles address value) := by
  unfold Eprom.writeByte Eprom.byteCycles
  split
  · split_ifs
    · rfl
    · exact lane_chip _ address value
  · exact lane_chip _ address value

theorem busByte_chip (e : Eprom) (address : UInt32) (value : UInt8) :
    (e.busByte address value).chip =
      Runs.run Chip.writeWord e.chip (e.busCycles address value) := by
  unfold Eprom.busByte Eprom.busCycles
  dsimp only
  split_ifs
  · exact writeByte_chip e _ value
  · rfl

theorem write_chip (e : Eprom) (w : Write) :
    (e.write w).chip = Runs.run Chip.writeWord e.chip (e.cycles w) := by
  cases w with
  | byte address value => exact busByte_chip e address value
  | word address high low =>
    rw [Eprom.write, Eprom.cycles, Runs.run_append, busByte_chip, busByte_chip]

/-- The chip sees the writes of the guest as these cycles. -/
theorem run_chip (e : Eprom) (writes : List Write) :
    (Runs.run Eprom.write e writes).chip =
      Runs.run Chip.writeWord e.chip (Runs.log Eprom.write Eprom.cycles e writes) := by
  induction writes generalizing e with
  | nil => rfl
  | cons w writes ih => rw [Runs.run_cons, Runs.log, Runs.run_append, ih, write_chip]

/-! ## What a cycle is taken for -/

inductive Role where
  | programSetup
  | programData (address : Nat)
  | eraseSetup
  | eraseConfirm (address : Nat)
  | other
  deriving DecidableEq, Repr

def Chip.role (c : Chip) (w : Cycle) : Role :=
  if c.programArmed then .programData w.address
  else if w.word = 0x5050 then .other
  else if w.word = 0x2020 then .eraseSetup
  else if w.word = 0xd0d0 ∧ c.eraseArmed then .eraseConfirm w.address
  else if w.word = 0x4040 ∨ w.word = 0x1010 then .programSetup
  else .other

/-- The contents before and after a cycle of this role. -/
def Role.Changes : Role → List UInt8 → List UInt8 → Prop
  | .programData address, before, after =>
    SameOutside (max address protectedEnd) (address + 2) before after
  | .eraseConfirm address, before, after =>
    SameOutside (max (blockStart address) protectedEnd)
      (min (blockStart address + 0x10000) flashSize) before after
  | _, before, after => after = before

theorem programmed_same (c : Chip) (w : Cycle) :
    SameOutside (max w.address protectedEnd) (w.address + 2) c.flash (c.programmed w) := by
  unfold Chip.programmed
  split_ifs with hprotected
  · rw [Nat.max_eq_left hprotected]
    dsimp only
    split_ifs
    · exact sameOutside_set_set _ _ _ _
    · exact (sameOutside_set _ _ _).mono (Nat.le_refl _) (by omega)
  · exact SameOutside.refl _ _ _

theorem erased_same (c : Chip) (address : Nat) :
    SameOutside (max (blockStart address) protectedEnd)
      (min (blockStart address + 0x10000) flashSize) c.flash (c.erased address) := by
  unfold Chip.erased
  dsimp only
  split_ifs
  · exact sameOutside_fill _ _ _ _
  · exact SameOutside.refl _ _ _

theorem role_changes (c : Chip) (w : Cycle) :
    (c.role w).Changes c.flash (c.writeWord w).flash := by
  unfold Chip.role Chip.writeWord
  split_ifs
  · exact programmed_same c w
  · rfl
  · rfl
  · simp only [Role.Changes]
    exact erased_same c w.address
  all_goals rfl

theorem SameOutside.protects {lo hi : Nat} {xs ys : List UInt8} (h : SameOutside lo hi xs ys)
    (hlo : protectedEnd ≤ lo) :
    ys.length = xs.length ∧ ∀ i, i < protectedEnd → ys[i]? = xs[i]? :=
  ⟨h.1, fun i hi => h.2 i (.inl (Nat.lt_of_lt_of_le hi hlo))⟩

/-- No cycle reaches the boot block. -/
theorem Role.Changes.protects {role : Role} {xs ys : List UInt8} (h : role.Changes xs ys) :
    ys.length = xs.length ∧ ∀ i, i < protectedEnd → ys[i]? = xs[i]? := by
  cases role with
  | programData address => exact SameOutside.protects h (Nat.le_max_right _ _)
  | eraseConfirm address => exact SameOutside.protects h (Nat.le_max_right _ _)
  | programSetup | eraseSetup | other =>
    obtain rfl := h
    exact ⟨rfl, fun _ _ => rfl⟩

theorem run_protects (c : Chip) (cycles : List Cycle) :
    (Runs.run Chip.writeWord c cycles).flash.length = c.flash.length ∧
      ∀ i, i < protectedEnd → (Runs.run Chip.writeWord c cycles).flash[i]? = c.flash[i]? := by
  induction cycles generalizing c with
  | nil => exact ⟨rfl, fun _ _ => rfl⟩
  | cons w cycles ih =>
    have hw := (role_changes c w).protects
    have hrest := ih (c.writeWord w)
    exact ⟨hrest.1.trans hw.1, fun i hi => (hrest.2 i hi).trans (hw.2 i hi)⟩

/-! ## Command sequences -/

/-- Program data and erase confirmations come right after their setup. -/
def Follows (before : Role) : Role → Prop
  | .programData _ => before = .programSetup
  | .eraseConfirm _ => before = .eraseSetup
  | _ => True

/-- The chip and what its last cycle was taken for. -/
structure Trace where
  last : Role
  chip : Chip

def Trace.step (t : Trace) (w : Cycle) : Trace := ⟨t.chip.role w, t.chip.writeWord w⟩

/-- Whatever comes next only programs or erases as the end of a sequence that has just begun. -/
def Trace.Safe (t : Trace) : Prop := ∀ w, Follows t.last (t.chip.role w)

/-- While an erase is armed, a cycle is its confirmation or a setup, and no program data. -/
def Chip.Steady (c : Chip) (w : Cycle) : Prop :=
  c.eraseArmed → ¬ c.programArmed ∧
    (w.word = 0xd0d0 ∨ w.word = 0x2020 ∨ w.word = 0x4040 ∨ w.word = 0x1010)

instance decidableSteady (c : Chip) (w : Cycle) : Decidable (c.Steady w) := by
  unfold Chip.Steady
  infer_instance

/-- What an armed chip waits for is what its last cycle set up. -/
theorem safe_iff (t : Trace) : t.Safe ↔
    (t.chip.programArmed = true → t.last = .programSetup) ∧
    (t.chip.programArmed = false → t.chip.eraseArmed = true → t.last = .eraseSetup) := by
  constructor
  · intro h
    have hconfirm := h ⟨0, 0xd0, 0xd0⟩
    refine ⟨?_, ?_⟩
    · intro hprogram
      rwa [Chip.role, if_pos hprogram] at hconfirm
    · intro hprogram herase
      rwa [Chip.role, if_neg (by simp [hprogram]), if_neg (by decide), if_neg (by decide),
        if_pos ⟨by decide, herase⟩] at hconfirm
  · rintro ⟨hprogram, herase⟩ w
    unfold Chip.role
    split_ifs with h1 h2 h3 h4
    · exact hprogram h1
    · trivial
    · trivial
    · exact herase (by simpa using h1) h4.2
    all_goals trivial

theorem programArmed_writeWord (c : Chip) (w : Cycle) :
    (c.writeWord w).programArmed = true ↔ c.role w = .programSetup := by
  unfold Chip.writeWord Chip.role
  split_ifs <;> simp_all only [Bool.false_eq_true]

/-- An erase stays armed across every cycle but its confirmation. -/
theorem eraseArmed_writeWord (c : Chip) (w : Cycle) :
    (c.writeWord w).eraseArmed = true ↔
      c.role w = .eraseSetup ∨ c.eraseArmed = true ∧ c.role w ≠ .eraseConfirm w.address := by
  unfold Chip.writeWord Chip.role
  split_ifs <;> simp

theorem steady_iff (c : Chip) (w : Cycle) : c.Steady w ↔
    (c.eraseArmed = true → c.role w = .eraseConfirm w.address ∨ c.role w = .eraseSetup ∨
      c.role w = .programSetup) := by
  unfold Chip.Steady Chip.role
  refine forall_congr' fun herase => ?_
  split_ifs with h1 h2 h3 h4 h5
  · simp [h1]
  · simp [h2]
  · simp [h1, h3]
  · simp [h1, h4.1]
  · simp [h1, h5]
  · have hconfirm : w.word ≠ 0xd0d0 := fun hw => h4 ⟨hw, herase⟩
    simp [h3, hconfirm, not_or.mp h5]

/-- A cycle leads to a safe state exactly if it is steady. -/
theorem step_safe_iff (t : Trace) (w : Cycle) :
    (t.step w).Safe ↔ t.chip.Steady w := by
  have hkeep := eraseArmed_writeWord t.chip w
  have hprogram := programArmed_writeWord t.chip w
  rw [safe_iff, steady_iff]
  unfold Trace.step
  dsimp only
  constructor
  · rintro ⟨-, hsafe⟩ herase
    by_cases hconfirm : t.chip.role w = .eraseConfirm w.address
    · exact .inl hconfirm
    · have harmed := hkeep.mpr (.inr ⟨herase, hconfirm⟩)
      cases hp : (t.chip.writeWord w).programArmed with
      | true => exact .inr (.inr (hprogram.mp hp))
      | false => exact .inr (.inl (hsafe hp harmed))
  · intro hsteady
    refine ⟨hprogram.mp, ?_⟩
    intro hp harmed
    rcases hkeep.mp harmed with hsetup | ⟨herase, hconfirm⟩
    · exact hsetup
    · rcases hsteady herase with hrole | hrole | hrole
      · exact absurd hrole hconfirm
      · exact hrole
      · rw [hprogram.mpr hrole] at hp
        cases hp

/-- The run of the chip that a trace records. -/
theorem run_trace (t : Trace) (cycles : List Cycle) :
    (Runs.run Trace.step t cycles).chip = Runs.run Chip.writeWord t.chip cycles := by
  induction cycles generalizing t with
  | nil => rfl
  | cons w cycles ih => exact ih (t.step w)

/-! ## Runs -/

def Trace.new (flash : List UInt8) : Trace := ⟨.other, .new flash⟩

theorem new_safe (flash : List UInt8) : (Trace.new flash).Safe := by
  refine (safe_iff _).mpr ⟨?_, ?_⟩
  · intro h
    cases h
  · intro _ h
    cases h

theorem always_safe_iff (flash : List UInt8) (cycles : List Cycle) :
    Runs.Always Trace.step Trace.Safe (.new flash) cycles ↔
      Runs.Each Trace.step (fun t w => t.chip.Steady w) (.new flash) cycles :=
  Runs.always_iff_each (J := fun _ => True) (fun _ _ _ => trivial)
    (fun t w _ _ => step_safe_iff t w) trivial (new_safe flash)

theorem each_changes (t : Trace) (cycles : List Cycle) :
    Runs.Each Trace.step
      (fun t w => (t.chip.role w).Changes t.chip.flash (t.chip.writeWord w).flash) t cycles := by
  induction cycles generalizing t with
  | nil => trivial
  | cons w cycles ih => exact ⟨role_changes t.chip w, ih (t.step w)⟩

/-- The boot block keeps its contents, each cycle changes only what it addresses, and nothing but a
complete sequence can program or erase as long as no erase is left armed. -/
theorem flash_commands (flash : List UInt8) (writes : List Write) :
    let cycles := Runs.log Eprom.write Eprom.cycles (.new flash) writes
    (Runs.run Trace.step (.new flash) cycles).chip = (Runs.run Eprom.write (.new flash) writes).chip ∧
    (Runs.run Eprom.write (.new flash) writes).chip.flash.length = flash.length ∧
    (∀ i, i < protectedEnd →
      (Runs.run Eprom.write (.new flash) writes).chip.flash[i]? = flash[i]?) ∧
    Runs.Each Trace.step
      (fun t w => (t.chip.role w).Changes t.chip.flash (t.chip.writeWord w).flash)
      (.new flash) cycles ∧
    (Runs.Always Trace.step Trace.Safe (.new flash) cycles ↔
      Runs.Each Trace.step (fun t w => t.chip.Steady w) (.new flash) cycles) := by
  intro cycles
  have hrun := run_protects (.new flash) cycles
  have hchip := run_chip (.new flash) writes
  refine ⟨(run_trace _ _).trans hchip.symm, ?_, ?_, each_changes _ _, always_safe_iff _ _⟩
  · rw [hchip]
    exact hrun.1
  · intro i hi
    rw [hchip]
    exact hrun.2 i hi

/-- An erase setup, a reset to read the array, and a confirmation that still erases. -/
def resetBetween : List Write :=
  [.word 0x8000 0x20 0x20, .word 0x8000 0xff 0xff, .word 0x8000 0xd0 0xd0]

theorem erased_first (c : Chip) : c.erased 0x8000 = fill c.flash protectedEnd 0x10000 0xff := by
  have hstart : max (blockStart 0x8000) protectedEnd = protectedEnd := by decide
  have hstop : min (blockStart 0x8000 + 0x10000) flashSize = 0x10000 := by decide
  unfold Chip.erased
  simp only [hstart, hstop]
  exact if_pos (by decide)

theorem reset_chip (flash : List UInt8) : (Runs.run Eprom.write (.new flash) resetBetween).chip =
    { Chip.new flash with status := true, erases := 1, flash := (Chip.new flash).erased 0x8000 } := by
  rfl

theorem reset_erases {flash : List UInt8} (h : flash.length = flashSize) :
    (Runs.run Eprom.write (.new flash) resetBetween).chip.flash[protectedEnd]? = some 0xff := by
  have hlen : protectedEnd < (Chip.new flash).flash.length := by
    rw [Chip.new, h]
    decide
  rw [reset_chip, erased_first]
  exact fill_inside (Nat.le_refl _) (by decide) hlen

theorem reset_leaves_erase_armed :
    ¬ Runs.Always Trace.step Trace.Safe (.new (List.replicate flashSize 0x55))
      (Runs.log Eprom.write Eprom.cycles (.new (List.replicate flashSize 0x55)) resetBetween) ∧
    (List.replicate flashSize (0x55 : UInt8))[protectedEnd]? = some 0x55 ∧
    (Runs.run Eprom.write (.new (List.replicate flashSize 0x55)) resetBetween).chip.flash[
      protectedEnd]? = some 0xff := by
  refine ⟨?_, ?_, reset_erases List.length_replicate⟩
  · rw [always_safe_iff]
    decide
  · exact List.getElem?_replicate_of_lt (by decide)

end OpenSaab.BootFlash
