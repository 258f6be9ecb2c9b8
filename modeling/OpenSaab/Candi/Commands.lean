import OpenSaab.Candi.Sja1000
import OpenSaab.Library.Programs

/-!
# Writes in the order of their statements

`Controller.write` gives the result of a write that succeeds. Here a write is a program, one statement
after the other, so that it can be said what a write that fails has done before.
-/

namespace OpenSaab.Candi.Controller

open Can Text Program

/-! ## The program of a write -/

/-- The part of a command that requests a transmission. -/
def requesting : Program Controller String Unit := do
  let c ← Program.read id
  if ¬ c.transport then fail ("CAN TX requested; backend absent; " ++ c.txDescription)
  else if ¬ c.pelican ∨ c.reset ∨ getElem c.registers 0 mode_lt &&& 0x16 ≠ 0 ∨ c.pending.isSome then
    fail "CAN TX unavailable: controller mode or pending transmission"
  else do
    let frame := c.txFrame
    lift frame.validate
    let ticket := c.nextTicket
    if ticket = 0xffffffffffffffff then fail "CAN transmission ticket exhausted"
    else do
      change fun c => { c with nextTicket := ticket + 1 }
      change fun c => { c with
        pending := some
          { ticket, frame
            btr0 := getElem c.registers 6 timing0_lt
            btr1 := getElem c.registers 7 timing1_lt
            electrical := c.electrical } }
      change fun c => { c with dispatched := false }
      change fun c => { c with
        registers :=
          c.registers.set 2 (getElem c.registers 2 status_lt &&& ~~~0x0c ||| 0x20) status_lt }

/-- A statement under a condition. -/
def guarded (p : Prop) [Decidable p] (statement : Program Controller String Unit) :
    Program Controller String Unit :=
  if p then statement else pure ()

/-- The rest of a command. -/
def concluding (value : UInt8) : Program Controller String Unit := do
  guarded (value &&& 2 ≠ 0) (change abort)
  guarded (value &&& 4 ≠ 0) (change release)
  guarded (value &&& 8 ≠ 0) (change clearOverrun)

def commanding (value : UInt8) : Program Controller String Unit :=
  if value &&& 0xe0 ≠ 0 then fail "Unsupported CAN command bits"
  else if value &&& 0x11 = 0x10 then fail "SJA1000 self reception is not implemented"
  else if value &&& 3 = 3 then fail "SJA1000 single-shot transmission is not implemented"
  else do
    guarded (value &&& 1 ≠ 0) requesting
    concluding value

def writing (offset value : UInt8) : Program Controller String Unit := do
  let c ← Program.read id
  let i := offset.toNat
  if offset = 0 then change (·.writeMode value)
  else if offset = 31 ∧ c.reset then
    change fun c => { c with registers := c.registers.set 31 (value &&& ~~~0x10) clock_lt }
  else if offset = 1 then commanding value
  else if offset = 4 ∧ c.pelican then
    change fun c => { c with registers := c.registers.set 4 value interrupts_lt }
  else if 4 ≤ offset ∧ offset ≤ 8 ∧ ¬ c.pelican ∧ ¬ c.reset then pure ()
  else if 4 ≤ offset ∧ offset ≤ 8 ∧ c.reset then
    change fun c => { c with registers := c.registers.setIfInBounds i value }
  else if 13 ≤ offset ∧ offset ≤ 15 ∧ c.pelican ∧ c.reset then
    change fun c => { c with registers := c.registers.setIfInBounds i value }
  else if 16 ≤ offset ∧ offset ≤ 23 ∧ c.pelican ∧ c.reset then
    change fun c => { c with filter := c.filter.setIfInBounds (i - 16) value }
  else if offset = 30 ∧ c.pelican ∧ c.reset then
    change fun c => { c with registers := c.registers.set 30 (value &&& 63) rxStart_lt }
  else if 16 ≤ offset ∧ offset ≤ 28 ∧ c.pelican ∧ ¬ c.reset then
    if c.pending.isSome then pure ()
    else do
      change fun c => { c with tx := c.tx.setIfInBounds (i - 16) value }
      change fun c => { c with ram := c.ram.setIfInBounds (64 + i - 16) value }
  else if 32 ≤ offset ∧ offset ≤ 111 ∧ c.pelican ∧ c.reset then
    change fun c => { c with ram := c.ram.setIfInBounds (i - 32) value }
  else
    fail ("unsupported SJA1000 register write offset=" ++ hexPrefixed offset ++ " value=" ++
      hexPrefixed value)

/-! ## Its result -/

/-- The outcome of a program whose failures leave the state alone. -/
def outcome (c : Controller) : Except String Controller → Except String Unit × Controller
  | .error e => (.error e, c)
  | .ok c' => (.ok (), c')

theorem requesting_eq (c : Controller) : requesting c = outcome c c.request := by
  unfold requesting request
  rw [bind_read]
  dsimp only [id]
  by_cases htransport : ¬ c.transport
  · rw [if_pos htransport, if_pos htransport]
    rfl
  rw [if_neg htransport, if_neg htransport]
  by_cases hmode : ¬ c.pelican ∨ c.reset ∨ getElem c.registers 0 mode_lt &&& 0x16 ≠ 0 ∨ c.pending.isSome
  · rw [if_pos hmode, if_pos hmode]
    rfl
  rw [if_neg hmode, if_neg hmode]
  cases hvalid : c.txFrame.validate with
  | error e => rw [bind_error (lift_apply _)]; rfl
  | ok u =>
    rw [bind_ok (lift_apply _)]
    by_cases hticket : c.nextTicket = 0xffffffffffffffff
    · simp only [if_pos hticket]
      rfl
    · simp only [if_neg hticket]
      rfl

theorem guarded_change (p : Prop) [Decidable p] (f : Controller → Controller) (c : Controller) :
    guarded p (change f) c = (.ok (), if p then f c else c) := by
  unfold guarded
  by_cases h : p
  · rw [if_pos h, if_pos h]
    rfl
  · rw [if_neg h, if_neg h]
    rfl

theorem concluding_eq (c : Controller) (value : UInt8) : concluding value c = (.ok (),
    let c := if value &&& 2 ≠ 0 then c.abort else c
    let c := if value &&& 4 ≠ 0 then c.release else c
    if value &&& 8 ≠ 0 then c.clearOverrun else c) := by
  unfold concluding
  rw [bind_ok (guarded_change _ _ _), bind_ok (guarded_change _ _ _), guarded_change]

theorem commanding_eq (c : Controller) (value : UInt8) :
    commanding value c = outcome c (c.command value) := by
  unfold commanding command
  by_cases hknown : value &&& 0xe0 ≠ 0
  · rw [if_pos hknown, if_pos hknown]
    rfl
  rw [if_neg hknown, if_neg hknown]
  by_cases hself : value &&& 0x11 = 0x10
  · rw [if_pos hself, if_pos hself]
    rfl
  rw [if_neg hself, if_neg hself]
  by_cases hsingle : value &&& 3 = 3
  · rw [if_pos hsingle, if_pos hsingle]
    rfl
  rw [if_neg hsingle, if_neg hsingle]
  by_cases hsends : value &&& 1 ≠ 0
  · rw [if_pos hsends, guarded, if_pos hsends]
    have hrequest := requesting_eq c
    cases hr : c.request with
    | error e =>
      rw [hr] at hrequest
      exact bind_error hrequest
    | ok c' =>
      rw [hr] at hrequest
      exact (bind_ok hrequest).trans (concluding_eq c' value)
  · rw [if_neg hsends, guarded, if_neg hsends]
    exact concluding_eq c value

/-- A write as a program has the result that `write` gives, and leaves the controller alone where `write`
fails. -/
theorem writing_eq (c : Controller) (offset value : UInt8) :
    writing offset value c = outcome c (c.write offset value) := by
  have hite {p : Prop} [Decidable p] {a b : Program Controller String Unit}
      {a' b' : Except String Controller} (ha : a c = outcome c a') (hb : b c = outcome c b') :
      (if p then a else b) c = outcome c (if p then a' else b') := by
    by_cases h : p
    · rw [if_pos h, if_pos h]
      exact ha
    · rw [if_neg h, if_neg h]
      exact hb
  unfold writing write
  rw [bind_read]
  dsimp only [id]
  refine hite rfl (hite rfl (hite (commanding_eq c value) ?_))
  iterate 6 refine hite rfl ?_
  exact hite (hite rfl rfl) (hite rfl rfl)

/-! ## Failure -/

theorem requesting_atomic : Atomic requesting := by
  refine .reads (.read id) fun c => ?_
  refine .ite (.fail _) (.ite (.fail _) ?_)
  refine .reads (.lift _) fun _ => ?_
  refine .ite (.fail _) (Succeeds.atomic ?_)
  exact (Succeeds.change _).bind fun _ => (Succeeds.change _).bind fun _ =>
    (Succeeds.change _).bind fun _ => .change _

theorem guarded_succeeds (p : Prop) [Decidable p] (f : Controller → Controller) :
    Succeeds (guarded p (change f)) := .ite (.change f) (.pure ())

theorem concluding_succeeds (value : UInt8) : Succeeds (concluding value) :=
  (guarded_succeeds _ _).bind fun _ => (guarded_succeeds _ _).bind fun _ => guarded_succeeds _ _

/-- Whatever can fail in a command fails before the first change. -/
theorem commanding_atomic (value : UInt8) : Atomic (commanding value) := by
  refine .ite (.fail _) (.ite (.fail _) (.ite (.fail _) ?_))
  refine Atomic.succeeds ?_ fun _ => concluding_succeeds value
  exact .ite requesting_atomic (Succeeds.pure ()).atomic

theorem writing_atomic (offset value : UInt8) : Atomic (writing offset value) := by
  refine .reads (.read id) fun c => ?_
  refine .ite (Succeeds.change _).atomic (.ite (Succeeds.change _).atomic
    (.ite (commanding_atomic value) (.ite (Succeeds.change _).atomic (.ite (Succeeds.pure ()).atomic
      ?_))))
  iterate 4 refine .ite (Succeeds.change _).atomic ?_
  refine .ite (.ite (Succeeds.pure ()).atomic ?_) (.ite (Succeeds.change _).atomic (.fail _))
  exact ((Succeeds.change _).bind fun _ => .change _).atomic

/-- A write that fails, of any value to any register of any controller, changes nothing. -/
theorem write_failed {c c' : Controller} {offset value : UInt8} {e : String}
    (h : writing offset value c = (.error e, c')) : c' = c :=
  writing_atomic offset value c e c' h

/-- A request for a transmission and for a release, without a transport. -/
theorem write_failed_unconnected : (writing 1 5 default).2 = default :=
  write_failed (e := "CAN TX requested; backend absent; " ++ default.txDescription)
    (by rw [writing_eq]; rfl)

end OpenSaab.Candi.Controller
