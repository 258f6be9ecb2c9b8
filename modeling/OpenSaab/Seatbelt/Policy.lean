import OpenSaab.Can.Frame
import OpenSaab.Library.Words

/-!
# The reminder operation on the body controller

`seatbelt.rs`: which requests of the original firmware reach the body controller while its reminder
setting is rewritten. The firmware owns the exchange; the policy watches both directions.
-/

namespace OpenSaab.Seatbelt

open Can

structure Policy where
  desired : UInt8
  seed : UInt16
  key : UInt16
  requested : Bool
  matched : Bool
  keySent : Bool
  authorized : Bool
  readPending : Bool
  baseline : Bool
  written : Bool
  rejection : Option (UInt8 × UInt8)
  acknowledged : Bool
  symbolOnly : Bool
  desiredReadback : Bool
  deriving DecidableEq, Repr

/-! ## Frames of the operation -/

def seedRequest : List UInt8 := [2, 0x27, 1, 0, 0, 0, 0, 0]

def readRequest : List UInt8 := [2, 0x1a, 1, 0, 0, 0, 0, 0]

def Policy.keyRequest (p : Policy) : List UInt8 :=
  [4, 0x27, 2, (p.key >>> 8).toUInt8, p.key.toUInt8, 0, 0, 0]

def Policy.writeRequest (p : Policy) : List UInt8 := [4, 0x3b, 1, 0x99, p.desired, 0, 0, 0]

/-- The two bytes after the header of an answer. -/
def value (d : List UInt8) : List UInt8 := (d.drop 3).take 2

def isSeed (d : List UInt8) : Bool := d.take 3 == [4, 0x67, 1] && 5 ≤ d.length

def isGrant (d : List UInt8) : Bool := d.take 3 == [2, 0x67, 2]

def isBlock (d : List UInt8) : Bool := d.take 3 == [4, 0x5a, 1] && 5 ≤ d.length

def isWritten (d : List UInt8) : Bool := d.take 3 == [2, 0x7b, 1]

/-- A negative response to a key or a write, other than that the answer is pending. -/
def isRejection (d : List UInt8) : Bool :=
  d.take 2 == [3, 0x7f] && 4 ≤ d.length && d.getD 3 0 != 0x78 &&
    (d.getD 2 0 == 0x27 || d.getD 2 0 == 0x3b)

theorem take_two {d : List UInt8} {a b c : UInt8} (h : d.take 3 = [a, b, c]) : d.take 2 = [a, b] := by
  have htake : (d.take 3).take 2 = d.take 2 := List.take_take
  rw [← htake, h]
  rfl

theorem isSeed_head {d : List UInt8} (h : isSeed d) : d.take 2 = [4, 0x67] := by
  simp only [isSeed, Bool.and_eq_true, beq_iff_eq] at h
  exact take_two h.1

theorem isGrant_head {d : List UInt8} (h : isGrant d) : d.take 2 = [2, 0x67] := by
  simp only [isGrant, beq_iff_eq] at h
  exact take_two h

theorem isBlock_head {d : List UInt8} (h : isBlock d) : d.take 2 = [4, 0x5a] := by
  simp only [isBlock, Bool.and_eq_true, beq_iff_eq] at h
  exact take_two h.1

theorem isWritten_head {d : List UInt8} (h : isWritten d) : d.take 2 = [2, 0x7b] := by
  simp only [isWritten, beq_iff_eq] at h
  exact take_two h

theorem isRejection_head {d : List UInt8} (h : isRejection d) : d.take 2 = [3, 0x7f] := by
  simp only [isRejection, Bool.and_eq_true, beq_iff_eq] at h
  exact h.1.1.1

theorem isBlock_false {d : List UInt8} {a b : UInt8} (h : d.take 2 = [a, b])
    (hne : [a, b] ≠ [4, 0x5a]) : isBlock d = false :=
  Bool.eq_false_iff.mpr fun hb => hne (h.symm.trans (isBlock_head hb))

theorem isRejection_false {d : List UInt8} {a b : UInt8} (h : d.take 2 = [a, b])
    (hne : [a, b] ≠ [3, 0x7f]) : isRejection d = false :=
  Bool.eq_false_iff.mpr fun hr => hne (h.symm.trans (isRejection_head hr))

theorem answers_length {d : List UInt8} (h : d.length < 3) :
    isBlock d = false ∧ isRejection d = false := by
  have h5 : ¬ 5 ≤ d.length := by omega
  have h4 : ¬ 4 ≤ d.length := by omega
  simp [isBlock, isRejection, h5, h4]

/-! ## The policy -/

namespace Policy

def start (desired : UInt8) (seed key : UInt16) : Policy :=
  ⟨desired, seed, key, false, false, false, false, false, false, false, none, false, false, false⟩

def new (seed key : UInt16) : Except String Policy :=
  if seed = 0xffff ∨ key = 0xffff then .error "Unfilled BCM authority" else .ok (start 0 seed key)

def audible (seed key : UInt16) : Except String Policy :=
  match new seed key with
  | .error e => .error e
  | .ok p => .ok { p with desired := 0xc0 }

def bcm (controller : Nat) (tx : Transmission) : Bool :=
  controller == 2 && tx.frame.id == 0x242 &&
    match electricalRoute controller tx with
    | .ok route => route.mode == .data
    | .error _ => false

def allows (p : Policy) (controller : Nat) (tx : Transmission) : Bool :=
  if p.rejection.isSome ∨ ¬ bcm controller tx then false
  else if tx.frame.data = seedRequest then !p.keySent
  else if tx.frame.data = p.keyRequest then p.matched && !p.keySent
  else tx.frame.data == p.writeRequest && p.authorized && p.baseline && !p.written

/-- A request that is let out leaves its mark. -/
def mark (p : Policy) (d : List UInt8) : Policy :=
  if d.getD 1 0 = 0x3b then { p with written := true }
  else if d.getD 2 0 = 1 then { p with requested := true }
  else { p with keySent := true }

def noteRead (p : Policy) (d : List UInt8) : Policy :=
  if d = readRequest then { p with readPending := true } else p

theorem mark_seedRequest (p : Policy) :
    (p.mark seedRequest).noteRead seedRequest = { p with requested := true } := rfl

theorem mark_keyRequest (p : Policy) :
    (p.mark p.keyRequest).noteRead p.keyRequest = { p with keySent := true } := by
  simp [mark, noteRead, keyRequest, readRequest]

theorem mark_writeRequest (p : Policy) :
    (p.mark p.writeRequest).noteRead p.writeRequest = { p with written := true } := by
  simp [mark, noteRead, writeRequest, readRequest]

def before (p : Policy) (controller : Nat) (tx : Transmission) : Policy × Except String Unit :=
  if ¬ bcm controller tx then (p, .ok ())
  else
    let d := tx.frame.data
    if 3 ≤ d.length ∧ (d.getD 1 0 = 0x27 ∨ d.getD 1 0 = 0x3b) then
      if ¬ p.allows controller tx then (p, .error "BCM reminder policy rejected request")
      else ((p.mark d).noteRead d, .ok ())
    else (p.noteRead d, .ok ())

def observe (p : Policy) (controller : Nat) (id : UInt32) (d : List UInt8) :
    Policy × Except String Unit :=
  if controller ≠ 2 ∨ id ≠ 0x642 ∨ d.length < 3 then (p, .ok ())
  else if isSeed d then
    if ¬ p.requested ∨ Words.ofBig (value d) ≠ p.seed.toNat then
      (p, .error "Fresh BCM seed differs from processed SSA; recollect before authorization")
    else ({ p with matched := true }, .ok ())
  else if isGrant d then
    if ¬ p.keySent then (p, .error "Unsolicited BCM authorization")
    else ({ p with authorized := true }, .ok ())
  else if isBlock d ∧ p.readPending then
    ({ p with
      readPending := false
      baseline := p.authorized && value d == [0x99, p.desired ^^^ 0xc0]
      symbolOnly := value d == [0x99, 0]
      desiredReadback := value d == [0x99, p.desired] }, .ok ())
  else if isWritten d then
    if ¬ p.written then (p, .error "Unsolicited BCM write acknowledgment")
    else ({ p with acknowledged := true }, .ok ())
  else if isRejection d then
    -- The rejection goes on to the firmware; only the operation is over.
    ({ p with
      rejection := some (d.getD 2 0, d.getD 3 0)
      authorized := false
      baseline := false }, .ok ())
  else (p, .ok ())

end Policy

end OpenSaab.Seatbelt
