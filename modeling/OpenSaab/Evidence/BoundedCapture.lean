import OpenSaab.Json
import OpenSaab.Library.Runs

/-!
# A bounded recording

`bounded_capture.rs`: activities are recorded up to a number of bytes. What does not fit is counted.
-/

namespace OpenSaab.Evidence

open Json Runs

/-- How the writing of a line ends: with all the bytes, or with a failure after some. -/
inductive Write
  | done
  | broken (written : Nat) (kind : String)
  deriving DecidableEq, Repr

/-- An activity, and how its line is written if it is. -/
structure Offer where
  activity : Value
  write : Write

/-- `written` never exceeds the limit, so it is a word like the limit. -/
structure BoundedCapture where
  output : List UInt8
  limit : Nat
  written : Nat
  omitted : UInt64
  writeError : Option String

def isEmptyArray (v : Value) : Bool := v.asArray.any List.isEmpty

def Offer.isIdle (o : Offer) : Bool :=
  isEmptyArray (o.activity.get "operations") && isEmptyArray (o.activity.get "events")

def newline : UInt8 := 10

namespace BoundedCapture

def new (output : List UInt8) (limit : Nat) : BoundedCapture := ⟨output, limit, 0, 0, none⟩

/-- Bytes that are left. -/
def left (c : BoundedCapture) : Nat := c.limit - c.written

def leaveOut (c : BoundedCapture) : BoundedCapture := { c with omitted := c.omitted + 1 }

/-- The line is written. -/
def writeLine (c : BoundedCapture) (bytes : List UInt8) : Write → BoundedCapture
  | .done => { c with
      output := c.output ++ (bytes ++ [newline]), written := c.written + (bytes.length + 1) }
  | .broken n kind => { c.leaveOut with
      output := c.output ++ (bytes ++ [newline]).take n, writeError := some kind }

/-- `to_vec` is `serde_json::to_vec`. -/
def record (toVec : Value → Option (List UInt8)) (c : BoundedCapture) (o : Offer) : BoundedCapture :=
  if o.isIdle then c
  else
    match toVec o.activity with
    | none => c.leaveOut
    | some bytes =>
      if c.writeError.isSome || decide (c.left < bytes.length + 1) then c.leaveOut
      else c.writeLine bytes o.write

def report (c : BoundedCapture) : Value :=
  .object [("byte_limit", .nat c.limit), ("bytes_written", .nat c.written),
    ("omitted_records", .u64 c.omitted), ("truncated", .bool (0 < c.omitted)),
    ("write_error_kind", (c.writeError.map Value.string).getD .null),
    ("retention", .string
      "initial nonempty activity; cleanup and transport outcome recorded separately")]

end BoundedCapture

/-! ## What is recorded -/

section Recording

variable (toVec : Value → Option (List UInt8))

def line (activity : Value) : List UInt8 := (toVec activity).getD [] ++ [newline]

/-- The line of the activity fits. -/
def Fits (left : Nat) (activity : Value) : Prop :=
  (toVec activity).isSome ∧ (line toVec activity).length ≤ left

instance (left : Nat) (activity : Value) : Decidable (Fits toVec left activity) :=
  inferInstanceAs (Decidable (_ ∧ _))

/-- The line of the activity is written. -/
def recorded (c : BoundedCapture) (o : Offer) : Bool :=
  c.writeError.isNone && decide (Fits toVec c.left o.activity) && o.write == .done

/-- The activities that are not idle, each with whether its line is written. -/
def fates (c : BoundedCapture) (o : Offer) : List (Value × Bool) :=
  if o.isIdle then [] else [(o.activity, recorded toVec c o)]

variable {toVec} {c : BoundedCapture} {o : Offer}

theorem record_idle (h : o.isIdle = true) : c.record toVec o = c := if_pos h

theorem length_line {bytes : List UInt8} {activity : Value} (h : toVec activity = some bytes) :
    line toVec activity = bytes ++ [newline] := by
  unfold line
  rw [h, Option.getD_some]

/-- An activity that does not fit is omitted, and so is every one after a failure. -/
theorem record_omitted (hidle : o.isIdle = false)
    (h : ¬ (c.writeError = none ∧ Fits toVec c.left o.activity)) : c.record toVec o = c.leaveOut := by
  unfold BoundedCapture.record
  rw [if_neg (by rw [hidle]; exact Bool.false_ne_true)]
  cases hbytes : toVec o.activity with
  | none => rfl
  | some bytes =>
    refine if_pos ?_
    cases herror : c.writeError with
    | some kind => rfl
    | none =>
      refine decide_eq_true (Nat.lt_of_not_le fun hle => h ⟨herror, ?_, ?_⟩)
      · rw [hbytes]
        rfl
      · rw [length_line hbytes, List.length_append]
        exact hle

theorem record_fits (hidle : o.isIdle = false) (herror : c.writeError = none)
    (h : Fits toVec c.left o.activity) :
    ∃ bytes, line toVec o.activity = bytes ++ [newline] ∧
      c.record toVec o = c.writeLine bytes o.write := by
  obtain ⟨hsome, hlength⟩ := h
  obtain ⟨bytes, hbytes⟩ := Option.isSome_iff_exists.mp hsome
  rw [length_line hbytes, List.length_append] at hlength
  refine ⟨bytes, length_line hbytes, ?_⟩
  have hroom : ¬ c.left < bytes.length + 1 := Nat.not_lt.mpr hlength
  unfold BoundedCapture.record
  rw [if_neg (by rw [hidle]; exact Bool.false_ne_true), hbytes]
  refine if_neg ?_
  rw [herror, decide_eq_false hroom]
  exact Bool.false_ne_true

end Recording

/-! ## Counts -/

/-- The activities whose lines are written. -/
def kept (fs : List (Value × Bool)) : List Value := (fs.filter Prod.snd).map Prod.fst

theorem kept_append (fs gs : List (Value × Bool)) : kept (fs ++ gs) = kept fs ++ kept gs := by
  unfold kept
  rw [List.filter_append, List.map_append]

theorem length_kept (fs : List (Value × Bool)) : (kept fs).length ≤ fs.length := by
  unfold kept
  rw [List.length_map]
  exact List.length_filter_le _ _

/-- The counts are those of the activities, and the output is made of their lines. -/
structure Tally (toVec : Value → Option (List UInt8)) (output : List UInt8) (limit : Nat)
    (c : BoundedCapture) (fs : List (Value × Bool)) : Prop where
  budget : c.limit = limit
  written : c.written = ((kept fs).flatMap (line toVec)).length
  bound : c.written ≤ limit
  omitted : c.omitted = UInt64.ofNat (fs.length - (kept fs).length)
  lines : ∃ rest, c.output = output ++ (kept fs).flatMap (line toVec) ++ rest ∧
    (c.writeError = none → rest = [])

section Counting

variable {toVec : Value → Option (List UInt8)} {output : List UInt8} {limit : Nat}
  {c : BoundedCapture} {o : Offer} {fs : List (Value × Bool)}

theorem fates_idle (h : o.isIdle = true) : fates toVec c o = [] := if_pos h

theorem fates_busy (h : o.isIdle = false) :
    fates toVec c o = [(o.activity, recorded toVec c o)] :=
  if_neg (by rw [h]; exact Bool.false_ne_true)

theorem recorded_omitted (h : ¬ (c.writeError = none ∧ Fits toVec c.left o.activity)) :
    recorded toVec c o = false := by
  unfold recorded
  cases herror : c.writeError with
  | some kind => rfl
  | none =>
    have hfits : ¬ Fits toVec c.left o.activity := fun hfits => h ⟨herror, hfits⟩
    rw [decide_eq_false hfits]
    rfl

theorem recorded_fits (herror : c.writeError = none) (h : Fits toVec c.left o.activity) :
    recorded toVec c o = (o.write == .done) := by
  unfold recorded
  rw [herror, decide_eq_true h]
  rfl

theorem kept_left_out (a : Value) : kept (fs ++ [(a, false)]) = kept fs := by
  rw [kept_append]
  exact List.append_nil _

theorem kept_written (a : Value) : kept (fs ++ [(a, true)]) = kept fs ++ [a] := kept_append _ _

/-- One more activity has been left out. -/
theorem Tally.omitted_snoc (h : Tally toVec output limit c fs) (a : Value) :
    c.omitted + 1 = UInt64.ofNat ((fs ++ [(a, false)]).length - (kept (fs ++ [(a, false)])).length) := by
  have hcount := length_kept fs
  have hnext : (fs ++ [(a, false)]).length - (kept (fs ++ [(a, false)])).length =
      fs.length - (kept fs).length + 1 := by
    rw [kept_left_out, List.length_append, List.length_singleton]
    omega
  rw [hnext, UInt64.ofNat_add, ← h.omitted]
  rfl

theorem Tally.leaveOut (h : Tally toVec output limit c fs) (a : Value) :
    Tally toVec output limit c.leaveOut (fs ++ [(a, false)]) where
  budget := h.budget
  written := by rw [kept_left_out]; exact h.written
  bound := h.bound
  omitted := h.omitted_snoc a
  lines := by rw [kept_left_out]; exact h.lines

theorem Tally.writeLine (h : Tally toVec output limit c fs) (herror : c.writeError = none)
    {a : Value} {bytes : List UInt8} (hline : line toVec a = bytes ++ [newline])
    (hfits : (line toVec a).length ≤ c.left) (w : Write) :
    Tally toVec output limit (c.writeLine bytes w) (fs ++ [(a, w == .done)]) := by
  obtain ⟨rest, houtput, hrest⟩ := h.lines
  obtain rfl := hrest herror
  rw [List.append_nil] at houtput
  have hlength : (line toVec a).length = bytes.length + 1 := by rw [hline, List.length_append]; rfl
  cases w with
  | done =>
    have hlines : (kept (fs ++ [(a, true)])).flatMap (line toVec) =
        (kept fs).flatMap (line toVec) ++ (bytes ++ [newline]) := by
      rw [kept_written, List.flatMap_append, List.flatMap_singleton, hline]
    have hkept : (kept (fs ++ [(a, true)])).length = (kept fs).length + 1 := by
      rw [kept_written, List.length_append, List.length_singleton]
    refine {
      budget := h.budget
      written := ?_
      bound := ?_
      omitted := ?_
      lines := ⟨[], ?_, fun _ => rfl⟩ }
    · change c.written + (bytes.length + 1) = ((kept (fs ++ [(a, true)])).flatMap _).length
      rw [hlines, List.length_append, h.written, List.length_append]
      rfl
    · change c.written + (bytes.length + 1) ≤ limit
      have hleft : c.left = limit - c.written := congrArg (· - c.written) h.budget
      have hbound := h.bound
      omega
    · change c.omitted = UInt64.ofNat ((fs ++ [(a, true)]).length - (kept (fs ++ [(a, true)])).length)
      rw [hkept, List.length_append, List.length_singleton, Nat.add_sub_add_right]
      exact h.omitted
    · change c.output ++ (bytes ++ [newline]) = _ ++ (kept (fs ++ [(a, true)])).flatMap _ ++ []
      rw [hlines, houtput, List.append_nil, List.append_assoc]
  | broken n kind =>
    refine {
      budget := h.budget
      written := ?_
      bound := h.bound
      omitted := h.omitted_snoc a
      lines := ⟨(bytes ++ [newline]).take n, ?_, fun hnone => ?_⟩ }
    · change c.written = ((kept (fs ++ [(a, false)])).flatMap _).length
      rw [kept_left_out]
      exact h.written
    · change c.output ++ _ = _ ++ (kept (fs ++ [(a, false)])).flatMap _ ++ _
      rw [kept_left_out, houtput]
    · cases hnone

theorem Tally.record (h : Tally toVec output limit c fs) (o : Offer) :
    Tally toVec output limit (c.record toVec o) (fs ++ fates toVec c o) := by
  cases hidle : o.isIdle with
  | true =>
    rw [record_idle hidle, fates_idle hidle, List.append_nil]
    exact h
  | false =>
    rw [fates_busy hidle]
    by_cases hfits : c.writeError = none ∧ Fits toVec c.left o.activity
    · obtain ⟨bytes, hline, hrecord⟩ := record_fits hidle hfits.1 hfits.2
      rw [hrecord, recorded_fits hfits.1 hfits.2]
      exact h.writeLine hfits.1 hline hfits.2.2 o.write
    · rw [record_omitted hidle hfits, recorded_omitted hfits]
      exact h.leaveOut o.activity

end Counting

end OpenSaab.Evidence
