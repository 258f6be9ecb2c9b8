import OpenSaab.Wake.Gate

/-!
# Conservation of serial frames

Frames go around the queue while the gate is idle, and through it otherwise. Either way they are
delivered once, in the order of their admission.
-/

namespace OpenSaab.Wake

open Can Runs

/-! ## What one operation moves -/

/-- The frames that a reply tells the caller to deliver. -/
def Reply.delivered : Reply → List SerialFrame
  | .admitted (.send frame) => [frame]
  | .popped (some frame) => [frame]
  | _ => []

/-- The frames that an operation admits successfully. -/
def Op.admitted : Op → Reply → List SerialFrame
  | .admitFrame frame _, .admitted _ => [frame]
  | _, _ => []

/-- An idle gate holds nothing, and what is held is counted and bounded. -/
structure Gate.Stocked (g : Gate) : Prop where
  idle : g.phase = .idle → g.held = []
  bytes : g.heldBytes = (g.held.map Gate.cost).sum
  bound : g.heldBytes ≤ maxBytes
  frames : g.held.length ≤ maxFrames

namespace Gate

variable {g g' : Gate} {op : Op} {r : Reply}

theorem outcome_stocked (h : g.Outcome op r g') (hg : g.Stocked) : g'.Stocked := by
  obtain ⟨hidle, hbytes, hbound, hframes⟩ := hg
  cases h with
  | failed => exact ⟨by simp, hbytes, hbound, hframes⟩
  | stuck h => exact ⟨hidle, hbytes, hbound, hframes⟩
  | quiet hop hr => exact ⟨hidle, hbytes, hbound, hframes⟩
  | sent h hwake => exact ⟨hidle, hbytes, hbound, hframes⟩
  | armed h hwake hd => exact ⟨by simp, hbytes, hbound, hframes⟩
  | held hactive hlive hroom hcost =>
    refine ⟨fun h => absurd h hactive, by simp [hbytes], ?_, ?_⟩
    · show g.heldBytes + cost _ ≤ maxBytes
      omega
    · rw [List.length_append]
      exact hroom
  | ordinaryIntent h hnone => exact ⟨hidle, hbytes, hbound, hframes⟩
  | wakeIntent h hexact htime => exact ⟨by simp, hbytes, hbound, hframes⟩
  | ordinaryDone hlive h => exact ⟨hidle, hbytes, hbound, hframes⟩
  | wakeDone h hnot htime hd => exact ⟨by simp, hbytes, hbound, hframes⟩
  | restored h hafter htime => exact ⟨by simp, hbytes, hbound, hframes⟩
  | drained h hempty => exact ⟨fun _ => hempty, hbytes, hbound, hframes⟩
  | @popped frame rest now h hheld htime =>
    rw [hheld] at hbytes hframes
    simp only [List.map_cons, List.sum_cons, List.length_cons] at hbytes hframes
    refine ⟨?_, by dsimp only; omega, by dsimp only; omega, by dsimp only; omega⟩
    dsimp only
    unfold released
    split
    · simp
    · split
      · next hrest => exact fun _ => hrest
      · simp
  | aborted => exact ⟨by simp, hbytes, hbound, hframes⟩

/-- What was held and what is admitted is what is delivered and what is held then. -/
theorem outcome_moves (h : g.Outcome op r g') (hg : g.Stocked) :
    g.held ++ op.admitted r = r.delivered ++ g'.held := by
  cases h with
  | failed => cases op <;> simp [Op.admitted, Reply.delivered]
  | quiet hop hr =>
    rcases hr with rfl | rfl <;> cases op <;> simp [Op.admitted, Reply.delivered]
  | sent h hwake => simp [Op.admitted, Reply.delivered, hg.idle h]
  | armed h hwake hd => simp [Op.admitted, Reply.delivered, hg.idle h]
  | popped h hheld htime => simp [Op.admitted, Reply.delivered, hheld]
  | _ => simp [Op.admitted, Reply.delivered]

/-- An operation that fails leaves what is held. -/
theorem outcome_error {e : String} (h : g.Outcome op (.failed e) g') : g'.held = g.held := by
  cases h with
  | failed => rfl
  | stuck h => rfl
  | quiet hop hr => rcases hr with hr | hr <;> cases hr

end Gate

/-! ## Runs -/

section

variable [Sha256]

def delivered (b : Barrier) (op : Op) : List SerialFrame := (reply b op).delivered

def admitted (b : Barrier) (op : Op) : List SerialFrame := op.admitted (reply b op)

def Barrier.held (b : Barrier) : List SerialFrame := b.queue.map Queued.frame

omit [Sha256] in
theorem stocked_new (wake ordinary : CompletionSource) :
    (Barrier.withCompletionSources wake ordinary).gate.Stocked :=
  ⟨fun _ => rfl, rfl, Nat.zero_le _, Nat.zero_le _⟩

theorem step_stocked (b : Barrier) (op : Op) (h : b.gate.Stocked) : (step b op).gate.Stocked :=
  Gate.outcome_stocked (perform_outcome b op) h

/-- Whatever the operations are, the frames that were admitted are those that were delivered,
followed by those that are queued. -/
theorem frames_conserved (wake ordinary : CompletionSource) (ops : List Op) :
    let start := Barrier.withCompletionSources wake ordinary
    let b := run step start ops
    log step delivered start ops ++ b.held = log step admitted start ops ∧
      b.queuedBytes = (b.held.map fun frame => frame.bytes.length + 1).sum ∧
        b.queuedBytes ≤ maxBytes ∧ b.held.length ≤ maxFrames ∧
          (b.phase = .idle → b.held = []) ∧
            ∀ op e, reply b op = .failed e → (step b op).held = b.held := by
  intro start b
  have hstart : start.gate.Stocked := stocked_new wake ordinary
  have hkeep : ∀ (b : Barrier) (op : Op), b.gate.Stocked → (step b op).gate.Stocked := step_stocked
  have hmoves := log_balance hkeep
    (fun b op h => Gate.outcome_moves (perform_outcome b op) h) hstart ops
  have hend : b.gate.Stocked := run_invariant hkeep ops hstart
  refine ⟨?_, hend.bytes, hend.bound, hend.frames, hend.idle, ?_⟩
  · exact hmoves.symm
  · intro op e he
    have houtcome := perform_outcome b op
    rw [he] at houtcome
    exact Gate.outcome_error houtcome

/-- The frames that go to the caller at once. -/
def immediate (b : Barrier) (op : Op) : List SerialFrame :=
  match reply b op with
  | .admitted (.send frame) => [frame]
  | _ => []

/-- The frames that come out of the queue. -/
def popped (b : Barrier) (op : Op) : List SerialFrame :=
  match reply b op with
  | .popped (some frame) => [frame]
  | _ => []

end

/-! ## One cycle of the gate -/

def wakeFrame : SerialFrame := ⟨wake, "break"⟩
def heldFrame : SerialFrame := ⟨[0x2e, 0xd2], "break"⟩

/-- The digests of the streams of these frames. -/
local instance knownDigests : Sha256 where
  hex bytes :=
    if bytes = hashFrame [] wakeFrame then
      "ad1b0affde80db623af9421051013eae0eb5a1e376a9f7ef94a8d2bb9696ad66"
    else if bytes = hashFrame [] heldFrame then
      "002bac5df71565d4d7be44f93002da1a861c200e9f8218d621b05f162313e159"
    else "e3b0c44298fc1c149afbf4c8996fb92427ae41e4649b934ca495991b7852b855"

/-- The intent that transmits the wake frame, with the ticket 7. -/
def wakeTx : Transmission where
  ticket := 7
  frame := { id := 0x100, extended := false, rtr := false, dlc := 0, data := [] }
  btr0 := 0xdd
  btr1 := 0x36
  electrical := .singleWireGpio 0x26 0 0x7f

/-- The gate is armed, and opens for the frame that it holds. -/
def cycle : List Op :=
  [.admitFrame wakeFrame 10, .associateIntent 2 wakeTx 20, .admitFrame heldFrame 21,
    .completed 2 7 .micTranslatedWakeWriteCompatibility true 30,
    .observeGpio Barrier.restored 31]

/-- A frame that is sent after a cycle comes after those that the cycle has released, and a frame
that is held may have more than 512 bytes. -/
theorem later_frames_are_sent_later :
    (¬ ∀ ops : List Op,
      log step immediate .new ops ++ log step popped .new ops ++ (run step .new ops).held =
        log step admitted .new ops) ∧
      ¬ ∀ ops : List Op, ∀ frame ∈ (run step .new ops).held, frame.bytes.length ≤ 512 := by
  constructor
  · intro h
    have hcycle := h (cycle ++ [.popReleasable 32, .admitFrame ⟨[1], "break"⟩ 33])
    revert hcycle
    decide +kernel
  · intro h
    have hlong := h [.admitFrame wakeFrame 10, .admitFrame ⟨List.replicate 513 0, "break"⟩ 11]
    revert hlong
    decide +kernel

end OpenSaab.Wake
