import OpenSaab.Wake.FailClosed

/-!
# The distances of the released frames

The frames of a release are let out by a clock that is fixed at the first of them. Against this stands
what the clock is for: that two frames, one after the other, leave no closer than they came.
-/

namespace OpenSaab.Wake

open Can Runs

/-! ## Steps that leave the clock and the queue -/

/-- The queue stays, an open gate keeps its clock, and time does not run back. -/
structure Still (b b' : Barrier) : Prop where
  queue : b'.queue = b.queue
  clock : b'.phase = .releasing →
    b.phase = .releasing ∧ b'.releaseClock = b.releaseClock ∧ b.lastCycles ≤ b'.lastCycles
  idle : b'.phase = .idle → b.phase = .idle ∨ b.queue = []
  cycles : b.lastCycles ≤ b'.lastCycles ∨ b.phase = .idle ∨ b.queue = []

namespace Still

variable {b b' b'' : Barrier} {α γ : Type}

/-- Other fields may change. -/
theorem fields (hqueue : b'.queue = b.queue) (hphase : b'.phase = b.phase)
    (hclock : b'.releaseClock = b.releaseClock) (hcycles : b.lastCycles ≤ b'.lastCycles) :
    Still b b' :=
  ⟨hqueue, fun h => ⟨hphase ▸ h, hclock, hcycles⟩, fun h => .inl (hphase ▸ h), .inl hcycles⟩

theorem refl (b : Barrier) : Still b b := .fields rfl rfl rfl (UInt64.le_refl _)

theorem trans (h : Still b b') (h' : Still b' b'') : Still b b'' where
  queue := h'.queue.trans h.queue
  clock hphase := by
    obtain ⟨hmid, hclock', hle'⟩ := h'.clock hphase
    obtain ⟨hfirst, hclock, hle⟩ := h.clock hmid
    exact ⟨hfirst, hclock'.trans hclock, UInt64.le_trans hle hle'⟩
  idle hphase := by
    rcases h'.idle hphase with hmid | hempty
    · exact h.idle hmid
    · exact .inr (h.queue ▸ hempty)
  cycles := by
    rcases h'.cycles with hle' | hmid | hempty
    · rcases h.cycles with hle | hrest
      · exact .inl (UInt64.le_trans hle hle')
      · exact .inr hrest
    · exact .inr (h.idle hmid)
    · exact .inr (.inr (h.queue ▸ hempty))

theorem andThen {r : Result α} {f : α → Barrier → Result γ} (hr : Still b r.2)
    (hf : ∀ a b', r = (.ok a, b') → Still b' (f a b').2) : Still b (r.andThen f).2 := by
  rcases r with ⟨e | a, b'⟩
  · exact hr
  · exact hr.trans (hf a b' rfl)

/-- A phase that is neither idle nor open. -/
theorem phase (h : b'.queue = b.queue) (hopen : b'.phase ≠ .releasing) (hidle : b'.phase ≠ .idle)
    (hcycles : b.lastCycles ≤ b'.lastCycles ∨ b.phase = .idle ∨ b.queue = []) : Still b b' :=
  ⟨h, fun h => absurd h hopen, fun h => absurd h hidle, hcycles⟩

end Still

section

variable [Sha256]

namespace Barrier

variable {b : Barrier} {α : Type}

/-- A frame is held with the time of its arrival. -/
structure Held (b : Barrier) (now : UInt64) (b' : Barrier) : Prop where
  queue : ∃ q, b'.queue = b.queue ++ [q] ∧ q.arrivedAt = now
  phase : b'.phase = b.phase
  clock : b'.releaseClock = b.releaseClock
  active : b.phase ≠ .idle
  cycles : b.lastCycles ≤ now ∧ b'.lastCycles = now

/-- The gate opens, and its clock has not been set. -/
structure Opens (b b' : Barrier) : Prop where
  queue : b'.queue = b.queue
  shut : b.phase ≠ .releasing ∧ b.phase ≠ .idle
  phase : b'.phase = .releasing
  clock : b'.releaseClock = none
  cycles : b.lastCycles ≤ b'.lastCycles

/-- When a frame is due that arrived then, by a clock that was set at the first frame. -/
def dueAt (clock : UInt64 × UInt64) (arrived : UInt64) : Nat :=
  clock.1.toNat + (arrived.toNat - clock.2.toNat)

/-- The audit has room for the release, and the last frame completes the stream. -/
structure Room (b : Barrier) (front : Queued) (rest : List Queued) : Prop where
  events :
    b.events.length ≤ maxEvents - requiredEvents rest.isEmpty (decide (front.frame.bytes = wake))
  stream : rest = [] → b.queuedCount = b.releasedCount + 1 ∧
    Sha256.hex b.queuedHash = Sha256.hex (hashFrame b.releasedHash front.frame)

/-- The front frame can be let out at this time, once it is due. -/
structure Lets (b : Barrier) (front : Queued) (rest : List Queued) (now : UInt64) : Prop where
  phase : b.phase = .releasing
  queue : b.queue = front :: rest
  cycles : b.lastCycles ≤ now
  deadline : ∀ d, b.deadline = some d → now < d
  room : b.Room front rest

/-- The front frame has left. -/
structure Left (b : Barrier) (front : Queued) (rest : List Queued) (b' : Barrier) : Prop where
  queue : b'.queue = rest
  cycles : b'.lastCycles = b.lastCycles
  clock : b'.phase = .releasing → b'.releaseClock = b.releaseClock
  idle : b'.phase = .idle → rest = []

/-- The clock of a release: the first frame sets it. -/
def clockFor (b : Barrier) (front : Queued) (now : UInt64) : UInt64 × UInt64 :=
  b.releaseClock.getD (now, front.arrivedAt)

/-- Nothing is let out now. -/
structure Waits (b : Barrier) (now : UInt64) (b' : Barrier) : Prop where
  still : Still b b'
  early : ∀ front rest, b.Lets front rest now →
    now.toNat < dueAt (b.clockFor front now) front.arrivedAt

end Barrier

/-! ## A run with the last release -/

def Reply.isRelease : Reply → Bool
  | .popped (some _) => true
  | _ => false

/-- When a frame was let out, and when it had come. -/
structure Release where
  released : UInt64
  arrived : UInt64
  deriving DecidableEq, Repr

/-- The barrier, and what it let out last since it opened. -/
structure Watch where
  barrier : Barrier
  last : Option Release

namespace Watch

def note (w : Watch) (op : Op) : Option Release :=
  match op, (reply w.barrier op).isRelease, w.barrier.queue with
  | .popReleasable now, true, front :: _ => some ⟨now, front.arrivedAt⟩
  | _, _, _ => if w.barrier.phase = .releasing then w.last else none

def step (w : Watch) (op : Op) : Watch := ⟨Wake.step w.barrier op, w.note op⟩

end Watch

/-! ## The clock against the last release -/

/-- The clock was set at or before the last release, and what waits came after it. -/
structure Anchors (clock : UInt64 × UInt64) (last : Release) (b : Barrier) : Prop where
  set : b.releaseClock = some clock
  start : clock.2 ≤ last.arrived
  due : Barrier.dueAt clock last.arrived ≤ last.released.toNat
  later : ∀ q ∈ b.queue, last.arrived ≤ q.arrivedAt
  past : last.arrived ≤ b.lastCycles

structure Timed (w : Watch) : Prop where
  idle : w.barrier.phase = .idle → w.barrier.queue = []
  sorted : w.barrier.queue.Pairwise fun q q' => q.arrivedAt ≤ q'.arrivedAt
  past : ∀ q ∈ w.barrier.queue, q.arrivedAt ≤ w.barrier.lastCycles
  fresh : w.barrier.phase = .releasing → w.last = none → w.barrier.releaseClock = none
  anchored : w.barrier.phase = .releasing → ∀ last, w.last = some last →
    ∃ clock, Anchors clock last w.barrier

variable {w : Watch} {b' : Barrier}

end

/-- The digests of the streams of up to three of these frames. -/
local instance pollDigests : Sha256 where
  hex bytes :=
    if bytes = hashFrame [] wakeFrame then
      "ad1b0affde80db623af9421051013eae0eb5a1e376a9f7ef94a8d2bb9696ad66"
    else if bytes = hashFrame [] heldFrame then
      "002bac5df71565d4d7be44f93002da1a861c200e9f8218d621b05f162313e159"
    else if bytes = hashFrame (hashFrame [] heldFrame) heldFrame then
      "9c138274334654382d9abfbff7c90b457ba2a4c9b599fefe8bb78db9d4ae9378"
    else if bytes = hashFrame (hashFrame (hashFrame [] heldFrame) heldFrame) heldFrame then
      "0e967e991bb7f5c643052d0a110023dca02660a30a4d1d47c3d152d40dd0ed0b"
    else "e3b0c44298fc1c149afbf4c8996fb92427ae41e4649b934ca495991b7852b855"

end OpenSaab.Wake
