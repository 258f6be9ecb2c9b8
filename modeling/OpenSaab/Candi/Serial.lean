import OpenSaab.Library.Bits
import OpenSaab.Library.Runs
import OpenSaab.Psos.State

/-!
# The serial port

`candi/serial.rs`: the wire between the host and the CANdi, one byte or line break at a time.
-/

namespace OpenSaab.Candi

open Runs Psos Bits

/-- A received or a sent break is `none`. -/
structure Serial where
  input : List (Option UInt8)
  rx : UInt8
  flags : UInt16
  readFlags : UInt16
  nextRx : UInt64
  tx : Option (UInt8 × UInt64)
  output : List UInt8
  events : List (Option UInt8)
  pendingBreak : Bool
  received : UInt64
  breaks : UInt64
  transmitted : UInt64
  deriving DecidableEq, Repr

namespace Serial

/-- `Serial::default`. -/
def default : Serial := ⟨[], 0, 0, 0, 0, none, [], [], false, 0, 0, 0⟩

def inputIdle (s : Serial) : Bool := s.input.isEmpty

/-- The bytes of a frame end with a break. -/
def queue (s : Serial) (bytes : List UInt8) : Except String Serial :=
  if 4096 < s.input.length + bytes.length + 1 then
    .error "CANdi virtual serial input queue is full"
  else .ok { s with input := s.input ++ bytes.map some ++ [none] }

def status (s : Serial) : UInt16 := s.flags ||| if s.tx = none then 0x180 else 0

def readStatus (s : Serial) : UInt16 × Serial := (s.status, { s with readFlags := s.flags })

/-- Only flags that a read of the status has shown are cleared. -/
def readData (s : Serial) : UInt8 × Serial :=
  (s.rx, { s with flags := s.flags &&& ~~~s.readFlags, readFlags := 0 })

def writeData (s : Serial) (value : UInt8) (now cycles : UInt64) : Bool × Serial :=
  if s.tx ≠ none ∨ 4095 ≤ s.events.length then (false, s)
  else (true, { s with tx := some (value, satAdd now cycles) })

/-! ## Time -/

/-- The byte that is being sent is out. The first 4096 bytes are recorded. -/
def finishByte (s : Serial) (now : UInt64) : Serial :=
  match s.tx with
  | none => s
  | some (byte, deadline) =>
    if deadline ≤ now then
      { s with
        tx := none
        output := if s.output.length < 4096 then s.output ++ [byte] else s.output
        events := s.events ++ [some byte]
        transmitted := s.transmitted + 1 }
    else s

def finishBreak (s : Serial) : Serial :=
  if s.pendingBreak ∧ s.tx = none ∧ s.events.length < 4096 then
    { s with events := s.events ++ [none], pendingBreak := false }
  else s

/-- The receiver is on, the line has had its time, and the data register is free. -/
def ready (s : Serial) (now : UInt64) (control : UInt16) : Bool :=
  !(control &&& 4 == 0 || decide (now < s.nextRx) || s.flags &&& 0x40 != 0)

/-- The next byte or break comes into the data register. -/
def latch (s : Serial) (now : UInt64) (control : UInt16) (cycles : UInt64) : Serial :=
  if s.ready now control then
    match s.input with
    | [] => s
    | event :: rest =>
      { s with
        input := rest
        rx := event.getD 0
        flags := s.flags ||| (0x40 ||| if event = none then 2 else 0)
        received := s.received + if event ≠ none then 1 else 0
        breaks := s.breaks + if event = none then 1 else 0
        nextRx := satAdd now cycles }
  else s

def advance (s : Serial) (now : UInt64) (control : UInt16) (cycles : UInt64) : Serial :=
  ((s.finishByte now).finishBreak).latch now control cycles

def interrupt (s : Serial) (control : UInt16) : Bool :=
  (control &&& 0x20 != 0 && s.status &&& 0x48 != 0) ||
    (control &&& 0x80 != 0 && s.status &&& 0x100 != 0) ||
    (control &&& 0x40 != 0 && s.status &&& 0x80 != 0)

def sendBreak (s : Serial) : Serial := { s with pendingBreak := true }

def takeEvents (s : Serial) : List (Option UInt8) × Serial := (s.events, { s with events := [] })

/-! ## Runs -/

/-- Everything that the host, the guest and time can do to the port. -/
inductive Op where
  | queue (bytes : List UInt8)
  | readStatus
  | readData
  | writeData (value : UInt8) (now cycles : UInt64)
  | advance (now : UInt64) (control : UInt16) (cycles : UInt64)
  | sendBreak
  | takeEvents
  deriving DecidableEq, Repr

def step (s : Serial) : Op → Serial
  | .queue bytes => match s.queue bytes with
    | .error _ => s
    | .ok s => s
  | .readStatus => s.readStatus.2
  | .readData => s.readData.2
  | .writeData value now cycles => (s.writeData value now cycles).2
  | .advance now control cycles => s.advance now control cycles
  | .sendBreak => s.sendBreak
  | .takeEvents => s.takeEvents.2

/-- What the host queues with success. -/
def queued (s : Serial) : Op → List (Option UInt8)
  | .queue bytes => match s.queue bytes with
    | .error _ => []
    | .ok _ => bytes.map some ++ [none]
  | _ => []

/-- What comes into the data register. -/
def latched (s : Serial) : Op → List (Option UInt8)
  | .advance now control _ => if s.ready now control then s.input.head?.toList else []
  | _ => []

/-- What the guest writes with success. -/
def written (s : Serial) : Op → List UInt8
  | .writeData value now cycles => if (s.writeData value now cycles).1 then [value] else []
  | _ => []

/-- What the host takes. -/
def taken (s : Serial) : Op → List (Option UInt8)
  | .takeEvents => s.takeEvents.1
  | _ => []

/-! ## What time changes -/

/-- Sending leaves the receiver alone. -/
theorem finished_receiver (s : Serial) (now : UInt64) :
    (s.finishByte now).finishBreak.input = s.input ∧ (s.finishByte now).finishBreak.rx = s.rx ∧
      (s.finishByte now).finishBreak.flags = s.flags ∧
      (s.finishByte now).finishBreak.readFlags = s.readFlags ∧
      (s.finishByte now).finishBreak.nextRx = s.nextRx := by
  have hbyte : (s.finishByte now).input = s.input ∧ (s.finishByte now).rx = s.rx ∧
      (s.finishByte now).flags = s.flags ∧ (s.finishByte now).readFlags = s.readFlags ∧
      (s.finishByte now).nextRx = s.nextRx := by
    unfold finishByte
    split
    · exact ⟨rfl, rfl, rfl, rfl, rfl⟩
    · split <;> exact ⟨rfl, rfl, rfl, rfl, rfl⟩
  unfold finishBreak
  split
  · exact hbyte
  · exact hbyte

theorem finished_ready (s : Serial) (now : UInt64) (control : UInt16) :
    (s.finishByte now).finishBreak.ready now control = s.ready now control := by
  obtain ⟨-, -, hflags, -, hnext⟩ := s.finished_receiver now
  rw [ready, ready, hflags, hnext]

/-- Receiving leaves the sender alone. -/
theorem latch_sender (s : Serial) (now : UInt64) (control : UInt16) (cycles : UInt64) :
    (s.latch now control cycles).tx = s.tx ∧ (s.latch now control cycles).events = s.events ∧
      (s.latch now control cycles).output = s.output := by
  unfold latch
  split
  · split <;> exact ⟨rfl, rfl, rfl⟩
  · exact ⟨rfl, rfl, rfl⟩

/-- Nothing comes into the data register, or the first of the line does. -/
theorem advance_receiver (s : Serial) (now : UInt64) (control : UInt16) (cycles : UInt64) :
    s.latched (.advance now control cycles) = [] ∧
        (s.advance now control cycles).input = s.input ∧
        (s.advance now control cycles).rx = s.rx ∧
        (s.advance now control cycles).flags = s.flags ∧
        (s.advance now control cycles).readFlags = s.readFlags ∨
      ∃ event, s.latched (.advance now control cycles) = [event] ∧ s.flags &&& 0x40 = 0 ∧
        s.input = event :: (s.advance now control cycles).input ∧
        (s.advance now control cycles).rx = event.getD 0 ∧
        (s.advance now control cycles).flags = s.flags ||| (0x40 ||| if event = none then 2 else 0) ∧
        (s.advance now control cycles).readFlags = s.readFlags := by
  obtain ⟨hinput, hrx, hflags, hread, -⟩ := s.finished_receiver now
  have hready := s.finished_ready now control
  unfold advance
  simp only [latched, ← hready, ← hinput, ← hflags, ← hrx, ← hread]
  generalize (s.finishByte now).finishBreak = t
  unfold latch
  cases h : t.ready now control with
  | false => exact .inl ⟨rfl, rfl, rfl, rfl, rfl⟩
  | true =>
    cases hline : t.input with
    | nil => exact .inl ⟨rfl, hline, rfl, rfl, rfl⟩
    | cons event rest =>
      refine .inr ⟨event, rfl, ?_, rfl, rfl, rfl, rfl⟩
      simp only [ready, Bool.not_eq_true', Bool.or_eq_false_iff, bne_eq_false_iff_eq] at h
      exact h.2

/-! ## Reception -/

theorem step_queue (s : Serial) (bytes : List UInt8) :
    s.step (.queue bytes) = { s with input := s.input ++ s.queued (.queue bytes) } := by
  simp only [step, queued, queue]
  by_cases hroom : 4096 < s.input.length + bytes.length + 1
  · simp [hroom]
  · simp [hroom]

/-- The line moves in order, from what is queued to what comes into the data register. -/
theorem step_input (s : Serial) (op : Op) :
    s.input ++ s.queued op = s.latched op ++ (s.step op).input := by
  cases op with
  | queue bytes =>
    rw [step_queue]
    rfl
  | advance now control cycles =>
    rcases s.advance_receiver now control cycles with ⟨hnone, hinput, -⟩ | ⟨event, hone, -, hinput, -⟩
    · simp only [queued, hnone, step, hinput, List.append_nil, List.nil_append]
    · simp only [queued, hone, step, List.append_nil]
      exact hinput
  | writeData value now cycles =>
    simp only [queued, latched, step, writeData]
    split <;> simp
  | readStatus => simp [queued, latched, step, readStatus]
  | readData => simp [queued, latched, step, readData]
  | sendBreak => simp [queued, latched, step, sendBreak]
  | takeEvents => simp [queued, latched, step, takeEvents]

theorem run_input (ops : List Op) :
    log step queued default ops = log step latched default ops ++ (run step default ops).input := by
  have hbalance := @log_balance _ _ _ step (fun _ => True) input _ _ (fun _ _ _ => trivial)
    (fun s op _ => s.step_input op) default trivial ops
  exact hbalance

/-- The data register shows what has come in last, a break as zero. -/
theorem run_rx (ops : List Op) :
    (run step default ops).rx = ((log step latched default ops).getLast?.getD none).getD 0 := by
  refine @log_keeps _ _ _ step (fun s past => s.rx = (past.getLast?.getD none).getD 0) latched ?_
    default [] ops rfl
  intro s op past hrx
  cases op with
  | advance now control cycles =>
    rcases s.advance_receiver now control cycles with ⟨hnone, -, hkeep, -⟩ | ⟨event, hone, -, -, hnew, -⟩
    · rw [hnone, List.append_nil, step, hkeep, hrx]
    · rw [hone, step, hnew, List.getLast?_concat]
      rfl
  | queue bytes =>
    rw [step_queue]
    simpa [latched] using hrx
  | writeData value now cycles =>
    simp only [latched, step, writeData, List.append_nil]
    split <;> exact hrx
  | readStatus => simpa [latched, step, readStatus] using hrx
  | readData => simpa [latched, step, readData] using hrx
  | sendBreak => simpa [latched, step, sendBreak] using hrx
  | takeEvents => simpa [latched, step, takeEvents] using hrx

/-! ## Acknowledgement -/

/-- The data register is taken. -/
def full (s : Serial) : Prop := s.flags &&& 0x40 ≠ 0

/-- The guest has been shown so. -/
def shown (s : Serial) : Prop := s.readFlags &&& 0x40 ≠ 0

theorem full_iff (s : Serial) : s.full ↔ s.flags.toBitVec.getLsbD 6 = true := by
  rw [full, ne_eq, Mask16.and_eq_zero (i := 6) (by decide), Bool.not_eq_false]

theorem shown_iff (s : Serial) : s.shown ↔ s.readFlags.toBitVec.getLsbD 6 = true := by
  rw [shown, ne_eq, Mask16.and_eq_zero (i := 6) (by decide), Bool.not_eq_false]

/-- A read of the data frees the register once the status has shown that it is taken. -/
theorem readData_full (s : Serial) : (s.step .readData).full ↔ s.full ∧ ¬ s.shown := by
  rw [full_iff, full_iff, shown_iff, step, readData]
  simp

theorem latch_full {s : Serial} {now : UInt64} {control : UInt16} {cycles : UInt64}
    {event : Option UInt8} (h : s.latched (.advance now control cycles) = [event]) :
    (s.advance now control cycles).full := by
  rcases s.advance_receiver now control cycles with ⟨hnone, -⟩ | ⟨event', -, -, -, -, hflags, -⟩
  · rw [hnone] at h
    cases h
  · rw [full_iff, hflags]
    simp

/-- Only a read of the data frees the register, and only a read of the status shows that it is
taken. -/
theorem step_full (s : Serial) (op : Op) (h : s.full) (hop : op ≠ .readData) :
    (s.step op).full ∧ s.latched op = [] ∧ (op ≠ .readStatus → ((s.step op).shown ↔ s.shown)) := by
  cases op with
  | readData => exact absurd rfl hop
  | readStatus => exact ⟨h, rfl, fun hne => absurd rfl hne⟩
  | queue bytes =>
    rw [step_queue]
    exact ⟨h, rfl, fun _ => Iff.rfl⟩
  | advance now control cycles =>
    rcases s.advance_receiver now control cycles with
      ⟨hnone, -, -, hflags, hread⟩ | ⟨event, -, hfree, -⟩
    · refine ⟨?_, hnone, fun _ => ?_⟩
      · rw [full, step, hflags]
        exact h
      · rw [shown, shown, step, hread]
    · exact absurd hfree h
  | writeData value now cycles =>
    simp only [step, writeData, latched]
    split
    · exact ⟨h, trivial, fun _ => Iff.rfl⟩
    · exact ⟨h, trivial, fun _ => Iff.rfl⟩
  | sendBreak => exact ⟨h, rfl, fun _ => Iff.rfl⟩
  | takeEvents => exact ⟨h, rfl, fun _ => Iff.rfl⟩

theorem shown_readData (s : Serial) : ¬ (s.step .readData).shown := by
  rw [shown, step, readData]
  simp

/-- What the guest has been shown is still so. -/
theorem run_shown (ops : List Op) : (run step default ops).shown → (run step default ops).full := by
  refine run_invariant (I := fun s : Serial => s.shown → s.full) ?_ ops fun h => absurd rfl h
  intro s op hs hshown
  by_cases hdata : op = .readData
  · subst hdata
    exact absurd hshown s.shown_readData
  by_cases hfull : s.full
  · exact (s.step_full op hfull hdata).1
  cases op with
  | readData => exact absurd rfl hdata
  | readStatus => exact hshown
  | queue bytes =>
    rw [step_queue] at hshown
    exact absurd (hs hshown) hfull
  | advance now control cycles =>
    rcases s.advance_receiver now control cycles with
      ⟨-, -, -, -, hread⟩ | ⟨event, -, -, -, -, -, hread⟩
    · rw [shown, step, hread] at hshown
      exact absurd (hs hshown) hfull
    · rw [shown, step, hread] at hshown
      exact absurd (hs hshown) hfull
  | writeData value now cycles =>
    refine absurd (hs ?_) hfull
    simp only [step, writeData] at hshown
    split at hshown <;> exact hshown
  | sendBreak => exact absurd (hs hshown) hfull
  | takeEvents => exact absurd (hs hshown) hfull

/-- From a register that is taken and not shown: it stays so, or the guest is shown it, or the guest
then reads the data. -/
theorem run_acknowledged {s : Serial} (hfull : s.full) (hshown : ¬ s.shown) (ops : List Op) :
    (run step s ops).full ∧ (¬ (run step s ops).shown ∨ InOrder [(· = Op.readStatus)] ops) ∨
      InOrder [(· = Op.readStatus), (· = Op.readData)] ops := by
  induction ops using List.reverseRecOn with
  | nil => exact .inl ⟨hfull, .inl hshown⟩
  | append_singleton ops op ih =>
    rw [run_append, run_cons, run_nil]
    rcases ih with ⟨ht, hseen⟩ | hdone
    · by_cases hdata : op = .readData
      · subst hdata
        rcases hseen with hnot | hseen
        · exact .inl ⟨(readData_full _).mpr ⟨ht, hnot⟩, .inl (shown_readData _)⟩
        · exact .inr (hseen.snoc rfl)
      · obtain ⟨hstays, -, hsame⟩ := step_full _ op ht hdata
        refine .inl ⟨hstays, ?_⟩
        by_cases hstatus : op = .readStatus
        · exact .inr (@InOrder.snoc _ [] _ _ _ trivial hstatus)
        · exact hseen.imp (fun hnot h => hnot ((hsame hstatus).mp h)) fun hseen => hseen.append [op]
    · exact .inr (hdone.append [op])

/-- Between two that come into the data register the guest reads the status and then the data. -/
theorem latched_acknowledged {before between : List Op} {a b : Op}
    (ha : latched (run step default before) a ≠ [])
    (hb : latched (run step default (before ++ a :: between)) b ≠ []) :
    InOrder [(· = Op.readStatus), (· = Op.readData)] between := by
  have hseen := run_shown before
  rw [run_append, run_cons] at hb
  generalize run step default before = s at ha hb hseen
  cases a with
  | advance now control cycles =>
    rcases s.advance_receiver now control cycles with ⟨hnone, -⟩ | ⟨event, hone, hfree, -, -, -, hread⟩
    · exact absurd hnone ha
    have hshown : ¬ (s.advance now control cycles).shown := by
      intro h
      rw [shown, hread] at h
      exact hseen h hfree
    rcases run_acknowledged (latch_full hone) hshown between with ⟨hfull, -⟩ | hdone
    · refine absurd ?_ hb
      by_cases hdata : b = .readData
      · rw [hdata]
        rfl
      · exact (step_full _ b hfull hdata).2.1
    · exact hdone
  | _ => exact absurd rfl ha

/-! ## Transmission -/

def bytesOf (events : List (Option UInt8)) : List UInt8 := events.filterMap id

@[simp] theorem bytesOf_append (xs ys : List (Option UInt8)) :
    bytesOf (xs ++ ys) = bytesOf xs ++ bytesOf ys := List.filterMap_append

/-- The byte that is being sent. -/
def underWay (s : Serial) : List UInt8 := (s.tx.map Prod.fst).toList

/-- What the guest has written and the host has not taken. -/
def untaken (s : Serial) : List UInt8 := bytesOf s.events ++ s.underWay

theorem finishByte_untaken (s : Serial) (now : UInt64) : (s.finishByte now).untaken = s.untaken := by
  unfold finishByte
  split
  · rfl
  next byte deadline htx =>
    split
    · simp [untaken, underWay, htx, bytesOf]
    · rfl

theorem finishBreak_untaken (s : Serial) : s.finishBreak.untaken = s.untaken := by
  unfold finishBreak
  split
  · simp [untaken, underWay, bytesOf]
  · rfl

/-- The bytes move in order, from the guest to the host. -/
theorem step_untaken (s : Serial) (op : Op) :
    s.untaken ++ s.written op = bytesOf (s.taken op) ++ (s.step op).untaken := by
  cases op with
  | queue bytes =>
    rw [step_queue]
    simp [written, taken, untaken, underWay, bytesOf]
  | advance now control cycles =>
    obtain ⟨htx, hevents, -⟩ :=
      (s.finishByte now).finishBreak.latch_sender now control cycles
    have hkept : (s.advance now control cycles).untaken = s.untaken := by
      rw [← s.finishByte_untaken now, ← (s.finishByte now).finishBreak_untaken, untaken, untaken,
        underWay, underWay, advance, htx, hevents]
    simp [written, taken, step, hkept, bytesOf]
  | writeData value now cycles =>
    by_cases hbusy : s.tx ≠ none ∨ 4095 ≤ s.events.length
    · have hrefused : s.writeData value now cycles = (false, s) := if_pos hbusy
      simp [written, taken, step, hrefused, bytesOf]
    · have haccepted : s.writeData value now cycles =
          (true, { s with tx := some (value, satAdd now cycles) }) := if_neg hbusy
      rw [not_or, not_not] at hbusy
      simp [written, taken, step, haccepted, untaken, underWay, hbusy.1, bytesOf]
  | readStatus => simp [written, taken, step, readStatus, untaken, underWay, bytesOf]
  | readData => simp [written, taken, step, readData, untaken, underWay, bytesOf]
  | sendBreak => simp [written, taken, step, sendBreak, untaken, underWay, bytesOf]
  | takeEvents => simp [written, taken, step, takeEvents, untaken, underWay, bytesOf]

theorem run_untaken (ops : List Op) :
    log step written default ops =
      bytesOf (log step taken default ops) ++ (run step default ops).untaken := by
  have hbalance := @log_balance _ _ _ step (fun _ => True) untaken _ _ (fun _ _ _ => trivial)
    (fun s op _ => s.step_untaken op) default trivial ops
  rw [log_hom rfl bytesOf_append taken default ops]
  exact hbalance

/-! ## The wire -/

/-- What comes into the data register is the queued stream up to some point; it stays there up to the
next one, before which the guest reads the status and then the data; and the bytes that are sent, with
the one under way, are those that the guest has written. -/
theorem wire_faithful (ops : List Op) :
    log step latched default ops <+: log step queued default ops ∧
      (run step default ops).rx = ((log step latched default ops).getLast?.getD none).getD 0 ∧
      (∀ before a between b after, ops = before ++ a :: (between ++ b :: after) →
        latched (run step default before) a ≠ [] →
        latched (run step default (before ++ a :: between)) b ≠ [] →
        InOrder [(· = Op.readStatus), (· = Op.readData)] between) ∧
      bytesOf (log step taken default ops ++ (run step default ops).events) ++
        (run step default ops).underWay = log step written default ops := by
  refine ⟨⟨_, (run_input ops).symm⟩, run_rx ops, ?_, ?_⟩
  · intro before a between b after _ ha hb
    exact latched_acknowledged ha hb
  · rw [run_untaken, bytesOf_append, untaken, List.append_assoc]

/-- A frame of one byte is received, acknowledged, and followed by its break. -/
example : log step latched default
    [.queue [0x90], .advance 1 4 10, .readData, .advance 20 4 10, .readStatus, .readData,
      .advance 30 4 10] = [some 0x90, none] := by
  decide

end Serial

end OpenSaab.Candi
