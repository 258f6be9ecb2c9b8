import OpenSaab.Candi.Uart

/-!
# Frames to the CANdi

The frame that a delimiter ends, against everything that the guest has written. A history has the
newest access first.
-/

namespace OpenSaab.Candi

open Runs Uart

/-! ## What a write stands for -/

/-- The value last written to a register. -/
def written (i : Nat) : List Port.Op → UInt8
  | [] => 0
  | .write address value :: older => if (index address).val = i then value else written i older
  | _ :: older => written i older

inductive Mark where
  | byte (b : UInt8)
  | looped
  | delimiter
  | reset
  deriving DecidableEq

/-- A byte to the holding register, the end of a frame, or a reset of the queues. -/
def Mark.of (lcr mcr : UInt8) (address : UInt32) (value : UInt8) : Option Mark :=
  if (index address).val = 0 ∧ lcr &&& 0x80 = 0 then
    if lcr &&& 0x3f = 0x3f ∧ value = 0 then some .delimiter
    else if mcr &&& 0x10 ≠ 0 then some .looped
    else some (.byte value)
  else if (index address).val = 2 then some .reset
  else if (index address).val = 3 ∧ value &&& 0x40 ≠ 0 ∧ lcr &&& 0x40 = 0 then some .delimiter
  else none

def mark (older : List Port.Op) : Port.Op → Option Mark
  | .write address value => Mark.of (written 3 older) (written 4 older) address value
  | _ => none

/-- The bytes since the last delimiter or reset, but for those in loopback. -/
def held : List Port.Op → List UInt8
  | [] => []
  | op :: older =>
    match mark older op with
    | some (.byte b) => held older ++ [b]
    | some .delimiter => []
    | some .reset => []
    | _ => held older

theorem held_cons (op : Port.Op) (older : List Port.Op) :
    held (op :: older) =
      match mark older op with
      | some (.byte b) => held older ++ [b]
      | some .delimiter => []
      | some .reset => []
      | _ => held older :=
  rfl

/-- The frame that an access ends. -/
def emitted (p : Port) : Port.Op → Option (List UInt8)
  | .write address value => (p.uart.write address value).2.map Prod.fst
  | _ => none

/-! ## One write -/

/-- What a write does to the frame that is being written, by what it stands for. -/
inductive Sends (u u' : Uart) : Option Mark → Option (List UInt8) → Prop where
  | byte (b : UInt8) (hroom : u.tx.length < 4096) (htx : u'.tx = u.tx ++ [b]) :
      Sends u u' (some (.byte b)) none
  | full (b : UInt8) (hfull : 4096 ≤ u.tx.length) (htx : u'.tx = u.tx) (hstop : u'.stopped = true) :
      Sends u u' (some (.byte b)) none
  | looped (htx : u'.tx = u.tx) : Sends u u' (some .looped) none
  | delimiter (htx : u'.tx = []) : Sends u u' (some .delimiter) (some u.tx)
  | reset (htx : u'.tx = []) : Sends u u' (some .reset) none
  | other (htx : u'.tx = u.tx) : Sends u u' none none

theorem writeHolding_sends (u : Uart) {address : UInt32} (value : UInt8)
    (hindex : (index address).val = 0) (hlatch : u.lcr &&& 0x80 = 0) :
    Sends u (u.writeHolding value).1 (Mark.of u.lcr u.mcr address value)
      ((u.writeHolding value).2.map Prod.fst) := by
  have hmark : Mark.of u.lcr u.mcr address value =
      if u.lcr &&& 0x3f = 0x3f ∧ value = 0 then some .delimiter
      else if u.mcr &&& 0x10 ≠ 0 then some .looped
      else some (.byte value) := by
    rw [Mark.of, if_pos ⟨hindex, hlatch⟩]
  have hspace : u.spaceParity value = true ↔ u.lcr &&& 0x3f = 0x3f ∧ value = 0 := by
    simp [spaceParity]
  have hloop : u.loopback = true ↔ u.mcr &&& 0x10 ≠ 0 := by
    simp [loopback]
  rw [hmark]
  unfold writeHolding
  simp only [hspace, hloop]
  split_ifs with _ _ _ hroom
  · exact .delimiter rfl
  · exact .looped rfl
  · exact .looped rfl
  · exact .byte value hroom rfl
  · exact .byte value hroom rfl
  · exact .full value (Nat.not_lt.mp hroom) rfl rfl

theorem writeLine_sends (u : Uart) {address : UInt32} (value : UInt8)
    (hindex : (index address).val = 3) :
    Sends u (u.writeLine value).1 (Mark.of u.lcr u.mcr address value)
      ((u.writeLine value).2.map Prod.fst) := by
  have hmark : Mark.of u.lcr u.mcr address value =
      if u.breaks value then some .delimiter else none := by
    simp [Mark.of, breaks, hindex]
  rw [hmark]
  unfold writeLine
  dsimp only
  split
  · exact .delimiter rfl
  · exact .other rfl

theorem write_sends (u : Uart) (address : UInt32) (value : UInt8) :
    Sends u (u.write address value).1 (Mark.of u.lcr u.mcr address value)
      ((u.write address value).2.map Prod.fst) := by
  have hlatched : u.latched = true ↔ ¬ u.lcr &&& 0x80 = 0 := by
    simp [latched]
  unfold Uart.write
  simp only [hlatched]
  split_ifs with hdivisor hholding henable hfifo hline
  · rw [Mark.of, if_neg (fun h => hdivisor.1 h.2), if_neg (by omega), if_neg (by omega)]
    exact .other rfl
  · refine writeHolding_sends u value hholding ?_
    by_contra h
    exact hdivisor ⟨h, by omega⟩
  · rw [Mark.of, if_neg (by omega), if_neg (by omega), if_neg (by omega)]
    exact .other rfl
  · rw [Mark.of, if_neg (by omega), if_pos hfifo]
    exact .reset rfl
  · exact writeLine_sends u value hline
  · rw [Mark.of, if_neg (fun h => hholding h.1), if_neg hfifo, if_neg (fun h => hline h.1)]
    exact .other rfl

theorem writeHolding_registers (u : Uart) (value : UInt8) :
    (u.writeHolding value).1.registers = u.registers := by
  unfold writeHolding finish
  dsimp only
  split_ifs <;> rfl

theorem writeLine_registers (u : Uart) (value : UInt8) :
    (u.writeLine value).1.registers = u.registers.set 3 value line_lt := by
  unfold writeLine finish
  dsimp only
  split_ifs <;> rfl

/-- A control register holds what was last written to it. -/
theorem write_register (u : Uart) (address : UInt32) (value : UInt8) {i : Nat} (hi : i < 8)
    (hcontrol : 3 ≤ i) : getElem (u.write address value).1.registers i hi =
      if (index address).val = i then value else getElem u.registers i hi := by
  obtain ⟨r, hr⟩ : ∃ r, r = if (index address).val = i then value else getElem u.registers i hi :=
    ⟨_, rfl⟩
  rw [← hr]
  unfold Uart.write
  dsimp only
  split_ifs with hdivisor hholding henable hfifo hline
  · exact (if_neg (by omega)).symm.trans hr.symm
  · simp only [writeHolding_registers]
    exact (if_neg (by omega)).symm.trans hr.symm
  · simp only [writeEnable, Vector.getElem_set_ne _ _ (by omega : 1 ≠ i)]
    exact (if_neg (by omega)).symm.trans hr.symm
  · exact (if_neg (by omega)).symm.trans hr.symm
  · simp only [writeLine_registers, Vector.getElem_set, hr, hline]
  · simp only [Vector.getElem_setIfInBounds, hr]

theorem finishFrame_stopped {p : Port} (frame : List UInt8) (h : p.stopped = true) :
    (p.finishFrame frame).stopped = true := by
  unfold Port.finishFrame
  split
  · rfl
  · split
    · rfl
    · exact h

/-- A frame that goes to the wire leaves room for its delimiter. -/
theorem finishFrame_serial {p : Port} {frame : List UInt8}
    (h : (p.finishFrame frame).serial ≠ p.serial) :
    p.serial.queue frame = .ok (p.finishFrame frame).serial ∧ frame.length < 4096 := by
  revert h
  unfold Port.finishFrame
  split
  · exact fun h => absurd rfl h
  · split
    · exact fun h => absurd rfl h
    · next serial hqueue =>
      refine fun _ => ⟨hqueue, ?_⟩
      unfold Serial.queue at hqueue
      split at hqueue
      · cases hqueue
      · omega

theorem write_stopped {p : Port} (address : UInt32) (value : UInt8)
    (h : p.stopped = true ∨ (p.uart.write address value).1.stopped = true) :
    (p.write address value).stopped = true := by
  unfold Port.write
  dsimp only
  rw [Bool.or_eq_true]
  refine h.imp_left fun hstopped => ?_
  split
  · exact finishFrame_stopped _ hstopped
  · exact hstopped

/-! ## Runs -/

/-- The port against the history: as much of a frame as there is room for, and a stop where there
was not enough. -/
structure Written (history : List Port.Op) (p : Port) : Prop where
  lcr : p.uart.lcr = written 3 history
  mcr : p.uart.mcr = written 4 history
  tx : p.uart.tx = (held history).take 4096
  stop : 4096 < (held history).length → p.stopped = true

namespace Written

variable {history : List Port.Op} {p : Port}

theorem mark_eq (h : Written history p) (address : UInt32) (value : UInt8) :
    mark history (.write address value) = Mark.of p.uart.lcr p.uart.mcr address value := by
  rw [mark, h.lcr, h.mcr]

theorem emitted_eq (h : Written history p) (op : Port.Op) :
    emitted p op =
      if mark history op = some .delimiter then some ((held history).take 4096) else none := by
  cases op with
  | write address value =>
    have hsends := write_sends p.uart address value
    rw [h.mark_eq, emitted, ← h.tx]
    generalize Mark.of p.uart.lcr p.uart.mcr address value = m at hsends ⊢
    generalize Option.map Prod.fst (p.uart.write address value).2 = frame at hsends ⊢
    cases hsends <;> simp
  | read => simp [emitted, mark]
  | receive => simp [emitted, mark]

/-- An access that is no write leaves all of this alone. -/
theorem other (h : Written history p) {op : Port.Op} {p' : Port} (hmark : mark history op = none)
    (hwritten : ∀ i, written i (op :: history) = written i history)
    (hregisters : p'.uart.registers = p.uart.registers) (htx : p'.uart.tx = p.uart.tx)
    (hstop : p.stopped = true → p'.stopped = true) : Written (op :: history) p' where
  lcr := by rw [hwritten, ← h.lcr, Uart.lcr, hregisters, Uart.lcr]
  mcr := by rw [hwritten, ← h.mcr, Uart.mcr, hregisters, Uart.mcr]
  tx := by rw [htx, h.tx, held_cons, hmark]
  stop := by
    rw [held_cons, hmark]
    exact fun hlong => hstop (h.stop hlong)

/-- What is in the register, by what the write stands for. -/
theorem room (h : Written history p) :
    p.uart.tx.length < 4096 ∧ (held history).length < 4096 ∧ p.uart.tx = held history ∨
    4096 ≤ p.uart.tx.length ∧ 4096 ≤ (held history).length := by
  have hlength : p.uart.tx.length = min 4096 (held history).length := by
    rw [h.tx, List.length_take]
  rcases Nat.lt_or_ge (held history).length 4096 with hshort | hlong
  · exact .inl ⟨by omega, hshort, by rw [h.tx, List.take_of_length_le (by omega)]⟩
  · exact .inr ⟨by omega, hlong⟩

theorem write (h : Written history p) (address : UInt32) (value : UInt8) :
    Written (.write address value :: history) (p.write address value) := by
  have hsends := write_sends p.uart address value
  have hstop := write_stopped (p := p) address value
  have hroom := h.room
  have htx := h.tx
  refine ⟨?_, ?_, ?_, ?_⟩
  · rw [Port.write_uart, Uart.lcr, write_register _ _ _ _ (by decide), written, ← h.lcr, Uart.lcr]
  · rw [Port.write_uart, Uart.mcr, write_register _ _ _ _ (by decide), written, ← h.mcr, Uart.mcr]
  · rw [Port.write_uart, held_cons, h.mark_eq]
    generalize Mark.of p.uart.lcr p.uart.mcr address value = m at hsends ⊢
    generalize Option.map Prod.fst (p.uart.write address value).2 = frame at hsends ⊢
    cases hsends with
    | byte b hlt htx' =>
      rcases hroom with ⟨-, hshort, hheld⟩ | ⟨hfull, -⟩
      · rw [htx', hheld, List.take_of_length_le]
        rw [List.length_append, List.length_singleton]
        exact hshort
      · omega
    | full b hge htx' =>
      rcases hroom with ⟨hlt, -⟩ | ⟨-, hlong⟩
      · omega
      · rw [htx', htx, List.take_append_of_le_length hlong]
    | looped htx' => exact htx'.trans htx
    | delimiter htx' => exact htx'
    | reset htx' => exact htx'
    | other htx' => exact htx'.trans htx
  · rw [held_cons, h.mark_eq]
    generalize Mark.of p.uart.lcr p.uart.mcr address value = m at hsends ⊢
    generalize Option.map Prod.fst (p.uart.write address value).2 = frame at hsends
    cases hsends with
    | byte b hlt htx' =>
      rcases hroom with ⟨-, hshort, -⟩ | ⟨hfull, -⟩
      · intro hlong
        rw [List.length_append, List.length_singleton] at hlong
        omega
      · omega
    | full b hge htx' hstopped => exact fun _ => hstop (.inr hstopped)
    | looped => exact fun hlong => hstop (.inl (h.stop hlong))
    | delimiter => exact fun hlong => absurd hlong (Nat.not_lt_zero 4096)
    | reset => exact fun hlong => absurd hlong (Nat.not_lt_zero 4096)
    | other => exact fun hlong => hstop (.inl (h.stop hlong))

theorem step (h : Written history p) (op : Port.Op) : Written (op :: history) (p.step op) := by
  cases op with
  | read address =>
    have hregisters : (p.uart.read address).2.registers = p.uart.registers ∧
        (p.uart.read address).2.tx = p.uart.tx := by
      unfold Uart.read readHolding readIdentification readLine
      dsimp only
      split_ifs <;> exact ⟨rfl, rfl⟩
    exact h.other rfl (fun _ => rfl) hregisters.1 hregisters.2 id
  | write address value => exact h.write address value
  | receive output =>
    rw [Port.step, Port.receiveEvents]
    split_ifs
    · exact h.other rfl (fun _ => rfl) rfl rfl id
    · exact h.other rfl (fun _ => rfl) rfl rfl fun _ => rfl
    · exact h.other rfl (fun _ => rfl) rfl rfl id

theorem run (h : Written history p) (ops : List Port.Op) :
    Written (ops.reverse ++ history) (run Port.step p ops) := by
  induction ops generalizing history p with
  | nil => exact h
  | cons op ops ih =>
    rw [List.reverse_cons, List.append_assoc]
    exact ih (h.step op)

end Written

variable (serial : Serial) (halted : Bool)

theorem start_written : Written [] (.start serial halted) :=
  ⟨rfl, rfl, rfl, fun h => absurd h (Nat.not_lt_zero 4096)⟩

theorem run_written (ops : List Port.Op) :
    Written ops.reverse (run Port.step (.start serial halted) ops) := by
  simpa using (start_written serial halted).run ops

/-- Every access that ends a frame ends the bytes since the last delimiter or reset, no other access
ends one, and the link has stopped once there are more bytes than the UART holds. -/
def Exact (ops : List Port.Op) : Prop :=
  ∀ before op after, ops = before ++ op :: after →
    emitted (run Port.step (.start serial halted) before) op =
        (if mark before.reverse op = some .delimiter then some (held before.reverse) else none) ∧
      (4096 < (held (op :: before.reverse)).length →
        (run Port.step (.start serial halted) (before ++ [op])).stopped = true)

theorem exact_iff (ops : List Port.Op) :
    Exact serial halted ops ↔
      ∀ before op after, ops = before ++ op :: after →
        mark before.reverse op = some .delimiter → (held before.reverse).length ≤ 4096 := by
  have hemitted (before : List Port.Op) (op : Port.Op) :=
    (run_written serial halted before).emitted_eq op
  constructor
  · intro h before op after heq hmark
    have hexact := (h before op after heq).1
    rw [hemitted, if_pos hmark, if_pos hmark, Option.some_inj] at hexact
    have hlength := congrArg List.length hexact
    rw [List.length_take] at hlength
    omega
  · intro h before op after heq
    refine ⟨?_, ?_⟩
    · rw [hemitted]
      split
      · next hmark => rw [List.take_of_length_le (h before op after heq hmark)]
      · rfl
    · intro hlong
      have hwritten := run_written serial halted (before ++ [op])
      rw [List.reverse_append, List.reverse_singleton, List.singleton_append] at hwritten
      exact hwritten.stop hlong

/-- What the CANdi is given is a whole frame: the wire has no room for one that was cut. -/
theorem wire_whole (ops : List Port.Op) (op : Port.Op)
    (h : ((run Port.step (.start serial halted) ops).step op).serial ≠
      (run Port.step (.start serial halted) ops).serial) :
    (run Port.step (.start serial halted) ops).serial.queue (held ops.reverse) =
      .ok ((run Port.step (.start serial halted) ops).step op).serial := by
  have hemitted := (run_written serial halted ops).emitted_eq op
  generalize run Port.step (.start serial halted) ops = p at h hemitted ⊢
  cases op with
  | read => exact absurd rfl h
  | receive output =>
    refine absurd ?_ h
    rw [Port.step, Port.receiveEvents]
    split_ifs <;> rfl
  | write address value =>
    revert h
    rw [Port.step, Port.write]
    rw [emitted] at hemitted
    generalize p.uart.write address value = r at hemitted ⊢
    obtain ⟨uart, _ | ⟨frame, delimiter⟩⟩ := r
    · exact fun h => absurd rfl h
    · intro h
      have hframe : frame = (held ops.reverse).take 4096 := by
        rw [Option.map_some] at hemitted
        split at hemitted
        · exact Option.some.inj hemitted
        · cases hemitted
      obtain ⟨hqueue, hshort⟩ := finishFrame_serial (p := { p with uart }) h
      have hwhole : (held ops.reverse).length ≤ 4096 := by
        rw [hframe, List.length_take] at hshort
        omega
      rw [List.take_of_length_le hwhole] at hframe
      rw [← hframe]
      exact hqueue

/-- One byte, and the break that ends its frame. -/
theorem byte_handed_over :
    (run Port.step (.start .default false) [.write 0x400800 0x55]).serial.queue
        (held [.write 0x400800 0x55]) =
      .ok ((run Port.step (.start .default false) [.write 0x400800 0x55]).step
        (.write 0x400806 0x40)).serial :=
  wire_whole .default false [.write 0x400800 0x55] (.write 0x400806 0x40) (by decide)

theorem written_replicate {i : Nat} (hi : 0 < i) (n : Nat) :
    written i (List.replicate n (.write 0x400800 0x55)) = 0 := by
  have hindex : (index 0x400800).val = 0 := by decide
  induction n with
  | zero => rfl
  | succ n ih => rw [List.replicate_succ, written, if_neg (by omega), ih]

theorem held_replicate (n : Nat) :
    held (List.replicate n (.write 0x400800 0x55)) = List.replicate n 0x55 := by
  induction n with
  | zero => rfl
  | succ n ih =>
    have hmark : mark (List.replicate n (.write 0x400800 0x55)) (.write 0x400800 0x55) =
        some (.byte 0x55) := by
      rw [mark, written_replicate (by decide), written_replicate (by decide)]
      decide
    rw [List.replicate_succ, held_cons, hmark, ih, List.replicate_succ']

/-- A frame of 4097 bytes is cut when it ends, although the link has stopped before. -/
theorem cut_frame :
    ¬ Exact .default false
      (List.replicate 4097 (.write 0x400800 0x55) ++ [.write 0x400806 0x40]) := by
  intro h
  have hmark : mark (List.replicate 4097 (.write 0x400800 0x55)) (.write 0x400806 0x40) =
      some .delimiter := by
    rw [mark, written_replicate (by decide), written_replicate (by decide)]
    decide
  have hexact := (h _ _ [] rfl).1
  rw [(run_written .default false _).emitted_eq, List.reverse_replicate, if_pos hmark, if_pos hmark,
    held_replicate, Option.some_inj] at hexact
  have hlength := congrArg List.length hexact
  rw [List.length_take, List.length_replicate] at hlength
  omega

end OpenSaab.Candi
