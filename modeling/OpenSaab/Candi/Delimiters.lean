import OpenSaab.Candi.Uart

/-!
# Delimiters in the status

Everything that comes from the CANdi is numbered as it arrives. A read of the line status tells of
the delimiter at the front, once, whatever else is done in between.
-/

namespace OpenSaab.Candi

open Runs Uart

/-! ## One access -/

/-- What an access does to the received events and to the mark of a reported delimiter. -/
inductive Change (u u' : Uart) : Bool → Prop where
  | quiet (hrx : u'.rx = u.rx) (hack : u'.lineAck = u.lineAck) : Change u u' false
  | status (hrx : u'.rx = u.rx) (hack : u'.lineAck = true) :
      Change u u' (u.delimited && !u.lineAck)
  | front (hrx : u'.rx = u.rx.tail) (hack : u'.lineAck = false) : Change u u' false
  | clear (hrx : u'.rx = []) (hack : u'.lineAck = false) : Change u u' false
  | more (new : List (Option UInt8)) (hrx : u'.rx = u.rx ++ new)
      (hfirst : u.rx = [] → u'.delimited → u'.lineAck = false)
      (hack : u.rx ≠ [] → u'.lineAck = u.lineAck) : Change u u' false

/-- The access is a read of the line status that tells of a delimiter. -/
def Port.reports (p : Port) : Port.Op → Bool
  | .read address => (index address).val == 5 && (p.read address).1 &&& 0x18 != 0
  | _ => false

theorem readLine_bits (u : Uart) :
    u.readLine.1 &&& 0x18 = if u.delimited ∧ ¬ u.lineAck then 0x18 else 0 := by
  unfold readLine
  dsimp only
  split_ifs <;> decide

theorem Uart.read_line (u : Uart) {address : UInt32} (h : (index address).val = 5) :
    u.read address = u.readLine := by
  unfold Uart.read
  simp [h]

theorem readLine_change (u : Uart) : Change u u.readLine.2 (u.readLine.1 &&& 0x18 != 0) := by
  have hbits : (u.readLine.1 &&& 0x18 != 0) = (u.delimited && !u.lineAck) := by
    rw [readLine_bits]
    cases u.delimited <;> cases u.lineAck <;> decide
  rw [hbits]
  exact .status rfl rfl

theorem read_change (u : Uart) {address : UInt32} (h : (index address).val ≠ 5) :
    Change u (u.read address).2 false := by
  unfold Uart.read
  dsimp only
  split_ifs
  · exact .quiet rfl rfl
  · exact .front rfl rfl
  · unfold readIdentification
    dsimp only
    split
    · exact .quiet rfl rfl
    · exact .quiet rfl rfl
  · exact .quiet rfl rfl

theorem writeHolding_change (u : Uart) (value : UInt8) :
    Change u (u.writeHolding value).1 false := by
  unfold writeHolding
  dsimp only
  split_ifs
  · exact .quiet rfl rfl
  · refine .more [some value] rfl ?_ fun _ => rfl
    intro hrx hfront
    simp [Uart.delimited, hrx] at hfront
  all_goals exact .quiet rfl rfl

theorem write_change (u : Uart) (address : UInt32) (value : UInt8) :
    Change u (u.write address value).1 false := by
  unfold Uart.write
  dsimp only
  split_ifs
  · exact .quiet rfl rfl
  · exact writeHolding_change u value
  · exact .quiet rfl rfl
  · exact .clear rfl rfl
  · unfold writeLine finish
    dsimp only
    split
    · exact .quiet rfl rfl
    · exact .quiet rfl rfl
  · exact .quiet rfl rfl

theorem receiveEvents_change (p : Port) (output : List (Option UInt8)) :
    Change p.uart (p.receiveEvents output).uart false := by
  unfold Port.receiveEvents
  split_ifs
  · exact .quiet rfl rfl
  · exact .quiet rfl rfl
  · refine .more output rfl ?_ ?_
    · intro hrx _
      simp [hrx]
    · intro hrx
      simp [hrx]

theorem step_change (p : Port) (op : Port.Op) :
    Change p.uart (p.step op).uart (p.reports op) := by
  cases op with
  | read address =>
    by_cases h : (index address).val = 5
    · simp only [Port.reports, Port.step, Port.read, h, beq_self_eq_true, Bool.true_and,
        Uart.read_line p.uart h]
      exact readLine_change p.uart
    · simp only [Port.reports, Port.step, Port.read, beq_eq_false_iff_ne.mpr h, Bool.false_and]
      exact read_change p.uart h
  | write address value =>
    simp only [Port.reports, Port.step, Port.write_uart]
    exact write_change p.uart address value
  | receive output => exact receiveEvents_change p output

/-! ## The events by number -/

/-- The port with everything that has arrived, how much of it has left the queue again, and the
numbers of the delimiters that have been told of. -/
structure Received where
  port : Port
  arrived : List (Option UInt8)
  taken : Nat
  seen : List Nat
  deriving DecidableEq

namespace Received

def start (serial : Serial) (halted : Bool) : Received :=
  ⟨.start serial halted, [], 0, []⟩

def step (r : Received) (op : Port.Op) : Received :=
  let old := r.port.uart.rx
  let new := (r.port.step op).uart.rx
  { port := r.port.step op
    arrived := r.arrived ++ new.drop old.length
    taken := r.taken + (old.length - new.length)
    seen := if r.port.reports op then r.seen ++ [r.taken] else r.seen }

/-- The queue holds what has arrived and has not left it, and the mark is set when the delimiter at
the front has been told of. -/
structure Tracked (r : Received) : Prop where
  queue : r.port.uart.rx = r.arrived.drop r.taken
  bound : r.taken ≤ r.arrived.length
  ack : r.port.uart.delimited → (r.port.uart.lineAck ↔ r.taken ∈ r.seen)
  past : ∀ n ∈ r.seen, n ≤ r.taken
  order : r.seen.Pairwise (· < ·)
  delimiters : ∀ n ∈ r.seen, r.arrived[n]? = some none

variable {r : Received}

theorem start_tracked (serial : Serial) (halted : Bool) : (start serial halted).Tracked where
  queue := rfl
  bound := Nat.le_refl _
  ack := fun h => absurd h Bool.false_ne_true
  past := fun _ hn => absurd hn List.not_mem_nil
  order := .nil
  delimiters := fun _ hn => absurd hn List.not_mem_nil

theorem Tracked.front (h : r.Tracked) : r.port.uart.rx.head? = r.arrived[r.taken]? := by
  rw [h.queue, List.head?_drop]

/-- Nothing that is not at hand has been told of. -/
theorem Tracked.unseen (h : r.Tracked) (hempty : r.port.uart.rx = []) : r.taken ∉ r.seen := by
  intro hseen
  have hfront := h.front
  rw [hempty, h.delimiters _ hseen] at hfront
  cases hfront

/-- An access that takes `k` events off the front. -/
theorem Tracked.drop (h : r.Tracked) {port : Port} {k : Nat} (hk : k ≤ r.port.uart.rx.length)
    (hrx : port.uart.rx = r.port.uart.rx.drop k) (hack : port.uart.lineAck = false)
    (hmoved : 0 < k ∨ r.port.uart.rx = []) :
    Tracked { r with port, taken := r.taken + k } where
  queue := by rw [hrx, h.queue, List.drop_drop]
  bound := by
    have hbound := h.bound
    rw [h.queue, List.length_drop] at hk
    dsimp only
    omega
  ack hdelimited := by
    simp only [hack, Bool.false_eq_true, false_iff]
    intro hseen
    rcases hmoved with hpos | hempty
    · have hpast := h.past _ hseen
      omega
    · rw [Uart.delimited, hrx, hempty, List.drop_nil] at hdelimited
      cases hdelimited
  past n hn := Nat.le_add_right_of_le (h.past n hn)
  order := h.order
  delimiters := h.delimiters

/-- A read of the status that tells of the delimiter at the front. -/
theorem Tracked.told (h : r.Tracked) {port : Port} (hrx : port.uart.rx = r.port.uart.rx)
    (hack : port.uart.lineAck = true) (hdelimited : r.port.uart.delimited = true)
    (hfresh : r.port.uart.lineAck = false) :
    Tracked { r with port, seen := r.seen ++ [r.taken] } where
  queue := hrx ▸ h.queue
  bound := h.bound
  ack _ := by simp [hack]
  past n hn := by
    rcases List.mem_append.mp hn with hn | hn
    · exact h.past n hn
    · exact Nat.le_of_eq (List.mem_singleton.mp hn)
  order := by
    rw [List.pairwise_append]
    refine ⟨h.order, List.pairwise_singleton _ _, ?_⟩
    intro n hn m hm
    rw [List.mem_singleton.mp hm]
    refine Nat.lt_of_le_of_ne (h.past n hn) ?_
    rintro rfl
    have hseen := (h.ack hdelimited).mpr hn
    rw [hfresh] at hseen
    cases hseen
  delimiters n hn := by
    rcases List.mem_append.mp hn with hn | hn
    · exact h.delimiters n hn
    · rw [List.mem_singleton.mp hn, ← h.front]
      exact eq_of_beq hdelimited

/-- Events that arrive behind the ones at hand. -/
theorem Tracked.more (h : r.Tracked) {port : Port} {new : List (Option UInt8)}
    (hrx : port.uart.rx = r.port.uart.rx ++ new)
    (hfirst : r.port.uart.rx = [] → port.uart.delimited → port.uart.lineAck = false)
    (hack : r.port.uart.rx ≠ [] → port.uart.lineAck = r.port.uart.lineAck) :
    Tracked { r with port, arrived := r.arrived ++ new } where
  queue := by
    dsimp only
    rw [hrx, h.queue, List.drop_append_of_le_length h.bound]
  bound := Nat.le_trans h.bound (by simp)
  ack hdelimited := by
    dsimp only
    by_cases hempty : r.port.uart.rx = []
    · simp [hfirst hempty hdelimited, h.unseen hempty]
    · rw [hack hempty]
      refine h.ack ?_
      obtain ⟨event, rest, hcons⟩ := List.exists_cons_of_ne_nil hempty
      simpa [Uart.delimited, hrx, hcons] using hdelimited
  past := h.past
  order := h.order
  delimiters n hn := by
    have hold := h.delimiters n hn
    have hlt : n < r.arrived.length := (List.getElem?_eq_some_iff.mp hold).1
    dsimp only
    rw [List.getElem?_append_left hlt, hold]

theorem Tracked.step (h : r.Tracked) (op : Port.Op) : (r.step op).Tracked := by
  have hchange := step_change r.port op
  unfold Received.step
  generalize hreported : r.port.reports op = reported at hchange ⊢
  generalize r.port.step op = port at hchange ⊢
  dsimp only
  cases hchange with
  | quiet hrx hack =>
    rw [hrx, List.drop_length, List.append_nil, Nat.sub_self, Nat.add_zero]
    exact ⟨hrx ▸ h.queue, h.bound, by simpa [Uart.delimited, hrx, hack] using h.ack, h.past, h.order,
      h.delimiters⟩
  | status hrx hack =>
    rw [hrx, List.drop_length, List.append_nil, Nat.sub_self, Nat.add_zero]
    by_cases htold : (r.port.uart.delimited && !r.port.uart.lineAck) = true
    · rw [if_pos htold]
      simp only [Bool.and_eq_true, Bool.not_eq_true'] at htold
      exact h.told hrx hack htold.1 htold.2
    · rw [if_neg htold]
      refine ⟨hrx ▸ h.queue, h.bound, ?_, h.past, h.order, h.delimiters⟩
      intro hdelimited
      have hfront : r.port.uart.delimited := by simpa [Uart.delimited, hrx] using hdelimited
      simpa [hack, hfront, ← h.ack hfront] using htold
  | front hrx hack =>
    rw [hrx, List.length_tail, List.drop_eq_nil_of_le (by rw [List.length_tail]; omega),
      List.append_nil]
    rcases List.eq_nil_or_concat r.port.uart.rx with hempty | ⟨_, _, hrest⟩
    · exact h.drop (by rw [hempty]; omega) (by rw [hrx, hempty]; rfl) hack (.inr hempty)
    · have hpos : 0 < r.port.uart.rx.length := by rw [hrest]; simp
      rw [show r.port.uart.rx.length - (r.port.uart.rx.length - 1) = 1 by omega]
      exact h.drop hpos (by rw [hrx, List.drop_one]) hack (.inl Nat.one_pos)
  | clear hrx hack =>
    rw [hrx, List.drop_nil, List.append_nil, List.length_nil, Nat.sub_zero]
    refine h.drop (Nat.le_refl _) (by rw [hrx, List.drop_length]) hack ?_
    rcases Nat.eq_zero_or_pos r.port.uart.rx.length with hzero | hpos
    · exact .inr (List.length_eq_zero_iff.mp hzero)
    · exact .inl hpos
  | more new hrx hfirst hack =>
    rw [hrx, List.drop_left, List.length_append, Nat.sub_eq_zero_of_le (Nat.le_add_right _ _),
      Nat.add_zero]
    exact h.more hrx hfirst hack

/-! ## Runs -/

theorem run_tracked (serial : Serial) (halted : Bool) (ops : List Port.Op) :
    (run step (start serial halted) ops).Tracked :=
  run_invariant (fun _ op h => h.step op) ops (start_tracked serial halted)

/-- Over any accesses: a read of the line status tells of a delimiter when one is at the front that
has not been told of, and then it is one further in what has arrived than those before. -/
theorem delimiters_told_once (serial : Serial) (halted : Bool) (ops : List Port.Op) :
    let r := run step (start serial halted) ops
    (∀ address, (index address).val = 5 →
      (r.port.read address).1 &&& 0x18 =
        if r.arrived[r.taken]? = some none ∧ r.taken ∉ r.seen then 0x18 else 0) ∧
    r.port.uart.rx = r.arrived.drop r.taken ∧
    r.seen.Pairwise (· < ·) ∧ (∀ n ∈ r.seen, n ≤ r.taken ∧ r.arrived[n]? = some none) := by
  intro r
  have h : r.Tracked := run_tracked serial halted ops
  refine ⟨?_, h.queue, h.order, fun n hn => ⟨h.past n hn, h.delimiters n hn⟩⟩
  intro address hline
  have hfront : r.port.uart.delimited ↔ r.arrived[r.taken]? = some none := by
    rw [← h.front, Uart.delimited, beq_iff_eq]
  rw [Port.read, Uart.read_line r.port.uart hline, readLine_bits]
  refine if_congr ?_ rfl rfl
  rw [← hfront]
  refine and_congr_right fun hdelimited => ?_
  rw [h.ack hdelimited]

end Received

end OpenSaab.Candi
