import OpenSaab.Candi.Writes
import OpenSaab.Library.Bits
import OpenSaab.Library.Ring

/-!
# The receive queue of a controller

The controller keeps its queue as frames, as bytes in a ring of its RAM, and in its status bits.
The three agree in every state that it can reach.
-/

namespace OpenSaab

open Runs Can Bits

/-! ## Frames in the buffer -/

namespace Can

theorem Frame.validate_length {f : Frame} (h : f.validate = .ok ()) : f.data.length ≤ 8 := by
  unfold Frame.validate at h
  rw [ite_eq_right_iff] at h
  simp only [reduceCtorEq, imp_false, not_or, UInt8.not_lt, ne_eq, not_not] at h
  obtain ⟨-, hdlc, hlength⟩ := h
  rw [UInt8.le_iff_toNat_le] at hdlc
  have : (8 : UInt8).toNat = 8 := rfl
  split at hlength <;> omega

theorem Frame.encode_length {f : Frame} (h : f.validate = .ok ()) :
    3 ≤ f.encode.length ∧ f.encode.length ≤ 13 := by
  have hdata := f.validate_length h
  unfold Frame.encode
  by_cases hextended : f.extended = true
  · simp [hextended]
    omega
  · simp [hextended]
    omega

end Can

namespace Candi.Controller

variable {c c' : Controller}

/-! ## Status bits -/

theorem requested_bits (b : UInt8) : (b &&& ~~~0x0c ||| 0x20) &&& 1 = b &&& 1 ∧
    (b &&& ~~~0x0c ||| 0x20) &&& 4 = 0 :=
  ⟨(set_other (by decide) _).trans (clear_other (by decide) b),
    (set_other (by decide) _).trans (clear_same (by decide) b)⟩

theorem aborted_bits (b : UInt8) : (b &&& ~~~0x28 ||| 4) &&& 1 = b &&& 1 ∧
    (b &&& ~~~0x28 ||| 4) &&& 4 = 4 :=
  ⟨(set_other (by decide) _).trans (clear_other (by decide) b), set_same (by decide) _⟩

theorem sent_bits (b : UInt8) : (b &&& ~~~0x20 ||| 0x0c) &&& 1 = b &&& 1 ∧
    (b &&& ~~~0x20 ||| 0x0c) &&& 4 = 4 :=
  ⟨(set_other (by decide) _).trans (clear_other (by decide) b), set_same (by decide) _⟩

theorem emptied_bits (b : UInt8) : (b &&& ~~~1) &&& 1 = 0 ∧ (b &&& ~~~1) &&& 4 = b &&& 4 :=
  ⟨clear_same (by decide) b, clear_other (by decide) b⟩

theorem cleared_bits (b : UInt8) : (b &&& ~~~2) &&& 1 = b &&& 1 ∧ (b &&& ~~~2) &&& 4 = b &&& 4 :=
  ⟨clear_other (by decide) b, clear_other (by decide) b⟩

theorem overrun_bits (b : UInt8) : (b ||| 2) &&& 1 = b &&& 1 ∧ (b ||| 2) &&& 4 = b &&& 4 :=
  ⟨set_other (by decide) b, set_other (by decide) b⟩

theorem received_bits (b : UInt8) : (b ||| 1) &&& 1 = 1 ∧ (b ||| 1) &&& 4 = b &&& 4 :=
  ⟨set_same (by decide) b, set_other (by decide) b⟩

/-! ## The invariant -/

/-- A byte of the RAM. -/
def ringByte (c : Controller) (i : Nat) : UInt8 := (c.ram[i]?).getD 0

/-- The queue, its bytes in the ring and the status bits agree. -/
structure Coherent (c : Controller) : Prop where
  bytes : c.rxBytes = (c.rx.map List.length).sum
  room : c.rxBytes ≤ 64
  ring : Ring.Holds 64 c.ringByte (c.register 30).toNat c.rx.flatten
  start : (c.register 30).toNat < 64
  received : c.register 2 &&& 1 ≠ 0 ↔ c.rx ≠ []
  released : c.reset = false → (c.register 2 &&& 4 ≠ 0 ↔ c.pending = none)
  emptied : c.reset = true → c.rx = [] ∧ c.pending = none
  pelican : c.rx ≠ [] → c.pelican = true
  encoded : ∀ bytes ∈ c.rx, ∃ f : Frame, f.validate = .ok () ∧ bytes = f.encode

theorem coherent_default : Coherent default where
  bytes := rfl
  room := Nat.zero_le _
  ring := .nil
  start := by decide
  received := by decide
  released := by decide
  emptied _ := ⟨rfl, rfl⟩
  pelican h := absurd rfl h
  encoded bytes h := absurd h List.not_mem_nil

theorem reset_congr (h : c'.register 0 = c.register 0) : c'.reset = c.reset :=
  congrArg (· &&& 1 != 0) h

/-- The queue stays, and the status says of the transmission what is true. -/
theorem Coherent.sameQueue (h : Coherent c) (hreset : c'.reset = c.reset)
    (h30 : c'.register 30 = c.register 30) (h31 : c'.register 31 = c.register 31)
    (hring : ∀ i < 64, c'.ringByte i = c.ringByte i) (hrx : c'.rx = c.rx)
    (hbytes : c'.rxBytes = c.rxBytes)
    (hreceived : c'.register 2 &&& (1 : UInt8) = c.register 2 &&& 1)
    (hreleased : c.reset = false → (c'.register 2 &&& 4 ≠ 0 ↔ c'.pending = none))
    (hemptied : c.reset = true → c'.pending = none) : Coherent c' where
  bytes := by rw [hrx, hbytes, h.bytes]
  room := hbytes ▸ h.room
  ring := by
    rw [hrx, h30]
    exact h.ring.congr (by decide) hring
  start := h30 ▸ h.start
  received := by rw [hreceived, hrx, h.received]
  released := hreset ▸ hreleased
  emptied hyes := ⟨hrx.trans (h.emptied (hreset ▸ hyes)).1, hemptied (hreset ▸ hyes)⟩
  pelican := by
    have hsame : c'.pelican = c.pelican := congrArg (· &&& 0x80 != 0) h31
    rw [hsame, hrx]
    exact h.pelican
  encoded := hrx ▸ h.encoded

/-- Only some of the registers, and the cells of the ring, matter. -/
theorem Coherent.congr (h : Coherent c) (hreset : c'.reset = c.reset)
    (h2 : c'.register 2 = c.register 2) (h30 : c'.register 30 = c.register 30)
    (h31 : c'.register 31 = c.register 31) (hring : ∀ i < 64, c'.ringByte i = c.ringByte i)
    (hrx : c'.rx = c.rx) (hbytes : c'.rxBytes = c.rxBytes) (hpending : c'.pending = c.pending) :
    Coherent c' :=
  h.sameQueue hreset h30 h31 hring hrx hbytes (by rw [h2]) (by rw [h2, hpending]; exact h.released)
    fun hyes => hpending.trans (h.emptied hyes).2

/-- In reset there is nothing in the ring, and any register may be written that leaves it there. -/
theorem Coherent.ofReset (h : Coherent c) (hreset : c.reset = true)
    (h0 : c'.register 0 = c.register 0) (h2 : c'.register 2 = c.register 2)
    (h30 : (c'.register 30).toNat < 64) (hrx : c'.rx = c.rx) (hbytes : c'.rxBytes = c.rxBytes)
    (hpending : c'.pending = c.pending) : Coherent c' := by
  obtain ⟨hempty, hnone⟩ := h.emptied hreset
  have hreset' : c'.reset = true := (reset_congr h0).trans hreset
  refine ⟨by rw [hrx, hbytes, h.bytes], hbytes ▸ h.room, ?_, h30, ?_, ?_, ?_, ?_, ?_⟩
  · rw [hrx, hempty]
    exact .nil
  · rw [h2, hrx, h.received]
  · rw [hreset']
    simp
  · exact fun _ => ⟨hrx.trans hempty, hpending.trans hnone⟩
  · rw [hrx, hempty]
    exact fun hne => absurd rfl hne
  · rw [hrx]
    exact h.encoded

theorem coherent_writeMode (h : Coherent c) (value : UInt8) : Coherent (c.writeMode value) := by
  unfold writeMode
  dsimp only
  split
  · next hreset =>
    refine ⟨rfl, Nat.zero_le _, .nil, ?_, ?_, ?_, fun _ => ⟨rfl, rfl⟩, fun hne => absurd rfl hne,
      fun bytes hbytes => absurd hbytes List.not_mem_nil⟩
    · simpa [cancelPending] using h.start
    · simp +decide [cancelPending]
    · simp +decide [cancelPending]
  · next hno =>
    split
    · next hreset =>
      obtain ⟨hempty, hnone⟩ := h.emptied hreset
      refine ⟨h.bytes, h.room, ?_, ?_, ?_, ?_, fun _ => ⟨hempty, hnone⟩, ?_, h.encoded⟩
      · simp only [hempty]
        exact .nil
      · simpa using h.start
      · simp +decide [hempty]
      · simp +decide [hnone]
      · simp [hempty]
    · next hrunning =>
      refine h.congr ?_ (by simp) (by simp) (by simp) (fun i hi => rfl) rfl rfl rfl
      rw [Bool.eq_false_iff.mpr hno, Bool.eq_false_iff.mpr hrunning]

theorem coherent_request (h : Coherent c) (hrequest : c.request = .ok c') : Coherent c' := by
  unfold request at hrequest
  split at hrequest
  · cases hrequest
  split at hrequest
  · cases hrequest
  · next hmode =>
    split at hrequest
    · cases hrequest
    · split at hrequest
      · cases hrequest
      · cases hrequest
        have hrunning : c.reset = false := by
          simp only [not_or] at hmode
          exact Bool.eq_false_iff.mpr hmode.2.1
        refine h.sameQueue (reset_congr (by simp)) (by simp) (by simp) (fun i hi => rfl) rfl rfl
          ?_ (fun _ => ?_) (fun hreset => ?_)
        · simpa using (requested_bits c.registers[2]).1
        · simpa using (requested_bits c.registers[2]).2
        · exact absurd (hrunning.symm.trans hreset) (by decide)

theorem coherent_abort (h : Coherent c) : Coherent c.abort := by
  unfold abort cancelPending
  dsimp only
  split
  · refine h.sameQueue (reset_congr (by simp)) (by simp) (by simp) (fun i hi => rfl) rfl rfl
      ?_ (fun _ => ?_) (fun _ => rfl)
    · simpa using (aborted_bits c.registers[2]).1
    · simp +decide [(aborted_bits c.registers[2]).2]
  · next hnone =>
    have hpending : c.pending = none := by simpa using hnone
    exact h.congr rfl rfl rfl rfl (fun i hi => rfl) rfl rfl hpending.symm

theorem coherent_clearOverrun (h : Coherent c) : Coherent c.clearOverrun := by
  unfold clearOverrun
  refine h.sameQueue (reset_congr (by simp)) (by simp) (by simp) (fun i hi => rfl) rfl rfl
    ?_ ?_ (fun hreset => (h.emptied hreset).2)
  · simpa using (cleared_bits c.registers[2]).1
  · simpa [(cleared_bits c.registers[2]).2] using h.released

theorem coherent_complete (h : Coherent c) (ticket : UInt64) : Coherent (c.complete ticket).2 := by
  unfold complete
  split
  · exact h.congr rfl rfl rfl rfl (fun i hi => rfl) rfl rfl rfl
  · split
    · exact h
    · refine h.sameQueue (reset_congr (by simp)) (by simp) (by simp) (fun i hi => rfl) rfl rfl
        ?_ (fun _ => ?_) (fun _ => rfl)
      · simpa using (sent_bits c.registers[2]).1
      · simp +decide [(sent_bits c.registers[2]).2]

theorem coherent_overrun (h : Coherent c) : Coherent c.overrun := by
  unfold overrun
  have hsame : ∀ i, (hi : i < 32) → i ≠ 2 → i ≠ 3 →
      (if c.registers[2] &&& 2 = 0 then c.registers.set 3 (c.registers[3] ||| c.registers[4] &&& 8)
        else c.registers)[i] = c.registers[i] := by
    intro i hi _ h3
    split
    · exact Vector.getElem_set_ne _ hi (Ne.symm h3)
    · rfl
  refine h.sameQueue (reset_congr ?_) ?_ ?_ (fun i hi => rfl) rfl rfl ?_ ?_
    (fun hreset => (h.emptied hreset).2)
  · simpa using hsame 0 (by decide) (by decide) (by decide)
  · simpa using hsame 30 (by decide) (by decide) (by decide)
  · simpa using hsame 31 (by decide) (by decide) (by decide)
  · simpa using (overrun_bits c.registers[2]).1
  · simpa [(overrun_bits c.registers[2]).2] using h.released

/-! ## The queue -/

/-- Moving the start of the ring by a frame. -/
theorem start_toNat (start : UInt8) {n : Nat} (hn : n ≤ 13) :
    ((start + UInt8.ofNat n) &&& 63).toNat = (start.toNat + n) % 64 := by
  have hlength : (UInt8.ofNat n).toNat = n := UInt8.toNat_ofNat_of_lt' (by simp [UInt8.size]; omega)
  rw [UInt8.toNat_and, UInt8.toNat_add, hlength]
  change (start.toNat + n) % 2 ^ 8 &&& (2 ^ 6 - 1) = _
  rw [Nat.and_two_pow_sub_one_eq_mod]
  omega

theorem coherent_release (h : Coherent c) : Coherent c.release := by
  unfold release
  cases hrx : c.rx with
  | nil =>
    simp only [hrx, if_true]
    refine h.sameQueue (reset_congr (by simp)) (by simp) (by simp) (fun i hi => rfl) hrx.symm rfl
      ?_ ?_ (fun hreset => (h.emptied hreset).2)
    · have hclear : c.registers[2] &&& 1 = 0 := by
        have := h.received
        simpa [hrx] using this
      simp [hclear, (emptied_bits c.registers[2]).1]
    · simpa [(emptied_bits c.registers[2]).2] using h.released
  | cons frame rest =>
    obtain ⟨f, hvalid, hframe⟩ := h.encoded frame (by rw [hrx]; exact List.mem_cons_self)
    have hlength : frame.length ≤ 13 := hframe ▸ (f.encode_length hvalid).2
    have hrunning : c.reset = false := by
      by_contra hreset
      rw [Bool.not_eq_false] at hreset
      exact absurd (hrx.symm.trans (h.emptied hreset).1) (by simp)
    have hbytes := h.bytes
    have hring := h.ring
    have hroom := h.room
    have hstart := start_toNat c.registers[30] hlength
    rw [hrx, List.map_cons, List.sum_cons] at hbytes
    rw [hrx, List.flatten_cons] at hring
    have hrest : Ring.Holds 64 c.ringByte ((c.registers[30] + UInt8.ofNat frame.length) &&& 63).toNat
        rest.flatten := by
      rw [hstart, Ring.holds_mod]
      exact hring.drop
    have hencoded : ∀ bytes ∈ rest, ∃ f : Frame, f.validate = .ok () ∧ bytes = f.encode :=
      fun bytes hmem => h.encoded bytes (by rw [hrx]; exact List.mem_cons_of_mem _ hmem)
    have hpelican := h.pelican (by simp [hrx])
    dsimp only
    split
    · next hempty =>
      subst hempty
      refine ⟨?_, ?_, .nil, ?_, ?_, ?_, ?_, fun hne => absurd rfl hne, hencoded⟩
      · simp only [List.map_nil, List.sum_nil] at hbytes ⊢
        omega
      · simp only
        omega
      · simp only [register, Vector.getElem_set, Nat.reduceEqDiff, if_false, if_true]
        omega
      · simp [(emptied_bits _).1]
      · simpa [(emptied_bits c.registers[2]).2, reset] using h.released
      · intro hreset
        exact absurd (hreset.symm.trans ((reset_congr (by simp)).trans hrunning)) (by decide)
    · next hmore =>
      refine ⟨?_, ?_, ?_, ?_, ?_, ?_, ?_, ?_, hencoded⟩
      · simp only
        omega
      · simp only
        omega
      · simp only [register, Vector.getElem_set_self]
        exact hrest
      · simp only [register, Vector.getElem_set_self]
        omega
      · have hreceived := h.received
        simp only [hrx] at hreceived
        simpa [hmore] using hreceived
      · simpa [reset] using h.released
      · intro hreset
        exact absurd (hreset.symm.trans ((reset_congr (by simp)).trans hrunning)) (by decide)
      · intro _
        simpa [Controller.pelican] using hpelican

/-- The ring with bytes written behind those that it holds. -/
theorem holds_writeRing {ram : Vector UInt8 80} {start : Nat} {xs bytes : List UInt8}
    (h : Ring.Holds 64 (fun i => (ram[i]?).getD 0) start xs)
    (hroom : xs.length + bytes.length ≤ 64) :
    Ring.Holds 64 (fun i => ((writeRing ram (start + xs.length) bytes)[i]?).getD 0) start
      (xs ++ bytes) := by
  induction bytes generalizing ram xs with
  | nil => simpa [writeRing] using h
  | cons byte bytes ih =>
    rw [List.length_cons] at hroom
    have hcell : (start + xs.length) &&& 63 = (start + xs.length) % 64 :=
      Nat.and_two_pow_sub_one_eq_mod _ 6
    have hlt : (start + xs.length) % 64 < 80 := by omega
    have hpush : Ring.Holds 64
        (fun i => ((ram.setIfInBounds ((start + xs.length) &&& 63) byte)[i]?).getD 0) start
        (xs ++ [byte]) := by
      refine h.push (by omega) ?_ fun i hi => ?_
      · simp [hcell, hlt]
      · rw [Vector.getElem?_setIfInBounds_ne (by rw [hcell]; exact Ne.symm hi)]
    have hrest := ih hpush (by rw [List.length_append, List.length_singleton]; omega)
    rw [List.length_append, List.length_singleton, ← Nat.add_assoc, List.append_assoc,
      List.singleton_append] at hrest
    exact hrest

theorem coherent_enqueue (h : Coherent c) {f : Frame} (hvalid : f.validate = .ok ())
    (hrunning : c.reset = false) (hpelican : c.pelican = true)
    (hroom : c.rxBytes + f.encode.length ≤ 64) : Coherent (c.enqueue f.encode) := by
  have hflatten : c.rx.flatten.length = c.rxBytes := by rw [List.length_flatten, h.bytes]
  unfold enqueue
  refine ⟨?_, hroom, ?_, ?_, ?_, ?_, ?_, ?_, ?_⟩
  · simp [h.bytes]
  · have hring := @holds_writeRing c.ram _ _ f.encode h.ring (by rw [hflatten]; exact hroom)
    rw [hflatten] at hring
    simp only [List.flatten_append, List.flatten_singleton, register, Vector.getElem_set,
      Nat.reduceEqDiff, if_false]
    exact hring
  · simpa using h.start
  · simp [(received_bits c.registers[2]).1]
  · simpa [(received_bits c.registers[2]).2, reset] using h.released
  · intro hreset
    exact absurd (hreset.symm.trans ((reset_congr (by simp)).trans hrunning)) (by decide)
  · intro _
    simpa [Controller.pelican] using hpelican
  · intro bytes hmem
    rcases List.mem_append.mp hmem with hold | hnew
    · exact h.encoded bytes hold
    · exact ⟨f, hvalid, List.mem_singleton.mp hnew⟩

/-- What an accepted frame has passed. -/
theorem accepts_spec {f : Frame} (h : c.accepts f = .ok true) :
    f.validate = .ok () ∧ c.reset = false ∧ c.pelican = true := by
  unfold accepts at h
  split at h
  · cases h
  · next hvalid =>
    split at h
    · cases h
    split at h
    · cases h
    · next hreset =>
      split at h
      · cases h
      split at h
      · cases h
      · next hpelican =>
        simp only [not_or, not_not] at hpelican
        exact ⟨hvalid, Bool.eq_false_iff.mpr hreset, hpelican.1⟩

theorem coherent_receive (h : Coherent c) (f : Frame) : Coherent (c.receive f).2 := by
  unfold receive
  split
  · exact h
  · exact h
  · next haccepts =>
    obtain ⟨hvalid, hrunning, hpelican⟩ := accepts_spec haccepts
    split
    · exact coherent_overrun h
    · next hroom => exact coherent_enqueue h hvalid hrunning hpelican (Nat.not_lt.mp hroom)

theorem coherent_written (h : Coherent c) (offset value : UInt8) :
    Coherent (c.written offset value) := by
  have hwritten := write_cases c offset value
  generalize c.written offset value = c' at hwritten
  cases hwritten with
  | refused => exact h
  | mode value => exact coherent_writeMode h value
  | command hcommand =>
    exact command_keeps (fun _ _ hc => coherent_request hc) (fun _ => coherent_abort)
      (fun _ => coherent_release) (fun _ => coherent_clearOverrun) h hcommand
  | configuration hsame =>
    exact h.congr (reset_congr (hsame 0 (by decide) (by decide))) (hsame 2 (by decide) (by decide))
      (hsame 30 (by decide) (by decide)) (hsame 31 (by decide) (by decide)) (fun i hi => rfl) rfl
      rfl rfl
  | clock hreset =>
    exact h.ofReset hreset (by simp) (by simp) (by simpa using h.start) rfl rfl rfl
  | @start value hreset =>
    refine h.ofReset hreset (by simp) (by simp) ?_ rfl rfl rfl
    have hstart : (value &&& 63).toNat = value.toNat % 64 := by
      rw [UInt8.toNat_and]
      exact Nat.and_two_pow_sub_one_eq_mod _ 6
    simp only [register, Vector.getElem_set_self, hstart]
    omega
  | filter => exact h.congr rfl rfl rfl rfl (fun i hi => rfl) rfl rfl rfl
  | transmitBuffer hj =>
    refine h.congr rfl rfl rfl rfl (fun i hi => ?_) rfl rfl rfl
    unfold ringByte
    rw [Vector.getElem?_setIfInBounds_ne (by omega)]
  | memory hreset => exact h.ofReset hreset rfl rfl h.start rfl rfl rfl

theorem coherent_read (h : Coherent c) (offset : UInt8) : Coherent (c.read offset).2 := by
  unfold read
  split
  · exact h
  split
  · exact h
  split
  · exact h.congr (reset_congr (by simp [readInterrupts])) (by simp [readInterrupts])
      (by simp [readInterrupts]) (by simp [readInterrupts]) (fun i hi => rfl) rfl rfl rfl
  · exact h

theorem coherent_step (h : Coherent c) (op : Op) : Coherent (c.step op) := by
  cases op with
  | read offset => exact coherent_read h offset
  | write offset value => exact coherent_written h offset value
  | enableTransport => exact h.congr rfl rfl rfl rfl (fun i hi => rfl) rfl rfl rfl
  | setElectrical state => exact h.congr rfl rfl rfl rfl (fun i hi => rfl) rfl rfl rfl
  | takeTransmission =>
    show Coherent c.takeTransmission.2
    unfold takeTransmission
    split
    · exact h
    · exact h.congr rfl rfl rfl rfl (fun i hi => rfl) rfl rfl rfl
  | complete ticket => exact coherent_complete h ticket
  | receive f => exact coherent_receive h f

theorem coherent_run (ops : List Op) : Coherent (run step default ops) :=
  run_invariant (I := Coherent) (fun _ op h => coherent_step h op) ops coherent_default

/-- The window shows the oldest frame. -/
theorem Coherent.read_window (h : Coherent c) {frame : List UInt8} {rest : List (List UInt8)}
    (hrx : c.rx = frame :: rest) {offset : UInt8} (hlow : 16 ≤ offset) (hhigh : offset ≤ 28) :
    (c.read offset).1 = some (frame.getD (offset.toNat - 16) 0) := by
  have hpelican := h.pelican (by simp [hrx])
  have hrunning : c.reset = false := by
    by_contra hreset
    rw [Bool.not_eq_false] at hreset
    exact absurd (hrx.symm.trans (h.emptied hreset).1) (by simp)
  rw [UInt8.le_iff_toNat_le] at hlow hhigh
  change 16 ≤ offset.toNat at hlow
  change offset.toNat ≤ 28 at hhigh
  have hne : ∀ k : UInt8, k.toNat < 16 ∨ 28 < k.toNat → offset ≠ k := by
    rintro k hk rfl
    omega
  have hbeyond : ¬ 112 ≤ offset.toNat := by omega
  have hwindow : c.readPelican offset = some (c.window (offset.toNat - 16)) := by
    unfold readPelican
    simp +decide [hne, hrunning, UInt8.le_iff_toNat_le, hlow, hhigh, hbeyond]
  unfold read
  rw [if_neg (hne 0 (by decide)), if_neg (by simp [hpelican]), if_neg (hne 3 (by decide)), hwindow]
  simp [window, hrx]

/-- In every state that a controller can reach the queue, the bytes of the ring and the status bits
agree, and the window shows all of the oldest frame. -/
theorem fifo_coherent (ops : List Op) :
    let c := run step default ops
    c.rxBytes = (c.rx.map List.length).sum ∧ c.rxBytes ≤ 64 ∧
      (∀ bytes ∈ c.rx, ∃ f : Frame, f.validate = .ok () ∧ bytes = f.encode) ∧
      Ring.Holds 64 c.ringByte (c.register 30).toNat c.rx.flatten ∧
      (c.register 2 &&& 1 ≠ 0 ↔ c.rx ≠ []) ∧
      (c.reset = false → (c.register 2 &&& 4 ≠ 0 ↔ c.pending = none)) ∧
      (c.reset = true → c.rx = []) ∧
      ∀ frame rest, c.rx = frame :: rest → frame.length ≤ 13 ∧
        ∀ offset, 16 ≤ offset → offset ≤ 28 →
          (c.read offset).1 = some (frame.getD (offset.toNat - 16) 0) := by
  intro c
  have h : Coherent c := coherent_run ops
  refine ⟨h.bytes, h.room, h.encoded, h.ring, h.received, h.released,
    fun hreset => (h.emptied hreset).1, fun frame rest hrx => ⟨?_, fun offset hlow hhigh => ?_⟩⟩
  · obtain ⟨f, hvalid, rfl⟩ := h.encoded frame (by rw [hrx]; exact List.mem_cons_self)
    exact (f.encode_length hvalid).2
  · exact h.read_window hrx hlow hhigh

end Candi.Controller

end OpenSaab
