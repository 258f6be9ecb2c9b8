import OpenSaab.Candi.ReceiveFifo

/-!
# Frames in the buffers of the controller

What the guest writes to the transmit buffer is the frame that is sent, and what it reads from the
receive window is the frame that came in, for both formats of the identifier.
-/

namespace OpenSaab

namespace Can

/-! ## Identifiers -/

/-- The byte of `x` at bit `k`, in its place. -/
theorem middle_bits (x : UInt32) {k : UInt32} (hk : k < 32) {i : Nat} (hi : i < 32) :
    ((x >>> k).toUInt8.toUInt32 <<< k).toBitVec.getLsbD i =
      (decide (k.toNat ≤ i ∧ i < k.toNat + 8) && x.toBitVec.getLsbD i) := by
  have hshift : (k.toBitVec % 32).toNat = k.toNat := Nat.mod_eq_of_lt (UInt32.lt_iff_toNat_lt.mp hk)
  simp only [UInt32.toBitVec_shiftLeft, UInt32.toBitVec_shiftRight, UInt8.toBitVec_toUInt32,
    UInt32.toBitVec_toUInt8, BitVec.shiftLeft_eq', BitVec.ushiftRight_eq', hshift,
    BitVec.getLsbD_shiftLeft, BitVec.getLsbD_ushiftRight, BitVec.getLsbD_setWidth]
  by_cases hin : k.toNat ≤ i ∧ i < k.toNat + 8
  · have hindex : k.toNat + (i - k.toNat) = i := by omega
    simp [hin, hindex, hi, show i - k.toNat < 32 by omega, show i - k.toNat < 8 by omega]
  · rw [decide_eq_false hin]
    by_cases hlow : i < k.toNat
    · simp [hlow]
    · simp [show ¬ i - k.toNat < 8 by omega]

/-- The lowest bits of `x`, through the top of a byte. -/
theorem low_bits (x : UInt32) {k : UInt32} (hk : k < 32) (i : Nat) :
    ((x <<< k).toUInt8.toUInt32 >>> k).toBitVec.getLsbD i =
      (decide (k.toNat + i < 8) && x.toBitVec.getLsbD i) := by
  have hshift : (k.toBitVec % 32).toNat = k.toNat := Nat.mod_eq_of_lt (UInt32.lt_iff_toNat_lt.mp hk)
  simp only [UInt32.toBitVec_shiftLeft, UInt32.toBitVec_shiftRight, UInt8.toBitVec_toUInt32,
    UInt32.toBitVec_toUInt8, BitVec.shiftLeft_eq', BitVec.ushiftRight_eq', hshift,
    BitVec.getLsbD_shiftLeft, BitVec.getLsbD_ushiftRight, BitVec.getLsbD_setWidth]
  by_cases hin : k.toNat + i < 8
  · simp [hin, show k.toNat + i < 32 by omega]
  · simp [hin]

theorem high_bits {x : UInt32} {w : Nat} (h : x.toNat < 2 ^ w) {i : Nat} (hi : w ≤ i) :
    x.toBitVec.getLsbD i = false :=
  Nat.testBit_lt_two_pow (Nat.lt_of_lt_of_le h (Nat.pow_le_pow_right (by decide) hi))

theorem extended_id {id : UInt32} (h : id ≤ 0x1fffffff) :
    (id >>> 21).toUInt8.toUInt32 <<< 21 ||| (id >>> 13).toUInt8.toUInt32 <<< 13 |||
      (id >>> 5).toUInt8.toUInt32 <<< 5 ||| (id <<< 3).toUInt8.toUInt32 >>> 3 = id := by
  have hid : id.toNat < 2 ^ 29 := Nat.lt_of_le_of_lt (UInt32.le_iff_toNat_le.mp h) (by decide)
  apply UInt32.toBitVec_inj.mp
  apply BitVec.eq_of_getLsbD_eq
  intro i hi
  rw [UInt32.toBitVec_or, UInt32.toBitVec_or, UInt32.toBitVec_or, BitVec.getLsbD_or,
    BitVec.getLsbD_or, BitVec.getLsbD_or, middle_bits id (by decide) hi,
    middle_bits id (by decide) hi, middle_bits id (by decide) hi, low_bits id (by decide)]
  cases hbit : id.toBitVec.getLsbD i with
  | false => simp
  | true =>
    have hlow : i < 29 := by
      by_contra hhigh
      rw [high_bits hid (Nat.not_lt.mp hhigh)] at hbit
      cases hbit
    simp
    omega

theorem standard_id {id : UInt32} (h : id ≤ 0x7ff) :
    (id >>> 3).toUInt8.toUInt32 <<< 3 ||| (id <<< 5).toUInt8.toUInt32 >>> 5 = id := by
  have hid : id.toNat < 2 ^ 11 := Nat.lt_of_le_of_lt (UInt32.le_iff_toNat_le.mp h) (by decide)
  apply UInt32.toBitVec_inj.mp
  apply BitVec.eq_of_getLsbD_eq
  intro i hi
  rw [UInt32.toBitVec_or, BitVec.getLsbD_or, middle_bits id (by decide) hi, low_bits id (by decide)]
  cases hbit : id.toBitVec.getLsbD i with
  | false => simp
  | true =>
    have hlow : i < 11 := by
      by_contra hhigh
      rw [high_bits hid (Nat.not_lt.mp hhigh)] at hbit
      cases hbit
    simp
    omega

/-! ## The window -/

theorem Frame.info_lt : 0 < 13 := by decide

theorem Frame.id0_lt : 1 < 13 := by decide

theorem Frame.id1_lt : 2 < 13 := by decide

theorem Frame.id2_lt : 3 < 13 := by decide

theorem Frame.id3_lt : 4 < 13 := by decide

/-- The frame in the 13 bytes of a buffer. -/
def Frame.parse (window : Vector UInt8 13) : Frame :=
  let extended := getElem window 0 info_lt &&& 0x80 != 0
  let rtr := getElem window 0 info_lt &&& 0x40 != 0
  let dlc := getElem window 0 info_lt &&& 15
  let (id, start) :=
    if extended then
      ((getElem window 1 id0_lt).toUInt32 <<< 21 ||| (getElem window 2 id1_lt).toUInt32 <<< 13 |||
        (getElem window 3 id2_lt).toUInt32 <<< 5 ||| (getElem window 4 id3_lt).toUInt32 >>> 3, 5)
    else ((getElem window 1 id0_lt).toUInt32 <<< 3 ||| (getElem window 2 id1_lt).toUInt32 >>> 5, 3)
  let length := if rtr then 0 else min dlc.toNat 8
  { id, extended, rtr, dlc, data := (window.toList.drop start).take length }

/-! ## Round trip -/

theorem Frame.validate_iff (f : Frame) : f.validate = .ok () ↔
    f.id ≤ (if f.extended then 0x1fffffff else 0x7ff) ∧ f.dlc ≤ 8 ∧
      f.data.length = if f.rtr then 0 else f.dlc.toNat := by
  unfold Frame.validate
  rw [ite_eq_right_iff]
  simp only [reduceCtorEq, imp_false, not_or, UInt32.not_lt, UInt8.not_lt, ne_eq, not_not]

/-- The first byte of a buffer. -/
def header (f : Frame) : UInt8 :=
  (f.dlc ||| if f.extended then 0x80 else 0) ||| if f.rtr then 0x40 else 0

theorem header_bits (f : Frame) (h : f.dlc ≤ 8) : (header f &&& 0x80 != 0) = f.extended ∧
    (header f &&& 0x40 != 0) = f.rtr ∧ header f &&& 15 = f.dlc := by
  have hall : ∀ dlc : UInt8, dlc ≤ 8 → ∀ extended rtr : Bool,
      (((dlc ||| if extended then 0x80 else 0) ||| if rtr then 0x40 else 0) &&& 0x80 != 0) =
          extended ∧
        (((dlc ||| if extended then 0x80 else 0) ||| if rtr then 0x40 else 0) &&& 0x40 != 0) = rtr ∧
        ((dlc ||| if extended then 0x80 else 0) ||| if rtr then 0x40 else 0) &&& 15 = dlc :=
    Candi.Controller.forall_byte (by decide +kernel)
  exact hall f.dlc h f.extended f.rtr

/-- A window that starts with the bytes of a valid frame holds the frame, whatever follows them. -/
theorem Frame.parse_encode {f : Frame} (h : f.validate = .ok ()) {window : Vector UInt8 13}
    (hwindow : f.encode <+: window.toList) : Frame.parse window = f := by
  obtain ⟨hid, hdlc, hdata⟩ := f.validate_iff.mp h
  obtain ⟨hextended, hrtr, hlow⟩ := header_bits f hdlc
  obtain ⟨rest, hrest⟩ := hwindow
  have hbyte (i : Nat) (hi : i < 13) : (f.encode ++ rest)[i]? = some window[i] := by
    rw [hrest]
    simp [hi]
  have hlength : (if f.rtr then 0 else min f.dlc.toNat 8) = f.data.length := by
    rw [hdata]
    split
    · rfl
    · exact Nat.min_eq_left (UInt8.le_iff_toNat_le.mp hdlc)
  have hhead : window[0] = header f := (Option.some.inj (hbyte 0 (by decide))).symm
  unfold Frame.parse
  rw [hhead, hextended, hrtr, hlow]
  dsimp only
  rw [hlength, ← hrest]
  cases hformat : f.extended with
  | true =>
    have hencode : f.encode = [header f, (f.id >>> 21).toUInt8, (f.id >>> 13).toUInt8,
        (f.id >>> 5).toUInt8, (f.id <<< 3).toUInt8] ++ f.data := by
      simp [Frame.encode, header, hformat]
    rw [hencode] at hbyte ⊢
    rw [← Option.some.inj (hbyte 1 (by decide)), ← Option.some.inj (hbyte 2 (by decide)),
      ← Option.some.inj (hbyte 3 (by decide)), ← Option.some.inj (hbyte 4 (by decide))]
    rw [hformat, if_pos rfl] at hid
    have hbody : (([header f, (f.id >>> 21).toUInt8, (f.id >>> 13).toUInt8, (f.id >>> 5).toUInt8,
        (f.id <<< 3).toUInt8] ++ f.data ++ rest).drop 5).take f.data.length = f.data := by
      simp
    simp only [if_true, extended_id hid, hbody]
    rw [← hformat]
  | false =>
    have hencode : f.encode = [header f, (f.id >>> 3).toUInt8, (f.id <<< 5).toUInt8] ++ f.data := by
      simp [Frame.encode, header, hformat]
    rw [hencode] at hbyte ⊢
    rw [← Option.some.inj (hbyte 1 (by decide)), ← Option.some.inj (hbyte 2 (by decide))]
    rw [hformat, if_neg Bool.false_ne_true] at hid
    have hbody : (([header f, (f.id >>> 3).toUInt8, (f.id <<< 5).toUInt8] ++ f.data ++ rest).drop
        3).take f.data.length = f.data := by
      simp
    simp only [Bool.false_eq_true, if_false, standard_id hid, hbody]
    rw [← hformat]

end Can

namespace Candi.Controller

open Can Runs

variable {c : Controller}

/-! ## Transmission -/

/-- The transmit buffer is read as a window. -/
theorem txFrame_eq (c : Controller) : c.txFrame = Frame.parse c.tx := rfl

/-- The controller takes a frame: it is connected and running in a mode that sends, nothing is pending,
and there is a ticket left. -/
structure CanTransmit (c : Controller) : Prop where
  transport : c.transport = true
  pelican : c.pelican = true
  running : c.reset = false
  mode : getElem c.registers 0 mode_lt &&& 0x16 = 0
  idle : c.pending = none
  ticket : c.nextTicket ≠ 0xffffffffffffffff

/-- A command that asks for a transmission without an abort. -/
def Transmits (value : UInt8) : Prop := value &&& 0xe0 = 0 ∧ value &&& 1 ≠ 0 ∧ value &&& 2 = 0

/-- The writes of some bytes to the window, from byte `i` on. -/
def windowWrites (i : Nat) : List UInt8 → List Op
  | [] => []
  | b :: bs => .write (UInt8.ofNat (16 + i)) b :: windowWrites (i + 1) bs

/-- A write to the window goes to the transmit buffer and to the RAM behind it. -/
theorem written_window (h : c.CanTransmit) {i : Nat} (hi : i < 13) (b : UInt8) :
    c.written (UInt8.ofNat (16 + i)) b =
      { c with tx := c.tx.set i b, ram := c.ram.setIfInBounds (64 + i) b } := by
  have hoffset : (UInt8.ofNat (16 + i)).toNat = 16 + i := UInt8.toNat_ofNat_of_lt' (by
    change 16 + i < 256
    omega)
  generalize UInt8.ofNat (16 + i) = offset at hoffset
  have hne : ∀ k : UInt8, k.toNat < 16 ∨ 28 < k.toNat → offset ≠ k := by
    rintro k hk rfl
    omega
  have hto : 16 + i ≤ 28 := by omega
  have hindex : 16 + i - 16 = i := by omega
  have hmirror : 64 + (16 + i) - 16 = 64 + i := by omega
  have hwrite : c.write offset b =
      .ok { c with tx := c.tx.setIfInBounds i b, ram := c.ram.setIfInBounds (64 + i) b } := by
    unfold write
    simp +decide [hne, h.pelican, h.running, h.idle, UInt8.le_iff_toNat_le, hto, hoffset, hindex,
      hmirror]
  have htx : c.tx.setIfInBounds i b = c.tx.set i b := by
    ext j hj
    rw [Vector.getElem_setIfInBounds hj, Vector.getElem_set]
  rw [written, hwrite, htx]

/-- Bytes that are written to the window from byte `i` on replace what was there. -/
theorem run_windowWrites {i : Nat} {bytes : List UInt8} (h : c.CanTransmit)
    (hroom : i + bytes.length ≤ 13) : ∃ (tx : Vector UInt8 13) (ram : Vector UInt8 80),
      run step c (windowWrites i bytes) = { c with tx, ram } ∧
        ∀ j, (hj : j < 13) → some tx[j] =
          if i ≤ j ∧ j < i + bytes.length then bytes[j - i]? else some c.tx[j] := by
  induction bytes generalizing c i with
  | nil =>
    refine ⟨c.tx, c.ram, rfl, fun j hj => ?_⟩
    rw [if_neg (by rw [List.length_nil]; omega)]
  | cons b bs ih =>
    rw [List.length_cons] at hroom
    have hi : i < 13 := by omega
    obtain ⟨tx, ram, hrun, hbytes⟩ := ih
      (c := { c with tx := c.tx.set i b, ram := c.ram.setIfInBounds (64 + i) b })
      ⟨h.transport, h.pelican, h.running, h.mode, h.idle, h.ticket⟩ (i := i + 1) (by omega)
    refine ⟨tx, ram, ?_, fun j hj => ?_⟩
    · rw [windowWrites, run_cons, step, written_window h hi, hrun]
    · rw [hbytes j hj, List.length_cons]
      rcases Nat.lt_trichotomy j i with hlt | rfl | hgt
      · rw [if_neg (by omega), if_neg (by omega), Vector.getElem_set_ne _ _ (by omega)]
      · rw [if_neg (by omega), if_pos (by omega), Vector.getElem_set_self, Nat.sub_self,
          List.getElem?_cons_zero]
      · have hindex : j - i = j - (i + 1) + 1 := by omega
        rw [hindex, List.getElem?_cons_succ, Vector.getElem_set_ne _ _ (by omega)]
        by_cases hin : j < i + 1 + bs.length
        · rw [if_pos (by omega), if_pos (by omega)]
        · rw [if_neg (by omega), if_neg (by omega)]

/-- The buffer starts with the bytes of a frame that has been written to it. -/
theorem run_encode {f : Frame} (hf : f.validate = .ok ()) (h : c.CanTransmit) :
    ∃ (tx : Vector UInt8 13) (ram : Vector UInt8 80),
      run step c (windowWrites 0 f.encode) = { c with tx, ram } ∧ Frame.parse tx = f := by
  have hlength := (f.encode_length hf).2
  have hroom : 0 + f.encode.length ≤ 13 := by omega
  obtain ⟨tx, ram, hrun, hbytes⟩ := run_windowWrites h hroom
  refine ⟨tx, ram, hrun, Frame.parse_encode hf ?_⟩
  rw [List.prefix_iff_getElem?]
  intro j hj
  have hbyte := hbytes j (by omega)
  rw [if_pos (by omega), Nat.sub_zero] at hbyte
  rw [← List.getElem?_eq_getElem hj, ← hbyte]
  simp [show j < 13 by omega]

theorem transmits_bits : ∀ b : UInt8, b &&& 1 ≠ 0 → b &&& 2 = 0 →
    b &&& 0x11 ≠ 0x10 ∧ b &&& 3 ≠ 3 := forall_byte (by decide +kernel)

/-- The command takes the frame of the transmit buffer, the timing and the electrical state as they
are. -/
def requested (c : Controller) : Transmission where
  ticket := c.nextTicket
  frame := c.txFrame
  btr0 := getElem c.registers 6 timing0_lt
  btr1 := getElem c.registers 7 timing1_lt
  electrical := c.electrical

theorem release_pending (c : Controller) :
    c.release.pending = c.pending ∧ c.release.dispatched = c.dispatched := by
  unfold release
  dsimp only
  split
  · split <;> exact ⟨rfl, rfl⟩
  · split <;> exact ⟨rfl, rfl⟩

theorem command_transmits (h : c.CanTransmit) {value : UInt8} (hv : Transmits value)
    (hf : c.txFrame.validate = .ok ()) : ∃ c', c.command value = .ok c' ∧
      c'.pending = some c.requested ∧ c'.dispatched = false := by
  obtain ⟨hknown, hsends, hkeeps⟩ := hv
  obtain ⟨hself, hsingle⟩ := transmits_bits value hsends hkeeps
  obtain ⟨c₁, hrequest, hpending, hdispatched⟩ : ∃ c₁, c.request = .ok c₁ ∧
      c₁.pending = some c.requested ∧ c₁.dispatched = false := by
    unfold request
    simp only [h.transport, h.pelican, h.running, h.mode, h.idle, h.ticket, hf]
    exact ⟨_, rfl, rfl, rfl⟩
  have hreleased : (if value &&& 4 ≠ 0 then c₁.release else c₁).pending = some c.requested ∧
      (if value &&& 4 ≠ 0 then c₁.release else c₁).dispatched = false := by
    split
    · rw [c₁.release_pending.1, c₁.release_pending.2]
      exact ⟨hpending, hdispatched⟩
    · exact ⟨hpending, hdispatched⟩
  unfold command
  rw [if_neg (not_not.mpr hknown), if_neg hself, if_neg hsingle, if_pos hsends, hrequest]
  dsimp only
  rw [if_neg (not_not.mpr hkeeps)]
  refine ⟨_, rfl, ?_, ?_⟩
  · split
    · exact hreleased.1
    · exact hreleased.1
  · split
    · exact hreleased.2
    · exact hreleased.2

theorem take_encoded {f : Frame} (hf : f.validate = .ok ()) (h : c.CanTransmit) {value : UInt8}
    (hv : Transmits value) :
    (run step c (windowWrites 0 f.encode ++ [.write 1 value])).takeTransmission.1 =
      some { c.requested with frame := f } := by
  obtain ⟨tx, ram, hrun, hparse⟩ := run_encode hf h
  obtain ⟨c', hcommand, hpending, hdispatched⟩ :=
    command_transmits (c := { c with tx, ram })
      ⟨h.transport, h.pelican, h.running, h.mode, h.idle, h.ticket⟩ hv
      (by rw [txFrame_eq, hparse, hf])
  have hwrite : ({ c with tx, ram } : Controller).write 1 value =
      ({ c with tx, ram } : Controller).command value := by
    unfold write
    simp
  rw [run_append, hrun, run_cons, run_nil, step, written, hwrite, hcommand]
  dsimp only
  rw [takeTransmission, hdispatched, if_neg Bool.false_ne_true, hpending, requested, txFrame_eq,
    hparse]
  rfl

/-! ## Reception -/

/-- What the guest reads from the receive window. -/
def readWindow (c : Controller) : Vector UInt8 13 :=
  Vector.ofFn fun i => (c.read (UInt8.ofNat (16 + i.val))).1.getD 0

/-- A queue that is empty has room for every frame, and the window then shows it. -/
theorem receive_empty {f : Frame} (h : c.Coherent) (hempty : c.rx = [])
    (haccepts : c.accepts f = .ok true) :
    (c.receive f).1 = .ok true ∧ Frame.parse (c.receive f).2.readWindow = f := by
  have hvalid := (accepts_spec haccepts).1
  have hlength := (f.encode_length hvalid).2
  have hbytes : c.rxBytes = 0 := by rw [h.bytes, hempty]; rfl
  have hreceive : c.receive f = (.ok true, c.enqueue f.encode) := by
    rw [receive, haccepts]
    exact if_neg (by omega)
  have hcoherent := coherent_receive h f
  rw [hreceive] at hcoherent ⊢
  have hrx : (c.enqueue f.encode).rx = f.encode :: [] := by rw [enqueue, hempty]; rfl
  refine ⟨rfl, Frame.parse_encode hvalid ?_⟩
  rw [List.prefix_iff_getElem?]
  intro j hj
  have hoffset : (UInt8.ofNat (16 + j)).toNat = 16 + j := UInt8.toNat_ofNat_of_lt' (by
    change 16 + j < 256
    omega)
  have hlow : 16 ≤ UInt8.ofNat (16 + j) := by
    rw [UInt8.le_iff_toNat_le, hoffset]
    exact Nat.le_add_right 16 j
  have hhigh : UInt8.ofNat (16 + j) ≤ 28 := by
    rw [UInt8.le_iff_toNat_le, hoffset]
    change 16 + j ≤ 28
    omega
  have hread := hcoherent.read_window hrx hlow hhigh
  rw [hoffset, Nat.add_sub_cancel_left, List.getD_eq_getElem?_getD, List.getElem?_eq_getElem hj]
    at hread
  have hwindow : ((c.enqueue f.encode).readWindow)[j]? = some (f.encode[j]) := by
    rw [readWindow, Vector.getElem?_ofFn, dif_pos (show j < 13 by omega)]
    dsimp only
    rw [hread]
    rfl
  rw [← hwindow]
  simp

/-! ## Main result -/

/-- A frame that is written to the transmit buffer, over whatever was there, is the one that is sent by
the next command; and a frame that comes into an empty queue is the one in the receive window. -/
theorem frame_round_trip {f : Frame} (hf : f.validate = .ok ()) :
    (∀ (c : Controller) (value : UInt8), c.CanTransmit → Transmits value →
      (run step c (windowWrites 0 f.encode ++ [.write 1 value])).takeTransmission.1 =
        some { c.requested with frame := f }) ∧
      ∀ ops, (run step default ops).rx = [] → (run step default ops).accepts f = .ok true →
        ((run step default ops).receive f).1 = .ok true ∧
          Frame.parse ((run step default ops).receive f).2.readWindow = f :=
  ⟨fun _ _ h hv => take_encoded hf h hv, fun ops => receive_empty (coherent_run ops)⟩

/-- A controller that is connected, with an acceptance filter that lets every frame pass. -/
def connected : List Op :=
  [.enableTransport, .write 31 0xc7, .write 6 0xc1, .write 7 0x36, .write 20 0xff, .write 21 0xff,
    .write 22 0xff, .write 23 0xff, .write 4 0x0b, .write 0 8]

/-- An extended frame of two bytes there and back. -/
theorem frame_round_trip_extended :
    (run step (run step default connected) (windowWrites 0
        (Frame.encode ⟨0x12345678, true, false, 2, [1, 2]⟩) ++ [.write 1 1])).takeTransmission.1 =
        some ⟨1, ⟨0x12345678, true, false, 2, [1, 2]⟩, 0xc1, 0x36, .unspecified⟩ ∧
      Frame.parse ((run step default connected).receive
        ⟨0x12345678, true, false, 2, [1, 2]⟩).2.readWindow = ⟨0x12345678, true, false, 2, [1, 2]⟩ := by
  obtain ⟨hsent, hreceived⟩ :=
    frame_round_trip (f := ⟨0x12345678, true, false, 2, [1, 2]⟩) (by decide +kernel)
  refine ⟨?_, (hreceived connected (by decide +kernel) (by decide +kernel)).2⟩
  rw [hsent (run step default connected) 1 ⟨by decide +kernel, by decide +kernel, by decide +kernel,
    by decide +kernel, by decide +kernel, by decide +kernel⟩ ⟨by decide, by decide, by decide⟩]
  decide +kernel

end Candi.Controller

end OpenSaab
