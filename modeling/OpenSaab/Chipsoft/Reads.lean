import OpenSaab.Chipsoft.Bridge
import OpenSaab.Library.Bytes

/-!
# Received messages

`adapters/chipsoft/channel.rs`: the reply to a read, which holds a count of records and their size. An
index that is outside ends the program, which is `none` here.
-/

namespace OpenSaab.Chipsoft

open Bytes

structure RawCan where
  protocol : UInt32
  timestamp : UInt32
  flags : UInt32
  id : UInt32
  data : List UInt8
  deriving DecidableEq, Repr

/-! ## The decoder -/

def wordAt (b : List UInt8) (i : Nat) : Option UInt32 :=
  (part b i (i + 4)).map fun bytes => UInt32.ofNat (Words.ofLittle bytes)

def sizeAt (b : List UInt8) (i : Nat) : Option Nat := (part b i (i + 2)).map Words.ofLittle

/-- One record, and where the next one starts. -/
def readRecord (b : List UInt8) (i : Nat) : Option (Except String (RawCan × Nat)) :=
  if b.length < i + 16 then some (.error "Truncated CAN record")
  else do
    let len ← sizeAt b (i + 8)
    if ¬ (4 ≤ len ∧ len ≤ 12) ∨ b.length < i + 16 + len then
      some (.error "Invalid raw CAN record size")
    else do
      let protocol ← wordAt b i
      let timestamp ← wordAt b (i + 4)
      let flags ← wordAt b (i + 10)
      let status ← sizeAt b (i + 14)
      let id ← (part b (i + 16) (i + 20)).map fun bytes => UInt32.ofNat (Words.ofBig bytes)
      if protocol ∉ protocols ∨ status ≠ 0 ∨ 0x1fffffff < id then
        some (.error "Unsupported CAN record protocol/status/id")
      else do
        let data ← part b (i + 20) (i + 16 + len)
        some (.ok ({ protocol, timestamp, flags, id, data }, i + 16 + len))

def readRecords (b : List UInt8) : Nat → Nat → List RawCan → Option (Except String (List RawCan))
  | 0, i, out =>
    if i ≠ b.length then some (.error "Trailing bytes after CAN records") else some (.ok out)
  | k + 1, i, out =>
    match readRecord b i with
    | none => none
    | some (.error e) => some (.error e)
    | some (.ok (m, next)) => readRecords b k next (out ++ [m])

def decodeRead (frame : Frame) : Option (Except String (List RawCan)) :=
  if frame.opcode ≠ 0x10 ∨ frame.status ≠ 0 then
    some (.error "Not a successful READ_MSGS reply")
  else if frame.payload.length < 4 then some (.error "Truncated read header")
  else do
    let count ← sizeAt frame.payload 0
    let size ← sizeAt frame.payload 2
    if size ≠ frame.payload.length - 4 ∨ size / 20 < count then
      some (.error "Read count/length mismatch")
    else readRecords frame.payload count 4 []

/-! ## The format -/

namespace RawCan

/-- A record on the wire: its status is 0, and its size is that of the identifier and the data. -/
def encode (m : RawCan) : List UInt8 :=
  Words.little 4 m.protocol.toNat ++ Words.little 4 m.timestamp.toNat ++
    Words.little 2 (4 + m.data.length) ++ Words.little 4 m.flags.toNat ++ Words.little 2 0 ++
    Words.big 4 m.id.toNat ++ m.data

/-- What a record may hold. -/
structure WellFormed (m : RawCan) : Prop where
  protocol : m.protocol ∈ protocols
  id : m.id ≤ 0x1fffffff
  data : m.data.length ≤ 8

theorem length_encode (m : RawCan) : m.encode.length = 20 + m.data.length := by
  simp [encode]
  omega

end RawCan

/-- The payload of a reply: count, size and records. -/
def encodeRead (ms : List RawCan) : List UInt8 :=
  Words.little 2 ms.length ++ Words.little 2 (ms.flatMap RawCan.encode).length ++
    ms.flatMap RawCan.encode

/-! ## One record -/

variable {b : List UInt8} {i : Nat}

theorem wordAt_eq (h : i + 4 ≤ b.length) :
    wordAt b i = some (UInt32.ofNat (Words.ofLittle (slice b i 4))) := by
  unfold wordAt
  rw [part_eq h]
  rfl

theorem sizeAt_eq (h : i + 2 ≤ b.length) : sizeAt b i = some (Words.ofLittle (slice b i 2)) := by
  unfold sizeAt
  rw [part_eq h]
  rfl

/-- The size of the record at `i`. -/
def sizeOf (b : List UInt8) (i : Nat) : Nat := Words.ofLittle (slice b (i + 8) 2)

/-- The record at `i`, as far as it may be one. -/
def recordAt (b : List UInt8) (i : Nat) : RawCan where
  protocol := UInt32.ofNat (Words.ofLittle (slice b i 4))
  timestamp := UInt32.ofNat (Words.ofLittle (slice b (i + 4) 4))
  flags := UInt32.ofNat (Words.ofLittle (slice b (i + 10) 4))
  id := UInt32.ofNat (Words.ofBig (slice b (i + 16) 4))
  data := slice b (i + 20) (sizeOf b i - 4)

/-- What a record has passed. -/
structure Passes (b : List UInt8) (i : Nat) : Prop where
  min : 4 ≤ sizeOf b i
  max : sizeOf b i ≤ 12
  fits : i + 16 + sizeOf b i ≤ b.length
  protocol : (recordAt b i).protocol ∈ protocols
  status : Words.ofLittle (slice b (i + 14) 2) = 0
  id : (recordAt b i).id ≤ 0x1fffffff

/-- What is read of a record whose header is there. -/
theorem readRecord_long (h : i + 16 ≤ b.length) :
    readRecord b i =
      if ¬ (4 ≤ sizeOf b i ∧ sizeOf b i ≤ 12) ∨ b.length < i + 16 + sizeOf b i then
        some (.error "Invalid raw CAN record size")
      else if (recordAt b i).protocol ∉ protocols ∨ Words.ofLittle (slice b (i + 14) 2) ≠ 0 ∨
          0x1fffffff < (recordAt b i).id then
        some (.error "Unsupported CAN record protocol/status/id")
      else some (.ok (recordAt b i, i + 16 + sizeOf b i)) := by
  unfold readRecord
  rw [if_neg (by omega), sizeAt_eq (by omega : i + 8 + 2 ≤ b.length)]
  change (if ¬ (4 ≤ sizeOf b i ∧ sizeOf b i ≤ 12) ∨ b.length < i + 16 + sizeOf b i then _ else _) =
    _
  split
  · rfl
  · next hsize =>
    have hend : i + 16 + sizeOf b i = i + 20 + (sizeOf b i - 4) := by omega
    have hdata : part b (i + 20) (i + 16 + sizeOf b i) = some (recordAt b i).data := by
      rw [hend, part_eq (by omega)]
      rfl
    rw [wordAt_eq (by omega : i + 4 ≤ b.length), wordAt_eq (by omega : i + 4 + 4 ≤ b.length),
      wordAt_eq (by omega : i + 10 + 4 ≤ b.length), sizeAt_eq (by omega : i + 14 + 2 ≤ b.length),
      part_eq (by omega : i + 16 + 4 ≤ b.length)]
    change (if _ then _ else (part b (i + 20) (i + 16 + sizeOf b i)).bind _) = _
    rw [hdata]
    rfl

/-- A record is read without an index outside, whatever the bytes are. -/
theorem readRecord_spec (b : List UInt8) (i : Nat) :
    (Passes b i ∧ readRecord b i = some (.ok (recordAt b i, i + 16 + sizeOf b i))) ∨
      (¬ Passes b i ∧ ∃ e, readRecord b i = some (.error e)) := by
  by_cases hlong : i + 16 ≤ b.length
  · rw [readRecord_long hlong]
    split
    · next hsize =>
      refine .inr ⟨fun h => ?_, _, rfl⟩
      have hmin := h.min
      have hmax := h.max
      have hfits := h.fits
      omega
    · next hsize =>
      split
      · next hrefused =>
        refine .inr ⟨fun h => ?_, _, rfl⟩
        rcases hrefused with hprotocol | hstatus | hid
        · exact hprotocol h.protocol
        · exact hstatus h.status
        · exact absurd h.id (UInt32.not_le.mpr hid)
      · next htaken =>
        simp only [not_or, not_not, UInt32.not_lt] at htaken
        refine .inl ⟨⟨?_, ?_, ?_, htaken.1, htaken.2.1, htaken.2.2⟩, rfl⟩ <;> omega
  · refine .inr ⟨fun h => ?_, _, if_pos (by omega)⟩
    have hfits := h.fits
    omega

/-- A record that has passed is the bytes that it was read from. -/
theorem encode_recordAt (h : Passes b i) :
    (recordAt b i).encode = slice b i (16 + sizeOf b i) ∧ (recordAt b i).WellFormed := by
  have hmin := h.min
  have hmax := h.max
  have hfits := h.fits
  have hdata : (recordAt b i).data.length = sizeOf b i - 4 := length_slice (by omega)
  have hsize : Words.little 2 (4 + (recordAt b i).data.length) = slice b (i + 8) 2 := by
    have hback := Words.little_ofLittle (slice b (i + 8) 2)
    rw [length_slice (by omega)] at hback
    rw [hdata, Nat.add_sub_cancel' hmin]
    exact hback
  have hstatus : Words.little 2 0 = slice b (i + 14) 2 := by
    have hback := Words.little_ofLittle (slice b (i + 14) 2)
    rwa [length_slice (by omega), h.status] at hback
  have hend : 16 + sizeOf b i = 4 + 4 + 2 + 4 + 2 + 4 + (sizeOf b i - 4) := by omega
  refine ⟨?_, h.protocol, h.id, by omega⟩
  unfold RawCan.encode
  rw [hsize, hstatus]
  unfold recordAt
  dsimp only
  rw [Words.little_word (length_slice (by omega)), Words.little_word (length_slice (by omega)),
    Words.little_word (length_slice (by omega)), Words.big_word (length_slice (by omega)), hend,
    slice_append_slice b i 4 4, slice_append_slice b i 8 2, slice_append_slice b i 10 4,
    slice_append_slice b i 14 2, slice_append_slice b i 16 4, slice_append_slice b i 20]

theorem slice_of_drop {xs : List UInt8} (h : b.drop i = xs) (j k : Nat) :
    slice b (i + j) k = (xs.drop j).take k := by
  unfold slice
  rw [← List.drop_drop, h]

/-- Bytes that start with a record are read as that record. -/
theorem recordAt_encode {m : RawCan} (hm : m.WellFormed) {tail : List UInt8}
    (h : b.drop i = m.encode ++ tail) : Passes b i ∧ recordAt b i = m := by
  have hmax := hm.data
  have hlength := congrArg List.length h
  rw [List.length_drop, List.length_append, m.length_encode] at hlength
  have hsize : sizeOf b i = 4 + m.data.length := by
    have hfield : slice b (i + 8) 2 = Words.little 2 (4 + m.data.length) := slice_of_drop h 8 2
    unfold sizeOf
    rw [hfield, Words.ofLittle_little (by omega)]
  have hstatus : Words.ofLittle (slice b (i + 14) 2) = 0 := by
    have hfield : slice b (i + 14) 2 = Words.little 2 0 := slice_of_drop h 14 2
    rw [hfield]
    rfl
  have hrecord : recordAt b i = m := by
    have hprotocol : slice b i 4 = Words.little 4 m.protocol.toNat := slice_of_drop h 0 4
    have htimestamp : slice b (i + 4) 4 = Words.little 4 m.timestamp.toNat := slice_of_drop h 4 4
    have hflags : slice b (i + 10) 4 = Words.little 4 m.flags.toNat := slice_of_drop h 10 4
    have hid : slice b (i + 16) 4 = Words.big 4 m.id.toNat := slice_of_drop h 16 4
    have hdata : slice b (i + 20) m.data.length = m.data := by
      have hfield : slice b (i + 20) m.data.length = (m.data ++ tail).take m.data.length :=
        slice_of_drop h 20 m.data.length
      rw [hfield, List.take_left' rfl]
    unfold recordAt
    rw [hsize, Nat.add_sub_cancel_left, hprotocol, htimestamp, hflags, hid, hdata,
      Words.ofLittle_word, Words.ofLittle_word, Words.ofLittle_word, Words.ofBig_word]
  refine ⟨⟨by omega, by omega, by omega, ?_, hstatus, ?_⟩, hrecord⟩
  · rw [hrecord]
    exact hm.protocol
  · rw [hrecord]
    exact hm.id

/-! ## All records -/

/-- The records that are read are those that the bytes consist of. -/
theorem readRecords_spec (b : List UInt8) (k i : Nat) (hi : i ≤ b.length) (out : List RawCan) :
    (∀ ms, readRecords b k i out = some (.ok ms) ↔ ∃ new, ms = out ++ new ∧ new.length = k ∧
        (∀ m ∈ new, m.WellFormed) ∧ b.drop i = new.flatMap RawCan.encode) ∧
      readRecords b k i out ≠ none := by
  induction k generalizing i out with
  | zero =>
    unfold readRecords
    split
    · next hmore =>
      refine ⟨fun ms => ⟨fun h => ?_, ?_⟩, by simp⟩
      · cases h
      · rintro ⟨new, -, hnew, -, hdrop⟩
        rw [List.length_eq_zero_iff.mp hnew, List.flatMap_nil, List.drop_eq_nil_iff] at hdrop
        omega
    · next hend =>
      rw [not_not] at hend
      refine ⟨fun ms => ⟨fun h => ?_, ?_⟩, by simp⟩
      · obtain rfl := Except.ok.inj (Option.some.inj h)
        refine ⟨[], (List.append_nil _).symm, rfl, by simp, ?_⟩
        rw [hend, List.drop_length]
        rfl
      · rintro ⟨new, rfl, hnew, -, -⟩
        rw [List.length_eq_zero_iff.mp hnew, List.append_nil]
  | succ k ih =>
    unfold readRecords
    rcases readRecord_spec b i with ⟨hpasses, hread⟩ | ⟨hfails, e, hread⟩
    · rw [hread]
      dsimp only
      obtain ⟨hencode, hformed⟩ := encode_recordAt hpasses
      have hfits := hpasses.fits
      obtain ⟨hrest, hsafe⟩ := ih (i + 16 + sizeOf b i) hfits (out ++ [recordAt b i])
      refine ⟨fun ms => ?_, hsafe⟩
      have hsplit : b.drop i = (recordAt b i).encode ++ b.drop (i + 16 + sizeOf b i) := by
        rw [hencode, Nat.add_assoc, slice_append_drop]
      rw [hrest]
      constructor
      · rintro ⟨new, rfl, hnew, hall, hdrop⟩
        refine ⟨recordAt b i :: new, by simp, by simp [hnew], ?_, ?_⟩
        · exact List.forall_mem_cons.mpr ⟨hformed, hall⟩
        · rw [hsplit, hdrop, List.flatMap_cons]
      · rintro ⟨new, rfl, hnew, hall, hdrop⟩
        obtain ⟨m, new, rfl⟩ := List.exists_cons_of_length_pos (by omega : 0 < new.length)
        obtain ⟨hm, hlater⟩ := List.forall_mem_cons.mp hall
        rw [List.flatMap_cons] at hdrop
        obtain ⟨-, rfl⟩ := recordAt_encode hm hdrop
        refine ⟨new, by simp, by simpa using hnew, hlater, ?_⟩
        rw [hsplit] at hdrop
        exact List.append_cancel_left hdrop
    · rw [hread]
      refine ⟨fun ms => ⟨fun h => ?_, ?_⟩, by simp⟩
      · cases h
      · rintro ⟨new, rfl, hnew, hall, hdrop⟩
        obtain ⟨m, new, rfl⟩ := List.exists_cons_of_length_pos (by omega : 0 < new.length)
        rw [List.flatMap_cons] at hdrop
        exact absurd (recordAt_encode (List.forall_mem_cons.mp hall).1 hdrop).1 hfails

/-! ## A reply -/

theorem twenty_mul_le (ms : List RawCan) : 20 * ms.length ≤ (ms.flatMap RawCan.encode).length := by
  induction ms with
  | nil => exact Nat.le_refl 0
  | cons m ms ih =>
    rw [List.flatMap_cons, List.length_append, m.length_encode, List.length_cons]
    omega

theorem encodeRead_header {ms : List RawCan} (h : (ms.flatMap RawCan.encode).length < 65536) :
    Words.ofLittle (slice (encodeRead ms) 0 2) = ms.length ∧
      Words.ofLittle (slice (encodeRead ms) 2 2) = (ms.flatMap RawCan.encode).length := by
  have hcount := twenty_mul_le ms
  have hfirst : slice (encodeRead ms) 0 2 = Words.little 2 ms.length := rfl
  have hsecond : slice (encodeRead ms) 2 2 = Words.little 2 (ms.flatMap RawCan.encode).length := rfl
  rw [hfirst, hsecond, Words.ofLittle_little (by omega), Words.ofLittle_little (by omega)]
  exact ⟨rfl, rfl⟩

theorem length_encodeRead (ms : List RawCan) :
    (encodeRead ms).length = 4 + (ms.flatMap RawCan.encode).length := by
  unfold encodeRead
  rw [List.length_append, List.length_append, Words.length_little, Words.length_little]

/-- A read succeeds exactly on the encodings of well-formed records, and gives back the records. No
payload is indexed outside. -/
theorem decodeRead_exact (frame : Frame) (hopcode : frame.opcode = 0x10)
    (hstatus : frame.status = 0) :
    (∀ ms, decodeRead frame = some (.ok ms) ↔ (∀ m ∈ ms, m.WellFormed) ∧
        (ms.flatMap RawCan.encode).length < 65536 ∧ frame.payload = encodeRead ms) ∧
      decodeRead frame ≠ none := by
  unfold decodeRead
  rw [if_neg (by simp [hopcode, hstatus])]
  generalize frame.payload = b
  split
  · next hshort =>
    refine ⟨fun ms => ⟨fun h => ?_, ?_⟩, by simp⟩
    · cases h
    · rintro ⟨-, -, rfl⟩
      have hlength := length_encodeRead ms
      omega
  · next hlong =>
    rw [sizeAt_eq (by omega : 0 + 2 ≤ b.length), sizeAt_eq (by omega : 2 + 2 ≤ b.length)]
    dsimp only [Option.bind_eq_bind, Option.bind_some]
    have hlimit := Words.ofLittle_lt (slice b 2 2)
    rw [length_slice (by omega)] at hlimit
    split
    · next hmismatch =>
      refine ⟨fun ms => ⟨fun h => ?_, ?_⟩, by simp⟩
      · cases h
      · rintro ⟨-, hsmall, rfl⟩
        obtain ⟨hcount, hsize⟩ := encodeRead_header hsmall
        have hlength := length_encodeRead ms
        have htwenty := twenty_mul_le ms
        rw [hcount, hsize] at hmismatch
        omega
    · next hmatch =>
      obtain ⟨hrecords, hsafe⟩ :=
        readRecords_spec b (Words.ofLittle (slice b 0 2)) 4 (by omega) []
      refine ⟨fun ms => ?_, hsafe⟩
      rw [hrecords]
      constructor
      · rintro ⟨new, rfl, hnew, hall, hdrop⟩
        have hlength := congrArg List.length hdrop
        rw [List.length_drop] at hlength
        have hfirst : Words.little 2 ms.length = slice b 0 2 := by
          have hback := Words.little_ofLittle (slice b 0 2)
          rwa [length_slice (by omega), ← hnew] at hback
        have hsecond : Words.little 2 (ms.flatMap RawCan.encode).length = slice b 2 2 := by
          have hback := Words.little_ofLittle (slice b 2 2)
          rw [length_slice (by omega)] at hback
          rw [← hlength, ← hback]
          congr 1
          omega
        refine ⟨hall, by omega, ?_⟩
        unfold encodeRead
        rw [hfirst, hsecond, slice_append_slice b 0 2 2, ← hdrop]
        exact (slice_append_drop b 0 4).symm
      · rintro ⟨hall, hsmall, rfl⟩
        exact ⟨ms, rfl, (encodeRead_header hsmall).1.symm, hall, rfl⟩

theorem decodeRead_one : decodeRead ⟨0x10, 0, encodeRead [⟨5, 75, 0, 0x301, [1, 2]⟩]⟩ =
    some (.ok [⟨5, 75, 0, 0x301, [1, 2]⟩]) := by
  refine ((decodeRead_exact ⟨0x10, 0, _⟩ rfl rfl).1 _).mpr ⟨?_, by decide, rfl⟩
  intro m hm
  rw [List.mem_singleton.mp hm]
  exact ⟨by decide, by decide, by decide⟩

end OpenSaab.Chipsoft
