import OpenSaab.Library.Bytes
import OpenSaab.Library.Words

/-!
# The firmware of the CANdi

`candi/cpu.rs`: the download holds a first block, then blocks with their addresses and lengths, then
zeros. What it decodes to is the image of the blocks.
-/

namespace OpenSaab.Candi.Firmware

open Bytes Words

def romBase : Nat := 0x10000

def romSize : Nat := 0x10000

/-- `{:#x}`. -/
def hex (n : Nat) : String := "0x" ++ String.ofList (Nat.toDigits 16 n)

def invalidRecord (position address length : Nat) : String :=
  "CANDi invalid record at " ++ hex position ++ ": address=" ++ hex address ++ " length=" ++
    toString length

/-- The loop over the blocks: the image so far, the position, the end of the last block, and the bytes
from the position on. -/
def records (rom : List UInt8) (position previousEnd : Nat) (rest : List UInt8) :
    Except String (List UInt8) :=
  if rest = [] then .error "CANDi download lacks a zero terminator"
  else if rest.all (· == 0) then .ok rom
  else if rest.length < 8 then .error "CANDi truncated record header"
  else
    let address := ofLittle (rest.take 4)
    let length := ofLittle ((rest.drop 4).take 4)
    let offset := address - romBase
    if address < romBase then .error "CANDi record below ROM"
    else if length = 0 ∨ 512 < length ∨ offset < previousEnd ∨ romSize < offset + length then
      .error (invalidRecord position address length)
    else if rest.length < 8 + length then .error "CANDi truncated record payload"
    else
      records (overwrite rom offset ((rest.drop 8).take length)) (position + 8 + length)
        (offset + length) (rest.drop (8 + length))
  termination_by rest.length
  decreasing_by
    rw [List.length_drop]
    omega

def decodeRecords (bytes : List UInt8) : Except String (List UInt8) :=
  if bytes.length < 520 ∨ bytes.take 8 ≠ List.replicate 8 0 then
    .error "CANDi download lacks its implicit first block"
  else
    records (overwrite (List.replicate romSize 0) 0 ((bytes.drop 8).take 512)) 520 512
      (bytes.drop 520)

/-! ## Blocks -/

/-- A block of 1 to 512 bytes within the ROM. -/
structure Block where
  offset : Nat
  payload : List UInt8
  payload_pos : 0 < payload.length
  payload_le : payload.length ≤ 512
  inRange : offset + payload.length ≤ romSize

namespace Block

def stop (b : Block) : Nat := b.offset + b.payload.length

/-- The address and the length, then the bytes. -/
def encode (b : Block) : List UInt8 :=
  little 4 (romBase + b.offset) ++ little 4 b.payload.length ++ b.payload

/-- The byte of the block at an offset of the ROM. -/
def byteAt (b : Block) (i : Nat) : Option UInt8 :=
  if b.offset ≤ i then b.payload[i - b.offset]? else none

end Block

/-- Each block starts at the end of the one before it or behind. -/
def Ascending : Nat → List Block → Prop
  | _, [] => True
  | previousEnd, b :: bs => previousEnd ≤ b.offset ∧ Ascending b.stop bs

/-- A download: the first block, the others in ascending order without an overlap, and the zeros. -/
structure Download where
  first : List UInt8
  blocks : List Block
  zeros : Nat
  first_length : first.length = 512
  ascending : Ascending 512 blocks
  zeros_pos : 0 < zeros

namespace Download

def encode (d : Download) : List UInt8 :=
  List.replicate 8 0 ++ d.first ++ d.blocks.flatMap Block.encode ++ List.replicate d.zeros 0

/-- The byte at an offset of the ROM: of the block that covers it, zero where none does. -/
def byteAt (d : Download) (i : Nat) : UInt8 :=
  ((d.first[i]?).or (d.blocks.findSome? (·.byteAt i))).getD 0

def image (d : Download) : List UInt8 := (List.range romSize).map d.byteAt

end Download

/-! ## One block -/

/-- The address of a block is not all zeros. -/
theorem encode_ne_zeros (b : Block) (rest : List UInt8) :
    (b.encode ++ rest).all (· == 0) = false := by
  have hpos := b.payload_pos
  have hrange := b.inRange
  have hsize : romSize = 65536 := rfl
  have hbyte : (little 4 (romBase + b.offset))[2]? = some 1 := by
    have hbase : romBase = 65536 := rfl
    have hhigh : (romBase + b.offset) / 256 / 256 = 1 := by omega
    simp [little, hhigh]
  rw [Block.encode, List.append_assoc, List.append_assoc, List.all_append, Bool.and_eq_false_iff]
  left
  rw [List.all_eq_false]
  exact ⟨1, List.mem_of_getElem? hbyte, by decide⟩

theorem encode_length (b : Block) : b.encode.length = 8 + b.payload.length := by
  rw [Block.encode, List.length_append, List.length_append, length_little, length_little]

/-- The loop takes an encoded block that is in order. -/
theorem records_block (rom : List UInt8) (position previousEnd : Nat) (b : Block)
    (rest : List UInt8) (h : previousEnd ≤ b.offset) :
    records rom position previousEnd (b.encode ++ rest) =
      records (overwrite rom b.offset b.payload) (position + 8 + b.payload.length) b.stop rest := by
  have hpos := b.payload_pos
  have hle := b.payload_le
  have hrange := b.inRange
  have hbase : romBase = 65536 := rfl
  have hsize : romSize = 65536 := rfl
  have hlength : (b.encode ++ rest).length = 8 + b.payload.length + rest.length := by
    rw [List.length_append, encode_length]
  have hne : b.encode ++ rest ≠ [] := List.ne_nil_of_length_pos (by omega)
  have hparts : b.encode ++ rest =
      little 4 (romBase + b.offset) ++ (little 4 b.payload.length ++ (b.payload ++ rest)) := by
    simp only [Block.encode, List.append_assoc]
  have haddress : ofLittle ((b.encode ++ rest).take 4) = romBase + b.offset := by
    rw [hparts, List.take_left' (length_little _ _), ofLittle_little (by omega)]
  have hcount : ofLittle (((b.encode ++ rest).drop 4).take 4) = b.payload.length := by
    rw [hparts, List.drop_left' (length_little _ _), List.take_left' (length_little _ _),
      ofLittle_little (by omega)]
  have hpayload : ((b.encode ++ rest).drop 8).take b.payload.length = b.payload := by
    rw [Block.encode, List.append_assoc,
      List.drop_left' (by rw [List.length_append, length_little, length_little]), List.take_left]
  have hrest : (b.encode ++ rest).drop (8 + b.payload.length) = rest := by
    rw [← encode_length, List.drop_left]
  rw [records, if_neg hne, if_neg (by rw [encode_ne_zeros]; exact Bool.false_ne_true),
    if_neg (by omega)]
  simp only [haddress, hcount, hpayload, hrest, Nat.add_sub_cancel_left]
  rw [if_neg (by omega), if_neg (by omega), if_neg (by omega)]
  rfl

/-- The image after the blocks have been written, one after the other. -/
def written (rom : List UInt8) (blocks : List Block) : List UInt8 :=
  blocks.foldl (fun rom b => overwrite rom b.offset b.payload) rom

theorem records_encode {blocks : List Block} {zeros : Nat} (hzeros : 0 < zeros)
    (rom : List UInt8) (position previousEnd : Nat) (h : Ascending previousEnd blocks) :
    records rom position previousEnd (blocks.flatMap Block.encode ++ List.replicate zeros 0) =
      .ok (written rom blocks) := by
  induction blocks generalizing rom position previousEnd with
  | nil =>
    rw [List.flatMap_nil, List.nil_append, records,
      if_neg (List.ne_nil_of_length_pos (by rwa [List.length_replicate])), if_pos (by simp)]
    rfl
  | cons b bs ih =>
    rw [List.flatMap_cons, List.append_assoc, records_block _ _ _ _ _ h.1, ih _ _ _ h.2]
    rfl

/-- Four bytes come back from their number. -/
theorem little_take {bytes : List UInt8} (h : 4 ≤ bytes.length) :
    little 4 (ofLittle (bytes.take 4)) = bytes.take 4 := by
  have hback := little_ofLittle (bytes.take 4)
  rwa [List.length_take, Nat.min_eq_left h] at hback

/-- A header that is accepted, with the bytes behind it, is an encoded block. -/
theorem encode_header {rest : List UInt8} {b : Block} (hheader : 8 ≤ rest.length)
    (haddress : romBase + b.offset = ofLittle (rest.take 4))
    (hlength : b.payload.length = ofLittle ((rest.drop 4).take 4))
    (hpayload : b.payload = (rest.drop 8).take b.payload.length) :
    rest = b.encode ++ rest.drop (8 + b.payload.length) := by
  have hfour : 4 ≤ (rest.drop 4).length := by
    rw [List.length_drop]
    omega
  calc rest = rest.take 4 ++ ((rest.drop 4).take 4 ++ (rest.drop 4).drop 4) := by
        rw [List.take_append_drop, List.take_append_drop]
    _ = little 4 (romBase + b.offset) ++ (little 4 b.payload.length ++ rest.drop 8) := by
        rw [haddress, hlength, little_take (by omega), little_take hfour, List.drop_drop]
    _ = little 4 (romBase + b.offset) ++ (little 4 b.payload.length ++
          (b.payload ++ (rest.drop 8).drop b.payload.length)) := by
        nth_rewrite 3 [hpayload]
        rw [List.take_append_drop]
    _ = b.encode ++ rest.drop (8 + b.payload.length) := by
        rw [List.drop_drop, Block.encode, List.append_assoc, List.append_assoc]

/-- Whatever the loop accepts is made of blocks that are in order, and of zeros. -/
theorem records_sound {rom : List UInt8} {position previousEnd : Nat} {rest out : List UInt8}
    (h : records rom position previousEnd rest = .ok out) :
    ∃ blocks zeros, Ascending previousEnd blocks ∧ 0 < zeros ∧
      rest = blocks.flatMap Block.encode ++ List.replicate zeros 0 ∧ out = written rom blocks := by
  fun_induction records rom position previousEnd rest with
  | case1 => cases h
  | case2 rom position previousEnd rest hne hzero =>
    obtain rfl := Except.ok.inj h
    refine ⟨[], rest.length, trivial, List.length_pos_iff.mpr hne, ?_, rfl⟩
    rw [List.flatMap_nil, List.nil_append]
    refine List.eq_replicate_iff.mpr ⟨rfl, fun b hb => ?_⟩
    exact beq_iff_eq.mp (List.all_eq_true.mp hzero b hb)
  | case3 => cases h
  | case4 => cases h
  | case5 => cases h
  | case6 => cases h
  | case7 rom position previousEnd rest hne hzero hheader address length offset hbase hvalid hfits ih =>
    obtain ⟨blocks, zeros, hascending, hzeros, htail, hout⟩ := ih h
    simp only [not_or, Nat.not_lt] at hvalid
    have hpayload : ((rest.drop 8).take length).length = length := by
      rw [List.length_take, List.length_drop]
      omega
    have hrange : offset + length ≤ romSize := by omega
    obtain ⟨b, hoffset, hbytes⟩ : ∃ b : Block, b.offset = offset ∧
        b.payload = (rest.drop 8).take length :=
      ⟨⟨offset, (rest.drop 8).take length, by omega, by omega, by rwa [hpayload]⟩, rfl, rfl⟩
    have hcount : b.payload.length = length := by rw [hbytes, hpayload]
    have hblock := encode_header (b := b) (Nat.not_lt.mp hheader)
      (by rw [hoffset]; change romBase + (address - romBase) = address; omega) hcount
      (by rw [hcount, hbytes])
    rw [hcount] at hblock
    refine ⟨b :: blocks, zeros, ⟨by rw [hoffset]; exact hvalid.2.2.1, ?_⟩, hzeros, ?_, ?_⟩
    · rw [Block.stop, hoffset, hcount]
      exact hascending
    · rw [List.flatMap_cons, List.append_assoc, ← htail]
      exact hblock
    · rw [hout, written, written, List.foldl_cons, hoffset, hbytes]

/-! ## The image -/

theorem byteAt_eq_none {b : Block} {i : Nat} (h : i < b.offset ∨ b.stop ≤ i) : b.byteAt i = none := by
  unfold Block.byteAt
  split
  · rw [List.getElem?_eq_none_iff]
    unfold Block.stop at h
    omega
  · rfl

/-- Blocks in order cover nothing in front of the first of them. -/
theorem findSome_eq_none {blocks : List Block} {previousEnd i : Nat}
    (h : Ascending previousEnd blocks) (hi : i < previousEnd) :
    blocks.findSome? (·.byteAt i) = none := by
  induction blocks generalizing previousEnd with
  | nil => rfl
  | cons b bs ih =>
    have hstop : i < b.stop := by
      have := h.1
      unfold Block.stop
      omega
    rw [List.findSome?_cons, byteAt_eq_none (.inl (Nat.lt_of_lt_of_le hi h.1))]
    exact ih h.2 hstop

/-- Each byte is that of the block that covers it, or else as it was. -/
theorem getElem?_written {blocks : List Block} {previousEnd : Nat} (h : Ascending previousEnd blocks)
    {rom : List UInt8} (hrom : rom.length = romSize) (i : Nat) :
    (written rom blocks)[i]? = (blocks.findSome? (·.byteAt i)).or rom[i]? := by
  induction blocks generalizing rom previousEnd with
  | nil => rfl
  | cons b bs ih =>
    have hrange := b.inRange
    have hfits : b.offset + b.payload.length ≤ rom.length := by rwa [hrom]
    have hover := getElem?_overwrite hfits i
    rw [written, List.foldl_cons, ← written,
      ih h.2 ((length_overwrite (by rwa [hrom])).trans hrom), hover, List.findSome?_cons]
    by_cases hin : b.offset ≤ i ∧ i < b.offset + b.payload.length
    · have hbyte : b.byteAt i = b.payload[i - b.offset]? := if_pos hin.1
      obtain ⟨x, hx⟩ : ∃ x, b.payload[i - b.offset]? = some x :=
        ⟨_, List.getElem?_eq_getElem (by omega)⟩
      rw [if_pos hin, findSome_eq_none h.2 hin.2, hbyte, hx]
      rfl
    · have hbyte : b.byteAt i = none := by
        apply byteAt_eq_none
        unfold Block.stop
        omega
      rw [if_neg hin, hbyte]

/-- The first block and the others, written in order, make the image. -/
theorem written_image (d : Download) :
    written (overwrite (List.replicate romSize 0) 0 d.first) d.blocks = d.image := by
  have hfirst := d.first_length
  have hroom : 0 + d.first.length ≤ (List.replicate romSize (0 : UInt8)).length := by
    rw [List.length_replicate, hfirst]
    decide
  have hrom : (overwrite (List.replicate romSize 0) 0 d.first).length = romSize :=
    (length_overwrite hroom).trans List.length_replicate
  apply List.ext_getElem?
  intro i
  rw [getElem?_written d.ascending hrom, getElem?_overwrite hroom, Download.image, List.getElem?_map]
  by_cases hi : i < romSize
  · rw [List.getElem?_range hi, Option.map_some, Download.byteAt]
    by_cases hlow : i < 512
    · rw [findSome_eq_none d.ascending hlow, if_pos (by omega), Nat.sub_zero, Option.or_none,
        List.getElem?_eq_getElem (by omega)]
      rfl
    · rw [if_neg (by omega), List.getElem?_replicate_of_lt hi, List.getElem?_eq_none (by omega)]
      cases d.blocks.findSome? (·.byteAt i) <;> rfl
  · have hnone : (List.range romSize)[i]? = none :=
      List.getElem?_eq_none (by rw [List.length_range]; omega)
    have hblocks : d.blocks.findSome? (·.byteAt i) = none := by
      rw [List.findSome?_eq_none_iff]
      intro b _
      apply byteAt_eq_none
      have := b.inRange
      unfold Block.stop
      omega
    have hsize : 512 ≤ romSize := by decide
    rw [hnone, hblocks, if_neg (by omega), List.getElem?_replicate, if_neg hi]
    rfl

/-! ## Decoding -/

theorem decodeRecords_encode (d : Download) : decodeRecords d.encode = .ok d.image := by
  have hfirst := d.first_length
  have hlength : 520 ≤ d.encode.length := by
    simp only [Download.encode, List.length_append, List.length_replicate, hfirst]
    omega
  have hzeros : d.encode.take 8 = List.replicate 8 0 := by
    rw [Download.encode, List.append_assoc, List.append_assoc,
      List.take_left' List.length_replicate]
  have hblock : (d.encode.drop 8).take 512 = d.first := by
    rw [Download.encode, List.append_assoc, List.append_assoc,
      List.drop_left' List.length_replicate, List.take_left' hfirst]
  have hrest : d.encode.drop 520 = d.blocks.flatMap Block.encode ++ List.replicate d.zeros 0 := by
    rw [Download.encode, List.append_assoc,
      List.drop_left' (by rw [List.length_append, List.length_replicate, hfirst])]
  rw [decodeRecords, if_neg (by rw [not_or, not_not]; exact ⟨by omega, hzeros⟩), hblock, hrest,
    records_encode d.zeros_pos _ _ _ d.ascending, written_image]

theorem decodeRecords_sound {bytes rom : List UInt8} (h : decodeRecords bytes = .ok rom) :
    ∃ d : Download, bytes = d.encode ∧ rom = d.image := by
  unfold decodeRecords at h
  split at h
  · cases h
  next hhead =>
    rw [not_or, not_not, Nat.not_lt] at hhead
    obtain ⟨blocks, zeros, hascending, hzeros, hrest, hrom⟩ := records_sound h
    have hfirst : ((bytes.drop 8).take 512).length = 512 := by
      rw [List.length_take, List.length_drop]
      omega
    let d : Download := ⟨(bytes.drop 8).take 512, blocks, zeros, hfirst, hascending, hzeros⟩
    refine ⟨d, ?_, hrom.trans (written_image d)⟩
    calc bytes = bytes.take 8 ++ ((bytes.drop 8).take 512 ++ (bytes.drop 8).drop 512) := by
          rw [List.take_append_drop, List.take_append_drop]
      _ = d.encode := by
          rw [hhead.2, List.drop_drop, hrest, Download.encode, List.append_assoc, List.append_assoc]

/-- What is accepted is exactly a download, and it decodes to the image of its blocks. What is decoded
comes back when any download with that image is decoded again. -/
theorem decodeRecords_iff (bytes rom : List UInt8) :
    (decodeRecords bytes = .ok rom ↔ ∃ d : Download, bytes = d.encode ∧ rom = d.image) ∧
      ∀ d : Download, d.image = rom → decodeRecords d.encode = .ok rom := by
  refine ⟨⟨decodeRecords_sound, ?_⟩, ?_⟩
  · rintro ⟨d, hbytes, hrom⟩
    rw [hbytes, hrom]
    exact decodeRecords_encode d
  · intro d hrom
    rw [← hrom]
    exact decodeRecords_encode d

end OpenSaab.Candi.Firmware
