import OpenSaab.Library.Programs
import OpenSaab.Obdlink.Parser

/-!
# The lines of the adapter

The lines that stand for a frame, and how a frame is written as one.
-/

namespace OpenSaab.Obdlink

open Can Lines

/-! ## The form of a line -/

def HexDigits (n : Nat) (word : List Char) : Prop := word.length = n ∧ ∀ c ∈ word, isHexDigit c = true

/-- An identifier of three digits, a length, and as many bytes. -/
def Shape (isByte : List Char → Prop) (line : List Char) : Prop :=
  ∃ id dlc data, words Text.whitespace line = id :: [dlc] :: data ∧ HexDigits 3 id ∧
    value 16 id ≤ 0x7ff ∧ digitValue 16 dlc = some data.length ∧ data.length ≤ 8 ∧
    ∀ word ∈ data, isByte word

/-- A line of a data frame. -/
def IsFrameLine (line : List Char) : Prop := Shape (HexDigits 2) line

/-- One digit behind a plus sign. -/
def SignedByte (word : List Char) : Prop := ∃ c, word = ['+', c] ∧ isHexDigit c = true

/-- A line that is in order but for the plus sign of a byte, or of several. -/
def Signed (line : List Char) : Prop :=
  Shape (fun word => HexDigits 2 word ∨ SignedByte word) line ∧
    ∃ word ∈ words Text.whitespace line, word.head? = some '+'

theorem Shape.mono {P Q : List Char → Prop} (h : ∀ word, P word → Q word) {line : List Char}
    (hline : Shape P line) : Shape Q line := by
  obtain ⟨id, dlc, data, hwords, hid, hvalue, hdlc, hlength, hdata⟩ := hline
  exact ⟨id, dlc, data, hwords, hid, hvalue, hdlc, hlength, fun w hw => h w (hdata w hw)⟩

theorem not_plus {word : List Char} (h : ∀ c ∈ word, isHexDigit c = true) :
    word.head? ≠ some '+' := by
  intro hplus
  have hdigit := h '+' (List.mem_of_mem_head? hplus)
  rw [isHexDigit, digitValue_plus] at hdigit
  cases hdigit

/-- No word of a line of a data frame has a sign. -/
theorem IsFrameLine.unsigned {line : List Char} (h : IsFrameLine line) :
    ∀ word ∈ words Text.whitespace line, word.head? ≠ some '+' := by
  obtain ⟨id, dlc, data, hwords, hid, -, hdlc, -, hdata⟩ := h
  rw [hwords]
  intro word hword
  rcases List.mem_cons.mp hword with rfl | hword
  · exact not_plus hid.2
  · rcases List.mem_cons.mp hword with rfl | hword
    · apply not_plus
      intro c hc
      rw [List.mem_singleton.mp hc, isHexDigit, hdlc]
      rfl
    · exact not_plus (hdata word hword).2

/-! ## What is accepted -/

theorem hexNumber_iff {bound n : Nat} {word : List Char} {error : String} :
    hexNumber bound word error = .ok n ↔ parse 16 bound word = some n := by
  unfold hexNumber
  cases parse 16 bound word <;> simp

theorem dataByte_iff {word : List Char} :
    (∃ b, dataByte word = .ok b) ↔ HexDigits 2 word ∨ SignedByte word := by
  constructor
  · rintro ⟨b, hb⟩
    unfold dataByte at hb
    split at hb
    · cases hb
    · next hlength =>
      rw [not_not] at hlength
      cases hnumber : hexNumber 256 word "Invalid STN byte" with
      | error e =>
        rw [hnumber] at hb
        cases hb
      | ok n =>
        obtain ⟨body, rfl | rfl, -, hdigits, -⟩ :=
          (parse_iff (by decide) (by decide)).mp (hexNumber_iff.mp hnumber)
        · exact .inl ⟨hlength, hdigits⟩
        · obtain ⟨c, rfl⟩ := List.length_eq_one_iff.mp (Nat.succ.inj hlength)
          exact .inr ⟨c, rfl, hdigits c (List.mem_singleton.mpr rfl)⟩
  · intro h
    have hread {body : List Char} (hword : word = body ∨ word = '+' :: body) (hne : body ≠ [])
        (hdigits : ∀ c ∈ body, (digitValue 16 c).isSome = true) (hshort : body.length ≤ 2)
        (hlength : word.length = 2) : ∃ b, dataByte word = .ok b := by
      have hlt : value 16 body < 256 :=
        Nat.lt_of_lt_of_le (value_lt hdigits) (Nat.pow_le_pow_right (by decide) hshort)
      have hparse : parse 16 256 word = some (value 16 body) :=
        (parse_iff (by decide) (by decide)).mpr ⟨body, hword, hne, hdigits, rfl, hlt⟩
      refine ⟨UInt8.ofNat (value 16 body), ?_⟩
      rw [dataByte, if_neg (not_not.mpr hlength), hexNumber_iff.mpr hparse]
      rfl
    rcases h with ⟨hlength, hdigits⟩ | ⟨c, rfl, hc⟩
    · refine hread (.inl rfl) ?_ hdigits (Nat.le_of_eq hlength) hlength
      rintro rfl
      cases hlength
    · refine hread (.inr rfl) (List.cons_ne_nil c []) ?_ (Nat.le_succ 1) rfl
      intro x hx
      rw [List.mem_singleton.mp hx]
      exact hc

theorem dataBytes_ok {data : List (List Char)}
    (h : ∀ word ∈ data, ∃ b, dataByte word = .ok b) :
    ∃ bytes, data.mapM dataByte = .ok bytes ∧ bytes.length = data.length := by
  induction data with
  | nil => exact ⟨[], rfl, rfl⟩
  | cons word data ih =>
    obtain ⟨⟨b, hb⟩, hrest⟩ := List.forall_mem_cons.mp h
    obtain ⟨bytes, hbytes, hlength⟩ := ih hrest
    refine ⟨b :: bytes, ?_, congrArg (· + 1) hlength⟩
    rw [List.mapM_cons, hb, hbytes]
    rfl

theorem dataBytes_mem {data : List (List Char)} {bytes : List UInt8}
    (h : data.mapM dataByte = .ok bytes) : ∀ word ∈ data, ∃ b, dataByte word = .ok b := by
  induction data generalizing bytes with
  | nil => exact fun word hword => absurd hword List.not_mem_nil
  | cons word data ih =>
    rw [List.mapM_cons] at h
    obtain ⟨b, hb, h⟩ := Program.except_bind_ok h
    obtain ⟨rest, hrest, -⟩ := Program.except_bind_ok h
    exact List.forall_mem_cons.mpr ⟨⟨b, hb⟩, ih hrest⟩

theorem parse_identifier {id : List Char} (h : HexDigits 3 id) :
    parse 16 (2 ^ 32) id = some (value 16 id) ∧ value 16 id < 4096 := by
  have hlt : value 16 id < 16 ^ 3 := h.1 ▸ value_lt h.2
  have hne : id ≠ [] := by
    rintro rfl
    cases h.1
  refine ⟨(parse_iff (by decide) (by decide)).mpr ⟨id, .inl rfl, hne, h.2, rfl, ?_⟩, hlt⟩
  exact Nat.lt_trans hlt (by decide)

theorem parse_one (c : Char) : parse 16 256 [c] = digitValue 16 c := by
  by_cases hplus : c = '+'
  · rw [hplus, digitValue_plus]
    decide
  · have hsign : [c].head? ≠ some '+' := fun h => hplus (Option.some.inj h)
    simp only [parse, if_neg hsign, List.foldlM_cons, List.foldlM_nil, push, Nat.zero_mul,
      Nat.zero_add]
    cases hdigit : digitValue 16 c with
    | none => rfl
    | some d =>
      have hlt := digitValue_lt hdigit
      simp [show d < 256 by omega]

/-- What is left to do with a line that starts with an identifier and a length. -/
theorem frame_of_words {line id dlc : List Char} {data : List (List Char)} {n : Nat}
    (hwords : words Text.whitespace line = id :: dlc :: data) (hid : HexDigits 3 id)
    (hdlc : hexNumber 256 dlc "Invalid STN DLC" = .ok n) :
    frame line =
      if dlc.length ≠ 1 ∨ 8 < n ∨ data.length ≠ n then .error "STN raw DLC/byte count mismatch"
      else (do
        let data ← data.mapM dataByte
        let f : Frame := ⟨UInt32.ofNat (value 16 id), false, false, UInt8.ofNat n, data⟩
        f.validate
        pure (some f)) := by
  have hdigits : ¬(id.length ≠ 3 ∨ ¬ id.all isHexDigit = true) := by
    rw [not_or, not_not, not_not]
    exact ⟨hid.1, List.all_eq_true.mpr hid.2⟩
  have hnumber : hexNumber (2 ^ 32) id "Invalid STN ID" = .ok (value 16 id) :=
    hexNumber_iff.mpr (parse_identifier hid).1
  unfold frame
  rw [hwords]
  dsimp only
  rw [if_neg hdigits, hnumber, hdlc]
  rfl

/-- A frame comes from an identifier of three digits and a length that is read. -/
theorem frame_fields {line : List Char} {f : Frame} (h : frame line = .ok (some f)) :
    ∃ id dlc data, words Text.whitespace line = id :: dlc :: data ∧ HexDigits 3 id ∧
      ∃ n, hexNumber 256 dlc "Invalid STN DLC" = .ok n := by
  unfold frame at h
  cases hwords : words Text.whitespace line with
  | nil =>
    rw [hwords] at h
    cases h
  | cons id fields =>
    rw [hwords] at h
    dsimp only at h
    split at h
    · cases h
    · next hdigits =>
      rw [not_or, not_not, not_not] at hdigits
      cases fields with
      | nil => cases h
      | cons dlc data =>
        obtain ⟨v, -, h⟩ := Program.except_bind_ok h
        obtain ⟨n, hdlc, -⟩ := Program.except_bind_ok h
        exact ⟨id, dlc, data, rfl, ⟨hdigits.1, List.all_eq_true.mp hdigits.2⟩, n, hdlc⟩

theorem validate_standard {id n : Nat} {data : List UInt8} (hid : id < 4096) (hn : n ≤ 8) :
    (Frame.mk (UInt32.ofNat id) false false (UInt8.ofNat n) data).validate = .ok () ↔
      id ≤ 0x7ff ∧ data.length = n := by
  have hlength : (UInt8.ofNat n).toNat = n := by
    rw [UInt8.toNat_ofNat']
    omega
  have hlimit : (0x7ff : UInt32) < UInt32.ofNat id ↔ 0x7ff < id := by
    rw [UInt32.lt_iff_toNat_lt, UInt32.toNat_ofNat']
    change 0x7ff < id % 2 ^ 32 ↔ 0x7ff < id
    omega
  have height : ¬ (8 : UInt8) < UInt8.ofNat n := by
    rw [UInt8.lt_iff_toNat_lt, hlength]
    change ¬ 8 < n
    omega
  unfold Frame.validate
  simp only [Bool.false_eq_true, if_false, hlimit, height, hlength, false_or]
  split_ifs with h
  · simp only [false_iff]
    omega
  · simp only [true_iff]
    omega

/-- A line is read as a frame where it has the form, with any of its bytes signed. -/
theorem frame_iff {line : List Char} :
    (∃ f, frame line = .ok (some f)) ↔
      Shape (fun word => HexDigits 2 word ∨ SignedByte word) line := by
  constructor
  · rintro ⟨f, hf⟩
    obtain ⟨id, dlc, data, hwords, hid, n, hdlc⟩ := frame_fields hf
    rw [frame_of_words hwords hid hdlc] at hf
    split at hf
    · cases hf
    · next hcounts =>
      rw [not_or, not_or, not_not, Nat.not_lt, not_not] at hcounts
      obtain ⟨hone, hn, hlength⟩ := hcounts
      obtain ⟨bytes, hbytes, hf⟩ := Program.except_bind_ok hf
      obtain ⟨u, hvalid, -⟩ := Program.except_bind_ok hf
      obtain ⟨c, rfl⟩ := List.length_eq_one_iff.mp hone
      have hdigit : digitValue 16 c = some n := parse_one c ▸ hexNumber_iff.mp hdlc
      have hvalue := (validate_standard (parse_identifier hid).2 hn).mp hvalid
      exact ⟨id, c, data, hwords, hid, hvalue.1, hlength ▸ hdigit, by omega,
        fun w hw => dataByte_iff.mp (dataBytes_mem hbytes w hw)⟩
  · rintro ⟨id, dlc, data, hwords, hid, hvalue, hdlc, hlength, hdata⟩
    have hnumber : hexNumber 256 [dlc] "Invalid STN DLC" = .ok data.length :=
      hexNumber_iff.mpr ((parse_one dlc).trans hdlc)
    obtain ⟨bytes, hbytes, hcount⟩ := dataBytes_ok fun w hw => dataByte_iff.mpr (hdata w hw)
    let f : Frame := ⟨UInt32.ofNat (value 16 id), false, false, UInt8.ofNat data.length, bytes⟩
    have hvalid : f.validate = .ok () :=
      (validate_standard (parse_identifier hid).2 hlength).mpr ⟨hvalue, hcount⟩
    refine ⟨f, ?_⟩
    rw [frame_of_words hwords hid hnumber, if_neg (by simp; omega), hbytes]
    change (Frame.validate _ >>= _) = _
    rw [hvalid]
    rfl

/-- A line is read as a frame exactly where it is a line of a data frame, unless one of its bytes has
a sign. -/
theorem grammar_iff (line : List Char) :
    ((∃ f, frame line = .ok (some f)) ↔ IsFrameLine line) ↔ ¬ Signed line := by
  rw [frame_iff]
  constructor
  · rintro h ⟨hshape, word, hword, hplus⟩
    exact (h.mp hshape).unsigned word hword hplus
  · intro hunsigned
    constructor
    · intro hshape
      have hnone : ∀ word ∈ words Text.whitespace line, word.head? ≠ some '+' :=
        fun word hword hplus => hunsigned ⟨hshape, word, hword, hplus⟩
      obtain ⟨id, dlc, data, hwords, hid, hvalue, hdlc, hlength, hdata⟩ := hshape
      refine ⟨id, dlc, data, hwords, hid, hvalue, hdlc, hlength, fun word hword => ?_⟩
      rcases hdata word hword with hplain | ⟨c, rfl, -⟩
      · exact hplain
      · exact absurd rfl (hnone ['+', c] (by simp [hwords, hword]))
    · exact fun hline => hline.mono fun word hword => .inl hword

/-! ## How a frame is written -/

def render (f : Frame) : List Char :=
  join ' ' (padded 3 16 f.id.toNat :: digits 16 f.dlc.toNat :: f.data.map fun b => padded 2 16 b.toNat)

example : render ⟨0x7e8, false, false, 3, [2, 0x41, 0]⟩ = "7E8 3 02 41 00".toList := by decide

theorem hexDigits_padded {w n : Nat} (hw : 0 < w) (h : n < 16 ^ w) : HexDigits w (padded w 16 n) :=
  ⟨length_padded (by decide) hw h, fun _ hc => digit_of_mem_padded (by decide) (by decide) hc⟩

theorem isWord_padded (w n : Nat) : IsWord Text.whitespace (padded w 16 n) :=
  ⟨padded_ne_nil w 16 n,
    fun _ hc => Text.digit_not_blank (digit_of_mem_padded (by decide) (by decide) hc)⟩

theorem dataByte_padded (b : UInt8) : dataByte (padded 2 16 b.toNat) = .ok b := by
  have hlength : (padded 2 16 b.toNat).length = 2 := length_padded (by decide) (by decide) b.toNat_lt
  rw [dataByte, if_neg (not_not.mpr hlength),
    hexNumber_iff.mpr (parse_padded (by decide) (by decide) b.toNat_lt 2)]
  change Except.ok (UInt8.ofNat b.toNat) = _
  rw [UInt8.ofNat_toNat]

theorem dataBytes_padded (data : List UInt8) :
    (data.map fun b => padded 2 16 b.toNat).mapM dataByte = .ok data := by
  induction data with
  | nil => rfl
  | cons b data ih =>
    rw [List.map_cons, List.mapM_cons, dataByte_padded, ih]
    rfl

theorem words_render (f : Frame) : words Text.whitespace (render f) =
    padded 3 16 f.id.toNat :: digits 16 f.dlc.toNat :: f.data.map fun b => padded 2 16 b.toNat := by
  apply words_join (by decide)
  intro w hw
  rcases List.mem_cons.mp hw with rfl | hw
  · exact isWord_padded 3 _
  · rcases List.mem_cons.mp hw with rfl | hw
    · exact padded_zero 16 f.dlc.toNat ▸ isWord_padded 0 _
    · obtain ⟨b, -, rfl⟩ := List.mem_map.mp hw
      exact isWord_padded 2 _

/-- A standard data frame comes back from its line. -/
theorem frame_render {f : Frame} (hstandard : f.extended = false) (hdata : f.rtr = false)
    (hvalid : f.validate = .ok ()) : frame (render f) = .ok (some f) := by
  obtain ⟨id, extended, rtr, dlc, data⟩ := f
  dsimp only at hstandard hdata
  subst hstandard hdata
  have hchecks : id.toNat ≤ 0x7ff ∧ dlc.toNat ≤ 8 ∧ data.length = dlc.toNat := by
    simp only [Frame.validate, Bool.false_eq_true, if_false] at hvalid
    split at hvalid
    · cases hvalid
    · next h =>
      rw [not_or, not_or, not_not, UInt32.not_lt, UInt8.not_lt] at h
      exact ⟨UInt32.le_iff_toNat_le.mp h.1, UInt8.le_iff_toNat_le.mp h.2.1, h.2.2⟩
  obtain ⟨hid, hdlc, hlength⟩ := hchecks
  have hdigits : HexDigits 3 (padded 3 16 id.toNat) :=
    hexDigits_padded (by decide) (Nat.lt_of_le_of_lt hid (by decide))
  have hvalue : value 16 (padded 3 16 id.toNat) = id.toNat := by
    have hparse := (parse_identifier hdigits).1
    rw [parse_padded (by decide) (by decide) id.toNat_lt 3] at hparse
    exact (Option.some.inj hparse).symm
  have hnumber : hexNumber 256 (digits 16 dlc.toNat) "Invalid STN DLC" = .ok dlc.toNat :=
    hexNumber_iff.mpr (parse_digits (by decide) (by decide) dlc.toNat_lt)
  have hone : (digits 16 dlc.toNat).length = 1 := by
    rw [digits_eq (by decide), if_pos (by omega)]
    rfl
  have hwords : words Text.whitespace (render ⟨id, false, false, dlc, data⟩) =
      padded 3 16 id.toNat :: digits 16 dlc.toNat :: data.map fun b => padded 2 16 b.toNat :=
    words_render _
  rw [frame_of_words hwords hdigits hnumber, if_neg (by simp [hone, hlength]; omega),
    dataBytes_padded, hvalue, UInt32.ofNat_toNat, UInt8.ofNat_toNat]
  change (Frame.validate _ >>= _) = _
  rw [hvalid]
  rfl

end OpenSaab.Obdlink
