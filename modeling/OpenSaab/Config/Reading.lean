import OpenSaab.Config.Encoding
import OpenSaab.Library.Programs

/-!
# Encodings and back

What is read of the bytes of a text, and what is written of the text that was read.
-/

namespace OpenSaab.Config

/-! ## UTF-8 -/

theorem toList_loop (a : Array UInt8) (i : Nat) (front : List UInt8) :
    ByteArray.toList.loop ⟨a⟩ i front = front.reverse ++ a.toList.drop i := by
  fun_induction ByteArray.toList.loop ⟨a⟩ i front with
  | case1 i front h ih =>
    have hi : i < a.toList.length := h
    have hget : ByteArray.get! ⟨a⟩ i = a.toList[i] := getElem!_pos a i h
    rw [ih, hget, List.reverse_cons, List.append_assoc, List.singleton_append,
      ← List.drop_eq_getElem_cons hi]
  | case2 i front h =>
    have hi : a.toList.length ≤ i := Nat.le_of_not_lt h
    rw [List.drop_of_length_le hi, List.append_nil]

theorem toList_bytes (a : ByteArray) : a.toList = a.data.toList := toList_loop a.data 0 []

theorem utf8Bytes_eq (text : List Char) : utf8Bytes text = text.flatMap String.utf8EncodeChar := by
  unfold utf8Bytes
  rw [String.toUTF8_eq_toByteArray, String.toByteArray_ofList, toList_bytes]
  exact List.toList_data_toByteArray

theorem utf8Bytes_cons (c : Char) (text : List Char) :
    utf8Bytes (c :: text) = String.utf8EncodeChar c ++ utf8Bytes text := by
  rw [utf8Bytes_eq, utf8Bytes_eq, List.flatMap_cons]

theorem ofBytes_utf8Bytes (text : List Char) :
    (⟨(utf8Bytes text).toArray⟩ : ByteArray) = (String.ofList text).toUTF8 := by
  unfold utf8Bytes
  rw [toList_bytes, Array.toArray_toList]

theorem decodeUtf8_iff {bytes : List UInt8} {text : List Char} :
    decodeUtf8 bytes = .ok text ↔ utf8Bytes text = bytes := by
  unfold decodeUtf8 String.fromUTF8?
  constructor
  · intro h
    split at h
    · next s hs =>
      split at hs
      · next hvalid =>
        obtain rfl := Option.some.inj hs
        obtain rfl := Except.ok.inj h
        unfold utf8Bytes
        rw [String.ofList_toList, toList_bytes]
        rfl
      · cases hs
    · cases h
  · rintro rfl
    have hvalid : ByteArray.IsValidUTF8 ⟨(utf8Bytes text).toArray⟩ := by
      rw [ofBytes_utf8Bytes]
      exact (String.ofList text).isValidUTF8
    rw [dif_pos hvalid]
    have hsame : String.fromUTF8 ⟨(utf8Bytes text).toArray⟩ hvalid = String.ofList text := by
      refine String.toByteArray_inj.mp ?_
      exact ofBytes_utf8Bytes text
    rw [hsame]
    dsimp only
    rw [String.toList_ofList]

theorem val_lt (c : Char) : c.val.toNat < 0x110000 := by
  have hvalid : c.val.toNat < 0xd800 ∨ 0xdfff < c.val.toNat ∧ c.val.toNat < 0x110000 := c.valid
  omega

theorem toNat_of_byte {n : Nat} (h : n < 256) : (UInt8.ofNat n).toNat = n := by
  rw [UInt8.toNat_ofNat']
  exact Nat.mod_eq_of_lt h

theorem toNat_byte {n m : Nat} (hn : n < 256) (hm : m < 256) (h : UInt8.ofNat n = UInt8.ofNat m) :
    n = m := by
  have hnat := congrArg UInt8.toNat h
  rwa [toNat_of_byte hn, toNat_of_byte hm] at hnat

/-- No character is written with a first byte this high. -/
theorem utf8_head {c : Char} {b : UInt8} {rest bytes : List UInt8}
    (h : String.utf8EncodeChar c ++ rest = b :: bytes) : b.toNat < 0xf8 := by
  have hc : c.val.toNat < 0x110000 := val_lt c
  unfold String.utf8EncodeChar at h
  dsimp only at h
  split at h
  · obtain rfl := (List.cons.inj h).1
    rw [toNat_of_byte (by omega)]
    omega
  · split at h
    · obtain rfl := (List.cons.inj h).1
      rw [toNat_of_byte (by omega)]
      omega
    · split at h <;> obtain rfl := (List.cons.inj h).1
      · rw [toNat_of_byte (by omega)]
        omega
      · rw [toNat_of_byte (by omega)]
        omega

/-- The byte order mark. -/
def mark : Char := '\uFEFF'

/-- Only the mark is written with the bytes of the mark. -/
theorem utf8_mark {c : Char} {rest bytes : List UInt8}
    (h : String.utf8EncodeChar c ++ rest = 0xef :: 0xbb :: 0xbf :: bytes) : c = mark := by
  have hc : c.val.toNat < 0x110000 := val_lt c
  unfold String.utf8EncodeChar at h
  dsimp only at h
  split at h
  · have hfirst := toNat_byte (m := 0xef) (by omega) (by omega) (List.cons.inj h).1
    omega
  · split at h
    · have hfirst := toNat_byte (m := 0xef) (by omega) (by omega) (List.cons.inj h).1
      omega
    · split at h
      · obtain ⟨hfirst, h⟩ := List.cons.inj h
        obtain ⟨hsecond, h⟩ := List.cons.inj h
        obtain ⟨hthird, -⟩ := List.cons.inj h
        have hfirst := toNat_byte (m := 0xef) (by omega) (by omega) hfirst
        have hsecond := toNat_byte (m := 0xbb) (by omega) (by omega) hsecond
        have hthird := toNat_byte (m := 0xbf) (by omega) (by omega) hthird
        have hvalue : c.val.toNat = mark.val.toNat := by
          change _ = 0xfeff
          omega
        exact Char.ext (UInt32.toNat_inj.mp hvalue)
      · have hfirst := toNat_byte (m := 0xef) (by omega) (by omega) (List.cons.inj h).1
        omega

/-! ## UTF-16 -/

theorem toNat_ofNat {n : Nat} (h : n < 0xd800 ∨ 0xdfff < n ∧ n < 0x110000) :
    (Char.ofNat n).toNat = n := by
  have hvalid : n.isValidChar := h
  unfold Char.ofNat
  rw [dif_pos hvalid]
  exact UInt32.toNat_ofNatLT

theorem char_range (c : Char) : c.toNat < 0xd800 ∨ 0xdfff < c.toNat ∧ c.toNat < 0x110000 := c.valid

theorem utf16Words_lt {c : Char} {n : Nat} (h : n ∈ utf16Words c) : n < 0x10000 := by
  have hc := char_range c
  unfold utf16Words at h
  dsimp only at h
  split at h
  · have hn := List.mem_singleton.mp h
    omega
  · rcases List.mem_cons.mp h with hn | h
    · omega
    · have hn := List.mem_singleton.mp h
      omega

theorem ofUtf16_single {n : Nat} {rest : List Nat} (h : n < 0xd800 ∨ 0xdfff < n) :
    ofUtf16 (n :: rest) = (ofUtf16 rest).map (Char.ofNat n :: ·) := by
  rw [ofUtf16.eq_def]
  dsimp only
  rw [if_pos h]

theorem ofUtf16_pair {n m : Nat} {rest : List Nat} (hn : ¬ (n < 0xd800 ∨ 0xdfff < n)) :
    ofUtf16 (n :: m :: rest) = if n < 0xdc00 ∧ 0xdc00 ≤ m ∧ m < 0xe000 then
      (ofUtf16 rest).map (Char.ofNat (0x10000 + (n - 0xd800) * 0x400 + (m - 0xdc00)) :: ·)
      else none := by
  rw [ofUtf16.eq_def]
  dsimp only
  rw [if_neg hn]

theorem ofUtf16_words (c : Char) (rest : List Nat) :
    ofUtf16 (utf16Words c ++ rest) = (ofUtf16 rest).map (c :: ·) := by
  have hc := char_range c
  unfold utf16Words
  dsimp only
  split
  · rw [List.singleton_append, ofUtf16_single (by omega), Char.ofNat_toNat]
  · have hback : 0x10000 + (0xd800 + (c.toNat - 0x10000) / 0x400 - 0xd800) * 0x400 +
        (0xdc00 + (c.toNat - 0x10000) % 0x400 - 0xdc00) = c.toNat := by omega
    rw [List.cons_append, List.singleton_append, ofUtf16_pair (by omega), if_pos (by omega), hback,
      Char.ofNat_toNat]

theorem ofUtf16_utf16Words (text : List Char) : ofUtf16 (text.flatMap utf16Words) = some text := by
  induction text with
  | nil => rfl
  | cons c text ih => rw [List.flatMap_cons, ofUtf16_words, ih, Option.map_some]

theorem utf16Words_short {n : Nat} (h : n < 0xd800 ∨ 0xdfff < n) (hn : n < 0x10000) :
    utf16Words (Char.ofNat n) = [n] := by
  have hvalue : (Char.ofNat n).toNat = n := toNat_ofNat (by omega)
  unfold utf16Words
  rw [hvalue, if_pos hn]

theorem utf16Words_pair {n m : Nat} (hn : 0xd800 ≤ n ∧ n < 0xdc00) (hm : 0xdc00 ≤ m ∧ m < 0xe000) :
    utf16Words (Char.ofNat (0x10000 + (n - 0xd800) * 0x400 + (m - 0xdc00))) = [n, m] := by
  have hvalue := toNat_ofNat (n := 0x10000 + (n - 0xd800) * 0x400 + (m - 0xdc00)) (by omega)
  have hhigh :
      0xd800 + (0x10000 + (n - 0xd800) * 0x400 + (m - 0xdc00) - 0x10000) / 0x400 = n := by omega
  have hlow :
      0xdc00 + (0x10000 + (n - 0xd800) * 0x400 + (m - 0xdc00) - 0x10000) % 0x400 = m := by omega
  unfold utf16Words
  rw [hvalue, if_neg (by omega), hhigh, hlow]

/-- Words are read as the characters that are written with them. -/
theorem utf16Words_of_read {words : List Nat} (hwords : ∀ n ∈ words, n < 0x10000) {text : List Char}
    (h : ofUtf16 words = some text) : text.flatMap utf16Words = words := by
  induction words using ofUtf16.induct generalizing text with
  | case1 =>
    rw [ofUtf16] at h
    obtain rfl := Option.some.inj h
    rfl
  | case2 n rest hn ih =>
    obtain ⟨hlt, hrest⟩ := List.forall_mem_cons.mp hwords
    rw [ofUtf16_single hn] at h
    obtain ⟨tail, htail, rfl⟩ := Option.map_eq_some_iff.mp h
    rw [List.flatMap_cons, ih hrest htail, utf16Words_short hn hlt]
    rfl
  | case3 n hn m rest hpair ih =>
    obtain ⟨-, hrest⟩ := List.forall_mem_cons.mp hwords
    obtain ⟨-, hrest⟩ := List.forall_mem_cons.mp hrest
    rw [ofUtf16_pair hn, if_pos hpair] at h
    obtain ⟨tail, htail, rfl⟩ := Option.map_eq_some_iff.mp h
    rw [List.flatMap_cons, ih hrest htail, utf16Words_pair (by omega) hpair.2]
    rfl
  | case4 n hn m rest hpair =>
    rw [ofUtf16_pair hn, if_neg hpair] at h
    cases h
  | case5 n hn =>
    rw [ofUtf16.eq_def] at h
    dsimp only at h
    rw [if_neg hn] at h
    cases h

theorem wordBytes_eq (littleEndian : Bool) (n : Nat) : wordBytes littleEndian n =
    if littleEndian then [UInt8.ofNat n, UInt8.ofNat (n / 256)]
      else [UInt8.ofNat (n / 256), UInt8.ofNat n] := by
  cases littleEndian <;> rfl

theorem pairs_words (littleEndian : Bool) {words : List Nat} (h : ∀ n ∈ words, n < 0x10000) :
    pairs littleEndian (words.flatMap (wordBytes littleEndian)) = some words := by
  induction words with
  | nil => rfl
  | cons n words ih =>
    obtain ⟨hn, hrest⟩ := List.forall_mem_cons.mp h
    have hlow : (UInt8.ofNat n).toNat = n % 256 := UInt8.toNat_ofNat'
    have hhigh : (UInt8.ofNat (n / 256)).toNat = n / 256 := toNat_of_byte (by omega)
    rw [List.flatMap_cons, wordBytes_eq]
    cases littleEndian with
    | true =>
      rw [if_pos rfl, List.cons_append, List.singleton_append, pairs, ih hrest, Option.map_some,
        if_pos rfl, hlow, hhigh, Nat.mod_add_div]
    | false =>
      rw [if_neg Bool.false_ne_true, List.cons_append, List.singleton_append, pairs, ih hrest,
        Option.map_some, if_neg Bool.false_ne_true, hlow, hhigh, Nat.div_add_mod]

theorem words_of_pairs {littleEndian : Bool} {bytes : List UInt8} {words : List Nat}
    (h : pairs littleEndian bytes = some words) :
    words.flatMap (wordBytes littleEndian) = bytes ∧ ∀ n ∈ words, n < 0x10000 := by
  induction bytes using pairs.induct generalizing words with
  | case1 =>
    rw [pairs] at h
    obtain rfl := Option.some.inj h
    exact ⟨rfl, nofun⟩
  | case2 => cases h
  | case3 a b rest ih =>
    rw [pairs] at h
    obtain ⟨tail, htail, rfl⟩ := Option.map_eq_some_iff.mp h
    obtain ⟨hbytes, hlt⟩ := ih htail
    have ha := a.toNat_lt
    have hb := b.toNat_lt
    rw [List.flatMap_cons, wordBytes_eq, hbytes]
    cases littleEndian with
    | true =>
      rw [if_pos rfl, if_pos rfl]
      have hlow : UInt8.ofNat (a.toNat + 256 * b.toNat) = a := by
        refine UInt8.toNat_inj.mp ?_
        rw [UInt8.toNat_ofNat']
        omega
      have hhigh : UInt8.ofNat ((a.toNat + 256 * b.toNat) / 256) = b := by
        refine UInt8.toNat_inj.mp ?_
        rw [UInt8.toNat_ofNat']
        omega
      rw [hlow, hhigh]
      exact ⟨rfl, List.forall_mem_cons.mpr ⟨by omega, hlt⟩⟩
    | false =>
      rw [if_neg Bool.false_ne_true, if_neg Bool.false_ne_true]
      have hlow : UInt8.ofNat (256 * a.toNat + b.toNat) = b := by
        refine UInt8.toNat_inj.mp ?_
        rw [UInt8.toNat_ofNat']
        omega
      have hhigh : UInt8.ofNat ((256 * a.toNat + b.toNat) / 256) = a := by
        refine UInt8.toNat_inj.mp ?_
        rw [UInt8.toNat_ofNat']
        omega
      rw [hlow, hhigh]
      exact ⟨rfl, List.forall_mem_cons.mpr ⟨by omega, hlt⟩⟩

theorem decodeUtf16_iff {littleEndian : Bool} {bytes : List UInt8} {text : List Char} :
    decodeUtf16 littleEndian bytes = .ok text ↔
      (text.flatMap utf16Words).flatMap (wordBytes littleEndian) = bytes := by
  unfold decodeUtf16
  constructor
  · intro h
    split at h
    · cases h
    · next words hwords =>
      split at h
      · next text' htext =>
        obtain rfl := Except.ok.inj h
        obtain ⟨hbytes, hlt⟩ := words_of_pairs hwords
        rw [utf16Words_of_read hlt htext, hbytes]
      · cases h
  · rintro rfl
    have hlt : ∀ n ∈ text.flatMap utf16Words, n < 0x10000 := by
      intro n hn
      obtain ⟨c, -, hc⟩ := List.mem_flatMap.mp hn
      exact utf16Words_lt hc
    rw [pairs_words littleEndian hlt]
    dsimp only
    rw [ofUtf16_utf16Words]

/-! ## Files -/

theorem utf8Bytes_mark (text : List Char) :
    utf8Bytes (mark :: text) = 0xef :: 0xbb :: 0xbf :: utf8Bytes text := by
  rw [utf8Bytes_cons]
  rfl

/-- A text in UTF-8 is taken for one without a mark, unless it begins with one. -/
theorem encodingOf_utf8Bytes (text : List Char) :
    encodingOf (utf8Bytes text) = if text.head? = some mark then .utf8Bom else .utf8 := by
  cases text with
  | nil =>
    rw [utf8Bytes_eq]
    rfl
  | cons c text =>
    by_cases hc : c = mark
    · subst hc
      rw [utf8Bytes_mark, List.head?_cons, if_pos rfl]
      rfl
    · rw [List.head?_cons, if_neg (fun h => hc (Option.some.inj h)), utf8Bytes_cons]
      unfold encodingOf
      split
      · next h => exact absurd (utf8_head h) (by decide)
      · next h => exact absurd (utf8_head h) (by decide)
      · next h => exact absurd (utf8_mark h) hc
      · rfl

theorem encodingOf_mark (bytes : List UInt8) :
    match encodingOf bytes with
    | .utf16Le => bytes = [0xff, 0xfe] ++ bytes.drop 2
    | .utf16Be => bytes = [0xfe, 0xff] ++ bytes.drop 2
    | .utf8Bom => bytes = [0xef, 0xbb, 0xbf] ++ bytes.drop 3
    | .utf8 => True := by
  fun_cases encodingOf bytes <;> trivial

theorem decode_encoding {bytes : List UInt8} {text : List Char} {encoding : Encoding}
    (h : decode bytes = .ok (text, encoding)) : encoding = encodingOf bytes := by
  unfold decode at h
  generalize encodingOf bytes = found at h ⊢
  cases found <;>
    (obtain ⟨_, -, h⟩ := Program.except_bind_ok h
     exact (Prod.mk.inj (Except.ok.inj h)).2.symm)

/-- Bytes that are read are those of the text in the encoding they were read in. -/
theorem encode_decode {bytes : List UInt8} {text : List Char} {encoding : Encoding}
    (h : decode bytes = .ok (text, encoding)) : encode text encoding = bytes := by
  have hmark := encodingOf_mark bytes
  unfold decode at h
  generalize encodingOf bytes = found at h hmark
  cases found with
  | utf16Le =>
    obtain ⟨text', htext, h⟩ := Program.except_bind_ok h
    obtain ⟨rfl, rfl⟩ := Prod.mk.inj (Except.ok.inj h)
    exact (congrArg ([0xff, 0xfe] ++ ·) (decodeUtf16_iff.mp htext)).trans hmark.symm
  | utf16Be =>
    obtain ⟨text', htext, h⟩ := Program.except_bind_ok h
    obtain ⟨rfl, rfl⟩ := Prod.mk.inj (Except.ok.inj h)
    exact (congrArg ([0xfe, 0xff] ++ ·) (decodeUtf16_iff.mp htext)).trans hmark.symm
  | utf8Bom =>
    obtain ⟨text', htext, h⟩ := Program.except_bind_ok h
    obtain ⟨rfl, rfl⟩ := Prod.mk.inj (Except.ok.inj h)
    exact (congrArg ([0xef, 0xbb, 0xbf] ++ ·) (decodeUtf8_iff.mp htext)).trans hmark.symm
  | utf8 =>
    obtain ⟨text', htext, h⟩ := Program.except_bind_ok h
    obtain ⟨rfl, rfl⟩ := Prod.mk.inj (Except.ok.inj h)
    exact decodeUtf8_iff.mp htext

/-- What is written is read back, unless it is in UTF-8 without a mark and the text begins with
one. -/
theorem decode_encode (text : List Char) (encoding : Encoding) :
    decode (encode text encoding) = .ok (text, encoding) ↔
      ¬ (encoding = .utf8 ∧ text.head? = some mark) := by
  cases encoding with
  | utf16Le =>
    have htext : decodeUtf16 true _ = .ok text := decodeUtf16_iff.mpr rfl
    refine iff_of_true ?_ (by simp)
    exact congrArg (· >>= fun text => pure (text, Encoding.utf16Le)) htext
  | utf16Be =>
    have htext : decodeUtf16 false _ = .ok text := decodeUtf16_iff.mpr rfl
    refine iff_of_true ?_ (by simp)
    exact congrArg (· >>= fun text => pure (text, Encoding.utf16Be)) htext
  | utf8Bom =>
    have htext : decodeUtf8 (utf8Bytes text) = .ok text := decodeUtf8_iff.mpr rfl
    refine iff_of_true ?_ (by simp)
    exact congrArg (· >>= fun text => pure (text, Encoding.utf8Bom)) htext
  | utf8 =>
    change decode (utf8Bytes text) = _ ↔ _
    have htext : decodeUtf8 (utf8Bytes text) = .ok text := decodeUtf8_iff.mpr rfl
    constructor
    · rintro h ⟨-, hmark⟩
      have hencoding := decode_encoding h
      rw [encodingOf_utf8Bytes, if_pos hmark] at hencoding
      cases hencoding
    · intro h
      have hmark : text.head? ≠ some mark := fun hmark => h ⟨rfl, hmark⟩
      unfold decode
      rw [encodingOf_utf8Bytes, if_neg hmark]
      exact congrArg (· >>= fun text => pure (text, Encoding.utf8)) htext

end OpenSaab.Config
