import Mathlib.Data.List.DropRight
import Mathlib.Data.List.TakeWhile
import OpenSaab.Library.Lines

/-!
# Text

Formatted numbers, and white space.
-/

namespace OpenSaab.Text

/-- `char::is_whitespace`. -/
def whitespace (c : Char) : Bool :=
  let n := c.toNat
  9 ≤ n && n ≤ 13 || 0x2000 ≤ n && n ≤ 0x200a ||
    [0x20, 0x85, 0xa0, 0x1680, 0x2028, 0x2029, 0x202f, 0x205f, 0x3000].contains n

instance instLawfulBEqChars : LawfulBEq (List Char) := inferInstance

/-- A text that is written out is checked one character after the other. -/
theorem forall_of_all {P : Char → Prop} [DecidablePred P] {s : List Char}
    (h : (s.all fun c => decide (P c)) = true) : ∀ c ∈ s, P c :=
  fun c hc => of_decide_eq_true (List.all_eq_true.mp h c hc)

theorem digit_not_blank {c : Char} (h : (Lines.digitValue 16 c).isSome = true) :
    whitespace c = false := by
  have hall : ∀ n < 128, (Lines.digitValue 16 (Char.ofNat n)).isSome = true →
      whitespace (Char.ofNat n) = false := by decide
  have hc := hall c.toNat (Lines.digit_ascii h)
  rw [Char.ofNat_toNat] at hc
  exact hc h

def trim (s : List Char) : List Char :=
  ((s.dropWhile whitespace).reverse.dropWhile whitespace).reverse

def stripReturn (line : List Char) : List Char := if line.getLast? = some '\r' then line.dropLast else line

/-- `str::lines`: the last line need not be ended. -/
def lines (s : List Char) : List (List Char) :=
  let parts := s.splitOn '\n'
  parts.dropLast.map stripReturn ++ parts.getLast?.toList.filter (· ≠ [])

def hexDigit (upper : Bool) (n : Nat) : Char :=
  if n < 10 then Char.ofNat (48 + n) else Char.ofNat ((if upper then 55 else 87) + n)

/-- `{:02X}`. -/
def hexUpper (b : UInt8) : String :=
  String.ofList [hexDigit true (b.toNat / 16), hexDigit true (b.toNat % 16)]

theorem hexDigit_inj {m n : Nat} (hm : m < 16) (hn : n < 16)
    (h : hexDigit true m = hexDigit true n) : m = n := by
  have hall : ∀ m n : Fin 16, hexDigit true m = hexDigit true n → m = n := by decide
  exact Fin.mk.inj_iff.mp (hall ⟨m, hm⟩ ⟨n, hn⟩ h)

theorem hexUpper_toList (b : UInt8) :
    (hexUpper b).toList = [hexDigit true (b.toNat / 16), hexDigit true (b.toNat % 16)] := by
  simp [hexUpper]

/-- `{:#04x}`. -/
def hexPrefixed (b : UInt8) : String :=
  String.ofList ['0', 'x', hexDigit false (b.toNat / 16), hexDigit false (b.toNat % 16)]

/-- `{:02x}`. -/
def hexLower (b : UInt8) : String :=
  String.ofList [hexDigit false (b.toNat / 16), hexDigit false (b.toNat % 16)]

/-- `{:#010x}`. -/
def hexWord (n : UInt32) : String :=
  "0x" ++ hexLower (n >>> 24).toUInt8 ++ hexLower (n >>> 16).toUInt8 ++ hexLower (n >>> 8).toUInt8 ++
    hexLower n.toUInt8

/-- `{:03X}`. -/
def hexId (n : UInt32) : String :=
  let digits := (Nat.toDigits 16 n.toNat).map Char.toUpper
  String.ofList (List.replicate (3 - digits.length) '0' ++ digits)

/-- `{:02x?}` of a list of bytes. -/
def hexList (bytes : List UInt8) : String := "[" ++ ", ".intercalate (bytes.map hexLower) ++ "]"

/-- Bytes in upper case, with a blank between them. -/
def hexBytes (bytes : List UInt8) : String := " ".intercalate (bytes.map hexUpper)

example : hexBytes [0x0a, 0xff, 0x30] = "0A FF 30" := by decide +kernel

/-! ## Trimmed text -/

/-- No white space at either end. -/
structure Trimmed (s : List Char) : Prop where
  head : ∀ c, s.head? = some c → whitespace c = false
  last : ∀ c, s.getLast? = some c → whitespace c = false

def Blank (s : List Char) : Prop := ∀ c ∈ s, whitespace c = true

theorem Blank.reverse {s : List Char} (h : Blank s) : Blank s.reverse :=
  fun c hc => h c (List.mem_reverse.mp hc)

theorem dropWhile_blank {a s : List Char} (ha : Blank a)
    (hs : ∀ c, s.head? = some c → whitespace c = false) : (a ++ s).dropWhile whitespace = s := by
  rw [List.dropWhile_append_of_pos ha]
  cases s with
  | nil => rfl
  | cons c s =>
    rw [List.dropWhile_cons_of_neg]
    rw [hs c rfl]
    exact Bool.false_ne_true

theorem takeWhile_blank {a s : List Char} (ha : Blank a)
    (hs : ∀ c, s.head? = some c → whitespace c = false) : (a ++ s).takeWhile whitespace = a := by
  rw [List.takeWhile_append_of_pos ha]
  cases s with
  | nil => rw [List.takeWhile_nil, List.append_nil]
  | cons c s =>
    rw [List.takeWhile_cons_of_neg, List.append_nil]
    rw [hs c rfl]
    exact Bool.false_ne_true

theorem trim_padded {a s b : List Char} (ha : Blank a) (hs : Trimmed s) (hb : Blank b) :
    trim (a ++ s ++ b) = s := by
  unfold trim
  by_cases hne : s = []
  · subst hne
    have hall : Blank (a ++ [] ++ b) := by
      intro c hc
      rcases List.mem_append.mp hc with h | h
      · exact ha c (by simpa using h)
      · exact hb c h
    rw [List.dropWhile_eq_nil_iff.mpr hall]
    rfl
  · have hhead : ∀ c, (s ++ b).head? = some c → whitespace c = false := by
      intro c hc
      rw [List.head?_append_of_ne_nil _ hne] at hc
      exact hs.head c hc
    have hlast : ∀ c, s.reverse.head? = some c → whitespace c = false := by
      intro c hc
      rw [List.head?_reverse] at hc
      exact hs.last c hc
    rw [List.append_assoc, dropWhile_blank ha hhead, List.reverse_append,
      dropWhile_blank hb.reverse hlast, List.reverse_reverse]

theorem blank_takeWhile (s : List Char) : Blank (s.takeWhile whitespace) :=
  fun _ hc => List.mem_takeWhile_imp hc

theorem head_dropWhile {s : List Char} {c : Char} (h : (s.dropWhile whitespace).head? = some c) :
    whitespace c = false := by
  have hnot := List.head?_dropWhile_not whitespace s
  rw [h] at hnot
  exact hnot

theorem trimmed_trim (s : List Char) : Trimmed (trim s) := by
  constructor
  · intro c hc
    obtain ⟨rest, hrest⟩ := List.rdropWhile_prefix whitespace (s.dropWhile whitespace)
    have hne : trim s ≠ [] := by
      intro hnil
      rw [hnil] at hc
      cases hc
    refine head_dropWhile (s := s) ?_
    rw [← hrest]
    exact (List.head?_append_of_ne_nil _ hne).trans hc
  · intro c hc
    unfold trim at hc
    rw [List.getLast?_reverse] at hc
    exact head_dropWhile hc

theorem Trimmed.trim {s : List Char} (h : Trimmed s) : Text.trim s = s := by
  have hpad := trim_padded (a := []) (b := []) nofun h nofun
  rwa [List.nil_append, List.append_nil] at hpad

/-- What is left after the white space in front, with the white space at the end. -/
theorem trim_append_trailing (s : List Char) : Text.trim s ++
    (s.dropWhile whitespace).rtakeWhile whitespace = s.dropWhile whitespace :=
  List.rdropWhile_append_rtakeWhile

end OpenSaab.Text
