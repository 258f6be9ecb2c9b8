import OpenSaab.Library.Words

/-!
# Encodings of a configuration

`config.rs`: the text of a configuration file in UTF-8 or UTF-16, with or without a byte order mark.
-/

namespace OpenSaab.Config

inductive Encoding
  | utf8
  | utf8Bom
  | utf16Le
  | utf16Be
  deriving DecidableEq, Repr

def utf8Bytes (text : List Char) : List UInt8 := (String.ofList text).toUTF8.toList

/-- The one or two words of a character in UTF-16. -/
def utf16Words (c : Char) : List Nat :=
  let n := c.toNat
  if n < 0x10000 then [n] else [0xd800 + (n - 0x10000) / 0x400, 0xdc00 + (n - 0x10000) % 0x400]

def wordBytes (littleEndian : Bool) (n : Nat) : List UInt8 :=
  if littleEndian then Words.little 2 n else Words.big 2 n

def encode (text : List Char) : Encoding → List UInt8
  | .utf8 => utf8Bytes text
  | .utf8Bom => [0xef, 0xbb, 0xbf] ++ utf8Bytes text
  | .utf16Le => [0xff, 0xfe] ++ (text.flatMap utf16Words).flatMap (wordBytes true)
  | .utf16Be => [0xfe, 0xff] ++ (text.flatMap utf16Words).flatMap (wordBytes false)

def encodingOf (bytes : List UInt8) : Encoding :=
  match bytes with
  | 0xff :: 0xfe :: _ => .utf16Le
  | 0xfe :: 0xff :: _ => .utf16Be
  | 0xef :: 0xbb :: 0xbf :: _ => .utf8Bom
  | _ => .utf8

/-- Words of two bytes, unless a byte is left over. -/
def pairs (littleEndian : Bool) : List UInt8 → Option (List Nat)
  | [] => some []
  | [_] => none
  | a :: b :: rest =>
    (pairs littleEndian rest).map
      ((if littleEndian then a.toNat + 256 * b.toNat else 256 * a.toNat + b.toNat) :: ·)

/-- `String::from_utf16`. -/
def ofUtf16 : List Nat → Option (List Char)
  | [] => some []
  | n :: rest =>
    if n < 0xd800 ∨ 0xdfff < n then (ofUtf16 rest).map (Char.ofNat n :: ·)
    else
      match rest with
      | m :: rest =>
        if n < 0xdc00 ∧ 0xdc00 ≤ m ∧ m < 0xe000 then
          (ofUtf16 rest).map (Char.ofNat (0x10000 + (n - 0xd800) * 0x400 + (m - 0xdc00)) :: ·)
        else none
      | [] => none

def decodeUtf8 (bytes : List UInt8) : Except String (List Char) :=
  match String.fromUTF8? ⟨bytes.toArray⟩ with
  | some text => .ok text.toList
  | none => .error "invalid utf-8 sequence"

def decodeUtf16 (littleEndian : Bool) (bytes : List UInt8) : Except String (List Char) :=
  match pairs littleEndian bytes with
  | none => .error "Truncated UTF-16 configuration"
  | some words =>
    match ofUtf16 words with
    | some text => .ok text
    | none => .error "invalid utf-16: lone surrogate found"

def decode (bytes : List UInt8) : Except String (List Char × Encoding) := do
  let encoding := encodingOf bytes
  let text ← match encoding with
    | .utf16Le => decodeUtf16 true (bytes.drop 2)
    | .utf16Be => decodeUtf16 false (bytes.drop 2)
    | .utf8Bom => decodeUtf8 (bytes.drop 3)
    | .utf8 => decodeUtf8 bytes
  pure (text, encoding)

example : decode (encode "a🚗".toList .utf16Be) = .ok ("a🚗".toList, .utf16Be) := by
  decide +kernel

end OpenSaab.Config
