import OpenSaab.Can.Frame
import OpenSaab.Library.Lines

/-!
# The bytes of the adapter

`adapters/stn_parser.rs`: lines and prompts as they come out of the bytes, and the frame that a line
stands for. A line is a list of characters.
-/

namespace OpenSaab.Obdlink

open Can Lines

def maxLine : Nat := 256

inductive Item where
  | line (s : List Char)
  | prompt
  deriving DecidableEq

def Item.isPrompt : Item → Bool
  | .line _ => false
  | .prompt => true

/-- The line as far as it has come. -/
structure Parser where
  line : List Char
  deriving DecidableEq

def Parser.default : Parser := ⟨[]⟩

namespace Parser

/-- The line that is at its end, unless it is empty. -/
def take (p : Parser) : List Item := if p.line = [] then [] else [.line p.line]

def push (p : Parser) (b : UInt8) : Except String (List Item) × Parser :=
  if b = 0x3e then (.ok (p.take ++ [.prompt]), default)
  else if b = 0x0d ∨ b = 0x0a then (.ok p.take, default)
  else if 0x20 ≤ b ∧ b ≤ 0x7e then
    if maxLine ≤ p.line.length then (.error "STN raw receive line exceeded limit", p)
    else (.ok [], ⟨p.line ++ [Char.ofNat b.toNat]⟩)
  else (.error "STN raw receive contained non-ASCII data", p)

/-- The items of the bytes, and what is left. After an error the items are lost. -/
def feed (p : Parser) : List UInt8 → Except String (List Item) × Parser
  | [] => (.ok [], p)
  | b :: bs =>
    match p.push b with
    | (.error e, p) => (.error e, p)
    | (.ok items, p) =>
      let r := p.feed bs
      (r.1.map (items ++ ·), r.2)

end Parser

/-! ## Frames -/

def isHexDigit (c : Char) : Bool := (digitValue 16 c).isSome

/-- `from_str_radix(16)` of a word below `bound`. -/
def hexNumber (bound : Nat) (word : List Char) (error : String) : Except String Nat :=
  match parse 16 bound word with
  | none => .error error
  | some n => .ok n

def dataByte (word : List Char) : Except String UInt8 :=
  if word.length ≠ 2 then .error "Invalid STN byte"
  else (hexNumber 256 word "Invalid STN byte").map UInt8.ofNat

/-- The frame of a line that starts with an identifier. -/
def frame (line : List Char) : Except String (Option Frame) :=
  match words Text.whitespace line with
  | [] => .ok none
  | id :: fields =>
    if id.length ≠ 3 ∨ ¬ id.all isHexDigit then .ok none
    else
      match fields with
      | [] => .error "STN raw frame missing DLC"
      | dlc :: data => do
        let id ← hexNumber (2 ^ 32) id "Invalid STN ID"
        let n ← hexNumber 256 dlc "Invalid STN DLC"
        if dlc.length ≠ 1 ∨ 8 < n ∨ data.length ≠ n then .error "STN raw DLC/byte count mismatch"
        else do
          let data ← data.mapM dataByte
          let f : Frame := ⟨UInt32.ofNat id, false, false, UInt8.ofNat n, data⟩
          f.validate
          pure (some f)

example : frame "7E8 3 02 41 00".toList = .ok (some ⟨0x7e8, false, false, 3, [2, 0x41, 0]⟩) := by
  decide +kernel

end OpenSaab.Obdlink
