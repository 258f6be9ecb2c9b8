import OpenSaab.Library.Lines
import OpenSaab.Library.Words
import Mathlib.Tactic.SplitIfs

/-!
# The extracts of the card

`firmware_display.rs`: the tables, the strings and the parameters that the firmware of the card
describes, and how a value is written by them.
-/

namespace OpenSaab.Display

open Lines

/-! ## The card -/

/-- A number of `w` bytes, or nothing beyond the end. -/
def field (card : List UInt8) (p w : Nat) : Option Nat :=
  if p + w ≤ card.length then some (Words.ofBig ((card.drop p).take w)) else none

def c16 (card : List UInt8) (p : Nat) : Option Nat := field card p 2

def c32 (card : List UInt8) (p : Nat) : Option Nat := field card p 4

structure Table where
  offset : Nat
  rows : Nat
  deriving DecidableEq, Repr

/-- A table with rows of this width, where the file says so and has room for it. -/
def tableAt (card : List UInt8) (base finish p width : Nat) : Option Table := do
  let offset := base + (← c32 card p)
  let rows ← c32 card (p + 6)
  if (← c16 card (p + 4)) ≠ width ∨ finish < offset ∨ finish - offset < rows * width then none
  else some ⟨offset, rows⟩

def tables (card : List UInt8) (file : Nat × Nat) (widths : List Nat) : Option (List Table) := do
  let (base, size) := file
  let finish := base + size
  if card.length < finish then none
  else if (← c32 card base) ≠ widths.length ∨ finish < base + 4 + 10 * widths.length then none
  else widths.zipIdx.mapM fun w => tableAt card base finish (base + 4 + w.2 * 10) w.1

/-! ## The directory -/

inductive Extract where
  | datadisp
  | dispconv
  | sev
  | strhdr
  | strngs
  deriving DecidableEq, Repr

def Extract.name : Extract → List Char
  | .datadisp => "datadisp".toList
  | .dispconv => "dispconv.ext".toList
  | .sev => "sev.ext".toList
  | .strhdr => "strhdr".toList
  | .strngs => "strngs".toList

/-- Offsets and sizes by extract, and whether there is a font. -/
structure Directory where
  files : Extract → Option (Nat × Nat)
  font : Bool

/-- The name of an entry. What is not ASCII matches no name that is looked for. -/
def entryName (bytes : List UInt8) : List Char :=
  ((bytes.takeWhile fun b => b ≠ 0 ∧ b ≠ 0x20).map fun b =>
    if b < 0x80 then Char.ofNat b.toNat else '\uFFFD').map Char.toLower

/-- Banks count from 0xffe, modulo the size of the address space. -/
def bankOffset (bank within : Nat) : Nat := ((bank + 0xffe) * 0x100000 + within) % 2 ^ 32

def Directory.add (d : Directory) (name : List Char) (file : Nat × Nat) : Directory where
  files e := if e.name.isPrefixOf name then some file else d.files e
  font := d.font || name == "1252font.dwn".toList || name == "1252thin.dwn".toList

def scan (card : List UInt8) : Nat → Nat → Directory → Option Directory
  | 0, _, d => some d
  | n + 1, k, d =>
    let p := 24 + k * 38
    if card.length < p + 38 ∨ 0x20000 ≤ p ∨ c16 card p = some 0xffff then some d
    else do
      let name := entryName ((card.drop p).take 14)
      let bank ← c16 card (p + 14)
      let within ← c32 card (p + 16)
      let size := (c32 card (p + 20)).getD 0xffffffff
      let offset := bankOffset bank within
      scan card n (k + 1) (if card.length < offset + size then d else d.add name (offset, size))

/-! ## The tables -/

structure Tables where
  definitions : List Table
  enums : List Table
  strings : List Table
  stringBase : Nat
  common : Nat
  extended : Nat
  deriving DecidableEq, Repr

def Tables.empty : Tables := ⟨[], [], [], 0, 0, 0⟩

def datadispWidths : List Nat := [4, 8, 4, 2, 10, 2, 6, 2, 10, 4, 4, 10, 6, 2, 2, 1, 6, 6, 6, 4]

def load (card : List UInt8) (newExtracts : Bool) : Option Tables := do
  let d ← scan card 1001 0 ⟨fun _ => none, false⟩
  let _ ← tables card (← d.files .datadisp) datadispWidths
  let definitions ← tables card (← d.files .dispconv) [16, 4, 4]
  let enums ← tables card (← d.files .sev) [10, 2, 4]
  let strings ← tables card (← d.files .strhdr) [4, 2, 4, 2, 1]
  let (base, size) ← d.files .strngs
  if !d.font ∨ size < (if newExtracts then 12 else 8) ∨ card[base]? ≠ some 0 then none
  else
    let common ← if newExtracts then c32 card (base + 4) else c16 card (base + 4)
    let extended ← if newExtracts then c32 card (base + 8) else c16 card (base + 6)
    if common = 0 then none
    else some ⟨definitions, enums, strings, base, common, extended⟩

/-- Tables that have been loaded from a card. -/
structure Source where
  card : List UInt8
  tables : Tables
  valid : Bool

namespace Source

variable (s : Source)

/-! ## Strings -/

def cp1252 : List Nat :=
  [0x20ac, 0x81, 0x201a, 0x192, 0x201e, 0x2026, 0x2020, 0x2021, 0x2c6, 0x2030, 0x160,
    0x2039, 0x152, 0x8d, 0x17d, 0x8f, 0x90, 0x2018, 0x2019, 0x201c, 0x201d, 0x2022, 0x2013,
    0x2014, 0x2dc, 0x2122, 0x161, 0x203a, 0x153, 0x9d, 0x17e, 0x178]

def character (byte : UInt8) : Char :=
  Char.ofNat (if 0x80 ≤ byte ∧ byte < 0xa0 then cp1252.getD (byte - 0x80).toNat 0 else byte.toNat)

/-- Where the word of an index starts. -/
def wordAt (table offsets data : Table) (index : Nat) : Option Nat :=
  if offsets.rows ≤ index ∨ table.rows ≤ index / 256 then none
  else do
    let target := data.offset + (← c32 s.card (table.offset + index / 256 * 4)) +
      (← c16 s.card (offsets.offset + index * 2))
    if data.offset + data.rows ≤ target then none else some target

/-- At most `n` characters, with the words that are referred to expanded. -/
def expand (word : Nat → Option (List Char)) : Nat → Nat → List Char → Option (List Char)
  | 0, _, _ => none
  | n + 1, p, out => do
    let byte ← s.card[p]?
    if byte = 0 ∨ byte = 0xff then some out
    else
      let (out, p) ←
        if byte = 3 then do
          let target ← word (← c16 s.card (p + 1))
          pure (out ++ target, p + 3)
        else pure (out ++ [character byte], p + 1)
      if 2048 < (out.map Char.utf8Size).sum then none else expand word n p out

/-- `depth` is what is left of the nesting of words. -/
def compressed (table offsets data : Table) : Nat → Nat → Option (List Char)
  | 0, _ => none
  | depth + 1, p =>
    s.expand (fun index => (s.wordAt table offsets data index).bind (compressed table offsets data depth))
      256 p []

/-- The place of a reference among the strings, from one on. -/
def stringIndex (reference : UInt32) : Option Nat :=
  if reference < 0x40000000 then
    if reference = 0 ∨ s.tables.common < reference.toNat then none else some (reference.toNat - 1)
  else
    let x := (reference &&& 0x3fffffff).toNat
    if s.tables.extended ≤ x ∨ x + s.tables.common = 0 then none
    else some (x + s.tables.common - 1)

def firmwareString (reference : UInt32) : Option String :=
  match s.tables.strings with
  | [blocks, starts, table, offsets, data] =>
    if !s.valid then none
    else do
      let index ← s.stringIndex reference
      if starts.rows ≤ index ∨ blocks.rows ≤ index / 250 then none
      else
        let offset ← c16 s.card (starts.offset + index * 2)
        if offset = 0xffff then none
        else
          let p := s.tables.stringBase + (← c32 s.card (blocks.offset + index / 250 * 4)) +
            offset % 0x8000
          (s.compressed table offsets data 25 p).map String.ofList
  | _ => none

def stringAt (p : Nat) : Option String := do s.firmwareString (UInt32.ofNat (← c32 s.card p))

/-- The text of the first value that matches. -/
def searchEnum (values texts : Table) (fallback value : UInt32) : Nat → Nat → Option String
  | 0, _ => s.firmwareString fallback
  | n + 1, k => do
    if (← c16 s.card (values.offset + k * 2)) = value.toNat then s.stringAt (texts.offset + k * 4)
    else searchEnum values texts fallback value n (k + 1)

def enumText (group : UInt16) (value : UInt32) : Option String :=
  match s.tables.enums with
  | [groups, values, texts] =>
    if groups.rows ≤ group.toNat + 1 then none
    else do
      let p := groups.offset + group.toNat * 10
      let first ← c32 s.card p
      let last ← c32 s.card (p + 10)
      let fallback := UInt32.ofNat (← c32 s.card (p + 4))
      if last < first ∨ texts.rows < last then s.firmwareString fallback
      else if (← c16 s.card (p + 8)) ≠ 0 then
        if value.toNat < last - first then s.stringAt (texts.offset + (first + value.toNat) * 4)
        else s.firmwareString fallback
      else s.searchEnum values texts fallback value (min last values.rows - first) first
  | _ => none

end Source

end OpenSaab.Display
