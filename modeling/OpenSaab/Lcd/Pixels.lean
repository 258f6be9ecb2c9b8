import OpenSaab.Lcd.Controller

/-!
# Pixels of the display

`lcd.rs`: what a pixel shows, from the two screens and the font.
-/

namespace OpenSaab.Lcd

/-! ## The font -/

/-- The rows of the characters that are drawn, from the top. -/
def glyphs : List (Char × List UInt8) :=
  [(' ', [0, 0, 0, 0, 0, 0, 0, 0]),
    ('A', [0, 0x18, 0x3c, 0x66, 0x7e, 0x66, 0x66, 0]),
    ('B', [0, 0x7c, 0x66, 0x7c, 0x66, 0x66, 0x7c, 0]),
    ('C', [0, 0x3c, 0x66, 0x60, 0x60, 0x66, 0x3c, 0]),
    ('D', [0, 0x78, 0x6c, 0x66, 0x66, 0x6c, 0x78, 0]),
    ('E', [0, 0x7e, 0x60, 0x7c, 0x60, 0x60, 0x7e, 0]),
    ('F', [0, 0x7e, 0x60, 0x7c, 0x60, 0x60, 0x60, 0]),
    ('G', [0, 0x3c, 0x66, 0x60, 0x6e, 0x66, 0x3c, 0]),
    ('H', [0, 0x66, 0x66, 0x7e, 0x66, 0x66, 0x66, 0]),
    ('I', [0, 0x3c, 0x18, 0x18, 0x18, 0x18, 0x3c, 0]),
    ('J', [0, 0x1e, 0x0c, 0x0c, 0x0c, 0x6c, 0x38, 0]),
    ('K', [0, 0x66, 0x6c, 0x78, 0x78, 0x6c, 0x66, 0]),
    ('L', [0, 0x60, 0x60, 0x60, 0x60, 0x60, 0x7e, 0]),
    ('M', [0, 0x63, 0x77, 0x7f, 0x6b, 0x63, 0x63, 0]),
    ('N', [0, 0x66, 0x76, 0x7e, 0x6e, 0x66, 0x66, 0]),
    ('O', [0, 0x3c, 0x66, 0x66, 0x66, 0x66, 0x3c, 0]),
    ('P', [0, 0x7c, 0x66, 0x66, 0x7c, 0x60, 0x60, 0]),
    ('Q', [0, 0x3c, 0x66, 0x66, 0x66, 0x6c, 0x36, 0]),
    ('R', [0, 0x7c, 0x66, 0x66, 0x7c, 0x6c, 0x66, 0]),
    ('S', [0, 0x3c, 0x66, 0x30, 0x0c, 0x66, 0x3c, 0]),
    ('T', [0, 0x7e, 0x18, 0x18, 0x18, 0x18, 0x18, 0]),
    ('U', [0, 0x66, 0x66, 0x66, 0x66, 0x66, 0x3c, 0]),
    ('V', [0, 0x66, 0x66, 0x66, 0x66, 0x3c, 0x18, 0]),
    ('W', [0, 0x63, 0x63, 0x6b, 0x7f, 0x77, 0x63, 0]),
    ('X', [0, 0x66, 0x66, 0x3c, 0x18, 0x3c, 0x66, 0]),
    ('Y', [0, 0x66, 0x66, 0x3c, 0x18, 0x18, 0x18, 0]),
    ('Z', [0, 0x7e, 0x0c, 0x18, 0x30, 0x60, 0x7e, 0]),
    ('a', [0, 0, 0x3c, 0x06, 0x3e, 0x66, 0x3e, 0]),
    ('b', [0, 0x60, 0x60, 0x7c, 0x66, 0x66, 0x7c, 0]),
    ('c', [0, 0, 0x3c, 0x60, 0x60, 0x60, 0x3c, 0]),
    ('d', [0, 0x06, 0x06, 0x3e, 0x66, 0x66, 0x3e, 0]),
    ('e', [0, 0, 0x3c, 0x66, 0x7e, 0x60, 0x3c, 0]),
    ('f', [0, 0x1c, 0x30, 0x7c, 0x30, 0x30, 0x30, 0]),
    ('g', [0, 0, 0x3e, 0x66, 0x66, 0x3e, 0x06, 0x7c]),
    ('h', [0, 0x60, 0x60, 0x7c, 0x66, 0x66, 0x66, 0]),
    ('i', [0, 0x18, 0, 0x38, 0x18, 0x18, 0x3c, 0]),
    ('j', [0, 0x0c, 0, 0x0c, 0x0c, 0x0c, 0x4c, 0x38]),
    ('k', [0, 0x60, 0x60, 0x66, 0x6c, 0x78, 0x66, 0]),
    ('l', [0, 0x38, 0x18, 0x18, 0x18, 0x18, 0x3c, 0]),
    ('m', [0, 0, 0x66, 0x7f, 0x7f, 0x6b, 0x63, 0]),
    ('n', [0, 0, 0x7c, 0x66, 0x66, 0x66, 0x66, 0]),
    ('o', [0, 0, 0x3c, 0x66, 0x66, 0x66, 0x3c, 0]),
    ('p', [0, 0, 0x7c, 0x66, 0x66, 0x7c, 0x60, 0x60]),
    ('q', [0, 0, 0x3e, 0x66, 0x66, 0x3e, 0x06, 0x06]),
    ('r', [0, 0, 0x3c, 0x66, 0x60, 0x60, 0x60, 0]),
    ('s', [0, 0, 0x3e, 0x60, 0x3c, 0x06, 0x7c, 0]),
    ('t', [0, 0x18, 0x7c, 0x18, 0x18, 0x18, 0x0c, 0]),
    ('u', [0, 0, 0x66, 0x66, 0x66, 0x66, 0x3e, 0]),
    ('v', [0, 0, 0x66, 0x66, 0x66, 0x3c, 0x18, 0]),
    ('w', [0, 0, 0x63, 0x6b, 0x7f, 0x3e, 0x1c, 0]),
    ('x', [0, 0, 0x66, 0x3c, 0x18, 0x3c, 0x66, 0]),
    ('y', [0, 0, 0x66, 0x66, 0x66, 0x3e, 0x06, 0x7c]),
    ('z', [0, 0, 0x7e, 0x0c, 0x18, 0x30, 0x7e, 0]),
    ('*', [0, 0, 0x28, 0x10, 0x28, 0, 0, 0]),
    ('.', [0, 0, 0, 0, 0, 0, 0x18, 0]),
    (':', [0, 0, 0x18, 0, 0x18, 0, 0, 0]),
    ('\x27', [0x0c, 0x0c, 0x18, 0, 0, 0, 0, 0]),
    ('[', [0, 0x1c, 0x10, 0x10, 0x10, 0x10, 0x1c, 0]),
    (']', [0, 0x38, 0x08, 0x08, 0x08, 0x08, 0x38, 0]),
    ('0', [0, 0x3c, 0x66, 0x6e, 0x76, 0x66, 0x3c, 0]),
    ('1', [0, 0x18, 0x38, 0x18, 0x18, 0x18, 0x7e, 0]),
    ('2', [0, 0x3c, 0x66, 0x0c, 0x18, 0x30, 0x7e, 0]),
    ('3', [0, 0x7e, 0x0c, 0x18, 0x0c, 0x66, 0x3c, 0]),
    ('4', [0, 0x0c, 0x1c, 0x3c, 0x6c, 0x7e, 0x0c, 0]),
    ('5', [0, 0x7e, 0x60, 0x7c, 0x06, 0x66, 0x3c, 0]),
    ('6', [0, 0x3c, 0x60, 0x7c, 0x66, 0x66, 0x3c, 0]),
    ('7', [0, 0x7e, 0x06, 0x0c, 0x18, 0x30, 0x30, 0]),
    ('8', [0, 0x3c, 0x66, 0x3c, 0x66, 0x66, 0x3c, 0]),
    ('9', [0, 0x3c, 0x66, 0x3e, 0x06, 0x0c, 0x38, 0]),
    ('-', [0, 0, 0, 0x7e, 0, 0, 0, 0]),
    ('>', [0, 0x60, 0x30, 0x18, 0x30, 0x60, 0, 0]),
    ('<', [0, 0x06, 0x0c, 0x18, 0x0c, 0x06, 0, 0]),
    ('/', [0, 0x06, 0x0c, 0x18, 0x30, 0x60, 0, 0]),
    ('(', [0, 0x0c, 0x18, 0x18, 0x18, 0x0c, 0, 0]),
    (')', [0, 0x30, 0x18, 0x18, 0x18, 0x30, 0, 0]),
    (',', [0, 0, 0, 0, 0, 0x18, 0x18, 0x30]),
    ('!', [0, 0x18, 0x18, 0x18, 0x18, 0, 0x18, 0]),
    ('=', [0, 0, 0x7e, 0, 0x7e, 0, 0, 0]),
    ('_', [0, 0, 0, 0, 0, 0, 0x7e, 0]),
    ('&', [0, 0x38, 0x6c, 0x38, 0x76, 0xcc, 0x7b, 0]),
    ('+', [0, 0x18, 0x18, 0x7e, 0x18, 0x18, 0, 0]),
    ('?', [0, 0x3c, 0x66, 0x0c, 0x18, 0, 0x18, 0]),
    ('%', [0, 0x62, 0x64, 0x08, 0x10, 0x26, 0x46, 0]),
    ('@', [0, 0x3c, 0x42, 0x99, 0xa5, 0x9e, 0x40, 0x3c]),
    ('#', [0, 0x24, 0x7e, 0x24, 0x7e, 0x24, 0, 0]),
    ('$', [0, 0x18, 0x3e, 0x60, 0x3c, 0x06, 0x7c, 0x18]),
    ('"', [0, 0x66, 0x66, 0x44, 0, 0, 0, 0])]

def glyph (c : UInt8) : List UInt8 :=
  (glyphs.lookup (Char.ofNat c.toNat)).getD [0, 0, 0, 0, 0, 0, 0, 0]

/-- Nothing for a row that the glyph does not have. -/
def getFontBit (c : UInt8) (fontX fontY : Nat) : Option Bool :=
  (glyph c)[fontY]?.map fun row => (row >>> UInt8.ofNat fontX) &&& 1 == 1

theorem length_glyph (c : UInt8) : (glyph c).length = 8 := by
  have hall : glyphs.all (fun g => g.2.length == 8) = true := by decide
  unfold glyph
  cases hlookup : glyphs.lookup (Char.ofNat c.toNat) with
  | none => rfl
  | some rows =>
    obtain ⟨before, after, hsplit, -⟩ := List.lookup_eq_some_iff.mp hlookup
    have hmem : (Char.ofNat c.toNat, rows) ∈ glyphs := by rw [hsplit]; simp
    exact eq_of_beq (List.all_eq_true.mp hall _ hmem)

/-! ## Pixels -/

namespace Controller

variable (l : Controller)

/-- A byte of the memory, nothing for an address outside. -/
def byte (address : Nat) : Option UInt8 := l.vram[address % l.vram.length]?

/-- The bit of a byte that stands for the column of the pixel. -/
def bitOf (row : UInt8) (x : Nat) : Bool := row &&& (0x80 >>> UInt8.ofNat (x % 8)) != 0

/-- The first screen as graphics. -/
def firstGraphics (x y : Nat) : Option Bool :=
  (l.byte (l.sad1 + y * l.ap + x / 8)).map (bitOf · x)

/-- A bit of a character that the guest has put into the memory. -/
def guestBit (c : UInt8) (glyphStride glyphX glyphY : Nat) : Option Bool :=
  if glyphY < glyphStride then
    (l.byte (l.cgramAddr.toNat + c.toNat * glyphStride + glyphY)).map fun row =>
      row &&& (1 <<< UInt8.ofNat glyphX) != 0
  else some false

def characterBit (c : UInt8) (fy glyphX glyphY : Nat) : Option Bool :=
  if l.systemSet &&& 1 ≠ 0 then l.guestBit c (if fy ≤ 8 then 8 else 16) glyphX glyphY
  else if glyphY < 8 then getFontBit c glyphX glyphY
  else some false

/-- The first screen as text. -/
def firstText (x y : Nat) : Option Bool := do
  let fx := max 1 (min 8 l.fx.toNat)
  let fy := max l.fy.toNat 1
  let c ← l.byte (l.sad1 + y / fy * l.ap + x / fx)
  l.characterBit c fy (7 - x % fx) (y % fy)

def first (x y : Nat) : Option Bool :=
  if l.displayMode &&& 0x0c ≠ 0 then
    if l.overlayMode &&& 0x04 ≠ 0 then l.firstGraphics x y else l.firstText x y
  else some false

def second (x y : Nat) : Option Bool :=
  if l.displayMode &&& 0x30 ≠ 0 ∧ l.sad2 ≠ l.sad1 then
    (l.byte (l.sad2 + y * l.ap + x / 8)).map (bitOf · x)
  else some false

/-- The pixel, nothing where a read is outside. -/
def pixel (x y : Nat) : Option Bool :=
  if !l.displayOn then some false
  else do
    let first ← l.first x y
    let second ← l.second x y
    if l.displayMode &&& 0x0c = 0 ∨ l.displayMode &&& 0x30 = 0 ∨ l.sad2 = l.sad1 then
      return first || second
    else if l.overlayMode &&& 3 = 1 then return first ^^ second
    else if l.overlayMode &&& 3 = 2 then return first && second
    else return first || second

/-! ## Reads are inside -/

theorem byte_inside (address : Nat) : ∃ b, l.byte address = some b := by
  have hpos : 0 < l.vram.length := by rw [l.sized]; decide
  exact ⟨_, List.getElem?_eq_getElem (Nat.mod_lt address hpos)⟩

theorem guestBit_inside (c : UInt8) (glyphStride glyphX glyphY : Nat) :
    ∃ b, l.guestBit c glyphStride glyphX glyphY = some b := by
  unfold guestBit
  split
  · obtain ⟨row, hrow⟩ := l.byte_inside (l.cgramAddr.toNat + c.toNat * glyphStride + glyphY)
    exact ⟨_, congrArg (Option.map _) hrow⟩
  · exact ⟨false, rfl⟩

theorem characterBit_inside (c : UInt8) (fy glyphX glyphY : Nat) :
    ∃ b, l.characterBit c fy glyphX glyphY = some b := by
  unfold characterBit
  split
  · exact l.guestBit_inside c _ glyphX glyphY
  · split
    · next hrow =>
      rw [← length_glyph c] at hrow
      exact ⟨_, congrArg (Option.map _) (List.getElem?_eq_getElem hrow)⟩
    · exact ⟨false, rfl⟩

theorem firstText_inside (x y : Nat) : ∃ b, l.firstText x y = some b := by
  obtain ⟨c, hc⟩ := l.byte_inside
    (l.sad1 + y / max l.fy.toNat 1 * l.ap + x / max 1 (min 8 l.fx.toNat))
  unfold firstText
  dsimp only
  rw [hc]
  exact l.characterBit_inside c _ _ _

theorem first_inside (x y : Nat) : ∃ b, l.first x y = some b := by
  unfold first
  split
  · split
    · obtain ⟨row, hrow⟩ := l.byte_inside (l.sad1 + y * l.ap + x / 8)
      exact ⟨bitOf row x, congrArg (Option.map _) hrow⟩
    · exact l.firstText_inside x y
  · exact ⟨false, rfl⟩

theorem second_inside (x y : Nat) : ∃ b, l.second x y = some b := by
  unfold second
  split
  · obtain ⟨row, hrow⟩ := l.byte_inside (l.sad2 + y * l.ap + x / 8)
    exact ⟨bitOf row x, congrArg (Option.map _) hrow⟩
  · exact ⟨false, rfl⟩

/-- No pixel reads outside the memory or the font. -/
theorem pixel_inside (x y : Nat) : ∃ b, l.pixel x y = some b := by
  obtain ⟨first, hfirst⟩ := l.first_inside x y
  obtain ⟨second, hsecond⟩ := l.second_inside x y
  unfold pixel
  split
  · exact ⟨false, rfl⟩
  · simp only [hfirst, hsecond, Option.bind_eq_bind, Option.bind_some]
    split
    · exact ⟨_, rfl⟩
    · split
      · exact ⟨_, rfl⟩
      · split <;> exact ⟨_, rfl⟩

end Controller

end OpenSaab.Lcd
