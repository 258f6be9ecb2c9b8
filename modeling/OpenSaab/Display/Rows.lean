import OpenSaab.Display.Tables
import OpenSaab.Text

/-!
# Rows of live data

`firmware_display.rs`: the rows that the firmware asks for, the values that it keeps for them in its
memory, and the signals by which it tells of both.
-/

namespace OpenSaab.Display

open Lines

/-! ## Rows -/

structure DataRow where
  category : UInt8
  epid : UInt32
  kind : UInt8
  precision : UInt8
  enumGroup : UInt16
  conversion : UInt16
  rawBits : UInt32
  valueKnown : Bool
  lastObserved : Bool
  formatSupported : Bool
  name : String
  unit : String
  value : String
  deriving DecidableEq, Repr

namespace DataRow

def key (r : DataRow) : UInt8 × UInt32 := (r.category, r.epid)

def invalidate (r : DataRow) : DataRow :=
  { r with lastObserved := r.lastObserved || r.valueKnown, valueKnown := false, value := "*" }

end DataRow

/-- The text of a unit, empty for one that is not there. -/
def Source.unitText (s : Source) (conversions : Table) (unit : Nat) : Option String :=
  if unit < conversions.rows then
    (c32 s.card (conversions.offset + unit * 4)).map fun reference =>
      (s.firmwareString (UInt32.ofNat reference)).getD ""
  else some ""

/-- The row of a definition. -/
def Source.rowAt (s : Source) (units : UInt32) (category : UInt8) (epid : UInt32) (flags : UInt8)
    (conversions : Table) (p : Nat) : Option DataRow := do
  let kind := flags &&& 31
  let enumGroup := UInt16.ofNat (← c16 s.card (p + 8))
  let plain ← c16 s.card (p + 6)
  let unit ← s.unitText conversions (if units ≠ 0 ∧ flags &&& 0x40 ≠ 0 then plain + 1 else plain)
  let name ← c32 s.card (p + 10)
  let precision ← s.card[p + 5]?
  let conversion ← s.card[p + 9]?
  some
    { category, epid, kind, enumGroup, unit
      precision := precision >>> 4
      conversion := if kind = 5 then enumGroup else conversion.toUInt16
      rawBits := 0
      valueKnown := false
      lastObserved := false
      formatSupported := true
      name := (s.firmwareString (UInt32.ofNat name)).getD ""
      value := "*" }

/-- The first definition of a parameter in its category, from the row `k` on. -/
def Source.search (s : Source) (units : UInt32) (category : UInt8) (epid : UInt32)
    (definitions conversions : Table) : Nat → Nat → Option DataRow
  | 0, _ => none
  | n + 1, k => do
    let p := definitions.offset + k * 16
    let flags ← s.card[p + 4]?
    if (← c32 s.card p) ≠ epid.toNat ∨
        flags &&& 0x20 ≠ (if category = 2 then 0x20 else 0) then
      search s units category epid definitions conversions n (k + 1)
    else s.rowAt units category epid flags conversions p

def Source.describe (s : Source) (units : UInt32) (category : UInt8) (epid : UInt32) :
    Option DataRow :=
  match s.tables.definitions with
  | [definitions, conversions, _] =>
    if s.valid then s.search units category epid definitions conversions definitions.rows 0 else none
  | _ => none

/-! ## Values -/

/-- `i32` from its bits. -/
def signed (raw : UInt32) : Int := raw.toInt32.toInt

/-- A fixed-point number with four decimals, rounded to `p` of them. -/
def fixedText (precision : UInt8) (raw : UInt32) : List Char :=
  let p := min precision.toNat 4
  let magnitude := (signed raw).natAbs
  let scale := 10 ^ (4 - p)
  let rounded := (magnitude + scale / 2) / scale
  let sign := if signed raw < 0 then ['-'] else []
  if p = 0 then sign ++ digits 10 rounded
  else sign ++ digits 10 (rounded / 10 ^ p) ++ '.' :: padded p 10 (rounded % 10 ^ p)

/-- The quotient, to the nearest and in the middle to the even one. -/
def nearest (n d : Nat) : Nat :=
  let q := n / d
  if d < 2 * (n % d) ∨ 2 * (n % d) = d ∧ q % 2 = 1 then q + 1 else q

/-- `{:.*}` of an `f32` from its bits. -/
def floatText (precision : Nat) (raw : UInt32) : List Char :=
  let exponent := raw.toNat / 2 ^ 23 % 256
  let fraction := raw.toNat % 2 ^ 23
  let sign := if raw.toNat / 2 ^ 31 = 1 then ['-'] else []
  if exponent = 255 then if fraction = 0 then sign ++ "inf".toList else "NaN".toList
  else
    let mantissa := if exponent = 0 then fraction else 2 ^ 23 + fraction
    let power := max exponent 1
    let scaled := nearest (mantissa * 10 ^ precision * 2 ^ (power - 150)) (2 ^ (150 - power))
    if precision = 0 then sign ++ digits 10 scaled
    else sign ++ digits 10 (scaled / 10 ^ precision) ++ '.' :: padded precision 10 (scaled % 10 ^ precision)

def signedText (raw : UInt32) : List Char :=
  (if signed raw < 0 then ['-'] else []) ++ digits 10 (signed raw).natAbs

def rawText (raw : UInt32) : List Char := "0x".toList ++ padded 8 16 raw.toNat

/-- The text of a value by the kind of its row, and whether the kind is supported. -/
def Source.kindText (s : Source) (kind precision : UInt8) (enumGroup : UInt16) (raw : UInt32) :
    String × Bool :=
  let supported (cs : List Char) := (String.ofList cs, true)
  match kind with
  | 1 => supported (fixedText precision raw)
  | 2 => supported (floatText (min precision.toNat 9) raw)
  | 3 => supported (signedText raw)
  | 5 => ((s.enumText enumGroup raw).getD "*", (s.enumText enumGroup raw).isSome)
  | 6 | 13 => supported (digits 16 raw.toNat)
  | 7 => supported (padded (if 255 < raw then 16 else 8) 2 (raw &&& 0xffff).toNat)
  | 10 => supported (padded 6 16 raw.toNat)
  | 11 => supported (padded 4 16 raw.toNat)
  | 12 => supported (padded 2 16 raw.toNat)
  | _ => (String.ofList (rawText raw), false)

/-- The other units are not converted to. -/
def unconverted (units : UInt32) (row : DataRow) : Bool := units ≠ 0 && row.conversion ≠ 0

/-- What a row shows of a value under these units, and whether its format is supported. -/
def Source.format (s : Source) (units : UInt32) (row : DataRow) (raw : UInt32) : String × Bool :=
  if unconverted units row then (String.ofList (rawText raw), false)
  else s.kindText row.kind row.precision row.enumGroup raw

example : String.ofList (fixedText 3 123450) = "12.345" := by decide

example : String.ofList (floatText 1 0xbfc00000) = "-1.5" := by decide

/-! ## The memory of the guest -/

/-- `GuestMemory`, as far as it is read. A part of what can be read can be read. -/
structure Memory where
  bytes : UInt32 → Nat → Option (List UInt8)
  length_bytes : ∀ {a n bs}, bytes a n = some bs → bs.length = n
  part : ∀ {a n bs} (i k : Nat), bytes a n = some bs → 0 < k → i + k ≤ n →
    bytes (a + UInt32.ofNat i) k = some ((bs.drop i).take k)

namespace Memory

variable (m : Memory)

def u8 (a : UInt32) : Option UInt8 := (m.bytes a 1).bind List.head?

def u16 (a : UInt32) : Option UInt16 := (m.bytes a 2).map fun bs => UInt16.ofNat (Words.ofBig bs)

def u32 (a : UInt32) : Option UInt32 := (m.bytes a 4).map fun bs => UInt32.ofNat (Words.ofBig bs)

end Memory

abbrev Registers := Fin 16 → UInt32

scoped instance instNeZeroRegisters : NeZero 16 := ⟨by decide⟩

/-- `u32::checked_add` and `u32::checked_sub`. -/
def checkedAdd (a b : UInt32) : Option UInt32 :=
  if a.toNat + b.toNat < 2 ^ 32 then some (a + b) else none

def checkedSub (a b : UInt32) : Option UInt32 := if b ≤ a then some (a - b) else none

/-! ## The display -/

structure FirmwareDisplay where
  source : Source
  newExtracts : Bool
  parameterHooks : Bool
  signalVersion : UInt32
  dataEnabled : Bool
  dataActive : Bool
  dataApplication : Bool
  dtcApplication : Bool
  units : UInt32
  listAnchor : UInt32
  valueTable : UInt32
  rows : List DataRow
  notice : String
  generation : Nat
  pointerRejections : Nat
  signalCounts : UInt16 → Nat

namespace FirmwareDisplay

/-- Tables that cannot be loaded leave those that were there. -/
def loadTables (d : FirmwareDisplay) : FirmwareDisplay :=
  match load d.source.card d.newExtracts with
  | none => { d with source := { d.source with valid := false } }
  | some tables => { d with source := ⟨d.source.card, tables, true⟩ }

def unavailable : String := "Required firmware display extracts are unavailable or invalid"

def new (card : List UInt8) : FirmwareDisplay :=
  let d := loadTables
    { source := ⟨card, .empty, false⟩
      newExtracts := false
      parameterHooks := false
      signalVersion := 0
      dataEnabled := false
      dataActive := false
      dataApplication := false
      dtcApplication := false
      units := 0
      listAnchor := 0
      valueTable := 0
      rows := []
      notice := ""
      generation := 0
      pointerRejections := 0
      signalCounts := fun _ => 0 }
  if d.source.valid then d else { d with notice := unavailable }

variable (d : FirmwareDisplay)

def available : Bool := d.source.valid && 2 < d.signalVersion

def setDataEnabled (enabled : Bool) : FirmwareDisplay × Bool :=
  if enabled ∧ !d.dataEnabled ∧ (d.dataApplication ∨ d.dtcApplication) then
    ({ d with notice := "Enable Data Display before entering the data or DTC application" }, false)
  else
    let d := { d with dataEnabled := enabled, generation := d.generation + 1 }
    if enabled then (d, true)
    else ({ d with rows := [], dataActive := false, parameterHooks := false }, true)

def invalidateAll : FirmwareDisplay := { d with rows := d.rows.map DataRow.invalidate }

/-- The row after a value has been read for it. -/
def shown (row : DataRow) (raw : UInt32) : DataRow :=
  let (value, formatSupported) := d.source.format d.units row raw
  { row with rawBits := raw, valueKnown := true, lastObserved := false, formatSupported, value }

def update (category : UInt8) (epid : UInt32) (raw : UInt32) : FirmwareDisplay :=
  match d.rows.find? (·.key = (category, epid)) with
  | none => d
  | some row =>
    { d with
      rows := d.rows.modify (d.rows.findIdx (·.key = (category, epid))) (d.shown · raw)
      notice :=
        if unconverted d.units row then
          "Raw value retained: alternate-unit conversion is not implemented"
        else d.notice }

def rejected : FirmwareDisplay :=
  { d with
    pointerRejections := d.pointerRejections + 1
    notice := "Firmware display pointer outside mapped memory" }

/-! ## The list of the parameters -/

/-- Where the value with this index is in the table. -/
def valueAddress (table index : UInt32) : Option UInt32 :=
  if index.toNat * 6 < 2 ^ 32 then
    (checkedAdd table (index * 6)).filter fun v => v ≤ 0xffffff
  else none

/-- What can be read of a node has been looked at by then, so that nothing here is missing. -/
def visit (m : Memory) (p : UInt32) : FirmwareDisplay :=
  if m.u16 (p + 0x16) = some 1 then
    let index := (m.u32 (p + 0x18)).getD 0
    if index ≠ 0xffffffff ∧ index < 0x10000 then
      match valueAddress d.valueTable index with
      | none => d.rejected
      | some v =>
        match m.u16 (v + 4) with
        | none => d.rejected
        | some flags =>
          if flags &&& 0xff00 ≠ 0 then
            match m.u32 v with
            | none => d
            | some raw => d.update ((m.u8 p).getD 0) ((m.u32 (p + 2)).getD 0) raw
          else d
    else d
  else d

/-- The nodes from `p` on, at most `n` of them. -/
def walk (m : Memory) : Nat → UInt32 → List UInt32 → FirmwareDisplay → FirmwareDisplay
  | 0, _, _, d => d
  | n + 1, p, seen, d =>
    if p = 0 then d
    else if p ∈ seen then { d with notice := "Firmware parameter list contains a cycle" }
    else if (m.bytes p 0x1c).isNone then d.rejected
    else walk m n ((m.u32 (p + 0x12)).getD 0) (p :: seen) (d.visit m p)

def updateData (m : Memory) : FirmwareDisplay :=
  if !d.dataEnabled ∨ !d.dataActive ∨ d.dtcApplication then d
  else
    let d := d.invalidateAll
    if d.listAnchor = 0 ∨ d.valueTable = 0 then d
    else
      match m.u32 d.listAnchor with
      | none => d.rejected
      | some p => walk m 300 p [] d

/-! ## The signals -/

/-- A parameter is asked for. -/
def addParameter (category : UInt8) (epid : UInt32) : FirmwareDisplay :=
  if 300 ≤ d.rows.length then { d with notice := "OEM parameter limit of 300 reached" }
  else
    match d.source.describe d.units category epid with
    | some row => { d with rows := d.rows ++ [row], dataActive := true, notice := "" }
    | none => { d with notice := "Firmware EPID metadata unavailable: " ++ toString epid }

def parameter (r : Registers) : FirmwareDisplay :=
  let d :=
    if d.parameterHooks ∧ d.available ∧ !d.dtcApplication then { d with dataApplication := true }
    else d
  if d.dataEnabled ∧ d.parameterHooks ∧ d.available ∧ !d.dtcApplication ∧
      !d.rows.any (·.key = ((r 6).toUInt8, r 5)) then
    d.addParameter (r 6).toUInt8 (r 5)
  else d

def setUnits (units : UInt32) : FirmwareDisplay :=
  { d with
    units
    rows := d.rows.map fun row =>
      match d.source.describe units row.category row.epid with
      | some described => { row with unit := described.unit }
      | none => row }

def setDtc (dtc : Bool) : FirmwareDisplay :=
  if dtc then { d.invalidateAll with dtcApplication := true, dataActive := false }
  else { d with dtcApplication := false, dataActive := d.dataEnabled && !d.rows.isEmpty }

/-- The arguments of a notification: what it is about, whether it is valid, and where its value is. -/
def notification (r : Registers) (m : Memory) : Option ((UInt8 × UInt32) × UInt16 × UInt32) := do
  let category ← m.u8 (← checkedAdd (r 15) 0x17)
  let epid ← m.u32 (← checkedAdd (r 15) 0x18)
  let valid ← m.u16 (← checkedAdd (r 13) 0x16)
  let p ← m.u32 (← checkedAdd (r 15) 0x1c)
  some ((category, epid), valid, p)

def invalidateKey (key : UInt8 × UInt32) : FirmwareDisplay :=
  { d with rows := d.rows.map fun row => if row.key = key then row.invalidate else row }

/-- The way without a list and a table. -/
def notify (r : Registers) (m : Memory) : FirmwareDisplay :=
  if d.dataEnabled ∧ d.dataActive ∧ !d.dtcApplication ∧ (d.valueTable = 0 ∨ d.listAnchor = 0) then
    match notification r m with
    | none => d.invalidateAll.rejected
    | some (key, valid, p) =>
      if valid ≠ 0 then
        match m.u32 p with
        | some raw => d.update key.1 key.2 raw
        | none => d.rejected.invalidateKey key
      else d.invalidateKey key
  else d

def count (code : UInt16) : FirmwareDisplay :=
  { d with
    signalCounts := fun c => if c = code then d.signalCounts c + 1 else d.signalCounts c
    generation := d.generation + 1 }

/-- What a signal does, once it has been counted. -/
def react (code : UInt16) (r : Registers) (m : Memory) : FirmwareDisplay :=
  match code with
  | 0x101a => { d with signalVersion := r 0 }
  | 0x1113 => loadTables { d with newExtracts := true }
  | 0x1501 => if d.available then { d with dataApplication := true } else d
  | 0x1108 =>
    if r 6 = 0x9200004b ∧ d.available then
      { d with parameterHooks := true, rows := [], dataActive := false }
    else d
  | 0x1103 => d.parameter r
  | 0x1100 => { d with rows := [], dataActive := false }
  | 0x1011 =>
    { d with
      parameterHooks := false
      dataApplication := false
      dtcApplication := false
      dataActive := false
      rows := []
      listAnchor := 0
      valueTable := 0 }
  | 0x1403 =>
    match (checkedSub (r 14) 0x14).bind m.u32 with
    | some p => { d with valueTable := p }
    | none => d.rejected
  | 0x1400 => if (checkedSub (r 14) 0x18).bind m.u8 = some 2 then d.updateData m else d
  | 0x1410 => (d.setUnits (r 0)).updateData m
  | 0x1411 => d.setDtc (r 0 ≠ 0)
  | 0x5002 => d.setDtc (r 0 ≠ 0)
  | 0x1106 => d.notify r m
  | _ => d

/-- The registers change only by the answer to the version. -/
def signal (code : UInt16) (r : Registers) (m : Memory) : FirmwareDisplay × Registers :=
  ((d.count code).react code r m, if code = 0x101a then fun i => if i = 0 then 0x800059ec else r i else r)

def signals : List UInt16 :=
  [0x1003, 0x1011, 0x101a, 0x1100, 0x1103, 0x1106, 0x1108, 0x1113, 0x1400, 0x1403, 0x1410, 0x1411,
    0x1501, 0x1504, 0x1505, 0x1506, 0x5001, 0x5002]

/-- The signal that the instruction at an address gives. -/
def signalAt (pc : UInt32) (m : Memory) : Option UInt16 :=
  let pc := pc &&& 0xffffff
  if 0x400000 ≤ pc ∧ ¬ (0x7c0000 ≤ pc ∧ pc < 0x7ff000) then none
  else if m.u16 pc ≠ some 0x51f8 then none
  else (m.u16 (pc + 2)).filter (· ∈ signals)

/-- The instruction before a signal tells where the list is. -/
def findAnchor (pc : UInt32) (m : Memory) : FirmwareDisplay :=
  if 6 ≤ pc ∧ (m.u16 (pc - 6)).any (fun op => op &&& 0xf1ff = 0x2079) then
    match m.u32 (pc - 4) with
    | none => d
    | some anchor => if (m.bytes anchor 4).isSome then { d with listAnchor := anchor } else d.rejected
  else { d with notice := "Data list effective-address form not recovered" }

def beforeInstruction (pc : UInt32) (r : Registers) (m : Memory) : FirmwareDisplay × Registers :=
  match signalAt pc m with
  | none => (d, r)
  | some code =>
    let d := if code = 0x1003 ∧ d.listAnchor = 0 then d.findAnchor (pc &&& 0xffffff) m else d
    d.signal code r m

def invalidateLive : FirmwareDisplay :=
  { d.invalidateAll with dataActive := false, generation := d.generation + 1 }

/-- What is done with a display. -/
inductive Op where
  | enable (enabled : Bool)
  | signal (code : UInt16) (r : Registers) (m : Memory)
  | instruction (pc : UInt32) (r : Registers) (m : Memory)
  | invalidate

def step : Op → FirmwareDisplay
  | .enable enabled => (d.setDataEnabled enabled).1
  | .signal code r m => (d.signal code r m).1
  | .instruction pc r m => (d.beforeInstruction pc r m).1
  | .invalidate => d.invalidateLive

end FirmwareDisplay

end OpenSaab.Display
