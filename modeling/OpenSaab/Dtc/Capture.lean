import Mathlib.Data.List.Sort
import OpenSaab.Text
import OpenSaab.Library.Runs

/-!
# Capture of a list of fault codes

`dtc_reports.rs`: what is read off one screen of the original firmware, and what a report makes of it.
-/

namespace OpenSaab.Dtc

open Text

abbrev Chars := List Char

def utf8Length (s : Chars) : Nat := (s.map Char.utf8Size).sum

def maxScreen : Nat := 8192

def maxReport : Nat := 2000000

/-! ## Lines -/

/-- The text before and behind the first character `c`. -/
def splitOnce (c : Char) (s : Chars) : Option (Chars × Chars) :=
  match s.span (· ≠ c) with
  | (before, _ :: after) => some (before, after)
  | (_, []) => none

/-- A number of at most three digits. -/
def number (s : Chars) : Option Nat :=
  let s := trim s
  if s = [] ∨ 3 < s.length ∨ ¬ s.all Char.isDigit then none else Lines.parse 10 (2 ^ 64) s

/-- The line that tells the position and how many there are. -/
def counter (line : Chars) : Option (Nat × Nat) := do
  let (a, b) ← splitOnce '/' (trim line)
  let index ← number a
  let total ← number b
  some (index, total)

def isModule (s : Chars) : Bool :=
  s ≠ [] && s.length ≤ 12 && s.all fun c => c.isAlphanum || c == '_' || c == '-'

def hexUpperDigit (c : Char) : Bool := c.isDigit || 'A' ≤ c && c ≤ 'F'

def code : Chars → Bool
  | c :: cs => cs.length == 4 && "BCPU".toList.contains c && cs.all hexUpperDigit
  | [] => false

def suffix (s : Chars) : Bool := s.length == 2 && s.all hexUpperDigit

structure Row where
  moduleName : Chars
  dtc : Chars
  suffix : Chars
  description : Chars
  deriving DecidableEq, Repr

def joinKey (m dtc suffix : Chars) : Chars := m ++ '/' :: dtc ++ '/' :: suffix

def key (r : Row) : Chars := joinKey r.moduleName r.dtc r.suffix

def rowOf (line : Chars) : Option Row :=
  match Lines.words whitespace line with
  | m :: c :: s :: rest =>
    let description := Lines.join ' ' rest
    if isModule m ∧ code c ∧ suffix s ∧ description ≠ [] then some ⟨m, c, s, description⟩ else none
  | _ => none

/-! ## Pages of the list -/

structure Page where
  selected : Nat
  observed : Chars
  screen : Chars
  rows : List Row
  deriving DecidableEq, Repr

def title : Chars := "DTC Information".toList

/-- The page that a screen shows, and the number of positions. -/
def parse (text now : Chars) : Option (Nat × Page) :=
  if maxScreen < utf8Length text ∨ (lines text).head?.map trim ≠ some title then none
  else
    match (lines text).filterMap counter with
    | [(index, total)] =>
      if index < 1 ∨ total < index ∨ 200 < total then none
      else
        let rows := (lines text).filterMap rowOf
        if rows = [] then none else some (total, ⟨index, now, text, rows⟩)
    | _ => none

/-! ## Reports -/

structure Report where
  /-- The room for the fields about the session, which the capture does not look at. -/
  heading : Nat
  total : Nat
  fullDescriptions : List (Chars × Chars)
  snapshots : List Page
  capturedPositions : Nat
  allCaptured : Bool
  uniqueCodes : Nat
  deriving DecidableEq, Repr

/-- The row with the longest description stays. -/
def addEntry (out : List (Chars × Row)) (row : Row) : List (Chars × Row) :=
  match out.lookup (key row) with
  | none => out ++ [(key row, row)]
  | some old =>
    if utf8Length old.description < utf8Length row.description then
      out.map fun e => if e.1 = key row then (e.1, row) else e
    else out

/-- The entries of a report by their keys, in the order in which they are found. -/
def entries (report : Report) : List (Chars × Row) :=
  (report.snapshots.flatMap Page.rows).foldl addEntry []

/-- The keys of the codes. -/
def codes (report : Report) : List Chars := (entries report).map Prod.fst

def setText (texts : List (Chars × Chars)) (k text : Chars) : List (Chars × Chars) :=
  (k, text) :: texts.filter fun e => e.1 ≠ k

/-- The report with the text of a page about one code, if it is one of its own. -/
def detail (report : Report) (text : Chars) : Option Report :=
  if maxScreen < utf8Length text ∨ (lines text).any fun l => (counter l).isSome then none
  else
    match ((lines text).map trim).filter (· ≠ []) with
    | first :: m :: codeLine :: rest =>
      if rest = [] ∨ first ≠ title ∨ ¬ isModule m then none
      else
        match Lines.words whitespace codeLine with
        | [c, s] =>
          if code c ∧ suffix s ∧ joinKey m c s ∈ codes report then
            some
              { report with
                fullDescriptions :=
                  setText report.fullDescriptions (joinKey m c s) (Lines.join ' ' rest) }
          else none
        | _ => none
    | _ => none

def update (report : Report) : Report :=
  { report with
    capturedPositions := report.snapshots.length
    allCaptured := report.snapshots.length = report.total
    uniqueCodes := (codes report).length }

def summary (report : Report) : String :=
  toString report.uniqueCodes ++ " distinct fault codes captured.\n" ++
    (if report.allCaptured then
      "All " ++ toString report.total ++ " entries from the displayed list were captured."
    else
      "Partial list — scroll through the remaining codes to finish capturing results.") ++
    "\nThis is coverage of the displayed list, not a count of vehicle modules scanned."

end OpenSaab.Dtc

/-!
## Capture of a list

`observe` of `dtc_reports.rs`: each screen of a session is looked at, and what it shows of the list of
the codes goes into a report that is saved and loaded again.
-/

namespace OpenSaab.Dtc

open Text Runs

/-! ## Sizes -/

/-- The bytes of a character in a JSON string. -/
def escapedSize (c : Char) : Nat :=
  if ['"', '\\', '\n', '\r', '\t', '\x08', '\x0c'].contains c then 2
  else if c.toNat < 0x20 then 6
  else c.utf8Size

def quotedSize (s : Chars) : Nat := 2 + (s.map escapedSize).sum

def numberSize (n : Nat) : Nat := (Nat.toDigits 10 n).length

/-- With a comma between each two. -/
def listSize (items : List Nat) : Nat := 2 + items.sum + (items.length - 1)

def fieldSize (name : Chars) (size : Nat) : Nat := quotedSize name + 1 + size

def Row.size (r : Row) : Nat :=
  listSize
    [fieldSize "module".toList (quotedSize r.moduleName),
      fieldSize "dtc".toList (quotedSize r.dtc),
      fieldSize "suffix".toList (quotedSize r.suffix),
      fieldSize "description_as_displayed".toList (quotedSize r.description)]

def Page.size (p : Page) : Nat :=
  listSize
    [fieldSize "selected_item".toList (numberSize p.selected),
      fieldSize "observed_utc".toList (quotedSize p.observed),
      fieldSize "screen".toList (quotedSize p.screen),
      fieldSize "visible_rows".toList (listSize (p.rows.map Row.size))]

/-- The bytes of the file of a report. -/
def Report.size (r : Report) : Nat :=
  r.heading + listSize
    [fieldSize "total_positions".toList (numberSize r.total),
      fieldSize "full_descriptions".toList
        (listSize (r.fullDescriptions.map fun e => fieldSize e.1 (quotedSize e.2))),
      fieldSize "snapshots".toList (listSize (r.snapshots.map Page.size)),
      fieldSize "captured_positions".toList (numberSize r.capturedPositions),
      fieldSize "all_list_positions_captured".toList (if r.allCaptured then 4 else 5),
      fieldSize "unique_codes".toList (numberSize r.uniqueCodes)]

/-! ## One observation -/

/-- A screen, with the time, the name for a new report and the room for its fields about the session. -/
structure Observation where
  text : Chars
  now : Chars
  id : Chars
  heading : Nat
  deriving DecidableEq, Repr

/-- The report that is open in a session, as it is saved. -/
structure Opened where
  id : Chars
  report : Report
  deriving DecidableEq, Repr

abbrev Session := Option Opened

structure Change where
  id : Chars
  codes : Nat
  incomplete : Bool
  summary : String
  deriving DecidableEq, Repr

/-- `load`: a file is read up to a limit. -/
def loadReport (s : Session) : Except String Session :=
  match s with
  | none => .ok none
  | some opened => if maxReport < opened.report.size then .error "Report too large" else .ok s

def Report.new (heading total : Nat) : Report where
  heading
  total
  fullDescriptions := []
  snapshots := []
  capturedPositions := 0
  allCaptured := false
  uniqueCodes := 0

/-- The snapshots with a page, or nothing if its screen is there already. -/
def store (page : Page) (snapshots : List Page) : Option (List Page) :=
  let i := snapshots.findIdx (·.selected = page.selected)
  let stored :=
    match snapshots[i]? with
    | some old => if old.screen = page.screen then none else some (snapshots.set i page)
    | none => some (snapshots ++ [page])
  stored.map fun pages => pages.insertionSort fun a b => a.selected ≤ b.selected

def save (opened : Opened) : Session × Option Change :=
  let report := update opened.report
  (some { opened with report },
    some ⟨opened.id, report.uniqueCodes, !report.allCaptured, summary report⟩)

/-- The report that a page of the list goes into. -/
def reportFor (s : Session) (o : Observation) (total : Nat) : Opened :=
  match s with
  | some opened =>
    if opened.report.total = total then opened else ⟨o.id, .new o.heading total⟩
  | none => ⟨o.id, .new o.heading total⟩

/-- No change closes the report, unless the screen is a page that is known. -/
def observe (s : Session) (o : Observation) : Except String (Session × Option Change) :=
  if maxScreen < utf8Length o.text then .error "Report too large"
  else
    (loadReport s).map fun s =>
      match parse o.text o.now with
      | some (total, page) =>
        let opened := reportFor s o total
        match store page opened.report.snapshots with
        | none => (s, none)
        | some snapshots => save { opened with report := { opened.report with snapshots } }
      | none =>
        match s.bind fun opened => (detail opened.report o.text).map fun report => { opened with report } with
        | some opened => save opened
        | none => (none, none)

/-- A session after an observation. What fails leaves the files as they are. -/
def Session.observed (s : Session) (o : Observation) : Session :=
  match observe s o with
  | .ok (s, _) => s
  | .error _ => s

end OpenSaab.Dtc
