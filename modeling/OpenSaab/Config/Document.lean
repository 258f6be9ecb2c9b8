import Std.Data.TreeMap
import OpenSaab.Config.Encoding
import OpenSaab.Library.Lines
import OpenSaab.Text

/-!
# Configuration documents

`config.rs`: a configuration is a text of lines, each with a flag and a value. It may include other
files, and every option stands in it once.
-/

namespace OpenSaab.Config

abbrev Chars := List Char

abbrev Path := List Char

/-- Variables and their values, in the order of the names. -/
abbrev Environment := List (Chars × Chars)

/-- What the parser sees of the file system. -/
structure Files where
  read : Path → Except String (List UInt8)
  normalized : Path → Path

/-- Nothing can be read. -/
def noFiles : Files := ⟨fun _ => .error "No such file or directory (os error 2)", id⟩

inductive ConfigBackend
  | pdu
  | j2534
  deriving DecidableEq, Repr

inductive KeypadSide
  | off
  | left
  | right
  deriving DecidableEq, Repr

structure ConfigPath where
  raw : Chars
  expanded : Chars
  resolved : Path
  unresolvedEnvironment : Bool
  deriving DecidableEq, Repr

structure ConfigLine where
  source : Path
  line : Nat
  raw : Chars
  flag : String
  value : Chars
  supported : Bool
  deriving DecidableEq, Repr

structure ScreenSize where
  name : Chars
  width : Nat
  height : Nat
  keypadWidth : Nat
  deriving DecidableEq, Repr

/-- What the options of a configuration set. -/
structure Settings where
  bank0Kb : Nat
  cardPath : Path
  cardPathExplicit : Bool
  pcmcia : Bool
  flashWritePc : Nat
  ata : Bool
  bgColor : Nat
  fgColor : Nat
  kpBkc : Nat
  kpKey : Option Chars
  silent : Bool
  sound : Bool
  watchMode : Option Chars
  backend : ConfigBackend
  keypadSide : KeypadSide
  sizes : List ScreenSize
  screenHandling : Nat
  paths : Std.TreeMap String ConfigPath

structure Tech2WinConfig where
  settings : Settings
  version : Chars
  options : Std.TreeMap String Chars
  lines : List ConfigLine
  warnings : List String
  sourcePath : Path
  sourceText : Chars
  encoding : Encoding
  environment : Environment
  loadedBytes : Option (List UInt8)
  loadedPath : Option Path

def defaultSettings : Settings where
  bank0Kb := 128
  cardPath := "NAO.bin".toList
  cardPathExplicit := false
  pcmcia := true
  flashWritePc := 253558
  ata := true
  bgColor := 0xff
  fgColor := 0xffffff
  kpBkc := 0xffffff
  kpKey := some ['R']
  silent := false
  sound := false
  watchMode := some "pfrc".toList
  backend := .pdu
  keypadSide := .off
  sizes := [⟨"640 x 480".toList, 640, 480, 213⟩]
  screenHandling := 0
  paths := ∅

/-! ## Values -/

def upper (s : Chars) : Chars := s.map Char.toUpper

def unquote (value : Chars) : Except String Chars :=
  let value := Text.trim value
  match value with
  | '"' :: rest =>
    if rest.getLast? = some '"' then .ok rest.dropLast else .error "Unterminated quoted value"
  | _ => .ok value

/-- With the slashes of one kind. -/
def portable (s : Chars) : Chars := s.map fun c => if c = '\\' then '/' else c

def asciiLetter (c : Char) : Bool := 'a' ≤ c ∧ c ≤ 'z' ∨ 'A' ≤ c ∧ c ≤ 'Z'

def absoluteReference (s : Chars) : Bool :=
  match portable s with
  | '/' :: _ => true
  | c :: ':' :: '/' :: _ => asciiLetter c
  | _ => false

/-- `Path::components`, without the root. -/
def components (p : Path) : List Chars :=
  (p.splitOn '/').zipIdx.filterMap fun (part, n) =>
    if part = [] ∨ part = ['.'] ∧ 0 < n then none else some part

/-- `Path::parent`. -/
def parent (p : Path) : Option Path :=
  match components p with
  | [] => none
  | parts => some ((if p.head? = some '/' then ['/'] else []) ++ ['/'].intercalate parts.dropLast)

/-- `Path::join` for a relative path. -/
def join (base relative : Path) : Path :=
  if base = [] ∨ base.getLast? = some '/' then base ++ relative else base ++ ['/'] ++ relative

def lookup (env : Environment) (name : Chars) : Option Chars :=
  (env.find? fun e => upper e.1 = upper name).map (·.2)

/-- The parts of a value between its percent signs: every second one is the name of a variable. The
flag says that a name was not found. -/
def expand (env : Environment) : List Chars → Chars × Bool
  | [] => ([], false)
  | [plain] => (plain, false)
  | [plain, name] => (plain ++ '%' :: name, true)
  | plain :: name :: rest =>
    let (tail, unresolved) := expand env rest
    match lookup env name with
    | some value => (plain ++ value ++ tail, unresolved)
    | none => (plain ++ '%' :: name ++ '%' :: tail, true)

def resolvePath (value : Chars) (source : Path) (env : Environment) : Except String ConfigPath := do
  let plain ← unquote value
  if plain = [] then .error "Path requires a value"
  else
    let (expanded, unresolved) := expand env (plain.splitOn '%')
    let relative := portable expanded
    let resolved := if absoluteReference relative then relative
      else join ((parent source).getD ['.']) relative
    pure ⟨value, expanded, resolved, unresolved⟩

/-- `parse::<u32>`, up to `max`. -/
def number (v : Chars) (max : Nat) : Except String Nat :=
  match (Lines.parse 10 (2 ^ 32) v).filter (· ≤ max) with
  | some n => .ok n
  | none => .error s!"Expected decimal number in 0..{max}"

def hexDigit (c : Char) : Bool := '0' ≤ c ∧ c ≤ '9' ∨ 'a' ≤ c ∧ c ≤ 'f' ∨ 'A' ≤ c ∧ c ≤ 'F'

def color (v : Chars) : Except String Nat :=
  if v.length = 6 ∧ v.all hexDigit then .ok ((Lines.parse 16 (2 ^ 32) v).getD 0)
  else .error "Expected six RGB hex digits"

def screenFields (name : Chars) (fields : List Chars) : Except String ScreenSize :=
  match fields with
  | w :: h :: keypad => do
    if 1 < keypad.length then .error "-SS requires width,height[,keypad_width]"
    else
      let width ← number w 6400
      let height ← number h 4800
      if width ≠ 0 ∧ width < 320 ∨ height ≠ 0 ∧ height < 240 then
        .error "-SS dimensions are smaller than the firmware display"
      else
        match keypad with
        | [k] =>
          let keypadWidth ← number k 4800
          if keypadWidth < 240 ∨ width ≤ keypadWidth then
            .error "-SS keypad width requires 240..4800, smaller than total width"
          else pure ⟨name, width, height, keypadWidth⟩
        | _ => pure ⟨name, width, height, width / 3⟩
  | _ => .error "-SS requires width,height[,keypad_width]"

def screenSize (v : Chars) : Except String ScreenSize :=
  match v with
  | '"' :: v =>
    match v.dropWhile (· ≠ '"') with
    | '"' :: rest =>
      match Text.trim rest with
      | ',' :: tail => screenFields (v.takeWhile (· ≠ '"')) ((tail.splitOn ',').map Text.trim)
      | _ => .error "-SS requires comma-separated dimensions"
    | _ => .error "-SS name has no closing quote"
  | _ => .error "-SS requires a quoted name"

def side (v : Chars) : Except String KeypadSide := do
  let v ← unquote v
  pure (match upper v with
    | ['L'] => .left
    | ['R'] => .right
    | _ => .off)

/-! ## Lines -/

/-- The body of a line, and its ending. -/
abbrev Row := Chars × Chars

def lineEnd (c : Char) : Bool := c = '\r' ∨ c = '\n'

/-- A character before the rest of its line. -/
def push (c : Char) : List Row → List Row
  | [] => [([c], [])]
  | (body, ending) :: rows => (c :: body, ending) :: rows

def splitText : Chars → List Row
  | [] => []
  | '\r' :: '\n' :: rest => ([], ['\r', '\n']) :: splitText rest
  | c :: rest => if lineEnd c then ([], [c]) :: splitText rest else push c (splitText rest)

/-- What is read of the body of a line. -/
structure Reading where
  line : Chars
  flag : String
  value : Chars

def readLine (raw : Chars) : Reading :=
  let line := Text.trim raw
  let token := line.takeWhile fun c => !Text.whitespace c
  let rest := (line.dropWhile fun c => !Text.whitespace c).drop 1
  ⟨line, String.ofList (upper token), Text.trim rest⟩

def pathFlags : List String := ["-P0", "-P1", "-A0", "-A1", "-KF", "-UD", "-AD"]

/-- The other backend. -/
def rival (flag : String) : String := if flag = "-PP" then "-PJ" else "-PP"

def isBackend (flag : String) : Bool := flag = "-PP" ∨ flag = "-PJ"

def settlePath (env : Environment) (source : Path) (flag : String) (value : Chars) (s : Settings) :
    Except String Settings := do
  let path ← resolvePath value source env
  let s := if flag = "-P0" then { s with cardPath := path.resolved, cardPathExplicit := true } else s
  pure { s with paths := s.paths.insert flag path }

/-- The option on the settings; nothing for an option that is not supported. -/
def settle (env : Environment) (source : Path) (flag : String) (value : Chars) (s : Settings) :
    Except String (Option Settings) :=
  if flag ∈ pathFlags then some <$> settlePath env source flag value s
  else if flag = "-B0" ∨ flag = "-B1" then do
    let n ← number value 256
    if n ≠ 128 ∧ n ≠ 256 then .error "Bank size must be 128 or 256 KB"
    else pure (some (if flag = "-B0" then { s with bank0Kb := n } else s))
  else if isBackend flag then
    if value ≠ [] then .error (flag ++ " takes no value")
    else .ok (some { s with backend := if flag = "-PJ" then .j2534 else .pdu })
  else if flag = "-KP" then do
    let key ← unquote value
    if key = [] then .error "-KP requires a value"
    else
      let keypadSide ← side value
      pure (some { s with kpKey := some key, keypadSide := keypadSide })
  else if flag = "-SS" then do
    let size ← screenSize value
    pure (some (if size.name = [] then s else { s with sizes := s.sizes ++ [size] }))
  else if flag = "-SH" then do
    let n ← number value 15
    pure (some { s with screenHandling := n })
  else if flag = "-WR" then do
    let n ← number value 0xffffff
    pure (some { s with flashWritePc := n })
  else if flag = "-CB" then do
    let n ← color value
    pure (some { s with bgColor := n })
  else if flag = "-CT" then do
    let n ← color value
    pure (some { s with fgColor := n })
  else if flag = "-KPBKC" then do
    let n ← color value
    pure (some { s with kpBkc := n })
  else if flag = "-PC" then .ok (some { s with pcmcia := true })
  else if flag = "-ATA" then .ok (some { s with ata := true })
  else if flag = "-S" then .ok (some { s with sound := true, silent := false })
  else if flag = "-W" then .ok (some { s with watchMode := some value })
  else if flag = "-C" then do
    let n ← number value 9
    if n = 0 then .error "COM port must be 1..9" else pure (some s)
  else if flag = "-TP" ∨ flag = "-TD" then do
    let _ ← number value 10000000
    pure (some s)
  else if flag = "-MS" ∨ flag = "-L" ∨ flag = "-H" then do
    let _ ← unquote value
    pure (some s)
  else if flag = "-W0" ∨ flag = "-W1" ∨ flag = "-US" ∨ flag = "-WA" then .ok (some s)
  else .ok none

/-! ## Parsing -/

/-- A configuration and the options that were seen. -/
structure Parsing where
  config : Tech2WinConfig
  seen : List String

def location (source : Path) (number : Nat) : String := s!"{String.ofList source}:{number}: "

def Parsing.warned (p : Parsing) (text : String) : Parsing :=
  { p with config := { p.config with warnings := p.config.warnings ++ [text] } }

def Parsing.listed (p : Parsing) (record : ConfigLine) : Parsing :=
  { p with config := { p.config with lines := p.config.lines ++ [record] } }

/-- An option that is seen for the first time; false where it is not supported. -/
def parseOption (source : Path) (n : Nat) (flag : String) (value : Chars) (p : Parsing) :
    Except String (Bool × Parsing) :=
  if flag ∈ p.seen then .error ("Option " ++ flag ++ " appears more than once")
  else if isBackend flag ∧ rival flag ∈ p.seen then
    .error "-PP and -PJ select different backends"
  else do
    let seen := flag :: p.seen
    let config := { p.config with options := p.config.options.insert flag value }
    let settled ← settle config.environment source flag value config.settings
    match settled with
    | none => pure (false, ⟨config, seen⟩)
    | some settings =>
      let p : Parsing := ⟨{ config with settings := settings }, seen⟩
      let unresolved := flag ∈ pathFlags ∧
        (settings.paths[flag]?.any (·.unresolvedEnvironment))
      pure (true, if unresolved then
        p.warned (location source n ++ "unresolved environment retained in " ++ flag) else p)

/-- The file that an option includes, with its key. -/
def included (files : Files) (env : Environment) (chain : List Path) (source : Path)
    (value : Chars) : Except String (Path × Path × Chars) := do
  let path ← resolvePath value source env
  if path.unresolvedEnvironment then .error "-OF has an unresolved environment variable"
  else
    let key := files.normalized path.resolved
    if 16 ≤ chain.length ∨ key ∈ chain then .error "Recursive -OF reference"
    else
      let bytes ← (files.read path.resolved).mapError fun e =>
        s!"include {String.ofList path.resolved}: {e}"
      let (text, _) ← decode bytes
      pure (path.resolved, key, text)

/-- The parser of an included file, for its chain, path and text. -/
abbrev Include := List Path → Path → Chars → Parsing → Except String Parsing

def parseLine (files : Files) (inner : Include) (chain : List Path) (source : Path) (n : Nat)
    (raw : Chars) (p : Parsing) : Except String Parsing :=
  let r := readLine raw
  let record : ConfigLine := ⟨source, n, raw, r.flag, r.value, true⟩
  let unsupported (p : Parsing) := (p.warned (location source n ++
    "unsupported reference/option retained: " ++ String.ofList r.line)).listed
      { record with supported := false }
  Except.mapError (location source n ++ ·) <|
    if r.line = [] ∨ r.line.head? = some ';' then .ok (p.listed { record with flag := "" })
    else if r.line.head? = some '<' then .ok (unsupported p)
    else if r.flag = "@" then
      if r.value ≠ "1.0".toList ∧ r.value ≠ "1.1".toList then
        .error "Expected configuration version 1.0 or 1.1"
      else .ok (Parsing.listed { p with config := { p.config with version := r.value } } record)
    else if r.flag = "-OF" then do
      let (path, key, text) ← included files p.config.environment chain source r.value
      inner (chain ++ [key]) path text (p.listed record)
    else do
      let (supported, p) ← parseOption source n r.flag r.value p
      pure (if supported then p.listed record else unsupported p)

/-- The lines of one file, in turn. -/
def parseRows (files : Files) (inner : Include) (chain : List Path) (source : Path) :
    List (Row × Nat) → Parsing → Except String Parsing
  | [], p => .ok p
  | (row, n) :: rest, p => do
    let p ← parseLine files inner chain source (n + 1) row.1 p
    parseRows files inner chain source rest p

/-- Sixteen files at most are open at a time; `room` counts the ones that are left. -/
def parseInto (files : Files) : Nat → Include
  | 0, chain, source, text, p =>
    parseRows files (fun _ _ _ _ => .error "Recursive -OF reference") chain source
      (splitText text).zipIdx p
  | room + 1, chain, source, text, p =>
    parseRows files (parseInto files room) chain source (splitText text).zipIdx p

def newConfig (path : Path) (text : Chars) (env : Environment) : Tech2WinConfig where
  settings := defaultSettings
  version := "1.1".toList
  options := ∅
  lines := []
  warnings := []
  sourcePath := path
  sourceText := text
  encoding := .utf8
  environment := env
  loadedBytes := none
  loadedPath := none

def parseWithEnvironment (files : Files) (path : Path) (text : Chars) (env : Environment) :
    Except String Tech2WinConfig := do
  let p ← parseInto files 15 [files.normalized path] path text ⟨newConfig path text env, []⟩
  pure p.config

end OpenSaab.Config

/-!
## Edits of a configuration

`Tech2WinConfig::edited`: the options that are asked for are changed in the text itself, and the new
text is parsed again.
-/

namespace OpenSaab.Config

def allowed : List String :=
  ["-P0", "-P1", "-KP", "-CB", "-CT", "-KPBKC", "-SS", "-PP", "-PJ"]

abbrev Edits := Std.TreeMap String Chars

/-- One request, checked and noted under its flag. -/
def request (requested : Edits) (change : String × Chars) : Except String Edits :=
  let flag := change.1.map Char.toUpper
  let value := Text.trim change.2
  if flag ∉ allowed then .error ("Option " ++ flag ++ " is not editable")
  else if change.2.any (fun c => c = '\r' ∨ c = '\n' ∨ c = '\x00') then
    .error "Edit must contain one text value"
  else if flag ∈ requested then .error ("Repeated edit " ++ flag)
  else if isBackend flag ∧ value ≠ [] then .error "Backend takes no value"
  else if flag = "-KP" ∧ change.2 ≠ [] then do
    let key ← unquote change.2
    if upper key = ['L'] ∨ upper key = ['R'] ∨ upper key = "OFF".toList then
      pure (requested.insert flag value)
    else .error "-KP edit expects L, R or OFF"
  else .ok (requested.insert flag value)

def requests (changes : Edits) : Except String Edits := do
  let requested ← changes.toList.foldlM request ∅
  if "-PP" ∈ requested ∧ "-PJ" ∈ requested then .error "Select one backend" else pure requested

/-- The text while it is changed: its rows, the ones to delete, and what is to be added. -/
structure Draft where
  rows : List Row
  removed : List Nat
  additions : List Chars

/-- The option that a request is about. -/
def owns (flag : String) (l : ConfigLine) : Bool :=
  l.flag = flag ∨ isBackend flag ∧ l.flag = rival flag

/-- Whether the option has the requested value already. -/
def unchanged (flag : String) (value : Chars) (owner : ConfigLine) : Except String Bool :=
  if value = owner.value ∧ flag = owner.flag then .ok true
  else if flag = "-KP" then do
    let new ← side value
    let old ← side owner.value
    if new = old then pure true
    else
      let new ← unquote value
      let old ← unquote owner.value
      pure (new = old)
  else if flag = "-P0" ∨ flag = "-P1" then do
    let new ← unquote value
    let old ← unquote owner.value
    pure (new = old)
  else if flag = "-CT" ∨ flag = "-CB" ∨ flag = "-KPBKC" then do
    let new ← color value
    let old ← color owner.value
    pure (new = old)
  else if flag = "-SS" then do
    let new ← screenSize value
    let old ← screenSize owner.value
    pure (new = old)
  else .ok false

def blanks (body : Chars) : Chars := body.takeWhile Text.whitespace

def token (body : Chars) : Chars :=
  (body.dropWhile Text.whitespace).takeWhile fun c => !Text.whitespace c

/-- What follows the flag. -/
def tail (body : Chars) : Chars :=
  (body.dropWhile Text.whitespace).dropWhile fun c => !Text.whitespace c

/-- The blanks at the end of a body. -/
def trailing (body : Chars) : Chars := (body.reverse.takeWhile Text.whitespace).reverse

/-- The flag, in lower case where the old one is. -/
def styled (flag : String) (old : Chars) : Chars :=
  (flag.toList.zip old).map fun (c, o) => if o.isLower then c.toLower else c

def restyle (flag : String) (body : Chars) : Chars :=
  blanks body ++ styled flag (token body) ++ tail body

/-- The value, with quotes where the old one has them. -/
def quoted (flag : String) (value old : Chars) : Chars :=
  if old.head? = some '"' ∧ value.head? ≠ some '"' ∧ (flag = "-P0" ∨ flag = "-P1" ∨ flag = "-KP") then
    ['"'] ++ value ++ ['"']
  else value

def replaceValue (value body : Chars) : Chars :=
  let gap := (tail body).takeWhile Text.whitespace
  blanks body ++ token body ++ (if gap = [] then [' '] else gap) ++ value ++ trailing body

/-- One request on the draft. -/
def amend (files : Files) (base : Tech2WinConfig) (d : Draft) (request : String × Chars) :
    Except String Draft :=
  let flag := request.1
  let value := request.2
  match base.lines.find? (owns flag) with
  | some owner =>
    if files.normalized owner.source ≠ files.normalized base.sourcePath then
      .error s!"Cannot edit {flag}: owned by included file {String.ofList owner.source}:{owner.line}"
    else
      let index := owner.line - 1
      if ¬ isBackend flag ∧ value = [] then .ok { d with removed := index :: d.removed }
      else do
        if ← unchanged flag value owner then pure d
        else
          let body := (d.rows[index]?.getD ([], [])).1
          let body := if isBackend flag then restyle flag body
            else replaceValue (quoted flag value owner.value) body
          pure { d with rows := d.rows.modify index fun row => (body, row.2) }
  | none =>
    if isBackend flag then .ok { d with additions := d.additions ++ [flag.toList] }
    else if value ≠ [] then
      .ok { d with additions := d.additions ++ [flag.toList ++ [' '] ++ value] }
    else .ok d

def endsLine (text : Chars) : Bool := text.getLast?.any lineEnd

/-- The additions, each on a line of its own; the last one ended where the text was. -/
def added (ending : Chars) (final : Bool) : List Chars → Chars
  | [] => []
  | [row] => row ++ if final then ending else []
  | row :: rest => row ++ ending ++ added ending final rest

/-- The text of a draft. -/
def Draft.text (d : Draft) (ending : Chars) (final : Bool) : Chars :=
  let kept := d.rows.zipIdx.flatMap fun (row, n) => if n ∈ d.removed then [] else row.1 ++ row.2
  let kept := if d.additions ≠ [] ∧ kept ≠ [] ∧ ¬ endsLine kept then kept ++ ending else kept
  kept ++ added ending final d.additions

/-- The ending of the first line that has one. -/
def usualEnding (rows : List Row) : Chars :=
  ((rows.find? fun row => row.2 ≠ []).map (·.2)).getD ['\n']

def Tech2WinConfig.edited (files : Files) (c : Tech2WinConfig) (changes : Edits) :
    Except String Tech2WinConfig := do
  let requested ← requests changes
  let base ← parseWithEnvironment files c.sourcePath c.sourceText c.environment
  let rows := splitText c.sourceText
  let draft ← requested.toList.foldlM (amend files base) ⟨rows, [], []⟩
  let text := draft.text (usualEnding rows) (endsLine c.sourceText)
  let result ← parseWithEnvironment files c.sourcePath text c.environment
  pure { result with
    encoding := c.encoding, loadedBytes := c.loadedBytes, loadedPath := c.loadedPath }

end OpenSaab.Config
