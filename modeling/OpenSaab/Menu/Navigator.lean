import OpenSaab.Json
import OpenSaab.Vlinker.Commands

/-!
# The navigator of the menus

`menu_navigation.rs`: one shortcut selects menus of the original firmware by sending keys, as long as
it recognizes the screen, and leaves the rest to the operator.
-/

namespace OpenSaab.Menu

open Text Json

abbrev Chars := List Char

/-! ## Targets and stages -/

inductive Target where
  | security
  | readDtc
  | clearDtc
  | engineData
  | ecuInfo
  deriving DecidableEq, Repr

namespace Target

def parse : String → Option Target
  | "security" => some security
  | "read_dtc" => some readDtc
  | "clear_dtc" => some clearDtc
  | "engine_data" => some engineData
  | "ecu_info" => some ecuInfo
  | _ => none

def label : Target → String
  | security => "Get Security Access"
  | readDtc => "Read DTC"
  | clearDtc => "Clear DTC"
  | engineData => "Engine Data"
  | ecuInfo => "ECU information"

/-- `target_name`. -/
def name : Target → String
  | security => "security"
  | readDtc => "read_dtc"
  | clearDtc => "clear_dtc"
  | engineData => "engine_data"
  | ecuInfo => "ecu_info"

def engine (t : Target) : Bool := [engineData, ecuInfo].contains t

def needsFullControl (t : Target) : Bool := [security, clearDtc].contains t

theorem parse_name (t : Target) : parse t.name = some t := by cases t <;> rfl

end Target

inductive Stage where
  | main
  | year
  | platform
  | diagnostics
  | all
  | dtc
  | engine
  | engineMenu
  | done
  deriving DecidableEq, Repr

namespace Stage

def name : Stage → String
  | main => "main"
  | year => "year"
  | platform => "platform"
  | diagnostics => "diagnostics"
  | all => "all"
  | dtc => "dtc"
  | engine => "engine"
  | engineMenu => "engine_menu"
  | done => "done"

/-- A name that is not known stands for the end. -/
def parse : String → Stage
  | "main" => main
  | "year" => year
  | "platform" => platform
  | "diagnostics" => diagnostics
  | "all" => all
  | "dtc" => dtc
  | "engine" => engine
  | "engine_menu" => engineMenu
  | _ => done

theorem parse_name (s : Stage) : parse s.name = s := by cases s <;> rfl

end Stage

/-! ## Screens -/

def keys : List UInt8 := [0x18, 0x04, 0x13, 0x17, 0x03, 0x12, 0x16, 0x02, 0x11, 0x15]

def enter : UInt8 := 0x10

def down : UInt8 := 0x0c

def up : UInt8 := 0x09

def stageMs : UInt64 := 90000

def stableMs : UInt64 := 50

def moveLimit : UInt64 := 30

/-- What is kept of a screen. -/
def screenLimit : Nat := 8192

/-- The model year in a number of the supported vehicles, zero in any other. -/
def supportedYear (vin : Chars) : UInt16 :=
  if vin.length ≠ 17 ∨ ¬ "YS3F".toList.isPrefixOf vin ∨ ¬ vin.all Char.isAlphanum then 0
  else
    match vin[9]? with
    | some 'A' => 2010
    | some 'B' => 2011
    | some 'C' => 2012
    | some c => if '3' ≤ c ∧ c ≤ '9' then 2000 + UInt16.ofNat (c.toNat - 48) else 0
    | none => 0

/-- The key of a line that gives it this label. -/
def keyOf (label : Chars) (line : Chars) : Option UInt8 :=
  match trim line with
  | 'F' :: d :: ':' :: rest =>
    if rest ≠ [] ∧ d.isDigit ∧ trim rest = label then keys[d.toNat - 48]? else none
  | _ => none

def function (s : Chars) (label : String) : Option UInt8 := (lines s).findSome? (keyOf label.toList)

def last (s : Chars) : Chars := trim ((lines s).getLast?.getD [])

def yearOf (s : Chars) : Option UInt16 :=
  if s.length = 4 ∧ ("19".toList.isPrefixOf s ∨ "20".toList.isPrefixOf s) ∧ s.all Char.isDigit then
    (Lines.parse 10 65536 s).map UInt16.ofNat
  else none

/-- A year alone on its line, perhaps after its code. -/
def shownYear : Chars → Option UInt16
  | '(' :: c :: ')' :: rest =>
    if c.isUpper ∨ c.isDigit then yearOf (rest.dropWhile whitespace) else none
  | line => yearOf line

def contains (text : Chars) (token : String) : Bool := containsText token.toList text

def asciiLowercase (s : Chars) : Chars := s.map Char.toLower

/-! ## The navigator -/

structure Navigator where
  target : Target
  year : UInt16
  stage : Stage
  join : Bool
  manual : Bool
  candidate : Chars
  sent : Chars
  stableAt : UInt64
  stageAt : Option UInt64
  moves : UInt64
  deriving DecidableEq, Repr

def saturatingSub (a b : UInt64) : UInt64 := if b ≤ a then a - b else 0

namespace Navigator

def cancel (n : Navigator) : Navigator := { n with manual := true, stage := .done }

def new (target : Target) (vin : Chars) (joinCurrentMenu : Bool) : Navigator :=
  let n : Navigator :=
    { target
      year := supportedYear vin
      stage := .main
      join := joinCurrentMenu
      manual := false
      candidate := []
      sent := []
      stableAt := 0
      stageAt := none
      moves := 0 }
  if supportedYear vin = 0 then n.cancel else n

variable (n : Navigator)

def active : Bool := n.stage ≠ .done

/-- The stage of a screen that is joined. -/
def joined (text : Chars) : Option Stage :=
  if contains text "Main Menu" ∧ (function text "Diagnostics").isSome then some .main
  else if contains text "Model Year" then some .year
  else if contains text "Vehicle Type" then some .platform
  else if contains text "Diagnostics" ∧ ¬ contains text "Checking" ∧
      (function text "All").isSome then some .diagnostics
  else if ¬ n.target.engine ∧ contains text "ECU Information" ∧
      (function text "Get Security Access").isSome then some .all
  else if (n.target = .readDtc ∨ n.target = .clearDtc) ∧ (function text "Read DTC").isSome ∧
      (function text "Clear DTC").isSome then some .dtc
  else if n.target.engine ∧ contains text "Customer Functions" ∧
      last text = "Engine Control".toList then some .engine
  else none

def selectYear (text : Chars) : Navigator × Option (UInt8 × Stage) :=
  match shownYear (last text) with
  | none => (n, none)
  | some shown =>
    if shown = n.year then (n, some (enter, .platform))
    else if moveLimit ≤ n.moves then (n.cancel, none)
    else (n, some (if n.year < shown then down else up, .year))

def selectPlatform (text : Chars) : Option (UInt8 × Stage) :=
  let selected := asciiLowercase (last text)
  if selected = "saab 9-3 sport (9440)".toList then some (enter, .diagnostics)
  else if contains text "Saab 9-3 Sport (9440)" ∧ selected = "saab 9-5".toList ∧
      n.moves < moveLimit then some (down, .platform)
  else none

def selectEngineMenu (text : Chars) : Navigator × Option (UInt8 × Stage) :=
  if contains text "Checking" ∨ contains text "Working" ∨ contains text "Turn key" then (n, none)
  else if n.target = .ecuInfo then
    (n, if contains text "Engine" then (function text "ECU Information").map (·, .done) else none)
  else if contains text "Engine Data Display" then ({ n with stage := .done }, none)
  else if contains text "Engine" then
    (n, ((function text "Data Display").or (function text "Engine Data")).map (·, .done))
  else (n, none)

/-- The key for a screen in the stage, and the stage that it leads to. -/
def select (text : Chars) : Navigator × Option (UInt8 × Stage) :=
  match n.stage with
  | .main =>
    (n, if contains text "Main Menu" then (function text "Diagnostics").map (·, .year) else none)
  | .year => if contains text "Model Year" then n.selectYear text else (n, none)
  | .platform => (n, if contains text "Vehicle Type" then n.selectPlatform text else none)
  | .diagnostics =>
    (n, if contains text "Diagnostics" ∧ ¬ contains text "Checking" then
        if n.target.engine then (function text "Engine").map (·, .engine)
        else (function text "All").map (·, .all)
      else none)
  | .all =>
    (n, if contains text "ECU Information" then
        if n.target = .security then (function text "Get Security Access").map (·, .done)
        else (function text "Diagnostic Trouble Codes (DTC)").map (·, .dtc)
      else none)
  | .dtc =>
    (n, if contains text "Diagnostic Trouble Codes" then
        (function text n.target.label).map (·, .done)
      else none)
  | .engine =>
    (n, if contains text "Customer Functions" ∧ last text = "Engine Control".toList then
        some (enter, .engineMenu)
      else none)
  | .engineMenu => n.selectEngineMenu text
  | .done => (n, none)

def splash (text : Chars) : Bool :=
  contains text "Software Version" &&
    (contains text "Press [ENTER]" || contains text "Press ENTER")

/-- What is done on a screen that has been stable. -/
def proposeStable (text : Chars) : Navigator × Option (UInt8 × Stage) :=
  if n.stage = .main ∧ splash text then ({ n with join := false }, some (enter, .main))
  else if n.join then
    match n.joined text with
    | none => ({ n with join := false }.cancel, none)
    | some stage => { n with join := false, stage }.select text
  else n.select text

def propose (screen : Chars) (now : UInt64) : Navigator × Option (UInt8 × Stage) :=
  let text := trim screen
  if n.stage = .done ∨ n.stageAt = none ∧ text = [] then (n, none)
  else
    let since := n.stageAt.getD now
    let n := { n with stageAt := some since }
    if stageMs < saturatingSub now since then (n.cancel, none)
    else if n.candidate ≠ text then ({ n with candidate := text, stableAt := now }, none)
    else if text = [] ∨ text = n.sent ∨ saturatingSub now n.stableAt < stableMs then (n, none)
    else n.proposeStable text

/-- What is kept together with a key that is sent. -/
def commit (proposed : Stage) (now : UInt64) : Navigator :=
  if proposed ≠ n.stage then
    { n with sent := n.candidate, stage := proposed, stageAt := some now, moves := 0 }
  else { n with sent := n.candidate, moves := n.moves + 1 }

def step (screen : Chars) (now : UInt64) : Navigator × Option UInt8 :=
  match n.propose screen now with
  | (n, none) => (n, none)
  | (n, some (key, proposed)) => (n.commit proposed now, some key)

/-! ## JSON -/

def toJson : Value :=
  .object
    [("target", .string n.target.name),
      ("year", .u64 n.year.toUInt64),
      ("stage", .string n.stage.name),
      ("join", .bool n.join),
      ("manual", .bool n.manual),
      ("candidate", .string (String.ofList n.candidate)),
      ("sent", .string (String.ofList n.sent)),
      ("stable_at", .u64 n.stableAt),
      ("stage_at", (n.stageAt.map Value.u64).getD .null),
      ("moves", .u64 n.moves)]

def fromJson (v : Value) : Option Navigator := do
  let target ← Target.parse (← (v.get "target").asStr)
  let year ← (v.get "year").asU64
  let stage ← (v.get "stage").asStr
  let join ← (v.get "join").asBool
  let manual ← (v.get "manual").asBool
  let candidate ← (v.get "candidate").asStr
  let sent ← (v.get "sent").asStr
  let stableAt ← (v.get "stable_at").asU64
  let moves ← (v.get "moves").asU64
  some
    { target, join, manual, stableAt, moves
      year := year.toUInt16
      stage := .parse stage
      candidate := candidate.toList.take screenLimit
      sent := sent.toList.take screenLimit
      stageAt := (v.get "stage_at").asU64 }

theorem get_stageAt : (n.toJson.get "stage_at").asU64 = n.stageAt := by
  change ((n.stageAt.map Value.u64).getD .null).asU64 = n.stageAt
  cases n.stageAt with
  | none | some => rfl

theorem fromJson_toJson (hcandidate : n.candidate.length ≤ screenLimit)
    (hsent : n.sent.length ≤ screenLimit) : fromJson n.toJson = some n := by
  unfold fromJson
  rw [get_stageAt]
  change (Target.parse n.target.name).bind _ = some n
  rw [Target.parse_name]
  change some
    { n with
      year := n.year.toUInt64.toUInt16
      stage := .parse n.stage.name
      candidate := (String.ofList n.candidate).toList.take screenLimit
      sent := (String.ofList n.sent).toList.take screenLimit } = some n
  rw [UInt16.toUInt16_toUInt64, Stage.parse_name, String.toList_ofList, String.toList_ofList,
    List.take_of_length_le hcandidate, List.take_of_length_le hsent]

/-! ## Requests -/

def hint : String :=
  let label := n.target.label
  if n.manual then
    if n.year = 0 then
      label ++ " shortcut needs an identified MY2003–2012 Saab 9-3 Sport (9440) with English menus. " ++
        "Navigate the original menus manually."
    else "Return to a firmware menu and choose " ++ label ++ " again, or navigate manually."
  else if n.stage = .done then "Opened " ++ label ++ " · follow the firmware prompts."
  else
    "Selecting " ++ toString n.year ++ " · Saab 9-3 Sport (9440) → " ++ label ++
      "… Press any firmware key to take over."

def answer (key : Option UInt8) : Value :=
  .object
    [("navigation", n.toJson),
      ("key", (key.map fun k => Value.u64 k.toUInt64).getD .null),
      ("active", .bool n.active),
      ("hint", .string n.hint)]

end Navigator

def readOnlyHint : String :=
  "This connection is read-only. Start a Full native control session for this task."

/-- Where a request continues from: a state that was kept, or a new shortcut. -/
def resumed (v : Value) : Except String (Option Navigator) :=
  if (v.get "navigation").isObject then
    match Navigator.fromJson (v.get "navigation") with
    | some n => .ok (some n)
    | none => .error "Invalid navigation state"
  else
    match Target.parse ((v.get "target").asStr.getD "") with
    | none => .error "Unsupported shortcut"
    | some target =>
      if target.needsFullControl ∧ ¬ (v.get "full_control").isTrue then .ok none
      else .ok (some (.new target ((v.get "vin").asStr.getD "").toList true))

def dispatch (v : Value) : Except String Value :=
  (resumed v).map fun resumed =>
    match resumed with
    | none =>
      .object [("rejected", .bool true), ("active", .bool false), ("hint", .string readOnlyHint)]
    | some n =>
      if (v.get "cancel").isTrue then n.cancel.answer none
      else
        match (v.get "screen").asStr with
        | none => n.answer none
        | some screen =>
          let (n, key) := n.step screen.toList ((v.get "now_ms").asU64.getD 0)
          n.answer key

/-- The request that continues with a state that was kept. -/
def continued (navigation : Value) (screen : Chars) (now : UInt64) : Value :=
  .object
    [("navigation", navigation), ("screen", .string (String.ofList screen)), ("now_ms", .u64 now)]

theorem dispatch_continued (n : Navigator) (hcandidate : n.candidate.length ≤ screenLimit)
    (hsent : n.sent.length ≤ screenLimit) (screen : Chars) (now : UInt64) :
    dispatch (continued n.toJson screen now) =
      .ok ((n.step screen now).1.answer (n.step screen now).2) := by
  have hnavigation : (continued n.toJson screen now).get "navigation" = n.toJson := rfl
  have hscreen : ((continued n.toJson screen now).get "screen").asStr =
      some (String.ofList screen) := rfl
  have hresumed : resumed (continued n.toJson screen now) = .ok (some n) := by
    unfold resumed
    rw [hnavigation, if_pos (show n.toJson.isObject = true from rfl),
      Navigator.fromJson_toJson n hcandidate hsent]
  unfold dispatch
  rw [hresumed, hscreen]
  change Except.ok (((n.step (String.ofList screen).toList now).1).answer
    (n.step (String.ofList screen).toList now).2) = _
  rw [String.toList_ofList]

end OpenSaab.Menu
