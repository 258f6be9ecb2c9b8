import OpenSaab.Config.Document
import OpenSaab.Library.Programs

/-!
# Saving a configuration

`Tech2WinConfig::save_checked`: the text goes to a staging file, what the destination held to a
backup, and the staging file takes the place of the destination.
-/

namespace OpenSaab.Config

open Program

abbrev Contents := List UInt8

/-! ## The disk -/

/-- What stands under the name of the destination. -/
inductive Node
  | regular (bytes : Contents)
  /-- A link, a directory or the like, and what a read of it gives. -/
  | special (reads : Option Contents)
  deriving DecidableEq, Repr

def Node.reads : Node → Option Contents
  | .regular bytes => some bytes
  | .special reads => reads

def Node.isFile : Node → Bool
  | .regular _ => true
  | .special _ => false

/-- The three names that a save is about. `given` is what the destination held last that did not come
from the save. -/
structure Disk where
  destination : Option Node
  staging : Option Contents
  backup : Option Contents
  given : Option Node
  deriving DecidableEq, Repr

/-- How a read ends: with what is stored, with a failure, or with other bytes. -/
inductive Reading.Outcome
  | stored
  | failed (e : String)
  | other (bytes : Contents)
  deriving DecidableEq, Repr

def Reading.Outcome.of (r : Reading.Outcome) (stored : Option Contents) : Except String Contents :=
  match r, stored with
  | .failed e, _ => .error e
  | _, none => .error "No such file or directory (os error 2)"
  | .stored, some bytes => .ok bytes
  | .other bytes, some _ => .ok bytes

/-- How a new file is written: with all its bytes, not created, or broken off in the write or in the
sync. -/
inductive Writing.Outcome
  | done
  | refused (e : String)
  | broken (stored : Contents) (e : String)
  deriving DecidableEq, Repr

/-- How the file operations of one save end, and what the destination holds before those that look at
it. -/
structure Outcomes where
  atStart : Option Node
  metadata : Except String Unit
  atRead : Option Node
  read : Reading.Outcome
  staging : Writing.Outcome
  stagingRead : Reading.Outcome
  backup : Writing.Outcome
  backupRead : Reading.Outcome
  atCheck : Option Node
  check : Except String Unit
  atCompare : Option Node
  compare : Reading.Outcome
  permissions : Except String Unit
  link : Except String Unit
  unlink : Except String Unit
  rename : Except String Unit
  verify : Reading.Outcome
  sync : Except String Unit
  cleanup : Except String Unit
  /-- The process, the time and the number of the save. -/
  suffix : Chars

structure ConfigSaveResult where
  written : Bool
  backupPath : Option Path
  deriving DecidableEq, Repr

/-! ## What may be moved -/

def movedFlags : List String := ["-P0", "-P1", "-A0", "-A1", "-KF", "-UD", "-AD", "-OF"]

def checkLine (files : Files) (c : Tech2WinConfig) (l : ConfigLine) : Except String Unit :=
  if files.normalized l.source = files.normalized c.sourcePath ∧ l.flag ∈ movedFlags then do
    let p ← resolvePath l.value l.source c.environment
    if p.unresolvedEnvironment ∨ ¬ absoluteReference p.expanded then
      .error ("Cannot move relative/unresolved " ++ l.flag ++ " reference")
    else pure ()
  else pure ()

def directory (path : Path) : Path := (parent path).getD ['.']

/-- The text is parsed again; in another directory its paths have to be absolute. -/
def checked (files : Files) (c : Tech2WinConfig) (path : Path) : Except String Unit := do
  let valid ← parseWithEnvironment files c.sourcePath c.sourceText c.environment
  if files.normalized (directory c.sourcePath) ≠ files.normalized (directory path) then
    valid.lines.forM (checkLine files c)
  else pure ()

/-- `Path::file_name`. -/
def fileName (path : Path) : Option Chars :=
  (components path).getLast?.filter fun name => name ≠ ['.', '.']

def backupPath (path : Path) (name suffix : Chars) : Path :=
  join (directory path) (name ++ ".backup-".toList ++ suffix)

/-! ## Saving -/

def require (c : Prop) [Decidable c] (e : String) : Program Disk String Unit :=
  if c then pure () else fail e

/-- Another program has changed the destination. -/
def meet (node : Option Node) : Program Disk String Unit :=
  change fun d => { d with destination := node, given := node }

def writeStaging (w : Writing.Outcome) (bytes : Contents) : Program Disk String Unit :=
  match w with
  | .done => change fun d => { d with staging := some bytes }
  | .refused e => fail e
  | .broken stored e => do
    change fun d => { d with staging := some stored }
    fail e

def writeBackup (w : Writing.Outcome) (bytes : Contents) : Program Disk String Unit :=
  match w with
  | .done => change fun d => { d with backup := some bytes }
  | .refused e => fail e
  | .broken stored e => do
    change fun d => { d with backup := some stored }
    fail e

def readDestination (r : Reading.Outcome) : Program Disk String (Except String Contents) :=
  read fun d => r.of (d.destination.bind Node.reads)

def stage (o : Outcomes) (bytes : Contents) : Program Disk String Unit := do
  writeStaging o.staging bytes
  let back ← read fun d => o.stagingRead.of d.staging
  let back ← lift back
  require (back = bytes) "Configuration staging verification failed"

def keep (o : Outcomes) : Option Contents → Program Disk String Unit
  | none => pure ()
  | some old => do
    writeBackup o.backup old
    let back ← read fun d => o.backupRead.of d.backup
    let back ← lift back
    require (back = old) "Configuration backup verification failed"

/-- A hard link is made where nothing is, the staging file is moved over what is there. -/
def place (o : Outcomes) : Option Contents → Program Disk String Unit
  | none => do
    let there ← read fun d => d.destination.isSome
    if there then fail "File exists (os error 17)"
    else
      lift o.link
      change fun d => { d with destination := d.staging.map .regular }
      lift o.unlink
      change fun d => { d with staging := none }
  | some _ => do
    lift o.rename
    change fun d => { d with destination := d.staging.map .regular, staging := none }

/-- The staging file gets the permissions of the destination. -/
def setPermissions (o : Outcomes) (previous : Option Contents) : Program Disk String Unit :=
  if previous.isSome then lift o.permissions else pure ()

/-- The block whose failure removes the staging file. -/
def replace (o : Outcomes) (bytes : Contents) (previous : Option Contents) (backup : Path) :
    Program Disk String ConfigSaveResult := do
  keep o previous
  meet o.atCheck
  let node ← read Disk.destination
  require (¬ (o.check = .ok () ∧ node.any fun n => !n.isFile))
    "Destination changed to a link/non-file during save"
  meet o.atCompare
  let current ← readDestination o.compare
  require (current.toOption = previous) "Destination changed while staging configuration"
  setPermissions o previous
  place o previous
  let saved ← readDestination o.verify
  let saved ← lift saved
  require (saved = bytes) "Saved configuration verification failed"
  lift o.sync
  pure ⟨true, previous.map fun _ => backup⟩

/-- What the destination holds, if it is there. -/
def readPrevious (o : Outcomes) (found : Option Node) : Program Disk String (Option Contents) := do
  let held ← readDestination o.read
  lift (if found.isSome then some <$> held else .ok none)

/-- A replacement that fails leaves no staging file. -/
def finish (o : Outcomes) (result : Except String ConfigSaveResult) :
    Program Disk String ConfigSaveResult :=
  match result with
  | .ok saved => pure saved
  | .error e => do
    change fun d => if o.cleanup = .ok () then { d with staging := none } else d
    fail e

def Tech2WinConfig.saveChecked (files : Files) (c : Tech2WinConfig) (path : Path) (o : Outcomes) :
    Program Disk String ConfigSaveResult := do
  lift (checked files c path)
  lift o.metadata
  let found ← read Disk.destination
  require (found.all Node.isFile) "Destination must be a regular file, not a link"
  meet o.atRead
  let previous ← readPrevious o found
  require (¬ (c.loadedPath = some (files.normalized path) ∧ previous ≠ c.loadedBytes))
    "Configuration source changed since loading"
  let bytes := encode c.sourceText c.encoding
  if previous = some bytes then pure ⟨false, none⟩
  else do
    let name ← lift ((fileName path).elim (.error "Missing filename") .ok)
    stage o bytes
    let result ← attempt (replace o bytes previous (backupPath path name o.suffix))
    finish o result

/-- The disk before the save. -/
def Outcomes.disk (o : Outcomes) : Disk := ⟨o.atStart, none, none, o.atStart⟩

end OpenSaab.Config
