import OpenSaab.Library.Programs
import OpenSaab.Library.Runs
import OpenSaab.Tracing.Records

/-!
# A rolling trace

`trace.rs`: records go to a file through a buffer. When the file is full it becomes the first of three
backups, and the third one is removed.
-/

namespace OpenSaab.Tracing

open Program

abbrev Contents := List UInt8

/-- How a write ends: with all the bytes, or with a failure after some. -/
inductive Write
  | done
  | broken (written : Nat) (e : String)
  deriving DecidableEq, Repr

/-- How the file operations of an event end, if they are made. -/
structure Outcomes where
  flush : Write
  write : Write
  rotateFlush : Write
  /-- The last try, when the writer is dropped. -/
  dropFlush : Write
  remove : Except String Unit
  /-- By the index of the file that is renamed. -/
  rename : Nat → Except String Unit
  create : Except String Unit

def traceBackups : Nat := 3

/-- The capacity of the buffer. -/
def capacity : Nat := 8 * 1024

/-- The trace and its files: the current one under 0, the backups under 1 to 3. `failures` is what
file operations have failed with so far. -/
structure Trace where
  files : Nat → Option Contents
  failures : List String
  writer : Option Contents
  error : Option String
  segmentBytes : Nat
  segmentLimit : Nat
  navigation : UInt64
  sequence : UInt64
  liveConsole : Bool
  concise : Bool

/-! ## Files -/

def store (files : Nat → Option Contents) (i : Nat) (contents : Option Contents) :
    Nat → Option Contents := fun j => if j = i then contents else files j

/-- A file operation fails. -/
def failed {α : Type} (e : String) : Program Trace String α := do
  change fun t => { t with failures := t.failures ++ [e] }
  fail e

def Trace.append (t : Trace) (bytes : Contents) : Trace :=
  { t with files := store t.files 0 ((t.files 0).map (· ++ bytes)) }

/-- `File::write_all`. -/
def writeFile (w : Write) (bytes : Contents) : Program Trace String Unit :=
  match w with
  | .done => change fun t => t.append bytes
  | .broken n e => do
    change fun t => t.append (bytes.take n)
    failed e

/-- `BufWriter::flush_buf`: what was not written stays in the buffer. -/
def flushBuf (w : Write) : Program Trace String Unit := do
  let writer ← read Trace.writer
  match writer with
  | none | some [] => pure ()
  | some buffer =>
    match w with
    | .done => change fun t => { t.append buffer with writer := some [] }
    | .broken n e => do
      change fun t => { t.append (buffer.take n) with writer := some (buffer.drop n) }
      failed e

def Trace.buffered (t : Trace) : Nat := (t.writer.getD []).length

def Trace.spareCapacity (t : Trace) : Nat := capacity - t.buffered

def makeRoom (o : Outcomes) (bytes : Contents) : Program Trace String Unit := do
  if ← read fun t => decide (t.spareCapacity < bytes.length) then flushBuf o.flush else pure ()

/-- More than the buffer can hold goes to the file at once. -/
def putBytes (o : Outcomes) (bytes : Contents) : Program Trace String Unit :=
  if capacity ≤ bytes.length then writeFile o.write bytes
  else change fun t => { t with writer := t.writer.map (· ++ bytes) }

/-- `BufWriter::write_all`. -/
def writeAll (o : Outcomes) (bytes : Contents) : Program Trace String Unit := do
  makeRoom o bytes
  putBytes o bytes

/-- The writer is flushed and dropped. -/
def closeWriter (o : Outcomes) : Program Trace String Unit := do
  let result ← attempt (flushBuf o.rotateFlush)
  match result with
  | .ok () => change fun t => { t with writer := none }
  | .error e => do
    let _ ← attempt (flushBuf o.dropFlush)
    change fun t => { t with writer := none }
    fail e

/-- A file that is not there need not be removed. -/
def removeFile (o : Outcomes) (i : Nat) : Program Trace String Unit :=
  match o.remove with
  | .ok () => change fun t => { t with files := store t.files i none }
  | .error e => failed e

def moved (files : Nat → Option Contents) (i : Nat) : Nat → Option Contents :=
  store (store files (i + 1) (files i)) i none

/-- A backup that is not there need not be renamed. -/
def renameBackup (o : Outcomes) (i : Nat) : Program Trace String Unit :=
  match o.rename i with
  | .ok () => change fun t => if (t.files i).isSome then { t with files := moved t.files i } else t
  | .error e => failed e

def renameCurrent (o : Outcomes) : Program Trace String Unit := do
  match o.rename 0 with
  | .ok () =>
    if ← read fun t => (t.files 0).isSome then change fun t => { t with files := moved t.files 0 }
    else failed "No such file or directory (os error 2)"
  | .error e => failed e

def createFile (o : Outcomes) : Program Trace String Unit :=
  match o.create with
  | .ok () => change fun t => { t with
      files := store t.files 0 (some []), writer := some [], segmentBytes := 0 }
  | .error e => failed e

def rotate (o : Outcomes) : Program Trace String Unit := do
  closeWriter o
  removeFile o traceBackups
  renameBackup o 2
  renameBackup o 1
  renameCurrent o
  createFile o

def rotateWhenFull (o : Outcomes) (bytes : Contents) : Program Trace String Unit := do
  if ← read fun t => decide (t.segmentLimit < t.segmentBytes + bytes.length) then rotate o
  else pure ()

def appendRecord (o : Outcomes) (bytes : Contents) : Program Trace String Unit := do
  if ← read fun t => t.writer.isSome then
    writeAll o bytes
    change fun t => { t with segmentBytes := t.segmentBytes + bytes.length }
  else pure ()

def writeRecord (o : Outcomes) (bytes : Contents) : Program Trace String Unit := do
  rotateWhenFull o bytes
  appendRecord o bytes

/-! ## The trace -/

namespace Trace

/-- `open_with_limit`, in a directory with these files. -/
def openWithLimit (files : Nat → Option Contents) (segmentLimit : Nat) : Trace where
  files := store files 0 (some [])
  failures := []
  writer := some []
  error := none
  segmentBytes := 0
  segmentLimit := segmentLimit
  navigation := 0
  sequence := 0
  liveConsole := false
  concise := false

def enabled (t : Trace) : Bool := (t.writer.isSome || t.liveConsole) && t.error.isNone

/-- The event is left out of the trace. -/
def filtered (t : Trace) (e : Event) : Bool := t.concise && lowLevelDetail e.kind.chars e.detail.chars

/-- The entry of the event. -/
def entry (t : Trace) (e : Event) : Entry := ⟨t.sequence + 1, t.navigation, e⟩

def event (t : Trace) (e : Event) (o : Outcomes) : Trace :=
  if !t.enabled || t.filtered e then t
  else if t.writer.isNone then t
  else
    match writeRecord o ((t.entry e).bytes t.segmentLimit) { t with sequence := t.sequence + 1 } with
    | (.ok (), t) => t
    | (.error e, t) => { t with error := some e }

/-- The first half of `check`. -/
def flushWriter (t : Trace) (w : Write) : Trace :=
  if t.error.isNone && t.writer.isSome then
    match flushBuf w t with
    | (.ok (), t) => t
    | (.error e, t) => { t with error := some e }
  else t

def check (t : Trace) (w : Write) : Except String Unit × Trace :=
  let t := t.flushWriter w
  match t.error with
  | some e => (.error e, t)
  | none => (.ok (), t)

/-! ## Runs -/

inductive Op
  | event (e : Event) (o : Outcomes)
  | check (w : Write)
  /-- The number of keys pressed so far. -/
  | navigate (n : UInt64)
  | conciseTransport
  | enableConsole

def step (t : Trace) : Op → Trace
  | .event e o => t.event e o
  | .check w => (t.check w).2
  | .navigate n => { t with navigation := n }
  | .conciseTransport => { t with concise := true }
  | .enableConsole => { t with liveConsole := true }

/-- The entries of the events that are not left out. -/
def unfiltered (t : Trace) : Op → List Entry
  | .event e _ => if t.filtered e then [] else [t.entry e]
  | _ => []

end Trace

end OpenSaab.Tracing
