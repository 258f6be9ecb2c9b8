import OpenSaab.Library.Bytes
import OpenSaab.Library.Table
import OpenSaab.Library.Words

/-!
# The image of the capture card

`capture.rs`: the FAT16 image that is made of the files of a directory, and the files that are found
in an image.
-/

namespace OpenSaab.Capture

open Bytes Words

/-! ## The geometry -/

/-- `IMAGE_SIZE`. -/
def imageSize : Nat := 0x1e8c000

/-- `SECTOR`. -/
def sectorSize : Nat := 512

/-- `CLUSTER`. -/
def clusterSize : Nat := 0x800

/-- `ROOT`. -/
def rootStart : Nat := 0xf600

/-- `BIAS`. -/
def bias : Nat := 0x12600

def le16 (b : List UInt8) (p : Nat) : Nat := ofLittle (slice b p 2)

def le32 (b : List UInt8) (p : Nat) : Nat := ofLittle (slice b p 4)

structure CaptureFile where
  name : String
  bytes : List UInt8
  changed : Bool
  deriving DecidableEq

structure CaptureStorage where
  image : List UInt8
  sourceDirectory : String
  originals : Std.TreeMap String (List UInt8)

/-! ## From a directory -/

/-- What the file system has for a name: its metadata, and then its contents. -/
inductive Entry where
  | missing
  | failed (error : String)
  | found (regular : Bool) (length : Nat) (contents : Except String (List UInt8))
  deriving DecidableEq

structure Directory where
  canonical : Except String String
  isDir : Bool
  entry : String → Entry

def captureNames : List String :=
  (List.range 10).map (fun n => "CAPTURE" ++ toString n ++ ".BIN") ++ ["$$CONF$$.DTA"]

/-- `as_bytes` of a name in ASCII. -/
def asciiBytes (name : String) : List UInt8 := name.toList.map fun c => UInt8.ofNat c.toNat

/-- The image as far as it is laid out, with the next cluster and the next place in the root. -/
structure Building where
  storage : CaptureStorage
  cluster : Nat
  entry : Nat

def clustersOf (bytes : List UInt8) : Nat := max ((bytes.length + clusterSize - 1) / clusterSize) 1

/-- The chain of a file, from the cluster after `i` of them. -/
def writeChain (image : List UInt8) (cluster clusters i : Nat) : List UInt8 :=
  let next := if i + 1 = clusters then 0xffff else cluster + i + 1
  overwrite image (sectorSize + (cluster + i) * 2) (little 2 next)

def writeEntry (image : List UInt8) (name : String) (entry cluster size : Nat) : List UInt8 :=
  let root := rootStart + entry * 32
  let image := overwrite image root ((asciiBytes name).take 8)
  let image := overwrite image (root + 8) (((asciiBytes name).drop 9).take 3)
  let image := overwrite image (root + 26) (little 2 cluster)
  overwrite image (root + 28) (little 4 size)

def writeFile (image : List UInt8) (name : String) (entry cluster : Nat) (bytes : List UInt8) :
    List UInt8 :=
  let image := writeEntry image name entry cluster bytes.length
  let image := overwrite image (bias + cluster * clusterSize) bytes
  (List.range (clustersOf bytes)).foldl
    (fun image i => writeChain image cluster (clustersOf bytes) i) image

def Building.addFile (s : Building) (name : String) (bytes : List UInt8) : Building where
  storage := { s.storage with
    image := writeFile s.storage.image name s.entry s.cluster bytes
    originals := s.storage.originals.insert name bytes }
  cluster := s.cluster + clustersOf bytes
  entry := s.entry + 1

def Building.loadFile (s : Building) (name : String) : Entry → Except String Building
  | .missing => .ok s
  | .failed e => .error e
  | .found regular length contents =>
    if !regular then .error ("Capture input must be a regular file: " ++ name)
    else if imageSize < length then .error "Capture input exceeds bounded storage"
    else
      match contents with
      | .error e => .error e
      | .ok bytes =>
        if bytes.length ≠ length then .error "Capture input changed during import"
        else if 0x3cf0 < s.cluster + clustersOf bytes ∨
            imageSize < bias + (s.cluster + clustersOf bytes) * clusterSize then
          .error "Capture files exceed FAT16 allocation"
        else .ok (s.addFile name bytes)

def Building.loadFiles (d : Directory) (s : Building) : List String → Except String Building
  | [] => .ok s
  | name :: names => do
    let s ← s.loadFile name (d.entry name)
    s.loadFiles d names

/-- `load_directory_with_empty`, with the bytes of the template. -/
def load (template : List UInt8) (d : Directory) (allowEmpty : Bool) :
    Except String CaptureStorage := do
  let source ← d.canonical
  if !d.isDir then .error "Capture input directory unavailable"
  else
    let image := overwrite (List.replicate imageSize 0) 0 template
    let s ← Building.loadFiles d ⟨⟨image, source, ∅⟩, 0x26, 0⟩ captureNames
    if s.storage.originals.isEmpty && !allowEmpty then
      .error "No installed capture/configuration files supplied"
    else .ok s.storage

/-! ## The files of an image -/

def safeName (name : String) : Bool :=
  let cs := name.toList
  let stem := (cs.takeWhile (· != '.')).map Char.toUpper
  !(cs.isEmpty || 255 < cs.length || cs.getLast? == some '.' || cs.getLast? == some ' ' ||
      cs.any fun c => !(32 ≤ c.toNat && c.toNat < 127) || "<>:\"/\\|?*".toList.contains c) &&
    !(["CON", "PRN", "AUX", "NUL"].contains (String.ofList stem)) &&
    !(stem.length == 4 && ("COM".toList.isPrefixOf stem || "LPT".toList.isPrefixOf stem) &&
      stem.getLast?.any fun c => '1' ≤ c && c ≤ '9')

/-- `from_utf8`, without the blanks at the end. -/
def field (bytes : List UInt8) (error : String) : Except String (List Char) :=
  match String.fromUTF8? ⟨bytes.toArray⟩ with
  | none => .error error
  | some text => .ok ((text.toList.reverse.dropWhile (· == ' ')).reverse)

/-- The clusters of a file, one after the other. -/
def readChain (b : List UInt8) (remaining cluster : Nat) (seen : List Nat) (bytes : List UInt8) :
    Except String (List UInt8) :=
  if remaining = 0 then .ok bytes
  else if ¬(2 ≤ cluster ∧ cluster < 0x3cf1) ∨ cluster ∈ seen then
    .error "Invalid or cyclic capture FAT chain"
  else
    let p := bias + cluster * clusterSize
    let take := min remaining clusterSize
    if b.length < p + take then .error "Capture FAT data exceeds card"
    else
      readChain b (remaining - take) (le16 b (sectorSize + cluster * 2)) (cluster :: seen)
        (bytes ++ slice b p take)
termination_by remaining
decreasing_by
  have : 0 < clusterSize := by decide
  omega

def geometryOk (b : List UInt8) : Bool :=
  le16 b 510 == 0xaa55 && le16 b 11 == 512 && b.getD 13 0 == 4 && le16 b 14 == 1 &&
    b.getD 16 0 == 2 && le16 b 17 == 512 && le16 b 22 == 61

def fileName (base ext : List UInt8) : Except String String := do
  let base ← field base "Invalid capture filename"
  let ext ← field ext "Invalid capture extension"
  if ext = [] then pure (String.ofList base)
  else pure (String.ofList (base ++ '.' :: ext))

def CaptureStorage.file (s : CaptureStorage) (r : Nat) (name : String) :
    Except String CaptureFile :=
  let size := le32 s.image (r + 28)
  if imageSize < size then .error "Capture file exceeds card"
  else do
    let bytes ← readChain s.image size (le16 s.image (r + 26)) [] []
    pure ⟨name, bytes, decide (s.originals[name]? ≠ some bytes)⟩

/-- The places of the root from `n` on, with the names that there have been. -/
def CaptureStorage.filesFrom (s : CaptureStorage) (names : List String) :
    List Nat → Except String (List CaptureFile)
  | [] => .ok []
  | n :: ns =>
    let r := rootStart + n * 32
    let first := s.image.getD r 0
    let attributes := s.image.getD (r + 11) 0
    if first = 0 then .ok []
    else if attributes &&& 15 = 15 then .error "Capture long filenames unsupported"
    else if first = 0xe5 ∨ attributes &&& 0x18 ≠ 0 then s.filesFrom names ns
    else do
      let name ← fileName (slice s.image r 8) (slice s.image (r + 8) 3)
      let key := name.map Char.toUpper
      if safeName name = false ∨ key ∈ names ∨ key ∈ ["CAPTURE-CARD.IMG", "CAPTURE-EXPORT.JSON"] then
        .error "Unsafe or duplicate capture filename"
      else
        let file ← s.file r name
        let files ← s.filesFrom (key :: names) ns
        pure (file :: files)

def CaptureStorage.files (s : CaptureStorage) : Except String (List CaptureFile) :=
  if s.image.length ≠ imageSize ∨ geometryOk s.image = false then
    .error "Guest capture FAT16 geometry is invalid"
  else s.filesFrom [] (List.range 512)

end OpenSaab.Capture
