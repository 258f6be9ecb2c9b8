import OpenSaab.Library.Table
import OpenSaab.Library.Bytes
import OpenSaab.Library.Runs
import OpenSaab.Text
import Mathlib.Algebra.Ring.Nat

/-!
# The file services

`psos_files.rs`: the files behind the file traps of the operating system, read and written through
the memory of the guest.
-/

namespace OpenSaab.Files

open Std Table Bytes

/-! ## Guest memory -/

/-- `GuestMemory`: what can be read, and the RAM that can be written. -/
class GuestMemory (M : Type) where
  bytes : M → UInt32 → Nat → Option (List UInt8)
  ramMut : M → UInt32 → Nat → Option (List UInt8)
  store : M → UInt32 → List UInt8 → M
  length_bytes : ∀ m a n bs, bytes m a n = some bs → bs.length = n
  ram_bytes : ∀ m a n bs, 0 < n → ramMut m a n = some bs → bytes m a n = some bs
  ram_available : ∀ m a bs b n, (ramMut m a bs.length).isSome →
    (ramMut (store m a bs) b n).isSome = (ramMut m b n).isSome
  ram_store : ∀ m a bs, (ramMut m a bs.length).isSome →
    ramMut (store m a bs) a bs.length = some bs

/-- What stops the program. -/
inductive Panic where
  | unwrap
  | missingFile
  | outOfRange
  | underflow
  deriving DecidableEq, Repr

variable {M : Type} [GuestMemory M]

/-- `u32::from_be_bytes`. -/
def beWord (bytes : List UInt8) : UInt32 := bytes.foldl (fun n b => n <<< 8 ||| b.toUInt32) 0

/-- `u32::to_be_bytes`. -/
def wordBytes (n : UInt32) : List UInt8 :=
  [(n >>> 24).toUInt8, (n >>> 16).toUInt8, (n >>> 8).toUInt8, n.toUInt8]

def u8 (m : M) (a : UInt32) : Option UInt8 := (GuestMemory.bytes m a 1).bind List.head?

def u32 (m : M) (a : UInt32) : Option UInt32 := (GuestMemory.bytes m a 4).map beWord

/-- `u32::checked_add`. -/
def checkedAdd (a : UInt32) (n : Nat) : Option UInt32 :=
  if a.toNat + n < 4294967296 then some (a + UInt32.ofNat n) else none

/-- `ram_mut(a, ..).unwrap().copy_from_slice(bs)`. -/
def put (m : M) (a : UInt32) (bs : List UInt8) : Except Panic M :=
  if (GuestMemory.ramMut m a bs.length).isSome then .ok (GuestMemory.store m a bs)
  else .error .unwrap

/-! ## Names -/

def forbidden : List Char := ['<', '>', ':', '"', '/', '\\', '|', '?', '*']

/-- `capture::safe_name`. -/
def safeName (name : String) : Bool :=
  let chars := name.toList
  let stem := (chars.takeWhile (· != '.')).map Char.toUpper
  !(chars.isEmpty || 255 < name.utf8ByteSize || chars.getLast? == some '.' ||
      chars.getLast? == some ' ' ||
      chars.any fun c => c.toNat < 32 || 127 ≤ c.toNat || forbidden.contains c) &&
    !(["CON".toList, "PRN".toList, "AUX".toList, "NUL".toList].contains stem) &&
    !(stem.length == 4 && (stem.take 3 == "COM".toList || stem.take 3 == "LPT".toList) &&
      (stem.drop 3).all fun c => '1' ≤ c && c ≤ '9')

/-- The bytes of a name, `left` of them at most. -/
def nameBytes (m : M) (p : UInt32) : Nat → Nat → Option (List UInt8)
  | _, 0 => some []
  | n, left + 1 =>
    match (checkedAdd p n).bind (u8 m) with
    | none => none
    | some c => if c = 0 then some [] else (nameBytes m p (n + 1) left).map (c :: ·)

/-- A volume in front of the name. -/
def stripVolume (bytes : List UInt8) : List UInt8 :=
  if 5 < bytes.length ∧ bytes[1]? = some 46 ∧ bytes[5]? = some 47 then bytes.drop 6 else bytes

def guestFilename (m : M) (p : UInt32) : Option String :=
  match nameBytes m p 0 260 with
  | none => none
  | some bytes =>
    let bytes := if bytes.length = 260 then bytes.dropLast else bytes
    match String.fromUTF8? ⟨(stripVolume bytes).toArray⟩ with
    | none => none
    | some name =>
      let name := String.ofList (name.toList.map Char.toUpper)
      if safeName name then some name else none

/-! ## The store -/

def capacity : Nat := 33554432

/-- `ERROR`. -/
def fileError : UInt32 := 0x2002

structure HostFile where
  original : List UInt8
  bytes : List UInt8
  created : Bool
  deriving DecidableEq, Repr

structure Handle where
  name : String
  offset : Nat
  deriving DecidableEq, Repr

structure PsosFiles where
  files : TreeMap String HostFile
  handles : TreeMap UInt32 Handle
  lastError : String
  calls : Nat
  enabled : Bool
  initialized : Bool

def PsosFiles.default : PsosFiles := ⟨∅, ∅, "", 0, false, false⟩

def PsosFiles.staged : PsosFiles := { PsosFiles.default with enabled := true }

/-- The files of the capture storage are taken in one by one. -/
def PsosFiles.seedFrom (s : PsosFiles) : Nat → List (String × List UInt8) →
    Except String PsosFiles
  | _, [] => .ok s
  | total, (name, bytes) :: rest =>
    let name := String.ofList (name.toList.map Char.toUpper)
    if ¬ safeName name ∨ capacity < total + bytes.length ∨ 256 ≤ s.files.size ∨
        s.files[name]?.isSome then
      .error "Unsupported pSOS flat namespace/capacity"
    else
      seedFrom { s with files := s.files.insert name ⟨bytes, bytes, false⟩ } (total + bytes.length)
        rest

/-- `seed`, from the files that the storage holds. -/
def PsosFiles.seed (files : List (String × List UInt8)) : Except String PsosFiles :=
  PsosFiles.seedFrom { PsosFiles.default with enabled := true, initialized := true } 0 files

def PsosFiles.resetDescriptors (s : PsosFiles) : PsosFiles := { s with handles := ∅ }

/-- The sizes of all files. -/
def PsosFiles.total (s : PsosFiles) : Nat := ((values s.files).map fun f => f.bytes.length).sum

/-- `{:03x}` and the like. -/
def hexPadded (width n : Nat) : String :=
  let digits := Nat.toDigits 16 n
  String.ofList (List.replicate (width - digits.length) '0' ++ digits)

/-- The text of an error that has none. -/
def PsosFiles.explain (s : PsosFiles) (op code : UInt32) : PsosFiles :=
  if code ≠ 0 ∧ s.lastError = "" then
    { s with
      lastError := "pSOS file service " ++ hexPadded 3 op.toNat ++ " failed (" ++
        hexPadded 4 code.toNat ++ ")" }
  else s

/-- `self.files[&h.name]`. -/
def PsosFiles.fileOf (s : PsosFiles) (h : Handle) : Except Panic HostFile :=
  match s.files[h.name]? with
  | some f => .ok f
  | none => .error .missingFile

/-- `xs[lo..hi]`. -/
def slice (xs : List UInt8) (lo hi : Nat) : Except Panic (List UInt8) :=
  if lo ≤ hi ∧ hi ≤ xs.length then .ok ((xs.drop lo).take (hi - lo)) else .error .outOfRange

/-- The status of a service, the store and the memory after it. -/
abbrev Served (M : Type) := UInt32 × PsosFiles × M

/-! ## The services -/

namespace PsosFiles

def create (s : PsosFiles) (m : M) (args : List UInt32) : Except Panic (Served M) :=
  match guestFilename m (args.getD 0 0) with
  | some name =>
    if s.files[name]?.isNone ∧ s.files.size < 256 then
      .ok (0, { s with files := s.files.insert name ⟨[], [], true⟩ }, m)
    else .ok (0x2011, s.explain 0x208 0x2011, m)
  | none => .ok (0x2011, s.explain 0x208 0x2011, m)

/-- The first slot without a handle. -/
def freeSlot (s : PsosFiles) : Option UInt32 :=
  [1, 2, 3, 4].find? fun slot => s.handles[slot]?.isNone

/-- A file that exists and is not open. -/
def openable (s : PsosFiles) (name : String) : Bool :=
  s.files[name]?.isSome && !(values s.handles).any fun h => h.name == name

def openFile (s : PsosFiles) (m : M) (args : List UInt32) : Except Panic (Served M) :=
  -- The name is read before the handle, which may be at the same place.
  let name := guestFilename m (args.getD 1 0)
  let out := args.getD 0 0
  if (GuestMemory.ramMut m out 4).isNone then .ok (fileError, s, m)
  else do
    let m ← put m out [0, 0, 0, 0]
    match s.freeSlot with
    | none => .ok (0, s, m)
    | some slot =>
      match name with
      | some name =>
        if s.openable name then do
          let m ← put m out (wordBytes slot)
          .ok (0, { s with handles := s.handles.insert slot ⟨name, 0⟩ }, m)
        else .ok (fileError, s.explain 0x20d fileError, m)
      | none => .ok (fileError, s.explain 0x20d fileError, m)

/-- The handle moved to an offset. -/
def moveTo (s : PsosFiles) (key : UInt32) (h : Handle) (offset : Nat) : PsosFiles :=
  { s with handles := s.handles.insert key { h with offset } }

def read (s : PsosFiles) (m : M) (args : List UInt32) : Except Panic (Served M) :=
  let count := (args.getD 2 0).toNat
  if capacity < count ∨ (GuestMemory.ramMut m (args.getD 3 0) 4).isNone then .ok (fileError, s, m)
  else
    match s.handles[args.getD 0 0]? with
    | none => .ok (fileError, s, m)
    | some h => do
      let f ← s.fileOf h
      let amount := min count (f.bytes.length - h.offset)
      if 0 < amount ∧ (GuestMemory.ramMut m (args.getD 1 0) amount).isNone then
        .ok (fileError, s, m)
      else do
        let m ← put m (args.getD 3 0) (wordBytes (UInt32.ofNat amount))
        if 0 < amount then do
          let data ← slice f.bytes h.offset (h.offset + amount)
          let m ← put m (args.getD 1 0) data
          .ok (0, s.moveTo (args.getD 0 0) h (h.offset + amount), m)
        else .ok (0, s.moveTo (args.getD 0 0) h (h.offset + amount), m)

/-- `n as i32`. -/
def signed (n : UInt32) : Int := n.toBitVec.toInt

/-- Where a seek starts from. -/
def seekBase (s : PsosFiles) (h : Handle) (whence : UInt32) : Except Panic (Option Nat) :=
  if whence = 0 then .ok (some 0)
  else if whence = 1 then .ok (some h.offset)
  else if whence = 2 then do
    let f ← s.fileOf h
    .ok (some f.bytes.length)
  else .ok none

def seek (s : PsosFiles) (m : M) (args : List UInt32) : Except Panic (Served M) :=
  match s.handles[args.getD 0 0]? with
  | none => .ok (fileError, s, m)
  | some h => do
    match ← s.seekBase h (args.getD 1 0) with
    | none => .ok (fileError, s, m)
    | some base =>
      let position : Int := base + signed (args.getD 2 0)
      if ¬ (0 ≤ position ∧ position ≤ capacity) then
        .ok (fileError, s.explain 0x20e fileError, m)
      else
        let s := s.moveTo (args.getD 0 0) h position.toNat
        if position = 0 then .ok (0, s, m)
        else
          .ok (fileError,
            { s with lastError := "OEM nonzero seek position returns 2002 after moving" }, m)

/-- The contents after a write: as long as it has to be, with the bytes at their offset. -/
def written (bytes : List UInt8) (offset : Nat) (input : List UInt8) : List UInt8 :=
  overwrite (resize bytes (max (offset + input.length) bytes.length) 0) offset input

/-- `room`: whether the allocator grants what the file grows by. -/
def write (s : PsosFiles) (m : M) (args : List UInt32) (room : Bool) : Except Panic (Served M) :=
  match s.handles[args.getD 0 0]? with
  | none => .ok (fileError, s, m)
  | some h =>
    let count := (args.getD 2 0).toNat
    if capacity < count then .ok (fileError, s, m)
    else if count = 0 then .ok (0, s, m)
    else
      match GuestMemory.bytes m (args.getD 1 0) count with
      | none => .ok (fileError, s, m)
      | some input =>
        -- What can be read but not written is no source either.
        if (GuestMemory.ramMut m (args.getD 1 0) count).isNone then .ok (fileError, s, m)
        else do
          let stop := h.offset + count
          let f ← s.fileOf h
          let growth := stop - f.bytes.length
          if capacity < stop then .ok (fileError, s.explain 0x210 fileError, m)
          else if capacity < s.total then .error .underflow
          else if capacity - s.total < growth then .ok (fileError, s.explain 0x210 fileError, m)
          else if ¬ room then .ok (fileError, s, m)
          else
            let f := { f with bytes := written f.bytes h.offset input }
            .ok (0, { s with files := s.files.insert h.name f }.moveTo (args.getD 0 0) h stop, m)

def close (s : PsosFiles) (m : M) (args : List UInt32) : Except Panic (Served M) :=
  if s.handles[args.getD 0 0]?.isSome then
    .ok (0, { s with handles := s.handles.erase (args.getD 0 0) }, m)
  else .ok (fileError, s.explain 0x214 fileError, m)

/-- The arguments on the stack, behind the return address. -/
def readArgs (m : M) (sp : UInt32) : Nat → Nat → Except String (List UInt32)
  | _, 0 => .ok []
  | i, left + 1 =>
    match checkedAdd sp (4 + i * 4) with
    | none => .error ""
    | some p =>
      match u32 m p with
      | none => .error "pSOS arguments exceed mapped memory"
      | some v => (readArgs m sp (i + 1) left).map (v :: ·)

def argCount (op : UInt32) : Option Nat :=
  if op = 0x204 ∨ op = 0x20c ∨ op = 0x214 then some 1
  else if op = 0x21c then some 2
  else if op = 0x208 ∨ op = 0x20d ∨ op = 0x210 then some 3
  else if op = 0x20e ∨ op = 0x20f then some 4
  else none

def serve (s : PsosFiles) (op : UInt32) (m : M) (args : List UInt32) (room : Bool) :
    Except Panic (Served M) :=
  if op = 0x208 then s.create m args
  else if op = 0x20d then s.openFile m args
  else if op = 0x20f then s.read m args
  else if op = 0x20e then s.seek m args
  else if op = 0x210 then s.write m args room
  else if op = 0x214 then s.close m args
  else .ok (0, s, m)

/-- No status where the trap is none of the file services. -/
def dispatch (s : PsosFiles) (op sp : UInt32) (m : M) (room : Bool) :
    Except Panic (Option UInt32 × PsosFiles × M) :=
  match argCount op with
  | none => .ok (none, s, m)
  | some count =>
    if ¬ s.enabled then .ok (none, s, m)
    else
      let s := { s with calls := s.calls + 1, lastError := "" }
      match readArgs m sp 0 count with
      | .error text => .ok (some fileError, { s with lastError := text }, m)
      | .ok args => (s.serve op m args room).map fun r => (some r.1, r.2.1, r.2.2)

end PsosFiles

/-! ## Plain memory -/

/-- `TestMemory`: nothing but RAM, from address zero on. -/
structure TestMemory where
  ram : List UInt8

def TestMemory.bytes (m : TestMemory) (a : UInt32) (n : Nat) : Option (List UInt8) :=
  if a.toNat + n ≤ m.ram.length then some ((m.ram.drop a.toNat).take n) else none

theorem TestMemory.isSome_bytes (m : TestMemory) (a : UInt32) (n : Nat) :
    (m.bytes a n).isSome = decide (a.toNat + n ≤ m.ram.length) := by
  unfold TestMemory.bytes
  split <;> simp [*]

theorem TestMemory.length_bytes (m : TestMemory) (a : UInt32) (n : Nat) (bs : List UInt8)
    (h : m.bytes a n = some bs) : bs.length = n := by
  unfold TestMemory.bytes at h
  split at h
  · obtain rfl := Option.some.inj h
    rw [List.length_take, List.length_drop]
    omega
  · cases h

theorem TestMemory.bytes_overwrite (m : TestMemory) (a : UInt32) (bs : List UInt8)
    (h : (m.bytes a bs.length).isSome) :
    TestMemory.bytes ⟨overwrite m.ram a.toNat bs⟩ a bs.length = some bs := by
  rw [TestMemory.isSome_bytes, decide_eq_true_eq] at h
  rw [TestMemory.bytes, length_overwrite h, if_pos h]
  have hfront : (m.ram.take a.toNat).length = a.toNat := by
    rw [List.length_take]
    omega
  rw [overwrite, List.append_assoc, List.drop_append_of_le_length (by omega),
    List.drop_of_length_le (by omega), List.nil_append, List.take_left']
  rfl

theorem TestMemory.available_overwrite (m : TestMemory) (a : UInt32) (bs : List UInt8) (b : UInt32)
    (n : Nat) (h : (m.bytes a bs.length).isSome) :
    (TestMemory.bytes ⟨overwrite m.ram a.toNat bs⟩ b n).isSome = (m.bytes b n).isSome := by
  rw [TestMemory.isSome_bytes, decide_eq_true_eq] at h
  rw [TestMemory.isSome_bytes, TestMemory.isSome_bytes, length_overwrite h]

instance testMemory : GuestMemory TestMemory where
  bytes := TestMemory.bytes
  ramMut := TestMemory.bytes
  store m a bs := ⟨overwrite m.ram a.toNat bs⟩
  length_bytes := TestMemory.length_bytes
  ram_bytes _ _ _ _ _ h := h
  ram_available := TestMemory.available_overwrite
  ram_store := TestMemory.bytes_overwrite

end OpenSaab.Files
