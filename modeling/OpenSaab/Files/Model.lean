import OpenSaab.Files.Store
import OpenSaab.Library.Sparse
import Mathlib.Logic.Function.Basic

/-!
# What the file services mean

Sparse files by name and handles by key, with no guest memory in them. `Refinement.lean` shows
that the store does what is said here.
-/

namespace OpenSaab.Files

@[ext] structure Model where
  files : String → Option (Sparse (0 : UInt8))
  handles : UInt32 → Option Handle

/-- A service as the arguments and the memory of the guest ask for it. -/
inductive Request where
  | nothing
  | unread
  | create (name : Option String)
  | openFile (out : UInt32) (writable : Bool) (name : Option String)
  | read (key : UInt32) (count : Nat) (buffer countAt : UInt32) (fits : Nat → Bool)
  | seek (key whence : UInt32) (delta : Int)
  | write (key : UInt32) (input : Option (List UInt8)) (granted : Bool)
  | close (key : UInt32)

/-- What goes into the memory of the guest, in order. -/
abbrev Stores := List (UInt32 × List UInt8)

namespace Model

def setFile (s : Model) (name : String) (f : Sparse (0 : UInt8)) : Model :=
  { s with files := Function.update s.files name (some f) }

def setHandle (s : Model) (key : UInt32) (h : Option Handle) : Model :=
  { s with handles := Function.update s.handles key h }

/-- A file that does not exist holds nothing. -/
def contents (s : Model) (name : String) : Sparse (0 : UInt8) := (s.files name).getD Sparse.empty

/-- Where a seek starts from. -/
def base (s : Model) (h : Handle) (whence : UInt32) : Option Nat :=
  if whence = 0 then some 0
  else if whence = 1 then some h.offset
  else if whence = 2 then (s.files h.name).map Sparse.size
  else none

/-- There are as many files as there may be. -/
def Crowded (s : Model) : Prop :=
  ∃ names : List String, names.Nodup ∧ 256 ≤ names.length ∧ ∀ n ∈ names, (s.files n).isSome

/-- The files leave no room for so much more. -/
def Full (s : Model) (growth : Nat) : Prop :=
  ∃ names : List String, names.Nodup ∧
    capacity < (names.map fun n => (s.contents n).size).sum + growth

def slots : List UInt32 := [1, 2, 3, 4]

/-- The only grounds on which a request is turned down. -/
def Refuses (s : Model) : Request → Prop
  | .nothing => False
  | .unread => True
  | .create name => ∀ n, name = some n → s.files n = none → s.Crowded
  | .openFile _ writable name =>
    writable = true → (∃ slot ∈ slots, s.handles slot = none) ∧
      ∀ n, name = some n → s.files n = none ∨ ∃ k h, s.handles k = some h ∧ h.name = n
  | .read key count _ _ fits =>
    ∀ h f, s.handles key = some h → s.files h.name = some f → count ≤ capacity →
      fits (f.read h.offset count).length = false
  | .seek key whence delta =>
    ∀ h b, s.handles key = some h → s.base h whence = some b →
      ¬ (0 ≤ (b : Int) + delta ∧ (b : Int) + delta ≤ capacity)
  | .write key input granted =>
    ∀ h f ys, s.handles key = some h → s.files h.name = some f → input = some ys →
      ys ≠ [] ∧ (capacity < h.offset + ys.length ∨ s.Full (h.offset + ys.length - f.size) ∨
        granted = false)
  | .close key => s.handles key = none

/-- The handle is cleared before a file is looked for. -/
def cleared : Request → Stores
  | .openFile out true _ => [(out, [0, 0, 0, 0])]
  | _ => []

/-- The bytes of a read, where there are any. -/
def dataStores (buffer : UInt32) : List UInt8 → Stores
  | [] => []
  | b :: bs => [(buffer, b :: bs)]

/-- One service: its status, what it puts into memory and the files and handles after it. -/
inductive Step (s : Model) : Request → UInt32 → Stores → Model → Prop
  | refused {req code} (h : s.Refuses req) (hcode : code ≠ 0) : Step s req code (cleared req) s
  | nothing : Step s .nothing 0 [] s
  | created {name} (h : s.files name = none) :
      Step s (.create (some name)) 0 [] (s.setFile name Sparse.empty)
  | opened {out name slot} (hname : s.files name ≠ none) (hslot : slot ∈ slots)
      (hfree : s.handles slot = none) (hshut : ∀ k h, s.handles k = some h → h.name ≠ name) :
      Step s (.openFile out true (some name)) 0 [(out, [0, 0, 0, 0]), (out, wordBytes slot)]
        (s.setHandle slot (some ⟨name, 0⟩))
  | noSlot {out name} (h : ∀ slot ∈ slots, s.handles slot ≠ none) :
      Step s (.openFile out true name) 0 [(out, [0, 0, 0, 0])] s
  | read {key count buffer countAt fits h f} (hkey : s.handles key = some h)
      (hfile : s.files h.name = some f) :
      Step s (.read key count buffer countAt fits) 0
        ((countAt, wordBytes (UInt32.ofNat (f.read h.offset count).length)) ::
          dataStores buffer (f.read h.offset count))
        (s.setHandle key (some { h with offset := h.offset + (f.read h.offset count).length }))
  | sought {key whence delta h b} {position : Nat} (hkey : s.handles key = some h)
      (hbase : s.base h whence = some b) (hposition : (position : Int) = b + delta)
      (hcap : position ≤ capacity) :
      Step s (.seek key whence delta) (if position = 0 then 0 else fileError) []
        (s.setHandle key (some { h with offset := position }))
  | wroteNothing {key granted h} (hkey : s.handles key = some h) :
      Step s (.write key (some []) granted) 0 [] s
  | wrote {key granted h f ys} (hkey : s.handles key = some h) (hfile : s.files h.name = some f)
      (hys : ys ≠ []) :
      Step s (.write key (some ys) granted) 0 []
        ((s.setFile h.name (f.write h.offset ys)).setHandle key
          (some { h with offset := h.offset + ys.length }))
  | closed {key h} (hkey : s.handles key = some h) :
      Step s (.close key) 0 [] (s.setHandle key none)

/-! ## What a status says -/

/-- Nothing has changed, but that a seek to a position other than zero has moved its handle. -/
def LeftAlone (s : Model) (req : Request) (s' : Model) : Prop :=
  s' = s ∨ ∃ key whence delta h position, req = .seek key whence delta ∧ position ≠ 0 ∧
    s.handles key = some h ∧ s' = s.setHandle key (some { h with offset := position })

theorem Step.failed {s s' : Model} {req : Request} {code : UInt32} {out : Stores}
    (h : s.Step req code out s') (hcode : code ≠ 0) : s.LeftAlone req s' := by
  cases h with
  | refused => exact .inl rfl
  | @sought key whence delta h b position hkey hbase hposition hcap =>
    refine .inr ⟨key, whence, delta, h, position, rfl, ?_, hkey, rfl⟩
    rintro rfl
    exact hcode rfl
  | nothing => exact absurd rfl hcode
  | created => exact absurd rfl hcode
  | opened => exact absurd rfl hcode
  | noSlot => exact absurd rfl hcode
  | read => exact absurd rfl hcode
  | wroteNothing => exact absurd rfl hcode
  | wrote => exact absurd rfl hcode
  | closed => exact absurd rfl hcode

/-! ## What is written -/

/-- The write that a service has made to a file. -/
def accepted (s : Model) (req : Request) (code : UInt32) (name : String) :
    List (Nat × List UInt8) :=
  match req with
  | .write key (some ys) _ =>
    match s.handles key with
    | some h => if code = 0 ∧ ys ≠ [] ∧ h.name = name then [(h.offset, ys)] else []
    | none => []
  | _ => []

@[simp] theorem contents_setHandle (s : Model) (key : UInt32) (h : Option Handle) (name : String) :
    (s.setHandle key h).contents name = s.contents name := rfl

theorem contents_setFile (s : Model) (name other : String) (f : Sparse (0 : UInt8)) :
    (s.setFile name f).contents other = if other = name then f else s.contents other := by
  simp only [contents, setFile, Function.update_apply]
  split <;> rfl

/-- A file holds what it held, and the write that was made to it. -/
theorem Step.contents {s s' : Model} {req : Request} {code : UInt32} {out : Stores}
    (h : s.Step req code out s') (name : String) :
    s'.contents name = (s.contents name).writeAll (s.accepted req code name) := by
  cases h with
  | @refused req code h hcode =>
    have hnone : s.accepted req code name = [] := by
      unfold accepted
      split
      · split
        · rw [if_neg (fun hc => hcode hc.1)]
        · rfl
      · rfl
    rw [hnone]
    rfl
  | @created name' h =>
    rw [contents_setFile]
    split
    · next heq =>
      subst heq
      rw [Model.contents, h]
      rfl
    · rfl
  | @wroteNothing key granted h hkey => simp [accepted, hkey, Sparse.writeAll]
  | @wrote key granted h f ys hkey hfile hys =>
    rw [contents_setHandle, contents_setFile]
    by_cases heq : name = h.name
    · subst heq
      simp [accepted, hkey, hys, Sparse.writeAll, Model.contents, hfile]
    · simp [accepted, hkey, Ne.symm heq, heq, Sparse.writeAll]
  | nothing => rfl
  | opened => rfl
  | noSlot => rfl
  | read => rfl
  | sought => rfl
  | closed => rfl

end Model

end OpenSaab.Files
