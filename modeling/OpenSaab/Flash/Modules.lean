import OpenSaab.Library.Bytes
import OpenSaab.Library.Words

/-!
# Modules in an image

`restore_rom_modules` of `load_binary.rs`: the blank modules of the flash are found by their headers,
and filled from the modules of a system image.
-/

namespace OpenSaab.Flash

open Bytes

abbrev Image := List UInt8

/-! ## Headers -/

def headerSize : Nat := 0x20

def magicBytes : Image := [0x00, 0x10, 0x00, 0x44]

/-- Four instructions in the middle of a header. -/
def entryBytes : Image := [0x4e, 0x4b, 0x4e, 0x75, 0x4e, 0x4c, 0x4e, 0x75]

@[ext] structure Module where
  offset : Nat
  cksum : Nat
  len : Nat
  deriving DecidableEq, Repr

/-- `be_long` inside the image. -/
def beLong (image : Image) (p : Nat) : Nat := Words.ofBig (slice image p 4)

/-- The sum of the 16-bit words of a body, after `sum`. -/
def moduleChecksum (sum : Nat) : Image → Nat
  | a :: b :: rest => moduleChecksum ((sum + a.toNat * 256 + b.toNat) % 2 ^ 32) rest
  | _ => sum

/-- What is left of an image from an offset on starts with a header. -/
def headed (rest : Image) : Bool :=
  headerSize ≤ rest.length && slice rest 0 4 == magicBytes && slice rest 12 8 == entryBytes

def body (rest : Image) : Image := slice rest headerSize (beLong rest 8 - headerSize)

def blankAt (offset : Nat) (rest : Image) : Option Module :=
  if headed rest ∧ headerSize ≤ beLong rest 8 ∧ beLong rest 8 ≤ rest.length ∧
      (body rest).all (· == 0) then
    some ⟨offset, beLong rest 4, beLong rest 8⟩
  else none

def sourceAt (offset : Nat) (rest : Image) : Option Module :=
  if headed rest ∧ headerSize < beLong rest 8 ∧ beLong rest 8 % 2 = 0 ∧
      beLong rest 8 ≤ rest.length ∧ moduleChecksum 0 (body rest) = beLong rest 4 then
    some ⟨offset, beLong rest 4, beLong rest 8⟩
  else none

/-- What is found at every other offset. -/
def scan (found : Nat → Image → Option Module) : Nat → Image → List Module
  | offset, a :: b :: rest =>
    (found offset (a :: b :: rest)).toList ++ scan found (offset + 2) rest
  | _, _ => []

def firstBlank : Nat := 0x8018

def blankModules (flash : Image) : List Module := scan blankAt firstBlank (flash.drop firstBlank)

def sourceModules (opsys : Image) : List Module := scan sourceAt 0 opsys

/-! ## Restoration -/

structure Restored where
  dst : Nat
  src : Nat
  n : Nat
  deriving DecidableEq, Repr

def header (image : Image) (m : Module) : Image := slice image m.offset headerSize

/-- The first module with this checksum and length. -/
def candidate (sources : List Module) (m : Module) : Option Module :=
  sources.find? fun s => s.cksum = m.cksum ∧ s.len = m.len

def restoreModule (opsys : Image) (sources : List Module) (st : Image × List Restored) (m : Module) :
    Image × List Restored :=
  match candidate sources m with
  | none => st
  | some s =>
    if opsys.length < s.offset + s.len ∨ header st.1 m ≠ header opsys s then st
    else
      (overwrite st.1 m.offset (slice opsys s.offset s.len), st.2 ++ [⟨m.offset, s.offset, s.len⟩])

def restoreRomModules (flash opsys : Image) : Image × List Restored :=
  (blankModules flash).foldl (restoreModule opsys (sourceModules opsys)) (flash, [])

/-! ## What is found -/

/-- A module stands at its offset, and declares its checksum and length. -/
structure Headed (image : Image) (m : Module) : Prop where
  magic : slice image m.offset 4 = magicBytes
  entry : slice image (m.offset + 12) 8 = entryBytes
  cksum : beLong image (m.offset + 4) = m.cksum
  len : beLong image (m.offset + 8) = m.len
  least : headerSize ≤ m.len
  inside : m.offset + m.len ≤ image.length

structure Blank (flash : Image) (m : Module) : Prop extends Headed flash m where
  placed : firstBlank ≤ m.offset ∧ m.offset % 2 = 0
  zero : ∀ x, m.offset + headerSize ≤ x → x < m.offset + m.len → flash[x]? = some 0

structure Source (opsys : Image) (m : Module) : Prop extends Headed opsys m where
  placed : m.offset % 2 = 0
  filled : headerSize < m.len ∧ m.len % 2 = 0
  sum : moduleChecksum 0 (slice opsys (m.offset + headerSize) (m.len - headerSize)) = m.cksum

theorem mem_scan {found : Nat → Image → Option Module}
    (hfound : ∀ offset rest m, found offset rest = some m → m.offset = offset)
    {m : Module} {offset : Nat} {rest : Image} :
    m ∈ scan found offset rest ↔
      ∃ k, m.offset = offset + 2 * k ∧ 2 * k + 2 ≤ rest.length ∧
        found m.offset (rest.drop (2 * k)) = some m := by
  fun_induction scan found offset rest with
  | case1 offset a b rest ih =>
    rw [List.mem_append, ih, Option.mem_toList]
    constructor
    · rintro (h | ⟨k, hoffset, hlength, h⟩)
      · have hoffset := hfound _ _ _ h
        exact ⟨0, hoffset, by simp, hoffset ▸ h⟩
      · refine ⟨k + 1, by omega, by simp only [List.length_cons]; omega, ?_⟩
        exact h
    · rintro ⟨k, hoffset, hlength, h⟩
      cases k with
      | zero =>
        rw [Nat.mul_zero, Nat.add_zero] at hoffset
        exact .inl (hoffset ▸ h)
      | succ k =>
        refine .inr ⟨k, by omega, by simp only [List.length_cons] at hlength; omega, ?_⟩
        exact h
  | case2 rest offset hshort =>
    refine ⟨nofun, ?_⟩
    rintro ⟨k, -, hlength, -⟩
    rcases rest with _ | ⟨a, _ | ⟨b, rest⟩⟩
    · simp at hlength
    · simp at hlength
    · exact (hshort a b rest rfl).elim

theorem slice_drop (image : Image) (p i k : Nat) :
    slice (image.drop p) i k = slice image (p + i) k := by
  unfold slice
  rw [List.drop_drop]

theorem headed_drop {image : Image} {p : Nat} :
    headed (image.drop p) = true ↔
      (p + headerSize ≤ image.length ∧ slice image p 4 = magicBytes) ∧
        slice image (p + 12) 8 = entryBytes := by
  unfold headed
  rw [slice_drop, slice_drop, List.length_drop, Nat.add_zero]
  simp only [Bool.and_eq_true, decide_eq_true_eq, beq_iff_eq]
  have hsize : headerSize = 32 := rfl
  refine and_congr_left fun _ => and_congr_left fun _ => ?_
  omega

theorem beLong_drop (image : Image) (p i : Nat) :
    beLong (image.drop p) i = beLong image (p + i) := by
  unfold beLong
  rw [slice_drop]

theorem body_drop (image : Image) (p : Nat) :
    body (image.drop p) = slice image (p + headerSize) (beLong image (p + 8) - headerSize) := by
  unfold body
  rw [slice_drop, beLong_drop]

theorem all_zero_slice {image : Image} {p k : Nat} (h : p + k ≤ image.length) :
    (slice image p k).all (· == 0) = true ↔ ∀ x, p ≤ x → x < p + k → image[x]? = some 0 := by
  rw [List.all_eq_true]
  constructor
  · intro hall x hlo hhi
    have hx := List.getElem?_eq_getElem (by omega : x < image.length)
    have hmem : image[x] ∈ slice image p k := by
      refine List.mem_of_getElem? (i := x - p) ?_
      rw [getElem?_slice, if_pos (by omega), Nat.add_sub_cancel' hlo]
      exact hx
    rw [hx, eq_of_beq (hall _ hmem)]
  · intro hall b hb
    obtain ⟨i, hi⟩ := List.mem_iff_getElem?.mp hb
    rw [getElem?_slice] at hi
    split at hi
    · next hlt =>
      rw [hall (p + i) (by omega) (by omega)] at hi
      rw [← Option.some.inj hi]
      rfl
    · cases hi

theorem blankAt_offset (offset : Nat) (rest : Image) (m : Module)
    (h : blankAt offset rest = some m) : m.offset = offset := by
  unfold blankAt at h
  split at h
  · rw [← Option.some.inj h]
  · cases h

theorem sourceAt_offset (offset : Nat) (rest : Image) (m : Module)
    (h : sourceAt offset rest = some m) : m.offset = offset := by
  unfold sourceAt at h
  split at h
  · rw [← Option.some.inj h]
  · cases h

theorem blankAt_drop {flash : Image} {m : Module} :
    blankAt m.offset (flash.drop m.offset) = some m ↔
      Headed flash m ∧
        ∀ x, m.offset + headerSize ≤ x → x < m.offset + m.len → flash[x]? = some 0 := by
  obtain ⟨offset, cksum, len⟩ := m
  dsimp only
  unfold blankAt
  rw [Option.ite_none_right_eq_some, beLong_drop, beLong_drop, body_drop, List.length_drop,
    headed_drop]
  have hsize : headerSize = 32 := rfl
  constructor
  · rintro ⟨⟨⟨⟨hroom, hmagic⟩, hentry⟩, hleast, hinside, hzero⟩, h⟩
    obtain ⟨-, rfl, rfl⟩ := Module.mk.inj (Option.some.inj h)
    refine ⟨⟨hmagic, hentry, rfl, rfl, hleast, by dsimp only; omega⟩, fun x hlo hhi => ?_⟩
    exact (all_zero_slice (by omega)).mp hzero x hlo (by omega)
  · rintro ⟨⟨hmagic, hentry, hcksum, hlen, hleast, hinside⟩, hzero⟩
    dsimp only at *
    subst hcksum hlen
    have hroom : offset + headerSize + (beLong flash (offset + 8) - headerSize) ≤ flash.length := by
      omega
    have hall := (all_zero_slice hroom).mpr fun x hlo hhi => hzero x hlo (by omega)
    exact ⟨⟨⟨⟨by omega, hmagic⟩, hentry⟩, hleast, by omega, hall⟩, rfl⟩

theorem sourceAt_drop {opsys : Image} {m : Module} :
    sourceAt m.offset (opsys.drop m.offset) = some m ↔
      Headed opsys m ∧ (headerSize < m.len ∧ m.len % 2 = 0) ∧
        moduleChecksum 0 (slice opsys (m.offset + headerSize) (m.len - headerSize)) = m.cksum := by
  obtain ⟨offset, cksum, len⟩ := m
  dsimp only
  unfold sourceAt
  rw [Option.ite_none_right_eq_some, beLong_drop, beLong_drop, body_drop, List.length_drop,
    headed_drop]
  have hsize : headerSize = 32 := rfl
  constructor
  · rintro ⟨⟨⟨⟨hroom, hmagic⟩, hentry⟩, hlong, heven, hinside, hsum⟩, h⟩
    obtain ⟨-, rfl, rfl⟩ := Module.mk.inj (Option.some.inj h)
    refine ⟨⟨hmagic, hentry, rfl, rfl, Nat.le_of_lt hlong, ?_⟩, ⟨hlong, heven⟩, hsum⟩
    dsimp only
    omega
  · rintro ⟨⟨hmagic, hentry, hcksum, hlen, -, hinside⟩, ⟨hlong, heven⟩, hsum⟩
    dsimp only at *
    subst hcksum hlen
    exact ⟨⟨⟨⟨by omega, hmagic⟩, hentry⟩, hlong, heven, by omega, hsum⟩, rfl⟩

/-- The scan of the flash finds the blank modules at even offsets from the first one on. -/
theorem mem_blankModules {flash : Image} {m : Module} : m ∈ blankModules flash ↔ Blank flash m := by
  have hsize : headerSize = 32 := rfl
  have hfirst : firstBlank % 2 = 0 := rfl
  unfold blankModules
  rw [mem_scan blankAt_offset]
  constructor
  · rintro ⟨k, hoffset, -, h⟩
    rw [List.drop_drop, ← hoffset, blankAt_drop] at h
    exact ⟨h.1, by omega, h.2⟩
  · rintro ⟨hheaded, ⟨hfirst', heven⟩, hzero⟩
    have hinside := hheaded.inside
    have hleast := hheaded.least
    have hoffset : m.offset = firstBlank + 2 * ((m.offset - firstBlank) / 2) := by omega
    refine ⟨(m.offset - firstBlank) / 2, hoffset, by rw [List.length_drop]; omega, ?_⟩
    rw [List.drop_drop, ← hoffset]
    exact blankAt_drop.mpr ⟨hheaded, hzero⟩

theorem mem_sourceModules {opsys : Image} {m : Module} :
    m ∈ sourceModules opsys ↔ Source opsys m := by
  have hsize : headerSize = 32 := rfl
  unfold sourceModules
  rw [mem_scan sourceAt_offset]
  constructor
  · rintro ⟨k, hoffset, -, h⟩
    rw [Nat.zero_add] at hoffset
    rw [← hoffset, sourceAt_drop] at h
    exact ⟨h.1, by omega, h.2.1, h.2.2⟩
  · rintro ⟨hheaded, heven, hfilled, hsum⟩
    have hinside := hheaded.inside
    have hleast := hheaded.least
    have hoffset : m.offset = 2 * (m.offset / 2) := by omega
    refine ⟨m.offset / 2, by omega, by omega, ?_⟩
    rw [← hoffset]
    exact sourceAt_drop.mpr ⟨hheaded, hfilled, hsum⟩

theorem scan_sorted {found : Nat → Image → Option Module}
    (hfound : ∀ offset rest m, found offset rest = some m → m.offset = offset) (offset : Nat)
    (rest : Image) : (scan found offset rest).Pairwise fun a b => a.offset < b.offset := by
  fun_induction scan found offset rest with
  | case1 offset a b rest ih =>
    refine List.pairwise_append.mpr ⟨?_, ih, fun m hm m' hm' => ?_⟩
    · cases found offset (a :: b :: rest) with
      | none => exact .nil
      | some m => exact List.pairwise_singleton _ m
    · obtain ⟨k, hk, -⟩ := (mem_scan hfound).mp hm'
      have hoffset := hfound _ _ _ (Option.mem_toList.mp hm)
      omega
  | case2 => exact .nil

end OpenSaab.Flash
