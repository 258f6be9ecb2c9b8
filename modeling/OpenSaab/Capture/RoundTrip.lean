import OpenSaab.Capture.Layout
import OpenSaab.Library.Programs

/-!
# From a directory to an image and back

What is laid out from a directory is what is found in the image.
-/

namespace OpenSaab.Capture

open Bytes Words

/-! ## Loading -/

def Entry.bytes : Entry → Option (List UInt8)
  | .found _ _ (.ok bytes) => some bytes
  | _ => none

/-- The files of a directory, in the order of the names. -/
def found (d : Directory) (names : List String) : List (String × List UInt8) :=
  names.filterMap fun name => (d.entry name).bytes.map (name, ·)

/-- Files one after the other, and then a blank place. -/
def Laid (image : List UInt8) : Nat → Nat → List (String × List UInt8) → Prop
  | entry, _, [] => slice image (rootStart + entry * 32) 1 = [0]
  | entry, cluster, (name, bytes) :: files =>
    Stored image entry cluster name bytes ∧ 0x26 ≤ cluster ∧ Fits cluster bytes ∧
      Laid image (entry + 1) (cluster + clustersOf bytes) files

theorem found_names (d : Directory) (names : List String) :
    (found d names).map Prod.fst = names.filter fun name => (d.entry name).bytes.isSome := by
  induction names with
  | nil => rfl
  | cons name names ih =>
    cases hbytes : (d.entry name).bytes with
    | none => simpa [found, hbytes] using ih
    | some bytes => simpa [found, hbytes] using ih

theorem loadFile_ok {s s' : Building} {name : String} {e : Entry}
    (h : s.loadFile name e = .ok s') :
    (e.bytes = none ∧ s' = s) ∨
      ∃ bytes, e.bytes = some bytes ∧ Fits s.cluster bytes ∧ s' = s.addFile name bytes := by
  cases e with
  | missing => exact .inl ⟨rfl, (Except.ok.inj h).symm⟩
  | failed e => cases h
  | found regular length contents =>
    unfold Building.loadFile at h
    dsimp only at h
    split at h
    · cases h
    · split at h
      · cases h
      · cases contents with
        | error e => cases h
        | ok bytes =>
          dsimp only at h
          split at h
          · cases h
          · split at h
            · cases h
            · next hfits =>
              rw [not_or, Nat.not_lt, Nat.not_lt] at hfits
              exact .inr ⟨bytes, rfl, ⟨hfits.1, hfits.2⟩, (Except.ok.inj h).symm⟩

theorem loadFiles_laid {d : Directory} {names : List String} {s s' : Building}
    (h : s.loadFiles d names = .ok s') (hroom : Room s.storage.image s.entry s.cluster)
    (hnames : ∀ name ∈ names, Readable name) (hcount : s.entry + names.length < 512) :
    Laid s'.storage.image s.entry s.cluster (found d names) ∧
      Kept s.entry s.cluster s.storage.image s'.storage.image ∧
      s'.storage.image.length = imageSize := by
  induction names generalizing s with
  | nil =>
    obtain rfl := Except.ok.inj h
    rw [List.length_nil] at hcount
    exact ⟨hroom.blank _ (Nat.le_refl _) (by omega), fun p k _ => rfl, hroom.length⟩
  | cons name names ih =>
    rw [List.length_cons] at hcount
    obtain ⟨hname, hnames⟩ := List.forall_mem_cons.mp hnames
    obtain ⟨next, hone, hrest⟩ := Program.except_bind_ok h
    rcases loadFile_ok hone with ⟨hnone, rfl⟩ | ⟨bytes, hbytes, hfits, rfl⟩
    · have hfound : found d (name :: names) = found d names := by simp [found, hnone]
      rw [hfound]
      exact ih hrest hroom hnames (by omega)
    · have hfound : found d (name :: names) = (name, bytes) :: found d names := by
        simp [found, hbytes]
      obtain ⟨hroom', hstored, hkept⟩ := writeFile_spec hname hroom (by omega) hfits
      obtain ⟨hlaid, hkept', hlength⟩ := ih hrest hroom' hnames
        (by change s.entry + 1 + names.length < 512; omega)
      rw [hfound]
      refine ⟨⟨hstored.kept hroom.low hkept', hroom.low, hfits, hlaid⟩, ?_, hlength⟩
      exact hkept.trans hkept' (Nat.le_succ _) (Nat.le_add_right _ _)

/-- Every file is among the originals. -/
theorem loadFiles_originals {d : Directory} {names : List String} {s s' : Building}
    (h : s.loadFiles d names = .ok s') (hnodup : names.Nodup) :
    (∀ f ∈ found d names, s'.storage.originals[f.1]? = some f.2) ∧
      ∀ name, name ∉ names → s'.storage.originals[name]? = s.storage.originals[name]? := by
  induction names generalizing s with
  | nil =>
    obtain rfl := Except.ok.inj h
    exact ⟨fun f hf => absurd hf List.not_mem_nil, fun _ _ => rfl⟩
  | cons name names ih =>
    obtain ⟨hnew, hnodup⟩ := List.nodup_cons.mp hnodup
    obtain ⟨next, hone, hrest⟩ := Program.except_bind_ok h
    obtain ⟨hfiles, hothers⟩ := ih hrest hnodup
    rcases loadFile_ok hone with ⟨hnone, rfl⟩ | ⟨bytes, hbytes, -, rfl⟩
    · have hfound : found d (name :: names) = found d names := by simp [found, hnone]
      rw [hfound]
      exact ⟨hfiles, fun other hother => hothers other fun h => hother (List.mem_cons_of_mem _ h)⟩
    · have hfound : found d (name :: names) = (name, bytes) :: found d names := by
        simp [found, hbytes]
      have hinsert (other : String) : (s.addFile name bytes).storage.originals[other]? =
          if other = name then some bytes else s.storage.originals[other]? :=
        Table.get_insert _ _ _ _
      rw [hfound]
      constructor
      · intro f hf
        rcases List.mem_cons.mp hf with rfl | hf
        · rw [hothers name hnew, hinsert, if_pos rfl]
        · exact hfiles f hf
      · intro other hother
        obtain ⟨hne, hother⟩ := not_or.mp (List.mem_cons.not.mp hother)
        rw [hothers other hother, hinsert, if_neg hne]

/-! ## Listing -/

theorem lt_clustersOf {bytes : List UInt8} {k : Nat} (h : k * clusterSize < bytes.length) :
    k < clustersOf bytes := by
  unfold clustersOf clusterSize at *
  omega

/-- The chain is read from its cluster `k` on, with what has been read before. -/
theorem readChain_from {image : List UInt8} {entry cluster : Nat} {name : String}
    {bytes : List UInt8} (hstored : Stored image entry cluster name bytes)
    (hlength : image.length = imageSize) (hlow : 0x26 ≤ cluster) (hfits : Fits cluster bytes)
    {n k : Nat} (hn : n = bytes.length - k * clusterSize) (hk : k * clusterSize ≤ bytes.length)
    {seen : List Nat} (hseen : ∀ c ∈ seen, c < cluster + k) :
    readChain image n (cluster + k) seen (bytes.take (k * clusterSize)) = .ok bytes := by
  induction n using Nat.strongRecOn generalizing k seen with
  | ind n ih =>
    rw [readChain]
    split
    · rw [List.take_of_length_le (by omega)]
    · next hmore =>
      have hpos : 0 < clusterSize := by decide
      have hlast : k < clustersOf bytes := lt_clustersOf (by omega)
      have hclusters := length_le_clusters bytes
      obtain ⟨htable, hdata⟩ := hfits
      have hnew : ¬(¬(2 ≤ cluster + k ∧ cluster + k < 0x3cf1) ∨ cluster + k ∈ seen) := by
        rintro (hrange | hmem)
        · omega
        · exact Nat.lt_irrefl _ (hseen _ hmem)
      have hplace : (cluster + k) * clusterSize = cluster * clusterSize + k * clusterSize :=
        Nat.add_mul _ _ _
      have hend : (cluster + clustersOf bytes) * clusterSize =
        cluster * clusterSize + clustersOf bytes * clusterSize := Nat.add_mul _ _ _
      rw [if_neg hnew]
      dsimp only
      rw [if_neg (by omega)]
      -- what this cluster holds
      have hpart : slice image (bias + (cluster + k) * clusterSize) (min n clusterSize) =
          slice bytes (k * clusterSize) (min n clusterSize) := by
        have hslice : slice (slice image (bias + cluster * clusterSize) bytes.length)
              (k * clusterSize) (min n clusterSize) =
            slice image (bias + cluster * clusterSize + k * clusterSize) (min n clusterSize) :=
          slice_slice (by omega)
        rw [hstored.data] at hslice
        rw [hslice, hplace, Nat.add_assoc]
      have hgrow : bytes.take (k * clusterSize) ++ slice bytes (k * clusterSize) (min n clusterSize) =
          bytes.take (k * clusterSize + min n clusterSize) := by
        rw [List.take_add]
        rfl
      rw [hpart, hgrow]
      by_cases hfull : clusterSize < n
      · have hnext : le16 image (sectorSize + (cluster + k) * 2) = cluster + (k + 1) :=
          hstored.chain k (lt_clustersOf (by rw [Nat.add_mul]; omega))
        have hk' : (k + 1) * clusterSize = k * clusterSize + clusterSize := Nat.succ_mul _ _
        rw [hnext, Nat.min_eq_right (Nat.le_of_lt hfull), ← hk']
        refine ih _ (by omega) (by omega) (by omega) ?_
        intro c hc
        rcases List.mem_cons.mp hc with rfl | hc
        · omega
        · have := hseen c hc
          omega
      · rw [Nat.min_eq_left (by omega), Nat.sub_self, readChain, if_pos rfl,
          List.take_of_length_le (by omega)]

theorem readChain_stored {image : List UInt8} {entry cluster : Nat} {name : String}
    {bytes : List UInt8} (hstored : Stored image entry cluster name bytes)
    (hlength : image.length = imageSize) (hlow : 0x26 ≤ cluster) (hfits : Fits cluster bytes) :
    readChain image bytes.length cluster [] [] = .ok bytes := by
  have hnone : ∀ c ∈ ([] : List Nat), c < cluster + 0 := fun c hc => absurd hc List.not_mem_nil
  have hchain := readChain_from hstored hlength hlow hfits (k := 0) rfl (by omega) hnone
  rwa [Nat.zero_mul, Nat.sub_zero] at hchain

theorem file_stored {s : CaptureStorage} {entry cluster : Nat} {name : String}
    {bytes : List UInt8} (hstored : Stored s.image entry cluster name bytes)
    (hlength : s.image.length = imageSize) (hlow : 0x26 ≤ cluster) (hfits : Fits cluster bytes)
    (horiginal : s.originals[name]? = some bytes) :
    s.file (rootStart + entry * 32) name = .ok ⟨name, bytes, false⟩ := by
  have hbytes := length_le_clusters bytes
  have hend : (cluster + clustersOf bytes) * clusterSize =
    cluster * clusterSize + clustersOf bytes * clusterSize := Nat.add_mul _ _ _
  have hdata := hfits.data
  have hsize : le32 s.image (rootStart + entry * 32 + 28) = bytes.length :=
    ofLittle_slice hstored.entryAt.size (by change _ < 4294967296; unfold imageSize at *; omega)
  have hfirst : le16 s.image (rootStart + entry * 32 + 26) = cluster :=
    ofLittle_slice hstored.entryAt.cluster (by
      have htable := hfits.table
      change _ < 65536
      omega)
  unfold CaptureStorage.file
  rw [hsize, hfirst]
  dsimp only
  rw [if_neg (by omega), readChain_stored hstored hlength hlow hfits, horiginal]
  simp [bind, Except.bind, pure, Except.pure]

/-- The places of the root from `entry` on give the files that are laid out there. -/
theorem filesFrom_laid {s : CaptureStorage} (hlength : s.image.length = imageSize)
    {files : List (String × List UInt8)} {entry cluster n : Nat}
    (hlaid : Laid s.image entry cluster files) (hn : files.length < n)
    (hnames : ∀ f ∈ files, Readable f.1)
    (horiginals : ∀ f ∈ files, s.originals[f.1]? = some f.2) {names : List String}
    (hnodup : (files.map Prod.fst).Nodup) (hnew : ∀ f ∈ files, f.1 ∉ names) :
    s.filesFrom names (List.range' entry n) =
      .ok (files.map fun f => ⟨f.1, f.2, false⟩) := by
  induction files generalizing entry cluster n names with
  | nil =>
    obtain ⟨m, rfl⟩ := Nat.exists_eq_succ_of_ne_zero (Nat.ne_zero_of_lt hn)
    have hblank : s.image.getD (rootStart + entry * 32) 0 = 0 := getD_of_slice hlaid
    rw [List.range'_succ, CaptureStorage.filesFrom]
    simp only [hblank, if_true, List.map_nil]
  | cons f files ih =>
    obtain ⟨name, bytes⟩ := f
    obtain ⟨hstored, hlow, hfits, hrest⟩ := hlaid
    obtain ⟨hname, hnames⟩ := List.forall_mem_cons.mp hnames
    obtain ⟨horiginal, horiginals⟩ := List.forall_mem_cons.mp horiginals
    obtain ⟨hfresh, hnew⟩ := List.forall_mem_cons.mp hnew
    obtain ⟨hother, hnodup⟩ := List.nodup_cons.mp hnodup
    obtain ⟨m, rfl⟩ := Nat.exists_eq_succ_of_ne_zero (Nat.ne_zero_of_lt hn)
    have hfirst : s.image.getD (rootStart + entry * 32) 0 = (baseBytes name).getD 0 0 := by
      rw [← hstored.entryAt.base, getD_slice (by decide)]
      rfl
    have hattributes : s.image.getD (rootStart + entry * 32 + 11) 0 = 0 :=
      getD_of_slice hstored.entryAt.attributes
    have hread : fileName (slice s.image (rootStart + entry * 32) 8)
        (slice s.image (rootStart + entry * 32 + 8) 3) = .ok name := by
      rw [hstored.entryAt.base, hstored.entryAt.ext]
      exact hname.read
    have hunseen : ∀ g ∈ files, g.1 ∉ name :: names := by
      intro g hg hmem
      rcases List.mem_cons.mp hmem with heq | hmem
      · have hname := List.mem_map_of_mem (f := Prod.fst) hg
        rw [heq] at hname
        exact hother hname
      · exact hnew g hg hmem
    have hnext := ih (n := m) hrest (by rw [List.length_cons] at hn; omega) hnames horiginals
      hnodup hunseen
    have haccepted : ¬(safeName name = false ∨ name ∈ names ∨
        name ∈ ["CAPTURE-CARD.IMG", "CAPTURE-EXPORT.JSON"]) := by
      rintro (hrefused | hseen | hreserved)
      · exact absurd (hname.safe.symm.trans hrefused) (by decide)
      · exact hfresh hseen
      · exact hname.unreserved hreserved
    rw [List.range'_succ, CaptureStorage.filesFrom]
    dsimp only
    rw [hfirst, hattributes, if_neg hname.first.1, if_neg (by decide), if_neg (by
      rintro (hdeleted | hkind)
      · exact hname.first.2 hdeleted
      · exact absurd rfl hkind), hread]
    change (if safeName name = false ∨ name.map Char.toUpper ∈ names ∨
        name.map Char.toUpper ∈ ["CAPTURE-CARD.IMG", "CAPTURE-EXPORT.JSON"] then _ else _) = _
    rw [hname.upper, if_neg haccepted,
      file_stored hstored hlength hlow hfits horiginal]
    change (s.filesFrom (name :: names) (List.range' (entry + 1) m) >>= _) = _
    rw [hnext]
    rfl

/-! ## The geometry -/

theorem getD_congr {b b' : List UInt8} {p : Nat} (h : slice b p 1 = slice b' p 1) :
    b.getD p 0 = b'.getD p 0 := by
  have hb : (slice b p 1).getD 0 0 = b.getD p 0 := getD_slice (by decide) 0
  have hb' : (slice b' p 1).getD 0 0 = b'.getD p 0 := getD_slice (by decide) 0
  rw [← hb, h, hb']

/-- The geometry stands in the first sector. -/
theorem geometryOk_congr {b b' : List UInt8}
    (h : ∀ p k, p + k ≤ 516 → slice b p k = slice b' p k) : geometryOk b = geometryOk b' := by
  unfold geometryOk le16
  rw [h 510 2 (by decide), h 11 2 (by decide), h 14 2 (by decide), h 17 2 (by decide),
    h 22 2 (by decide), getD_congr (h 13 1 (by decide)), getD_congr (h 16 1 (by decide))]

/-- The image before the first file. -/
def blankImage (template : List UInt8) : List UInt8 :=
  overwrite (List.replicate imageSize 0) 0 template

theorem template_fits {template : List UInt8} (h : template.length = 516) :
    0 + template.length ≤ (List.replicate imageSize (0 : UInt8)).length := by
  rw [h, List.length_replicate]
  decide

theorem blankImage_room {template : List UInt8} (h : template.length = 516) :
    Room (blankImage template) 0 0x26 where
  length := (length_overwrite (template_fits h)).trans List.length_replicate
  low := Nat.le_refl _
  blank p hlo hhi := by
    have hsize : rootStart + 512 * 32 ≤ imageSize := by decide
    have hbehind : 516 ≤ rootStart := by decide
    rw [blankImage, slice_overwrite_of_disjoint (template_fits h) (by omega), slice,
      List.drop_replicate, List.take_replicate, Nat.min_eq_left (by omega)]
    rfl

theorem blankImage_slice {template : List UInt8} (h : template.length = 516) {p k : Nat}
    (hpk : p + k ≤ 516) : slice (blankImage template) p k = slice template p k := by
  have hwhole : slice (blankImage template) 0 template.length = template :=
    slice_overwrite (template_fits h) rfl
  have hpart : slice (slice (blankImage template) 0 template.length) p k =
      slice (blankImage template) (0 + p) k := slice_slice (by omega)
  rw [hwhole, Nat.zero_add] at hpart
  exact hpart.symm

theorem captureNames_count : 0 + captureNames.length < 512 := by decide

/-- What `load` accepts is what `files` lists: the same names and bytes, in the same order, and none
of them changed. -/
theorem files_of_load {template : List UInt8} {d : Directory} {allowEmpty : Bool}
    {s : CaptureStorage} (htemplate : template.length = 516)
    (hgeometry : geometryOk template = true) (h : load template d allowEmpty = .ok s) :
    s.files = .ok ((found d captureNames).map fun f => ⟨f.1, f.2, false⟩) := by
  obtain ⟨source, -, h⟩ := Program.except_bind_ok h
  split at h
  · cases h
  · obtain ⟨b, hload, h⟩ := Program.except_bind_ok h
    split at h
    · cases h
    · obtain rfl := Except.ok.inj h
      obtain ⟨hlaid, hkept, hlength⟩ :=
        loadFiles_laid hload (blankImage_room htemplate) captureNames_readable captureNames_count
      have horiginals := (loadFiles_originals hload captureNames_nodup).1
      have hvalid : geometryOk b.storage.image = true := by
        rw [← hgeometry]
        apply geometryOk_congr
        intro p k hpk
        have hbelow : Below 0 0x26 p k := .inl (by unfold sectorSize; omega)
        exact (hkept p k hbelow).trans (blankImage_slice htemplate hpk)
      have hfound := found_names d captureNames
      have hnames : ∀ f ∈ found d captureNames, f.1 ∈ captureNames := by
        intro f hf
        have hname := List.mem_map_of_mem (f := Prod.fst) hf
        rw [hfound] at hname
        exact (List.mem_filter.mp hname).1
      have hnodup : ((found d captureNames).map Prod.fst).Nodup := by
        rw [hfound]
        exact captureNames_nodup.filter _
      have hcount : (found d captureNames).length < 512 := by
        have hall : ((found d captureNames).map Prod.fst).length ≤ captureNames.length := by
          rw [hfound]
          exact List.length_filter_le _ _
        rw [List.length_map] at hall
        exact Nat.lt_of_le_of_lt hall (Nat.lt_of_le_of_lt (Nat.le_add_left _ 0) captureNames_count)
      unfold CaptureStorage.files
      rw [if_neg (by simp [hlength, hvalid]), List.range_eq_range']
      exact filesFrom_laid hlength hlaid hcount
        (fun f hf => captureNames_readable _ (hnames f hf)) horiginals hnodup
        (fun f _ => List.not_mem_nil)

/-- A sector with the geometry, and the first words of the table. -/
def plainTemplate : List UInt8 :=
  List.replicate 11 0 ++ [0x00, 0x02, 4, 1, 0, 2, 0x00, 0x02, 0x60, 0xf4, 0xf8, 0x3d, 0] ++
    List.replicate 486 0 ++ [0x55, 0xaa, 0xf8, 0xff, 0xff, 0xff]

def oneCapture : Directory where
  canonical := .ok "/captures"
  isDir := true
  entry name := if name = "CAPTURE0.BIN" then .found true 3 (.ok [0x61, 0x00, 0x7a]) else .missing

theorem oneCapture_loads : (load plainTemplate oneCapture false).isOk = true := by decide +kernel

theorem oneCapture_files : ∃ s, load plainTemplate oneCapture false = .ok s ∧
    s.files = .ok [⟨"CAPTURE0.BIN", [0x61, 0x00, 0x7a], false⟩] := by
  cases h : load plainTemplate oneCapture false with
  | error e =>
    have hloads := oneCapture_loads
    rw [h] at hloads
    cases hloads
  | ok s =>
    refine ⟨s, rfl, ?_⟩
    rw [files_of_load (by decide +kernel) (by decide +kernel) h]
    decide +kernel

end OpenSaab.Capture
