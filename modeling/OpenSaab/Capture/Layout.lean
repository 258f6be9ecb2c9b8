import OpenSaab.Capture.Image

/-!
# The layout of the image

Where a file is laid out, and that the files laid out after it leave it alone.
-/

namespace OpenSaab.Capture

open Bytes Words

/-! ## Parts of an image -/

theorem getD_of_slice {b : List UInt8} {p : Nat} {v : UInt8} (h : slice b p 1 = [v]) :
    b.getD p 0 = v := by
  have hget := congrArg (·[0]?) h
  simp only [getElem?_slice, Nat.add_zero, Nat.zero_lt_one, if_true] at hget
  rw [List.getD_eq_getElem?_getD, hget]
  rfl

/-- A word that has been written is read. -/
theorem ofLittle_slice {b : List UInt8} {p w n : Nat} (h : slice b p w = little w n)
    (hn : n < 256 ^ w) : ofLittle (slice b p w) = n := by
  rw [h, ofLittle_little hn]

/-! ## What is left alone -/

/-- A part of the image before the next cluster and the next place in the root: of the tables, of
the root, or of the data. -/
def Below (entry cluster p k : Nat) : Prop :=
  p + k ≤ sectorSize + cluster * 2 ∨
    rootStart ≤ p ∧ p + k ≤ rootStart + entry * 32 ∨
    bias + 0x26 * clusterSize ≤ p ∧ p + k ≤ bias + cluster * clusterSize

theorem Below.mono {entry entry' cluster cluster' p k : Nat} (h : Below entry cluster p k)
    (hentry : entry ≤ entry') (hcluster : cluster ≤ cluster') : Below entry' cluster' p k := by
  unfold Below clusterSize at *
  omega

/-- Every such part is as it was. -/
def Kept (entry cluster : Nat) (image image' : List UInt8) : Prop :=
  ∀ p k, Below entry cluster p k → slice image' p k = slice image p k

theorem Kept.trans {entry entry' cluster cluster' : Nat} {a b c : List UInt8}
    (h : Kept entry cluster a b) (h' : Kept entry' cluster' b c) (hentry : entry ≤ entry')
    (hcluster : cluster ≤ cluster') : Kept entry cluster a c :=
  fun p k hpk => (h' p k (hpk.mono hentry hcluster)).trans (h p k hpk)

/-! ## The chain -/

section Chain

variable {image : List UInt8} {cluster clusters : Nat}

def chainTo (image : List UInt8) (cluster clusters n : Nat) : List UInt8 :=
  (List.range n).foldl (fun image i => writeChain image cluster clusters i) image

theorem chainTo_succ (n : Nat) : chainTo image cluster clusters (n + 1) =
    writeChain (chainTo image cluster clusters n) cluster clusters n := by
  rw [chainTo, List.range_succ, List.foldl_append]
  rfl

theorem writeChain_fits (hlength : image.length = imageSize) (hfits : cluster + clusters ≤ 0x3cf0)
    {i : Nat} (hi : i < clusters) (next : Nat) :
    sectorSize + (cluster + i) * 2 + (little 2 next).length ≤ image.length := by
  rw [length_little, hlength]
  unfold sectorSize imageSize
  omega

theorem length_chainTo (hlength : image.length = imageSize) (hfits : cluster + clusters ≤ 0x3cf0)
    {n : Nat} (hn : n ≤ clusters) : (chainTo image cluster clusters n).length = imageSize := by
  induction n with
  | zero => exact hlength
  | succ n ih =>
    have hbefore := ih (by omega)
    rw [chainTo_succ, writeChain, length_overwrite (writeChain_fits hbefore hfits (by omega) _)]
    exact hbefore

/-- The chain only touches its own places in the table. -/
theorem slice_chainTo (hlength : image.length = imageSize) (hfits : cluster + clusters ≤ 0x3cf0)
    {n p k : Nat} (hn : n ≤ clusters)
    (hapart : p + k ≤ sectorSize + cluster * 2 ∨ sectorSize + (cluster + clusters) * 2 ≤ p) :
    slice (chainTo image cluster clusters n) p k = slice image p k := by
  induction n with
  | zero => rfl
  | succ n ih =>
    have hbefore := length_chainTo hlength hfits (n := n) (by omega)
    rw [chainTo_succ, writeChain, slice_overwrite_of_disjoint
      (writeChain_fits hbefore hfits (by omega) _) (by rw [length_little]; omega)]
    exact ih (by omega)

/-- Each cluster of the chain leads to the next one. -/
theorem chainTo_next (hlength : image.length = imageSize) (hfits : cluster + clusters ≤ 0x3cf0)
    {n i : Nat} (hn : n ≤ clusters) (hi : i < n) (hnext : i + 1 < clusters) :
    le16 (chainTo image cluster clusters n) (sectorSize + (cluster + i) * 2) = cluster + i + 1 := by
  induction n with
  | zero => omega
  | succ n ih =>
    have hbefore := length_chainTo hlength hfits (n := n) (by omega)
    have hroom (next : Nat) := writeChain_fits hbefore hfits (by omega : n < clusters) next
    rw [chainTo_succ, writeChain, le16]
    by_cases hlast : i = n
    · subst hlast
      rw [if_neg (by omega)]
      exact ofLittle_slice (slice_overwrite (hroom (cluster + i + 1)) (length_little 2 _)) (by omega)
    · rw [slice_overwrite_of_disjoint (hroom _) (by rw [length_little]; omega)]
      exact ih (by omega) (by omega)

end Chain

/-! ## The names -/

def baseBytes (name : String) : List UInt8 := (asciiBytes name).take 8

def extBytes (name : String) : List UInt8 := ((asciiBytes name).drop 9).take 3

/-- What makes a name one that is listed as it was written. -/
structure Readable (name : String) : Prop where
  base : (baseBytes name).length = 8
  ext : (extBytes name).length = 3
  first : (baseBytes name).getD 0 0 ≠ 0 ∧ (baseBytes name).getD 0 0 ≠ 0xe5
  read : fileName (baseBytes name) (extBytes name) = .ok name
  safe : safeName name = true
  upper : name.map Char.toUpper = name
  unreserved : name ∉ ["CAPTURE-CARD.IMG", "CAPTURE-EXPORT.JSON"]

theorem readable_of_check {name : String}
    (h : (decide ((baseBytes name).length = 8) && decide ((extBytes name).length = 3) &&
      decide ((baseBytes name).getD 0 0 ≠ 0 ∧ (baseBytes name).getD 0 0 ≠ 0xe5) &&
      decide (fileName (baseBytes name) (extBytes name) = .ok name) && safeName name &&
      decide (name.map Char.toUpper = name) &&
      decide (name ∉ ["CAPTURE-CARD.IMG", "CAPTURE-EXPORT.JSON"])) = true) : Readable name := by
  simp only [Bool.and_eq_true, decide_eq_true_eq] at h
  obtain ⟨⟨⟨⟨⟨⟨hbase, hext⟩, hfirst⟩, hread⟩, hsafe⟩, hupper⟩, hunreserved⟩ := h
  exact ⟨hbase, hext, hfirst, hread, hsafe, hupper, hunreserved⟩

theorem captureNames_readable : ∀ name ∈ captureNames, Readable name := by
  intro name hname
  apply readable_of_check
  revert name
  rw [← List.all_eq_true]
  decide +kernel

theorem captureNames_nodup : captureNames.Nodup := by decide +kernel

/-! ## One file -/

/-- The entry of a file in the root. -/
structure EntryAt (image : List UInt8) (root : Nat) (name : String) (cluster size : Nat) : Prop where
  base : slice image root 8 = baseBytes name
  ext : slice image (root + 8) 3 = extBytes name
  attributes : slice image (root + 11) 1 = [0]
  cluster : slice image (root + 26) 2 = little 2 cluster
  size : slice image (root + 28) 4 = little 4 size

theorem EntryAt.of_slice {image image' : List UInt8} {root cluster size : Nat} {name : String}
    (h : EntryAt image root name cluster size)
    (hsame : ∀ p k, root ≤ p → p + k ≤ root + 32 → slice image' p k = slice image p k) :
    EntryAt image' root name cluster size where
  base := (hsame _ _ (by omega) (by omega)).trans h.base
  ext := (hsame _ _ (by omega) (by omega)).trans h.ext
  attributes := (hsame _ _ (by omega) (by omega)).trans h.attributes
  cluster := (hsame _ _ (by omega) (by omega)).trans h.cluster
  size := (hsame _ _ (by omega) (by omega)).trans h.size

section Entry

variable {image : List UInt8} {name : String} {entry : Nat}

theorem root_fits (hlength : image.length = imageSize) (hentry : entry < 512) :
    rootStart + entry * 32 + 32 ≤ image.length := by
  rw [hlength]
  unfold rootStart imageSize
  omega

theorem writeEntry_spec (hname : Readable name) (hlength : image.length = imageSize)
    (hentry : entry < 512) (hblank : slice image (rootStart + entry * 32 + 11) 1 = [0])
    (cluster size : Nat) :
    (writeEntry image name entry cluster size).length = imageSize ∧
      EntryAt (writeEntry image name entry cluster size) (rootStart + entry * 32) name cluster
        size ∧
      ∀ p k, p + k ≤ rootStart + entry * 32 ∨ rootStart + entry * 32 + 32 ≤ p →
        slice (writeEntry image name entry cluster size) p k = slice image p k := by
  have hroom := root_fits hlength hentry
  unfold writeEntry
  generalize rootStart + entry * 32 = root at *
  dsimp only
  have hbase : (List.take 8 (asciiBytes name)).length = 8 := hname.base
  have hext : (List.take 3 (List.drop 9 (asciiBytes name))).length = 3 := hname.ext
  -- the four writes, one after the other
  have h1 : root + ((asciiBytes name).take 8).length ≤ image.length := by omega
  have l1 := length_overwrite h1
  set a := overwrite image root ((asciiBytes name).take 8)
  have h2 : root + 8 + (((asciiBytes name).drop 9).take 3).length ≤ a.length := by omega
  have l2 := length_overwrite h2
  set b := overwrite a (root + 8) (((asciiBytes name).drop 9).take 3)
  have h3 : root + 26 + (little 2 cluster).length ≤ b.length := by
    rw [length_little]
    omega
  have l3 := length_overwrite h3
  set c := overwrite b (root + 26) (little 2 cluster)
  have h4 : root + 28 + (little 4 size).length ≤ c.length := by
    rw [length_little]
    omega
  have l4 := length_overwrite h4
  have after1 (p k : Nat) (hp : p + k ≤ root + 8 ∨ root + 11 ≤ p) : slice b p k = slice a p k :=
    slice_overwrite_of_disjoint h2 (by omega)
  have after2 (p k : Nat) (hp : p + k ≤ root + 26 ∨ root + 28 ≤ p) : slice c p k = slice b p k :=
    slice_overwrite_of_disjoint h3 (by rw [length_little]; omega)
  have after3 (p k : Nat) (hp : p + k ≤ root + 28 ∨ root + 32 ≤ p) :
      slice (overwrite c (root + 28) (little 4 size)) p k = slice c p k :=
    slice_overwrite_of_disjoint h4 (by rw [length_little]; omega)
  refine ⟨by omega, ⟨?_, ?_, ?_, ?_, ?_⟩, ?_⟩
  · rw [after3 _ _ (by omega), after2 _ _ (by omega), after1 _ _ (by omega)]
    exact slice_overwrite h1 hbase
  · rw [after3 _ _ (by omega), after2 _ _ (by omega)]
    exact slice_overwrite h2 hext
  · rw [after3 _ _ (by omega), after2 _ _ (by omega), after1 _ _ (by omega),
      slice_overwrite_of_disjoint h1 (by omega)]
    exact hblank
  · rw [after3 _ _ (by omega)]
    exact slice_overwrite h3 (length_little 2 cluster)
  · exact slice_overwrite h4 (length_little 4 size)
  · intro p k hpk
    rw [after3 _ _ (by omega), after2 _ _ (by omega), after1 _ _ (by omega),
      slice_overwrite_of_disjoint h1 (by omega)]

end Entry

/-- A file with its entry, its data and its chain. -/
structure Stored (image : List UInt8) (entry cluster : Nat) (name : String) (bytes : List UInt8) :
    Prop where
  entryAt : EntryAt image (rootStart + entry * 32) name cluster bytes.length
  data : slice image (bias + cluster * clusterSize) bytes.length = bytes
  chain : ∀ i, i + 1 < clustersOf bytes →
    le16 image (sectorSize + (cluster + i) * 2) = cluster + i + 1

/-- The image has room for more: what comes next in the root is blank. -/
structure Room (image : List UInt8) (entry cluster : Nat) : Prop where
  length : image.length = imageSize
  low : 0x26 ≤ cluster
  blank : ∀ p, rootStart + entry * 32 ≤ p → p < rootStart + 512 * 32 → slice image p 1 = [0]

/-- The clusters that a file takes are before the end of the table and of the card. -/
structure Fits (cluster : Nat) (bytes : List UInt8) : Prop where
  table : cluster + clustersOf bytes ≤ 0x3cf0
  data : bias + (cluster + clustersOf bytes) * clusterSize ≤ imageSize

theorem length_le_clusters (bytes : List UInt8) :
    bytes.length ≤ clustersOf bytes * clusterSize := by
  unfold clustersOf clusterSize
  omega

/-- What is laid out after a file leaves it as it is. -/
theorem Stored.kept {image image' : List UInt8} {entry cluster : Nat} {name : String}
    {bytes : List UInt8} (h : Stored image entry cluster name bytes) (hlow : 0x26 ≤ cluster)
    (hkept : Kept (entry + 1) (cluster + clustersOf bytes) image image') :
    Stored image' entry cluster name bytes where
  entryAt := h.entryAt.of_slice fun p k hp hk => hkept p k (.inr (.inl ⟨by omega, by omega⟩))
  data := by
    have hlength := length_le_clusters bytes
    refine (hkept _ _ (.inr (.inr ⟨?_, ?_⟩))).trans h.data
    · unfold clusterSize
      omega
    · rw [Nat.add_mul]
      omega
  chain i hi := by
    rw [le16, hkept _ _ (.inl (by omega))]
    exact h.chain i hi

theorem writeFile_spec {image : List UInt8} {name : String} {entry cluster : Nat}
    {bytes : List UInt8} (hname : Readable name) (hroom : Room image entry cluster)
    (hentry : entry < 512) (hfits : Fits cluster bytes) :
    Room (writeFile image name entry cluster bytes) (entry + 1) (cluster + clustersOf bytes) ∧
      Stored (writeFile image name entry cluster bytes) entry cluster name bytes ∧
      Kept entry cluster image (writeFile image name entry cluster bytes) := by
  obtain ⟨hlength, hlow, hblank⟩ := hroom
  obtain ⟨htable, hdata⟩ := hfits
  have hstart : bias + 0x26 * clusterSize ≤ bias + cluster * clusterSize := by
    unfold clusterSize
    omega
  have hroot : rootStart + 512 * 32 ≤ bias + 0x26 * clusterSize := by decide
  have hend : bias + cluster * clusterSize + bytes.length ≤
      bias + (cluster + clustersOf bytes) * clusterSize := by
    have hclusters := length_le_clusters bytes
    rw [Nat.add_mul]
    omega
  have hfat : sectorSize + (cluster + clustersOf bytes) * 2 ≤ rootStart := by
    unfold sectorSize rootStart
    omega
  obtain ⟨l1, hentryAt, frame1⟩ := writeEntry_spec hname hlength hentry
    (hblank _ (by omega) (by omega)) cluster bytes.length
  have hfile : writeFile image name entry cluster bytes =
      chainTo (overwrite (writeEntry image name entry cluster bytes.length)
        (bias + cluster * clusterSize) bytes) cluster (clustersOf bytes) (clustersOf bytes) := rfl
  rw [hfile]
  set a := writeEntry image name entry cluster bytes.length
  have h2 : bias + cluster * clusterSize + bytes.length ≤ a.length := by omega
  have l2 : (overwrite a (bias + cluster * clusterSize) bytes).length = imageSize :=
    (length_overwrite h2).trans l1
  have hslice := slice_overwrite h2 rfl
  have frame2 (p k : Nat) (hp : p + k ≤ bias + cluster * clusterSize ∨
      bias + cluster * clusterSize + bytes.length ≤ p) :
      slice (overwrite a (bias + cluster * clusterSize) bytes) p k = slice a p k :=
    slice_overwrite_of_disjoint h2 hp
  set b := overwrite a (bias + cluster * clusterSize) bytes
  have frame3 (p k : Nat) (hp : p + k ≤ sectorSize + cluster * 2 ∨
      sectorSize + (cluster + clustersOf bytes) * 2 ≤ p) :
      slice (chainTo b cluster (clustersOf bytes) (clustersOf bytes)) p k = slice b p k :=
    slice_chainTo l2 htable (Nat.le_refl _) hp
  refine ⟨⟨length_chainTo l2 htable (Nat.le_refl _), by omega, ?_⟩, ⟨?_, ?_, ?_⟩, ?_⟩
  · intro p hp hp'
    rw [frame3 _ _ (by omega), frame2 _ _ (by omega), frame1 _ _ (by omega)]
    exact hblank p (by omega) hp'
  · refine hentryAt.of_slice fun p k hp hk => ?_
    rw [frame3 _ _ (by omega), frame2 _ _ (by omega)]
  · rw [frame3 _ _ (by omega)]
    exact hslice
  · intro i hi
    exact chainTo_next l2 htable (Nat.le_refl _) (by omega) hi
  · intro p k hbelow
    unfold Below at hbelow
    rw [frame3 _ _ (by omega), frame2 _ _ (by omega), frame1 _ _ (by omega)]

end OpenSaab.Capture
