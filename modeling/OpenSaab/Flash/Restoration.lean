import OpenSaab.Flash.Modules

/-!
# What restoration does

A blank module is filled if the first module with its checksum and length has its header. This is all
that a run does, and it is as good as it should be exactly when no module is passed over for another
one with its checksum, and when no new blank module comes about.
-/

namespace OpenSaab.Flash

open Bytes

/-! ## Modules that are close to each other -/

theorem Headed.magic_at {image : Image} {m : Module} (h : Headed image m) {t : Nat} (ht : t < 4) :
    image[m.offset + t]? = magicBytes[t]? := by
  rw [← h.magic, getElem?_slice, if_pos ht]

theorem Headed.entry_at {image : Image} {m : Module} (h : Headed image m) {t : Nat} (ht : t < 8) :
    image[m.offset + 12 + t]? = entryBytes[t]? := by
  rw [← h.entry, getElem?_slice, if_pos ht]

/-- A module that the system image can fill: it has a body, of whole words. -/
def Fillable (m : Module) : Prop := headerSize < m.len ∧ m.len % 2 = 0

/-- Two blank modules do not overlap, or the body of the first one is in the fields of the second one:
its header starts there where the header of the first one ends. -/
theorem Blank.apart {flash : Image} {a b : Module} (ha : Blank flash a) (hb : Blank flash b)
    (hfilla : Fillable a) (hfillb : Fillable b) (hlt : a.offset < b.offset) :
    a.offset + a.len ≤ b.offset ∨
      b.offset + 4 ≤ a.offset + headerSize ∧ a.offset + a.len ≤ b.offset + 12 := by
  have hsize : headerSize = 32 := rfl
  obtain ⟨hlong, heven⟩ := hfilla
  have hplaceda := ha.placed.2
  have hplacedb := hb.placed.2
  -- A byte that is not zero is not in the body of the first one.
  have houtside {x : Nat} {v : UInt8} (hx : flash[x]? = some v) (hv : v ≠ 0)
      (hlo : a.offset + 32 ≤ x) : a.offset + a.len ≤ x := by
    by_contra hhi
    rw [ha.zero x (by omega) (by omega)] at hx
    exact hv (Option.some.inj hx).symm
  have hclash {x y : Nat} {v w : UInt8} (hx : flash[x]? = some v) (hy : flash[y]? = some w)
      (hvw : v ≠ w) : x ≠ y := by
    rintro rfl
    exact hvw (Option.some.inj (hx.symm.trans hy))
  have hheada := ha.toHeaded
  have hheadb := hb.toHeaded
  have b0 : flash[b.offset + 0]? = some 0x00 := hheadb.magic_at (by decide)
  have b1 : flash[b.offset + 1]? = some 0x10 := hheadb.magic_at (by decide)
  have b2 : flash[b.offset + 2]? = some 0x00 := hheadb.magic_at (by decide)
  have b3 : flash[b.offset + 3]? = some 0x44 := hheadb.magic_at (by decide)
  have b12 : flash[b.offset + 12 + 0]? = some 0x4e := hheadb.entry_at (by decide)
  have b13 : flash[b.offset + 12 + 1]? = some 0x4b := hheadb.entry_at (by decide)
  have a3 : flash[a.offset + 3]? = some 0x44 := hheada.magic_at (by decide)
  have a12 : flash[a.offset + 12 + 0]? = some 0x4e := hheada.entry_at (by decide)
  have a14 : flash[a.offset + 12 + 2]? = some 0x4e := hheada.entry_at (by decide)
  have a16 : flash[a.offset + 12 + 4]? = some 0x4e := hheada.entry_at (by decide)
  have a17 : flash[a.offset + 12 + 5]? = some 0x4c := hheada.entry_at (by decide)
  have a18 : flash[a.offset + 12 + 6]? = some 0x4e := hheada.entry_at (by decide)
  have a19 : flash[a.offset + 12 + 7]? = some 0x75 := hheada.entry_at (by decide)
  -- Eight bytes on, the length would be two of the instructions, which make an odd number.
  have h8 : b.offset ≠ a.offset + 8 := by
    intro h
    have hlen : b.len = beLong entryBytes 4 := by
      rw [← hheadb.len, ← hheada.entry, h]
      unfold beLong
      rw [slice_slice (by decide)]
    exact absurd hfillb.2 (by rw [hlen]; decide)
  have h2 := hclash a3 b1 (by decide)
  have h4 := hclash a17 b13 (by decide)
  have h6 := hclash a19 b13 (by decide)
  have h10 := hclash a12 b2 (by decide)
  have h12 := hclash a12 b0 (by decide)
  have h14 := hclash a14 b0 (by decide)
  have h16 := hclash a16 b0 (by decide)
  have h18 := hclash a18 b0 (by decide)
  have hfrom20 := houtside b12 (by decide)
  have hat30 := houtside b3 (by decide)
  have hfrom32 := houtside b1 (by decide)
  omega

/-! ## Pairs -/

/-- The first module with the checksum and length of `m` is `s`, and it has its header. -/
structure Paired (flash opsys : Image) (m s : Module) : Prop where
  first : candidate (sourceModules opsys) m = some s
  same : header flash m = header opsys s

theorem candidate_spec {opsys : Image} {m s : Module}
    (h : candidate (sourceModules opsys) m = some s) :
    Source opsys s ∧ s.cksum = m.cksum ∧ s.len = m.len := by
  have hfound := List.find?_some h
  rw [decide_eq_true_eq] at hfound
  exact ⟨mem_sourceModules.mp (List.mem_of_find?_eq_some h), hfound⟩

theorem candidate_fillable {opsys : Image} {m s : Module}
    (h : candidate (sourceModules opsys) m = some s) : Fillable m := by
  obtain ⟨hs, -, hlen⟩ := candidate_spec h
  unfold Fillable
  rw [← hlen]
  exact hs.filled

theorem header_at (image : Image) (m : Module) {t : Nat} (ht : t < headerSize) :
    (header image m)[t]? = image[m.offset + t]? := by
  unfold header
  rw [getElem?_slice, if_pos ht]

/-- Four bytes with the value of a field are those of the field. -/
theorem field_at {image : Image} {p v : Nat} (hroom : p + 4 ≤ image.length)
    (h : beLong image p = v) {t : Nat} (ht : t < 4) : image[p + t]? = (Words.big 4 v)[t]? := by
  have hbytes : Words.big 4 v = slice image p 4 := by
    have hbig := Words.big_ofBig (slice image p 4)
    rw [length_slice hroom] at hbig
    rw [← h]
    exact hbig
  rw [hbytes, getElem?_slice, if_pos ht]

/-- The header of a module is the one of its candidate as soon as they end alike: what is before is
fixed, or it is the checksum and the length. -/
theorem header_eq_of_candidate {flash opsys : Image} {m s : Module} (hm : Headed flash m)
    (hs : candidate (sourceModules opsys) m = some s)
    (hend : ∀ t, 20 ≤ t → t < headerSize → flash[m.offset + t]? = opsys[s.offset + t]?) :
    header flash m = header opsys s := by
  have hsize : headerSize = 32 := rfl
  obtain ⟨hsource, hcksum, hlen⟩ := candidate_spec hs
  have hinside := hm.inside
  have hleast := hm.least
  have hinside' := hsource.inside
  have hleast' := hsource.least
  apply List.ext_getElem?
  intro t
  by_cases ht : t < headerSize
  · rw [header_at flash m ht, header_at opsys s ht]
    rcases Nat.lt_or_ge t 4 with h4 | h4
    · rw [hm.magic_at h4, hsource.magic_at h4]
    rcases Nat.lt_or_ge t 8 with h8 | h8
    · obtain ⟨u, rfl⟩ := Nat.exists_eq_add_of_le h4
      rw [← Nat.add_assoc, ← Nat.add_assoc, field_at (by omega) hm.cksum (by omega),
        field_at (by omega) hsource.cksum (by omega), hcksum]
    rcases Nat.lt_or_ge t 12 with h12 | h12
    · obtain ⟨u, rfl⟩ := Nat.exists_eq_add_of_le h8
      rw [← Nat.add_assoc, ← Nat.add_assoc, field_at (by omega) hm.len (by omega),
        field_at (by omega) hsource.len (by omega), hlen]
    rcases Nat.lt_or_ge t 20 with h20 | h20
    · obtain ⟨u, rfl⟩ := Nat.exists_eq_add_of_le h12
      rw [← Nat.add_assoc, ← Nat.add_assoc, hm.entry_at (by omega), hsource.entry_at (by omega)]
    · exact hend t h20 ht
  · unfold header
    rw [getElem?_slice, getElem?_slice, if_neg ht, if_neg ht]

/-! ## A run -/

/-- A byte of the body that has been filled. -/
def Restored.Covers (r : Restored) (x : Nat) : Prop := r.dst + headerSize ≤ x ∧ x < r.dst + r.n

def Module.restored (m s : Module) : Restored := ⟨m.offset, s.offset, s.len⟩

/-- The state after the modules `pre` of the flash. -/
structure Progress (flash opsys : Image) (pre : List Module) (st : Image × List Restored) : Prop where
  length : st.1.length = flash.length
  same : ∀ x, (∀ r ∈ st.2, ¬ r.Covers x) → st.1[x]? = flash[x]?
  held : ∀ r ∈ st.2, ∀ t < r.n, st.1[r.dst + t]? = opsys[r.src + t]?
  made : ∀ r ∈ st.2, ∃ m ∈ pre, ∃ s, Paired flash opsys m s ∧ r = m.restored s
  /-- A module that could have been filled has been overwritten before. -/
  missed : ∀ m ∈ pre, ∀ s, Paired flash opsys m s → m.restored s ∈ st.2 ∨
    ∃ r ∈ st.2, ∃ t, r.Covers (r.dst + t) ∧ m.offset ≤ r.dst + t ∧
      r.dst + t < m.offset + headerSize ∧ opsys[r.src + t]? ≠ some 0

section Step

variable {flash opsys : Image} {pre : List Module} {st : Image × List Restored} {m : Module}

/-- What has been filled before a module is not behind the fields of its header. -/
theorem Progress.before (h : Progress flash opsys pre st) (hpre : ∀ a ∈ pre, Blank flash a ∧ a.offset < m.offset)
    (hm : Blank flash m) (hfill : Fillable m) {r : Restored} (hr : r ∈ st.2) :
    r.dst + r.n ≤ m.offset + 12 := by
  obtain ⟨a, ha, s, hpair, rfl⟩ := h.made r hr
  obtain ⟨hblank, hlt⟩ := hpre a ha
  obtain ⟨-, -, hlen⟩ := candidate_spec hpair.first
  have hapart := hblank.apart hm (candidate_fillable hpair.first) hfill hlt
  change a.offset + s.len ≤ m.offset + 12
  omega

/-- A module that is passed over. -/
theorem Progress.skip (h : Progress flash opsys pre st)
    (hmissed : ∀ s, Paired flash opsys m s → ∃ r ∈ st.2, ∃ t, r.Covers (r.dst + t) ∧
      m.offset ≤ r.dst + t ∧ r.dst + t < m.offset + headerSize ∧ opsys[r.src + t]? ≠ some 0) :
    Progress flash opsys (pre ++ [m]) st where
  length := h.length
  same := h.same
  held := h.held
  made r hr := by
    obtain ⟨a, ha, rest⟩ := h.made r hr
    exact ⟨a, List.mem_append_left _ ha, rest⟩
  missed a ha s hpair := by
    rcases List.mem_append.mp ha with ha | ha
    · exact h.missed a ha s hpair
    · obtain rfl := List.mem_singleton.mp ha
      exact .inr (hmissed s hpair)

/-- A module whose header has been changed in the meantime: what has changed it is not all zero. -/
theorem Progress.changed (h : Progress flash opsys pre st)
    (hpre : ∀ a ∈ pre, Blank flash a ∧ a.offset < m.offset)
    (hchanged : header st.1 m ≠ header flash m) :
    ∃ r ∈ st.2, ∃ t, r.Covers (r.dst + t) ∧ m.offset ≤ r.dst + t ∧
      r.dst + t < m.offset + headerSize ∧ opsys[r.src + t]? ≠ some 0 := by
  by_contra hnone
  refine hchanged (List.ext_getElem? fun t => ?_)
  by_cases ht : t < headerSize
  · rw [header_at _ m ht, header_at _ m ht]
    by_cases hcovered : ∃ r ∈ st.2, r.Covers (m.offset + t)
    · obtain ⟨r, hr, hlo, hhi⟩ := hcovered
      obtain ⟨u, hu⟩ := Nat.exists_eq_add_of_le (Nat.le_of_add_right_le hlo)
      obtain ⟨a, ha, s, hpair, rfl⟩ := h.made r hr
      obtain ⟨-, -, hlen⟩ := candidate_spec hpair.first
      have hzero : opsys[(a.restored s).src + u]? = some 0 := by
        by_contra hne
        exact hnone ⟨_, hr, u, ⟨by omega, by omega⟩, by omega, by omega, hne⟩
      have hblank : flash[m.offset + t]? = some 0 := by
        refine (hpre a ha).1.zero _ hlo ?_
        change m.offset + t < a.offset + s.len at hhi
        omega
      rw [hblank, hu, h.held _ hr u (by omega), hzero]
    · exact h.same _ fun r hr hcovers => hcovered ⟨r, hr, hcovers⟩
  · unfold header
    rw [getElem?_slice, getElem?_slice, if_neg ht, if_neg ht]

/-- A module that is filled. -/
theorem Progress.fill (h : Progress flash opsys pre st)
    (hpre : ∀ a ∈ pre, Blank flash a ∧ a.offset < m.offset) (hm : Blank flash m) {s : Module}
    (hs : candidate (sourceModules opsys) m = some s) (hhead : header st.1 m = header opsys s) :
    Progress flash opsys (pre ++ [m])
      (overwrite st.1 m.offset (slice opsys s.offset s.len), st.2 ++ [m.restored s]) := by
  have hsize : headerSize = 32 := rfl
  obtain ⟨hsource, -, hlen⟩ := candidate_spec hs
  have hinside := hm.inside
  have hleast := hm.least
  have hbefore := fun r hr => h.before hpre hm (candidate_fillable hs) (r := r) hr
  have hsources : (slice opsys s.offset s.len).length = s.len := length_slice hsource.inside
  have hroom : m.offset + (slice opsys s.offset s.len).length ≤ st.1.length := by
    rw [hsources, h.length, hlen]
    exact hinside
  have hheader {t : Nat} (ht : t < headerSize) :
      st.1[m.offset + t]? = opsys[s.offset + t]? := by
    rw [← header_at st.1 m ht, hhead, header_at opsys s ht]
  have hpair : Paired flash opsys m s := by
    refine ⟨hs, header_eq_of_candidate hm.toHeaded hs fun t hlo hhi => ?_⟩
    rw [← hheader hhi]
    refine (h.same _ fun r hr hcovers => ?_).symm
    have hr := hbefore r hr
    have hcovered := hcovers.2
    omega
  have hwritten {t : Nat} (ht : t < s.len) :
      (overwrite st.1 m.offset (slice opsys s.offset s.len))[m.offset + t]? =
        opsys[s.offset + t]? := by
    rw [getElem?_overwrite hroom, if_pos (by omega), Nat.add_sub_cancel_left, getElem?_slice,
      if_pos ht]
  have hkept {x : Nat} (hx : x < m.offset ∨ m.offset + s.len ≤ x) :
      (overwrite st.1 m.offset (slice opsys s.offset s.len))[x]? = st.1[x]? := by
    rw [getElem?_overwrite hroom, if_neg (by omega)]
  refine ⟨?_, fun x hx => ?_, fun r hr t ht => ?_, fun r hr => ?_, fun a ha s' hpair' => ?_⟩
  · rw [length_overwrite hroom]
    exact h.length
  · by_cases hin : m.offset ≤ x ∧ x < m.offset + s.len
    · obtain ⟨t, rfl⟩ := Nat.exists_eq_add_of_le hin.1
      have ht : t < headerSize := by
        by_contra hge
        have hnew := hx (m.restored s) (List.mem_append_right _ (List.mem_singleton.mpr rfl))
        refine hnew ⟨?_, hin.2⟩
        change m.offset + headerSize ≤ m.offset + t
        omega
      rw [hwritten (by omega), ← header_at opsys s ht, ← hpair.same, header_at flash m ht]
    · rw [hkept (by omega)]
      exact h.same x fun r hr => hx r (List.mem_append_left _ hr)
  · rcases List.mem_append.mp hr with hr | hr
    · have hend := hbefore r hr
      rw [← h.held r hr t ht]
      rcases Nat.lt_or_ge (r.dst + t) m.offset with hlo | hlo
      · exact hkept (.inl hlo)
      · obtain ⟨u, hu⟩ := Nat.exists_eq_add_of_le hlo
        rw [hu, hwritten (by omega), hheader (by omega)]
    · obtain rfl := List.mem_singleton.mp hr
      exact hwritten ht
  · rcases List.mem_append.mp hr with hr | hr
    · obtain ⟨a, ha, rest⟩ := h.made r hr
      exact ⟨a, List.mem_append_left _ ha, rest⟩
    · obtain rfl := List.mem_singleton.mp hr
      exact ⟨m, List.mem_append_right _ (List.mem_singleton.mpr rfl), s, hpair, rfl⟩
  · rcases List.mem_append.mp ha with ha | ha
    · rcases h.missed a ha s' hpair' with hdone | ⟨r, hr, rest⟩
      · exact .inl (List.mem_append_left _ hdone)
      · exact .inr ⟨r, List.mem_append_left _ hr, rest⟩
    · obtain rfl := List.mem_singleton.mp ha
      obtain rfl := Option.some.inj (hs.symm.trans hpair'.first)
      exact .inl (List.mem_append_right _ (List.mem_singleton.mpr rfl))

theorem Progress.step (h : Progress flash opsys pre st)
    (hpre : ∀ a ∈ pre, Blank flash a ∧ a.offset < m.offset) (hm : Blank flash m) :
    Progress flash opsys (pre ++ [m]) (restoreModule opsys (sourceModules opsys) st m) := by
  unfold restoreModule
  cases hs : candidate (sourceModules opsys) m with
  | none =>
    refine h.skip fun s hpair => ?_
    rw [hpair.first] at hs
    cases hs
  | some s =>
    have hinside := (candidate_spec hs).1.inside
    by_cases hhead : header st.1 m = header opsys s
    · have hgood : ¬ (opsys.length < s.offset + s.len ∨ header st.1 m ≠ header opsys s) := by
        rintro (hshort | hne)
        · omega
        · exact hne hhead
      dsimp only
      rw [if_neg hgood]
      exact h.fill hpre hm hs hhead
    · dsimp only
      rw [if_pos (.inr hhead)]
      refine h.skip fun s' hpair => h.changed hpre fun hsame => hhead ?_
      obtain rfl := Option.some.inj (hs.symm.trans hpair.first)
      exact hsame.trans hpair.same

end Step

theorem progress_foldl {flash opsys : Image} {pre ms : List Module} {st : Image × List Restored}
    (h : Progress flash opsys pre st) (hblank : ∀ m ∈ pre ++ ms, Blank flash m)
    (hsorted : (pre ++ ms).Pairwise fun a b => a.offset < b.offset) :
    Progress flash opsys (pre ++ ms)
      (ms.foldl (restoreModule opsys (sourceModules opsys)) st) := by
  induction ms generalizing pre st with
  | nil =>
    rw [List.append_nil]
    exact h
  | cons m ms ih =>
    have hpre : ∀ a ∈ pre, Blank flash a ∧ a.offset < m.offset := by
      intro a ha
      refine ⟨hblank a (List.mem_append_left _ ha), ?_⟩
      exact (List.pairwise_append.mp hsorted).2.2 a ha m List.mem_cons_self
    have hm : Blank flash m := hblank m (List.mem_append_right _ List.mem_cons_self)
    rw [List.append_cons] at hblank hsorted ⊢
    exact ih (h.step hpre hm) hblank hsorted

theorem progress_start (flash opsys : Image) : Progress flash opsys [] (flash, []) :=
  ⟨rfl, fun _ _ => rfl, nofun, nofun, nofun⟩

/-- The run rule: what is known after all the modules of the flash. -/
theorem progress_run (flash opsys : Image) :
    Progress flash opsys (blankModules flash) (restoreRomModules flash opsys) :=
  progress_foldl (progress_start flash opsys) (fun _ hm => mem_blankModules.mp hm)
    (scan_sorted blankAt_offset _ _)

/-! ## One run and the next -/

def BodyZero (image : Image) (s : Module) : Prop :=
  ∀ t, headerSize ≤ t → t < s.len → image[s.offset + t]? = some 0

section Result

variable {flash opsys : Image} {m s : Module} {r : Restored}

theorem Headed.unique {image : Image} {a b : Module} (ha : Headed image a) (hb : Headed image b)
    (h : a.offset = b.offset) : a = b := by
  have hcksum : a.cksum = b.cksum := by rw [← ha.cksum, ← hb.cksum, h]
  have hlen : a.len = b.len := by rw [← ha.len, ← hb.len, h]
  exact Module.ext_iff.mpr ⟨h, hcksum, hlen⟩

theorem Paired.len (h : Paired flash opsys m s) : s.len = m.len := (candidate_spec h.first).2.2

theorem Paired.fillable (h : Paired flash opsys m s) : Fillable m := candidate_fillable h.first

theorem made_of_mem (hr : r ∈ (restoreRomModules flash opsys).2) :
    ∃ m s, Blank flash m ∧ Paired flash opsys m s ∧ r = m.restored s := by
  obtain ⟨m, hm, s, hpair, hrestored⟩ := (progress_run flash opsys).made r hr
  exact ⟨m, s, mem_blankModules.mp hm, hpair, hrestored⟩

/-- What is filled has been blank. -/
theorem zero_of_covers (hr : r ∈ (restoreRomModules flash opsys).2) {x : Nat} (hx : r.Covers x) :
    flash[x]? = some 0 := by
  obtain ⟨m, s, hm, hpair, rfl⟩ := made_of_mem hr
  exact hm.zero x hx.1 (hpair.len ▸ hx.2)

theorem held_of_covers (hr : r ∈ (restoreRomModules flash opsys).2) {x : Nat} (hx : r.Covers x) :
    (restoreRomModules flash opsys).1[x]? = opsys[r.src + (x - r.dst)]? := by
  obtain ⟨hlo, hhi⟩ := hx
  have hheld := (progress_run flash opsys).held r hr (x - r.dst) (by omega)
  rwa [Nat.add_sub_cancel' (by omega)] at hheld

theorem slice_held (hr : r ∈ (restoreRomModules flash opsys).2) {i k : Nat} (h : i + k ≤ r.n) :
    slice (restoreRomModules flash opsys).1 (r.dst + i) k = slice opsys (r.src + i) k := by
  apply List.ext_getElem?
  intro j
  rw [getElem?_slice, getElem?_slice]
  split
  · rw [Nat.add_assoc, Nat.add_assoc]
    exact (progress_run flash opsys).held r hr (i + j) (by omega)
  · rfl

/-- What is restored declares the sum of its body. -/
theorem sum_of_mem (hr : r ∈ (restoreRomModules flash opsys).2) :
    beLong (restoreRomModules flash opsys).1 (r.dst + 8) = r.n ∧
      moduleChecksum 0
          (slice (restoreRomModules flash opsys).1 (r.dst + headerSize) (r.n - headerSize)) =
        beLong (restoreRomModules flash opsys).1 (r.dst + 4) := by
  have hsize : headerSize = 32 := rfl
  obtain ⟨m, s, -, hpair, rfl⟩ := made_of_mem hr
  obtain ⟨hsource, -⟩ := candidate_spec hpair.first
  have hlong : headerSize < (m.restored s).n := hsource.filled.1
  unfold beLong
  rw [slice_held hr (by omega), slice_held hr (by omega), slice_held hr (by omega)]
  exact ⟨hsource.len, hsource.sum.trans hsource.cksum.symm⟩

/-- A run leaves the flash as it is if there is nothing to fill but with zeros. -/
theorem restore_eq_self_iff : (restoreRomModules flash opsys).1 = flash ↔
    ∀ m s, Blank flash m → Paired flash opsys m s → BodyZero opsys s := by
  constructor
  · intro hself m s hm hpair t hlo hhi
    rcases (progress_run flash opsys).missed m (mem_blankModules.mpr hm) s hpair with hr | hr
    · have hheld := (progress_run flash opsys).held _ hr t hhi
      rw [hself] at hheld
      change flash[m.offset + t]? = opsys[s.offset + t]? at hheld
      rw [← hheld]
      exact hm.zero _ (by omega) (by rw [← hpair.len]; omega)
    · obtain ⟨r, hr, u, hcovers, -, -, hne⟩ := hr
      refine absurd ?_ hne
      rw [← (progress_run flash opsys).held r hr u (by have := hcovers.2; omega), hself]
      exact zero_of_covers hr hcovers
  · intro hzero
    apply List.ext_getElem?
    intro x
    by_cases hx : ∃ r ∈ (restoreRomModules flash opsys).2, r.Covers x
    · obtain ⟨r, hr, hcovers⟩ := hx
      rw [held_of_covers hr hcovers, zero_of_covers hr hcovers]
      obtain ⟨m, s, hm, hpair, rfl⟩ := made_of_mem hr
      obtain ⟨hlo, hhi⟩ := hcovers
      change m.offset + headerSize ≤ x at hlo
      change x < m.offset + s.len at hhi
      exact hzero m s hm hpair (x - m.offset) (by omega) (by omega)
    · exact (progress_run flash opsys).same x fun r hr hcovers => hx ⟨r, hr, hcovers⟩

end Result

/-! ## What is meant -/

/-- Only the bodies of blank modules change, and what is restored has the checksum of its header. Each
blank module is restored if the system image has a module with its header, and then nothing is left
to do. -/
structure Exact (flash opsys : Image) : Prop where
  bodies : ∀ x, (restoreRomModules flash opsys).1[x]? ≠ flash[x]? →
    ∃ m, Blank flash m ∧ m.offset + headerSize ≤ x ∧ x < m.offset + m.len
  sums : ∀ r ∈ (restoreRomModules flash opsys).2,
    beLong (restoreRomModules flash opsys).1 (r.dst + 8) = r.n ∧
      moduleChecksum 0
          (slice (restoreRomModules flash opsys).1 (r.dst + headerSize) (r.n - headerSize)) =
        beLong (restoreRomModules flash opsys).1 (r.dst + 4)
  complete : ∀ m s, Blank flash m → Source opsys s → header flash m = header opsys s →
    ∃ r ∈ (restoreRomModules flash opsys).2, r.dst = m.offset
  again : (restoreRomModules (restoreRomModules flash opsys).1 opsys).1 =
    (restoreRomModules flash opsys).1

/-- The blank modules with their first candidates, where these have their headers. -/
def pairs (flash opsys : Image) : List Restored :=
  (blankModules flash).filterMap fun m =>
    (candidate (sourceModules opsys) m).bind fun s =>
      if header flash m = header opsys s then some (m.restored s) else none

instance (r : Restored) (x : Nat) : Decidable (r.Covers x) := inferInstanceAs (Decidable (_ ∧ _))

/-- The flash with the bodies of the pairs in their places. -/
def filled (flash opsys : Image) : Image :=
  flash.mapIdx fun x b =>
    ((pairs flash opsys).findSome? fun r =>
      if r.Covers x then opsys[r.src + (x - r.dst)]? else none).getD b

structure Clear (flash opsys : Image) : Prop where
  /-- A module is not passed over for another one with its checksum and length. -/
  first : ∀ m s, Blank flash m → Source opsys s → header flash m = header opsys s →
    ∃ s', Paired flash opsys m s'
  /-- What is filled is not in the header of another module that is filled. -/
  apart : ∀ a b sa sb, Blank flash a → Blank flash b → Paired flash opsys a sa →
    Paired flash opsys b sb → a.offset < b.offset → b.offset < a.offset + headerSize →
    BodyZero opsys sa
  /-- The bodies bring in no new module to be filled. -/
  settled : ∀ m s, Blank (filled flash opsys) m → ¬ Blank flash m →
    Paired (filled flash opsys) opsys m s → BodyZero opsys s

section Exactness

variable {flash opsys : Image} {m s : Module} {r : Restored}

theorem mem_pairs : r ∈ pairs flash opsys ↔
    ∃ m s, Blank flash m ∧ Paired flash opsys m s ∧ r = m.restored s := by
  unfold pairs
  rw [List.mem_filterMap]
  constructor
  · rintro ⟨m, hm, hr⟩
    obtain ⟨s, hs, hr⟩ := Option.bind_eq_some_iff.mp hr
    split at hr
    · next hsame => exact ⟨m, s, mem_blankModules.mp hm, ⟨hs, hsame⟩, (Option.some.inj hr).symm⟩
    · cases hr
  · rintro ⟨m, s, hm, hpair, rfl⟩
    refine ⟨m, mem_blankModules.mpr hm, ?_⟩
    rw [hpair.first, Option.bind_some, if_pos hpair.same]

/-- All that could be filled has been. -/
def Filled (flash opsys : Image) : Prop :=
  ∀ m s, Blank flash m → Paired flash opsys m s → m.restored s ∈ (restoreRomModules flash opsys).2

theorem filled_of_complete (h : ∀ m s, Blank flash m → Source opsys s →
    header flash m = header opsys s → ∃ r ∈ (restoreRomModules flash opsys).2, r.dst = m.offset) :
    Filled flash opsys := by
  intro m s hm hpair
  obtain ⟨hsource, -⟩ := candidate_spec hpair.first
  obtain ⟨r, hr, hdst⟩ := h m s hm hsource hpair.same
  obtain ⟨a, sa, ha, hpair', rfl⟩ := made_of_mem hr
  obtain rfl := ha.toHeaded.unique hm.toHeaded hdst
  obtain rfl := Option.some.inj (hpair.first.symm.trans hpair'.first)
  exact hr

/-- Where two modules that have both been filled are too close, the first one got zeros. -/
theorem Filled.apart (h : Filled flash opsys) {a b sa sb : Module} (ha : Blank flash a)
    (hb : Blank flash b) (hpaira : Paired flash opsys a sa) (hpairb : Paired flash opsys b sb)
    (hlt : a.offset < b.offset) (hnear : b.offset < a.offset + headerSize) : BodyZero opsys sa := by
  have hsize : headerSize = 32 := rfl
  have hlena := hpaira.len
  have hlong := hpaira.fillable.1
  have hlenb := hpairb.len
  have hlongb := hpairb.fillable.1
  intro t hlo hhi
  have hend : a.offset + a.len ≤ b.offset + 12 := by
    have hapart := ha.apart hb hpaira.fillable hpairb.fillable hlt
    omega
  obtain ⟨u, hu⟩ := Nat.exists_eq_add_of_le (by omega : b.offset ≤ a.offset + t)
  have hhelda : (restoreRomModules flash opsys).1[a.offset + t]? = opsys[sa.offset + t]? :=
    (progress_run flash opsys).held _ (h a sa ha hpaira) t hhi
  have hheldb : (restoreRomModules flash opsys).1[b.offset + u]? = opsys[sb.offset + u]? :=
    (progress_run flash opsys).held _ (h b sb hb hpairb) u (by change u < sb.len; omega)
  rw [← hhelda, hu, hheldb, ← header_at opsys sb (by omega), ← hpairb.same,
    header_at flash b (by omega), ← hu]
  exact ha.zero _ (by omega) (by omega)

theorem Clear.filled (h : Clear flash opsys) : Filled flash opsys := by
  intro m s hm hpair
  rcases (progress_run flash opsys).missed m (mem_blankModules.mpr hm) s hpair with hr | hr
  · exact hr
  · exfalso
    obtain ⟨r, hr, t, hcovers, hlo, hhi, hne⟩ := hr
    obtain ⟨a, sa, ha, hpaira, rfl⟩ := made_of_mem hr
    obtain ⟨hcovers, hend⟩ := hcovers
    change a.offset + headerSize ≤ a.offset + t at hcovers
    change a.offset + t < a.offset + sa.len at hend
    change m.offset ≤ a.offset + t at hlo
    change a.offset + t < m.offset + headerSize at hhi
    have hlen := hpaira.len
    have hlt : a.offset < m.offset := by omega
    have hnear := ha.apart hm hpaira.fillable hpair.fillable hlt
    refine hne (h.apart a m sa s ha hm hpaira hpair hlt (by omega) t (by omega) (by omega))

/-- Then the run gives the flash with the bodies of the pairs. -/
theorem Filled.result (h : Filled flash opsys) :
    (restoreRomModules flash opsys).1 = filled flash opsys := by
  have hlength := (progress_run flash opsys).length
  apply List.ext_getElem?
  intro x
  unfold filled
  rw [List.getElem?_mapIdx]
  by_cases hx : ∃ r ∈ (restoreRomModules flash opsys).2, r.Covers x
  · obtain ⟨r, hr, hcovers⟩ := hx
    obtain ⟨v, hv⟩ : ∃ v, opsys[r.src + (x - r.dst)]? = some v := by
      rw [← held_of_covers hr hcovers]
      refine ⟨_, List.getElem?_eq_getElem ?_⟩
      rw [hlength]
      obtain ⟨hinside, -⟩ := List.getElem?_eq_some_iff.mp (zero_of_covers hr hcovers)
      exact hinside
    rw [zero_of_covers hr hcovers, Option.map_some]
    cases hfound : (pairs flash opsys).findSome? fun r =>
        if r.Covers x then opsys[r.src + (x - r.dst)]? else none with
    | none =>
      have hnone := List.findSome?_eq_none_iff.mp hfound r (mem_pairs.mpr (made_of_mem hr))
      rw [if_pos hcovers, hv] at hnone
      cases hnone
    | some w =>
      obtain ⟨r', hr', hw⟩ := List.exists_of_findSome?_eq_some hfound
      split at hw
      · next hcovers' =>
        obtain ⟨m, s, hm, hpair, rfl⟩ := mem_pairs.mp hr'
        rw [held_of_covers (h m s hm hpair) hcovers', hw, Option.getD_some]
      · cases hw
  · rw [(progress_run flash opsys).same x fun r hr hcovers => hx ⟨r, hr, hcovers⟩]
    have hnone : ((pairs flash opsys).findSome? fun r =>
        if r.Covers x then opsys[r.src + (x - r.dst)]? else none) = none := by
      refine List.findSome?_eq_none_iff.mpr fun r hr => if_neg fun hcovers => hx ⟨r, ?_, hcovers⟩
      obtain ⟨m, s, hm, hpair, rfl⟩ := mem_pairs.mp hr
      exact h m s hm hpair
    rw [hnone]
    exact Option.map_id'.symm

/-- A module of the flash that could be filled in the end could have been from the start. -/
theorem Filled.paired_before (hm : Blank flash m)
    (hpair : Paired (restoreRomModules flash opsys).1 opsys m s) : Paired flash opsys m s := by
  have hsize : headerSize = 32 := rfl
  refine ⟨hpair.first, header_eq_of_candidate hm.toHeaded hpair.first fun t hlo hhi => ?_⟩
  rw [← header_at opsys s hhi, ← hpair.same, header_at _ m hhi]
  refine ((progress_run flash opsys).same _ fun r hr hcovers => ?_).symm
  obtain ⟨a, sa, ha, hpaira, rfl⟩ := made_of_mem hr
  obtain ⟨hcovers, hend⟩ := hcovers
  change a.offset + headerSize ≤ m.offset + t at hcovers
  change m.offset + t < a.offset + sa.len at hend
  have hlen := hpaira.len
  have hnear := ha.apart hm hpaira.fillable hpair.fillable (by omega)
  omega

/-- Restoration is as exact as it is meant to be just when no module is passed over for another one,
no two are too close, and no new one comes about. -/
theorem exact_iff_clear (flash opsys : Image) : Exact flash opsys ↔ Clear flash opsys := by
  constructor
  · intro h
    have hfilled := filled_of_complete h.complete
    refine ⟨fun m s hm hs hsame => ?_, fun a b sa sb ha hb => hfilled.apart ha hb, ?_⟩
    · obtain ⟨r, hr, hdst⟩ := h.complete m s hm hs hsame
      obtain ⟨a, sa, ha, hpair, rfl⟩ := made_of_mem hr
      obtain rfl := ha.toHeaded.unique hm.toHeaded hdst
      exact ⟨sa, hpair⟩
    · rw [← hfilled.result]
      exact fun m s hm _ => restore_eq_self_iff.mp h.again m s hm
  · intro h
    have hfilled := h.filled
    refine ⟨fun x hx => ?_, fun r hr => ?_, fun m s hm hs hsame => ?_, ?_⟩
    · by_contra hnone
      refine hx ((progress_run flash opsys).same x fun r hr hcovers => hnone ?_)
      obtain ⟨m, s, hm, hpair, rfl⟩ := made_of_mem hr
      exact ⟨m, hm, hcovers.1, hpair.len ▸ hcovers.2⟩
    · exact sum_of_mem hr
    · obtain ⟨s', hpair⟩ := h.first m s hm hs hsame
      exact ⟨_, hfilled m s' hm hpair, rfl⟩
    · refine restore_eq_self_iff.mpr fun m s hm hpair => ?_
      by_cases hold : Blank flash m
      · have hr := hfilled m s hold (Filled.paired_before hold hpair)
        intro t hlo hhi
        have hheld : (restoreRomModules flash opsys).1[m.offset + t]? = opsys[s.offset + t]? :=
          (progress_run flash opsys).held _ hr t hhi
        rw [← hheld]
        exact hm.zero _ (by omega) (by rw [← hpair.len]; omega)
      · rw [hfilled.result] at hm hpair
        exact h.settled m s hm hold hpair

end Exactness

/-! ## A module that is passed over -/

/-- A module of one word, with the last byte of its header. -/
def oneWord (last : UInt8) (word : Image) : Image :=
  magicBytes ++ [0, 0, 0x4e, 0x71, 0, 0, 0, 34] ++ entryBytes ++ List.replicate 11 0 ++ last :: word

def blankFlash : Image := List.replicate firstBlank 0 ++ oneWord 2 [0, 0]

/-- Two modules with one word, of which the second one has the header. -/
def twoSources : Image := oneWord 1 [0x4e, 0x71] ++ oneWord 2 [0x4e, 0x71]

theorem drop_blankFlash : blankFlash.drop firstBlank = oneWord 2 [0, 0] :=
  List.drop_left' (List.length_replicate)

theorem second_passed_over : ¬ Exact blankFlash twoSources := by
  intro h
  have hm : Blank blankFlash ⟨firstBlank, 0x4e71, 34⟩ := by
    refine mem_blankModules.mp ?_
    unfold blankModules
    rw [drop_blankFlash]
    decide
  have hs : Source twoSources ⟨34, 0x4e71, 34⟩ := mem_sourceModules.mp (by decide)
  have hheader : header blankFlash ⟨firstBlank, 0x4e71, 34⟩ = slice (oneWord 2 [0, 0]) 0 headerSize := by
    unfold header
    rw [← drop_blankFlash, slice_drop]
    rfl
  obtain ⟨r, hr, hdst⟩ := h.complete _ _ hm hs (by rw [hheader]; decide)
  obtain ⟨a, s, ha, hpair, rfl⟩ := made_of_mem hr
  obtain rfl := ha.toHeaded.unique hm.toHeaded hdst
  have hfirst : candidate (sourceModules twoSources) ⟨firstBlank, 0x4e71, 34⟩ =
      some ⟨0, 0x4e71, 34⟩ := by decide
  obtain rfl := Option.some.inj (hfirst.symm.trans hpair.first)
  have hsame := hpair.same
  rw [hheader] at hsame
  exact absurd hsame (by decide)

end OpenSaab.Flash
