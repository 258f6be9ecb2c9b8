import OpenSaab.Psos.Coherence
import OpenSaab.Library.Blocks

/-!
# Region identity

`rn_create` numbers a region by how many there are. As long as only the last region is deleted this
is a new number, and every segment that was handed out can be given back.
-/

namespace OpenSaab.Psos

open Std OpenSaab.Table OpenSaab.Runs OpenSaab.Blocks

variable {φ β : Type}

/-! ## One region -/

/-- There is a block of `s` bytes at `b`, free or in use. -/
def Region.block (r : Region) (b s : Nat) : Prop :=
  ∃ base size : UInt32, (r.free[base]? = some size ∨ r.used[base]? = some size) ∧
    base.toNat = b ∧ size.toNat = s

/-- The blocks tile an extent of the address space, and are free or in use. -/
structure Region.Sound (r : Region) : Prop where
  tiles : ∃ lo hi, hi < 2 ^ 32 ∧ Tiles lo hi r.block
  separate : ∀ base : UInt32, base ∈ r.free → base ∉ r.used

/-- The extent that the blocks tile, made explicit. -/
structure Region.Within (r : Region) (lo hi : Nat) : Prop where
  bound : hi < 2 ^ 32
  tiles : Tiles lo hi r.block
  separate : ∀ base : UInt32, base ∈ r.free → base ∉ r.used

namespace Region

variable {r : Region} {lo hi : Nat}

theorem Within.sound (h : r.Within lo hi) : r.Sound :=
  ⟨⟨lo, hi, h.bound, h.tiles⟩, h.separate⟩

theorem Sound.within (h : r.Sound) : ∃ lo hi, r.Within lo hi := by
  obtain ⟨⟨lo, hi, hhi, htiles⟩, hseparate⟩ := h
  exact ⟨lo, hi, hhi, htiles, hseparate⟩

theorem block_free {base size : UInt32} (h : r.free[base]? = some size) :
    r.block base.toNat size.toNat := ⟨base, size, Or.inl h, rfl, rfl⟩

theorem block_used {base size : UInt32} (h : r.used[base]? = some size) :
    r.block base.toNat size.toNat := ⟨base, size, Or.inr h, rfl, rfl⟩

/-- A region with nothing but one free block. -/
theorem within_new (name unit : UInt32) {base size : UInt32} (hsize : size ≠ 0)
    (hfit : base.toNat + size.toNat < 2 ^ 32) :
    Within { name, unit, free := (∅ : Table UInt32).insert base size, used := ∅ }
      base.toNat (base.toNat + size.toNat) where
  bound := hfit
  tiles := by
    refine (tiles_single (Nat.pos_of_ne_zero fun h => hsize (UInt32.toNat.inj h))).congr ?_
    intro b s
    constructor
    · rintro ⟨base', size', h | h, rfl, rfl⟩
      · rw [get_insert] at h
        split at h
        · next heq => simp_all
        · simp at h
      · simp at h
    · rintro ⟨rfl, rfl⟩
      exact block_free TreeMap.getElem?_insert_self
  separate base _ := by simp

/-- What an allocation does: the first `n` bytes of a free block go into use. -/
theorem allocate_spec {bytes : UInt32} {r' : Region} {base : UInt32}
    (h : r.allocate bytes = some (r', base)) :
    ∃ size n, r.free[base]? = some size ∧ n ≠ 0 ∧ n ≤ size ∧ r' = r.take base size n := by
  unfold allocate at h
  split at h
  · cases h
  · next hargs =>
    split at h
    · cases h
    · next hlarge =>
      dsimp only at h
      split at h
      · cases h
      · next b size hfit =>
        obtain ⟨rfl, rfl⟩ := Prod.mk.injEq .. ▸ Option.some.inj h
        have hmem := List.mem_of_find?_eq_some hfit
        have hle : UInt32.ofNat (segmentSize bytes r.unit) ≤ size := by
          simpa using List.find?_some hfit
        refine ⟨size, _, get_of_mem hmem, ?_, hle, rfl⟩
        have hbytes : bytes.toNat ≠ 0 := fun h0 => hargs (Or.inl (UInt32.toNat.inj h0))
        have hunit : r.unit.toNat ≠ 0 := fun h0 => hargs (Or.inr (UInt32.toNat.inj h0))
        have hpos : 0 < segmentSize bytes r.unit := by
          unfold segmentSize
          refine Nat.mul_pos (Nat.div_pos ?_ ?_) ?_ <;> omega
        intro h0
        have hvalue := congrArg UInt32.toNat h0
        have hsize : UInt32.size = 2 ^ 32 := rfl
        rw [UInt32.toNat_ofNat_of_lt' (by omega), UInt32.toNat_zero] at hvalue
        omega

/-- The two parts of a block that is split lie where they should. -/
theorem Within.part_toNat (h : r.Within lo hi) {base size n : UInt32}
    (hfree : r.free[base]? = some size) (hle : n ≤ size) :
    (base + n).toNat = base.toNat + n.toNat ∧ (size - n).toNat = size.toNat - n.toNat := by
  have hin := (h.tiles.inside (block_free hfree)).2
  have hhi := h.bound
  have hle' : n.toNat ≤ size.toNat := hle
  refine ⟨?_, UInt32.toNat_sub_of_le _ _ hle⟩
  rw [UInt32.toNat_add]
  exact Nat.mod_eq_of_lt (by omega)

/-- A block that starts inside another block is not there. -/
theorem Within.not_block (h : r.Within lo hi) {base size n : UInt32}
    (hfree : r.free[base]? = some size)
    (hn : n ≠ 0) (hlt : n < size) (size' : UInt32) :
    r.free[base + n]? ≠ some size' ∧ r.used[base + n]? ≠ some size' := by
  obtain ⟨hadd, -⟩ := h.part_toNat hfree (UInt32.le_of_lt hlt)
  have hpos : 0 < n.toNat := Nat.pos_of_ne_zero fun h => hn (UInt32.toNat.inj h)
  have hlt' : n.toNat < size.toNat := hlt
  have hapart : ∀ s, ¬ r.block (base + n).toNat s := by
    intro s hb
    have := h.tiles.not_inside (block_free hfree) hb (by omega)
    omega
  exact ⟨fun hb => hapart _ (block_free hb), fun hb => hapart _ (block_used hb)⟩

theorem take_used (r : Region) (base size n x : UInt32) :
    (r.take base size n).used[x]? = if x = base then some n else r.used[x]? := by
  simp only [take, get_insert]

theorem take_free (r : Region) {base size n : UInt32} (hlt : n < size) (x : UInt32) :
    (r.take base size n).free[x]? =
      if x = base + n then some (size - n) else if x = base then none else r.free[x]? := by
  simp only [take, hlt, if_true, get_insert, get_erase]

theorem take_free_all (r : Region) {base size n : UInt32} (hlt : ¬ n < size) (x : UInt32) :
    (r.take base size n).free[x]? = if x = base then none else r.free[x]? := by
  simp only [take, hlt, if_false, get_erase]

/-- The blocks after an allocation from a larger block. -/
theorem take_block (h : r.Within lo hi) {base size n : UInt32} (hfree : r.free[base]? = some size)
    (hn : n ≠ 0) (hlt : n < size) (b s : Nat) :
    (r.take base size n).block b s ↔ split r.block base.toNat size.toNat n.toNat b s := by
  obtain ⟨hadd, hsub⟩ := h.part_toNat hfree (UInt32.le_of_lt hlt)
  have hne : base ≠ base + n := by
    intro heq
    have := congrArg UInt32.toNat heq
    exact hn (UInt32.toNat.inj (by simpa [hadd] using this.symm))
  constructor
  · rintro ⟨x, y, hx, rfl, rfl⟩
    rw [take_free r hlt, take_used] at hx
    have hold : x ≠ base → r.block x.toNat y.toNat →
        split r.block base.toNat size.toNat n.toNat x.toNat y.toNat := fun hx hb =>
      Or.inl ⟨hb, fun h => hx (UInt32.toNat.inj h)⟩
    rcases hx with hx | hx
    · split at hx
      · next heq =>
        obtain rfl := Option.some.inj hx
        exact Or.inr (Or.inr ⟨by rw [heq, hadd], hsub⟩)
      · split at hx
        · cases hx
        · next hbase => exact hold hbase (block_free hx)
    · split at hx
      · next heq =>
        obtain rfl := Option.some.inj hx
        exact Or.inr (Or.inl ⟨by rw [heq], rfl⟩)
      · next hbase => exact hold hbase (block_used hx)
  · rintro (⟨⟨x, y, hx, rfl, rfl⟩, hbase⟩ | ⟨rfl, rfl⟩ | ⟨rfl, rfl⟩)
    · have hx' : x ≠ base := fun h => hbase (by rw [h])
      refine ⟨x, y, ?_, rfl, rfl⟩
      rw [take_free r hlt, take_used, if_neg hx', if_neg hx', if_neg]
      · exact hx
      · rintro rfl
        obtain ⟨hf, hu⟩ := h.not_block hfree hn hlt y
        rcases hx with hx | hx
        · exact hf hx
        · exact hu hx
    · refine block_used ?_
      rw [take_used, if_pos rfl]
    · rw [← hadd, ← hsub]
      refine block_free ?_
      rw [take_free r hlt, if_pos rfl]

/-- An allocation of a whole block. -/
theorem take_block_all {base size : UInt32} (hfree : r.free[base]? = some size) (b s : Nat)
    (hsep : base ∉ r.used) : (r.take base size size).block b s ↔ r.block b s := by
  have hunused : r.used[base]? = none := by
    rwa [TreeMap.mem_iff_isSome_getElem?, Option.not_isSome_iff_eq_none] at hsep
  constructor
  · rintro ⟨x, y, hx, rfl, rfl⟩
    rw [take_free_all r (UInt32.lt_irrefl size), take_used] at hx
    rcases hx with hx | hx
    · split at hx
      · cases hx
      · exact block_free hx
    · split at hx
      · next heq =>
        obtain rfl := Option.some.inj hx
        exact heq ▸ block_free hfree
      · exact block_used hx
  · rintro ⟨x, y, hx, rfl, rfl⟩
    refine ⟨x, y, ?_, rfl, rfl⟩
    rw [take_free_all r (UInt32.lt_irrefl size), take_used]
    by_cases hbase : x = base
    · subst hbase
      rw [hfree, hunused] at hx
      obtain rfl : size = y := by simpa using hx
      simp
    · rwa [if_neg hbase, if_neg hbase]

/-- An allocation keeps the extent. -/
theorem Within.take (h : r.Within lo hi) {base size n : UInt32} (hfree : r.free[base]? = some size)
    (hn : n ≠ 0) (hle : n ≤ size) : (r.take base size n).Within lo hi := by
  have hmem : base ∈ r.free := by
    rw [TreeMap.mem_iff_isSome_getElem?, hfree]
    rfl
  by_cases hlt : n < size
  · have hpos : 0 < n.toNat := Nat.pos_of_ne_zero fun h => hn (UInt32.toNat.inj h)
    refine ⟨h.bound, ?_, fun x hx => ?_⟩
    · exact (h.tiles.split (block_free hfree) hpos hlt).congr (take_block h hfree hn hlt)
    · rw [TreeMap.mem_iff_isSome_getElem?, take_free r hlt] at hx
      rw [TreeMap.mem_iff_isSome_getElem?, take_used]
      by_cases hnew : x = base + n
      · subst hnew
        have hnone : r.used[base + n]? = none := by
          rw [Option.eq_none_iff_forall_ne_some]
          exact fun y => (h.not_block hfree hn hlt y).2
        rw [if_neg, hnone]
        · exact Bool.false_ne_true
        · intro heq
          have := congrArg UInt32.toNat heq
          rw [(h.part_toNat hfree hle).1] at this
          omega
      · rw [if_neg hnew] at hx
        split at hx
        · cases hx
        · next hbase =>
          rw [if_neg hbase, ← TreeMap.mem_iff_isSome_getElem?]
          exact h.separate x (TreeMap.mem_iff_isSome_getElem?.mpr hx)
  · obtain rfl : n = size := UInt32.le_antisymm hle (UInt32.not_lt.mp hlt)
    refine ⟨h.bound, ?_, fun x hx => ?_⟩
    · exact h.tiles.congr fun b s => take_block_all hfree b s (h.separate base hmem)
    · rw [TreeMap.mem_iff_isSome_getElem?, take_free_all r hlt] at hx
      rw [TreeMap.mem_iff_isSome_getElem?, take_used]
      split at hx
      · cases hx
      · next hbase =>
        rw [if_neg hbase, ← TreeMap.mem_iff_isSome_getElem?]
        exact h.separate x (TreeMap.mem_iff_isSome_getElem?.mpr hx)

theorem Sound.take (h : r.Sound) {base size n : UInt32} (hfree : r.free[base]? = some size)
    (hn : n ≠ 0) (hle : n ≤ size) : (r.take base size n).Sound := by
  obtain ⟨lo, hi, hwithin⟩ := h.within
  exact (hwithin.take hfree hn hle).sound

theorem release_block {base size : UInt32} (h : r.Within lo hi)
    (hused : r.used[base]? = some size) (b s : Nat) :
    (r.release base size).block b s ↔ r.block b s := by
  have hfree : r.free[base]? = none := by
    by_contra hne
    refine h.separate base ?_ ?_ <;> rw [TreeMap.mem_iff_isSome_getElem?]
    · exact Option.isSome_iff_ne_none.mpr hne
    · rw [hused]
      rfl
  simp only [block, Region.release, get_insert, get_erase]
  refine exists_congr fun x => exists_congr fun y => and_congr_left fun _ => ?_
  by_cases hx : x = base
  · subst hx
    simp [hfree, hused]
  · simp [hx]

/-- So does giving a segment back. -/
theorem Within.release (h : r.Within lo hi) {base size : UInt32}
    (hused : r.used[base]? = some size) : (r.release base size).Within lo hi := by
  refine ⟨h.bound, h.tiles.congr (release_block h hused), fun x hx => ?_⟩
  simp only [Region.release, TreeMap.mem_iff_isSome_getElem?, get_insert, get_erase] at hx ⊢
  split at hx
  · next hbase => simp [hbase]
  · next hbase =>
    rw [if_neg hbase, ← TreeMap.mem_iff_isSome_getElem?]
    exact h.separate x (TreeMap.mem_iff_isSome_getElem?.mpr hx)

theorem Sound.release (h : r.Sound) {base size : UInt32} (hused : r.used[base]? = some size) :
    (r.release base size).Sound := by
  obtain ⟨lo, hi, hwithin⟩ := h.within
  exact (hwithin.release hused).sound

end Region

/-! ## The table of regions -/

def RegionsSound (k : Kernel) : Prop :=
  ∀ (id : UInt32) (r : Region), k.regions[id]? = some r → r.Sound

/-- The segment at `base` is in use, and the region takes it back. -/
def Held (region base : UInt32) (k : Kernel) : Prop :=
  ∃ r : Region, k.regions[region]? = some r ∧ base ∈ r.used

/-- The identifiers of the live regions are those below their number. -/
structure Dense (k : Kernel) : Prop where
  room : k.regions.size < 2 ^ 32
  live : ∀ id : UInt32, id ∈ k.regions ↔ id.toNat < k.regions.size

/-- Nothing but allocations may have happened to the regions. -/
structure Grown (k k' : Kernel) : Prop where
  size : k'.regions.size = k.regions.size
  live : ∀ id : UInt32, id ∈ k'.regions ↔ id ∈ k.regions
  sound : RegionsSound k → RegionsSound k'
  held : ∀ {region base : UInt32}, Held region base k → Held region base k'

theorem grown_of_eq {k k' : Kernel} (h : k'.regions = k.regions) : Grown k k' where
  size := by rw [h]
  live _ := by rw [h]
  sound hs := by unfold RegionsSound at hs ⊢; rwa [h]
  held hh := by unfold Held at hh ⊢; rwa [h]

theorem Grown.trans {k k' k'' : Kernel} (h : Grown k k') (h' : Grown k' k'') : Grown k k'' where
  size := h'.size.trans h.size
  live id := (h'.live id).trans (h.live id)
  sound hs := h'.sound (h.sound hs)
  held hh := h'.held (h.held hh)

theorem Grown.dense {k k' : Kernel} (h : Grown k k') (hd : Dense k) : Dense k' where
  room := h.size ▸ hd.room
  live id := by rw [h.live, h.size, hd.live]

/-- Nothing but allocations has happened to the regions. -/
inductive Allocates : Kernel → Kernel → Prop where
  | same {k k' : Kernel} (h : k'.regions = k.regions) : Allocates k k'
  | take {k k' : Kernel} {id base size n : UInt32} {r : Region} (hr : k.regions[id]? = some r)
      (hfree : r.free[base]? = some size) (hn : n ≠ 0) (hle : n ≤ size)
      (h : k'.regions = k.regions.insert id (r.take base size n)) : Allocates k k'
  | trans {k k' k'' : Kernel} (h : Allocates k k') (h' : Allocates k' k'') : Allocates k k''

theorem Allocates.grown {k k' : Kernel} (h : Allocates k k') : Grown k k' := by
  induction h with
  | same h => exact grown_of_eq h
  | @take k k' id base size n r hr hfree hn hle h =>
    have hlive : id ∈ k.regions := by
      rw [TreeMap.mem_iff_isSome_getElem?, hr]
      rfl
    refine ⟨?_, fun id' => ?_, fun hs id' r' hr' => ?_, ?_⟩
    · rw [h]
      exact (TreeMap.size_insert).trans (if_pos hlive)
    · rw [h, TreeMap.mem_insert]
      refine ⟨fun h => ?_, Or.inr⟩
      rcases h with h | h
      · rwa [← LawfulEqCmp.compare_eq_iff_eq.mp h]
      · exact h
    · rw [h, get_insert] at hr'
      split at hr'
      · obtain rfl := Option.some.inj hr'
        exact (hs id r hr).take hfree hn hle
      · exact hs id' r' hr'
    · rintro region' base' ⟨r0, hr0, hused⟩
      unfold Held
      rw [h, get_insert]
      split
      · next heq =>
        obtain rfl : r = r0 := by simpa [heq, hr] using hr0
        refine ⟨_, rfl, ?_⟩
        rw [TreeMap.mem_iff_isSome_getElem?] at hused ⊢
        rw [Region.take_used]
        split
        · rfl
        · exact hused
      · exact ⟨r0, hr0, hused⟩
  | trans _ _ ih ih' => exact ih.trans ih'

namespace Kernel

theorem allocate_cases (k : Kernel) (region bytes : UInt32) :
    k.allocate region bytes = (k, 0) ∨
      ∃ r r' base, k.regions[region]? = some r ∧ r.allocate bytes = some (r', base) ∧
        k.allocate region bytes = ({ k with regions := k.regions.insert region r' }, base) := by
  unfold allocate
  split
  · exact Or.inl rfl
  · next r hr =>
    split
    · exact Or.inl rfl
    · next r' base hbase => exact Or.inr ⟨r, r', base, hr, hbase, rfl⟩

theorem allocate_allocates (k : Kernel) (region bytes : UInt32) :
    Allocates k (k.allocate region bytes).1 := by
  rcases k.allocate_cases region bytes with h | ⟨r, r', base, hr, hbase, h⟩
  · rw [h]
    exact .same rfl
  · rw [h]
    obtain ⟨size, n, hfree, hn, hle, rfl⟩ := Region.allocate_spec hbase
    exact .take hr hfree hn hle rfl

/-- A segment that is handed out was free. -/
theorem allocate_new {k : Kernel} (hs : RegionsSound k) {region bytes : UInt32}
    (h : (k.allocate region bytes).2 ≠ 0) :
    ¬ Held region (k.allocate region bytes).2 k ∧
      Held region (k.allocate region bytes).2 (k.allocate region bytes).1 := by
  rcases k.allocate_cases region bytes with heq | ⟨r, r', base, hr, hbase, heq⟩
  · rw [heq] at h
    exact absurd rfl h
  · rw [heq]
    obtain ⟨size, n, hfree, hn, hle, rfl⟩ := Region.allocate_spec hbase
    refine ⟨?_, ?_⟩
    · rintro ⟨r0, hr0, hused⟩
      obtain rfl : r = r0 := by simpa [hr] using hr0
      refine (hs region r hr).separate base ?_ hused
      rw [TreeMap.mem_iff_isSome_getElem?, hfree]
      rfl
    · refine ⟨_, TreeMap.getElem?_insert_self, ?_⟩
      rw [TreeMap.mem_iff_isSome_getElem?, Region.take_used, if_pos rfl]
      rfl

theorem allocateStack_allocates (k : Kernel) (size : UInt32) :
    Allocates k (k.allocateStack size).1 := by
  unfold allocateStack
  split
  · exact .same rfl
  · exact k.allocate_allocates 0 size

theorem reserve_allocates (k : Kernel) (user superSize : UInt32) :
    Allocates k (k.reserve user superSize) := by
  unfold reserve
  refine Allocates.trans ?_ (allocateStack_allocates _ superSize)
  refine Allocates.trans ?_ (allocateStack_allocates _ user)
  exact .same rfl

variable [GuestBus β]

theorem create_allocates (k : Kernel) (name priority user superSize vbr : UInt32) (bus : β) :
    Allocates k (k.create name priority user superSize bus vbr).1 := by
  rcases k.create_cases name priority user superSize vbr bus with h | ⟨-, h | ⟨t, -, -, h⟩⟩
  · rw [h]
    exact .same rfl
  · rw [h]
    exact k.reserve_allocates user superSize
  · rw [h]
    exact (k.reserve_allocates user superSize).trans (.same rfl)

theorem start_allocates (k : Kernel) (id mode pc : UInt32) (args : List UInt32) (bus : β) :
    Allocates k (k.start id mode pc args bus).1 :=
  Allocates.same ((k.start_frame id mode pc args bus).regions (by simp))

/-! ## The start of the kernel -/

theorem startSystemTasks_allocates (k : Kernel) (idle : UInt32) (cpu : CpuCore φ) (bus : β) :
    Allocates k (k.startSystemTasks idle cpu bus).1 := by
  unfold startSystemTasks
  dsimp only
  have hcreate := (k.create_allocates 0x524f4f54 255 (configWord bus k.kernelConfig 0x40)
    (configWord bus k.kernelConfig 0x44) cpu.vbr bus).trans
      (create_allocates _ 0x49444c45 0 (configWord bus k.kernelConfig 0x40) 0 cpu.vbr bus)
  split
  · exact hcreate
  · split
    · exact hcreate.trans (start_allocates _ _ _ _ _ _)
    · split
      · exact (hcreate.trans (start_allocates _ _ _ _ _ _)).trans (start_allocates _ _ _ _ _ _)
      · exact (hcreate.trans (start_allocates _ _ _ _ _ _)).trans (start_allocates _ _ _ _ _ _)

/-- The extent that a start gives to RN0: base and size, when it gets so far. -/
def rn0 (k : Kernel) (bus : β) : Option (UInt32 × UInt32) :=
  match findConfig k.kernelHeader bus with
  | .error _ => none
  | .ok config =>
    match pageOperands bus config with
    | .error _ => none
    | .ok (pageTable, pageTaskWord) =>
      if ¬ ramRange pageTable 256 ∨ ¬ ramRange pageTaskWord 2 then none
      else
        let base := configWord bus config 4
        let size := configWord bus config 8
        if ¬ ramRange base size ∨ size = 0 then none else some (base, size)

/-- A start makes RN0, if anything, and allocates from it. -/
inductive SetUp (k k' : Kernel) : Option (UInt32 × UInt32) → Prop where
  | stopped (h : k'.regions = k.regions) : SetUp k k' none
  | rn0 {k0 : Kernel} {base size unit : UInt32} (hrange : ramRange base size) (hsize : size ≠ 0)
      (h : Allocates (k0.withRn0 base size unit) k') (h0 : k0.regions = k.regions) :
      SetUp k k' (some (base, size))

theorem startMemory_cases (k : Kernel) (cpu : CpuCore φ) (bus : β) :
    SetUp k (k.startMemory cpu bus).1
      (if ¬ ramRange (configWord bus k.kernelConfig 4) (configWord bus k.kernelConfig 8) ∨
          configWord bus k.kernelConfig 8 = 0 then none
        else some (configWord bus k.kernelConfig 4, configWord bus k.kernelConfig 8)) := by
  unfold startMemory
  dsimp only
  split
  · exact .stopped rfl
  · next hargs =>
    rw [not_or, not_not] at hargs
    have hglue : ∀ (k0 : Kernel) (returnEntry : UInt32),
        Allocates k0 ({ (k0.allocate 0 32).1 with returnEntry }.allocate 0 8).1 := by
      intro k0 returnEntry
      have hentry : Allocates (k0.allocate 0 32).1 { (k0.allocate 0 32).1 with returnEntry } :=
        .same rfl
      exact ((k0.allocate_allocates 0 32).trans hentry).trans (allocate_allocates _ 0 8)
    split
    · exact .rn0 hargs.1 hargs.2 (hglue _ _) rfl
    · exact .rn0 hargs.1 hargs.2 ((hglue _ _).trans (startSystemTasks_allocates _ _ _ _)) rfl

theorem setUp_cases (k : Kernel) (cpu : CpuCore φ) (bus : β) :
    SetUp k (k.setUp cpu bus).1 (k.rn0 bus) := by
  unfold setUp rn0
  cases findConfig k.kernelHeader bus with
  | error e => exact .stopped rfl
  | ok config =>
    dsimp only
    cases pageOperands bus config with
    | error e => exact .stopped rfl
    | ok operands =>
      obtain ⟨pageTable, pageTaskWord⟩ := operands
      dsimp only
      split
      · exact .stopped rfl
      · have h := startMemory_cases { k with kernelConfig := config, pageTable, pageTaskWord } cpu bus
        dsimp only at h
        split at h
        · next hargs =>
          rw [if_pos hargs]
          cases h with
          | stopped h => exact .stopped h
        · next hargs =>
          rw [if_neg hargs]
          cases h with
          | rn0 hrange hsize h h0 => exact .rn0 hrange hsize h h0

omit [GuestBus β] in
theorem withRn0_sound {k : Kernel} (h : RegionsSound k) {base size : UInt32} (unit : UInt32)
    (hrange : ramRange base size) (hsize : size ≠ 0) : RegionsSound (k.withRn0 base size unit) := by
  intro id r hr
  unfold withRn0 at hr
  dsimp only at hr
  rw [get_insert] at hr
  split at hr
  · obtain rfl := Option.some.inj hr
    refine (Region.within_new _ _ hsize (Nat.lt_of_le_of_lt hrange.2 ?_)).sound
    decide
  · exact h id r hr

theorem setUp_sound {k : Kernel} (h : RegionsSound k) (cpu : CpuCore φ) (bus : β) :
    RegionsSound (k.setUp cpu bus).1 := by
  have hcases := k.setUp_cases cpu bus
  generalize k.rn0 bus = extent at hcases
  cases hcases with
  | stopped heq => exact (grown_of_eq heq).sound h
  | rn0 hrange hsize hallocates h0 =>
    exact hallocates.grown.sound (withRn0_sound ((grown_of_eq h0).sound h) _ hrange hsize)

end Kernel

/-! ## What the services do -/

/-- `rn_create` accepts these arguments. -/
def CreateArgs (m : Machine φ β) : Prop :=
  m.reg 9 &&& 3 = 0 ∧ m.reg 3 ≠ 0 ∧ m.reg 3 ≤ m.reg 2 ∧ ramRange (m.reg 9) (m.reg 2)

/-- `rn_delete` accepts these arguments: region 0 is never deleted. -/
def DeleteArgs (m : Machine φ β) : Prop := m.reg 1 ≠ 0 ∧ m.reg 1 ∈ m.kernel.regions

/-- All that a service can do to the regions. -/
inductive RegionChange (m : Machine φ β) (k' : Kernel) : Service → Prop where
  | grown {s : Service} (hcreate : s = .rnCreate → ¬ CreateArgs m)
      (hdelete : s = .rnDelete → ¬ DeleteArgs m) (h : Grown m.kernel k') : RegionChange m k' s
  | made {r : Region} (hargs : CreateArgs m) (hr : r.Sound)
      (h : k'.regions = m.kernel.regions.insert (UInt32.ofNat m.kernel.regions.size) r) :
      RegionChange m k' .rnCreate
  | gone (hargs : DeleteArgs m) (h : k'.regions = m.kernel.regions.erase (m.reg 1)) :
      RegionChange m k' .rnDelete
  | freed {r : Region} {size : UInt32} (hr : m.kernel.regions[m.reg 1]? = some r)
      (hused : r.used[m.reg 8]? = some size)
      (h : k'.regions = m.kernel.regions.insert (m.reg 1) (r.release (m.reg 8) size)) :
      RegionChange m k' .rnRetseg

theorem rnCreate_refused {m : Machine φ β} (h : ¬ CreateArgs m) :
    m.rnCreate.1.kernel = m.kernel ∧ m.rnCreate.2 ≠ 0 := by
  unfold Machine.rnCreate
  dsimp only
  split
  · exact ⟨rfl, by simp⟩
  · next halign =>
    split
    · exact ⟨rfl, by simp⟩
    · next hsize =>
      split
      · exact ⟨rfl, by simp⟩
      · next hrange =>
        rw [not_or, not_not] at halign
        exact absurd ⟨halign.1, halign.2, UInt32.not_lt.mp hsize, not_not.mp hrange⟩ h

theorem rnCreate_accepted {m : Machine φ β} (h : CreateArgs m) :
    m.rnCreate.2 = 0 ∧ m.rnCreate.1.reg 1 = UInt32.ofNat m.kernel.regions.size ∧
      ∃ r : Region, r.Within (m.reg 9).toNat ((m.reg 9).toNat + (m.reg 2).toNat) ∧
        m.rnCreate.1.kernel.regions =
          m.kernel.regions.insert (UInt32.ofNat m.kernel.regions.size) r := by
  obtain ⟨halign, hunit, hsize, hrange⟩ := h
  have hnot : ¬ m.reg 2 < m.reg 3 := UInt32.not_lt.mpr hsize
  have hpos : m.reg 2 ≠ 0 := by
    intro h0
    rw [h0] at hsize
    exact hunit (UInt32.le_zero_iff.mp hsize)
  have hfit : (m.reg 9).toNat + (m.reg 2).toNat < 2 ^ 32 :=
    Nat.lt_of_le_of_lt hrange.2 (by decide)
  unfold Machine.rnCreate
  simp only [halign, hunit, hnot, hrange, ne_eq, not_true_eq_false, false_or, if_false]
  refine ⟨trivial, ?_, _, Region.within_new _ _ hpos hfit, rfl⟩
  simp [Machine.reg, Machine.setD, CpuCore.setD, CpuCore.setDar]

theorem rnCreate_change (m : Machine φ β) : RegionChange m m.rnCreate.1.kernel .rnCreate := by
  by_cases h : CreateArgs m
  · obtain ⟨-, -, r, hr, hk⟩ := rnCreate_accepted h
    exact .made h hr.sound hk
  · exact .grown (fun _ => h) (by simp) (grown_of_eq (by rw [(rnCreate_refused h).1]))

theorem rnDelete_change (m : Machine φ β) : RegionChange m m.rnDelete.1.kernel .rnDelete := by
  unfold Machine.rnDelete
  split
  · next h => exact .grown (by simp) (fun _ hargs => h.elim hargs.1 (absurd hargs.2)) (grown_of_eq rfl)
  · next h =>
    rw [not_or, not_not] at h
    exact .gone h rfl

theorem rnRetseg_change (m : Machine φ β) : RegionChange m m.rnRetseg.1.kernel .rnRetseg := by
  unfold Machine.rnRetseg
  split
  · exact .grown (by simp) (by simp) (grown_of_eq rfl)
  · next r hr =>
    split
    · exact .grown (by simp) (by simp) (grown_of_eq rfl)
    · next size hused => exact .freed hr hused rfl

theorem performed_regions [M68k φ] [GuestBus β] (m : Machine φ β) (s : Service) :
    RegionChange m (performed m s).1.kernel s := by
  by_cases hn : .regions ∉ s.touches
  · refine .grown ?_ ?_ (grown_of_eq ((performed_frame m s).regions hn)) <;>
    · rintro rfl
      exact absurd (by simp [Service.touches]) hn
  · rw [not_not] at hn
    have hcount : Grown m.kernel m.counted.kernel := grown_of_eq rfl
    cases s with
    | tCreate =>
      have hcreate : Grown m.counted.kernel (performed m .tCreate).1.kernel :=
        (m.counted.kernel.create_allocates (m.reg 1) (m.reg 2) (m.reg 3) (m.reg 4) m.cpu.vbr
          m.bus).grown
      exact .grown (by simp) (by simp) (hcount.trans hcreate)
    | rnCreate =>
      cases rnCreate_change m.counted with
      | grown hc hd h => exact .grown hc hd (hcount.trans h)
      | made hargs hr h => exact .made hargs hr h
    | rnDelete =>
      cases rnDelete_change m.counted with
      | grown hc hd h => exact .grown hc hd (hcount.trans h)
      | gone hargs h => exact .gone hargs h
    | rnGetseg =>
      have hallocate : Grown m.counted.kernel (performed m .rnGetseg).1.kernel :=
        (m.counted.kernel.allocate_allocates (m.reg 1) (m.reg 3)).grown
      exact .grown (by simp) (by simp) (hcount.trans hallocate)
    | rnRetseg =>
      cases rnRetseg_change m.counted with
      | grown hc hd h => exact .grown hc hd (hcount.trans h)
      | freed hr hused h => exact .freed hr hused h
    | _ => exact absurd hn (by simp [Service.touches])

theorem change_sound {m : Machine φ β} {k' : Kernel} {s : Service} (h : RegionChange m k' s)
    (hs : RegionsSound m.kernel) : RegionsSound k' := by
  have hinsert : ∀ {id : UInt32} {r : Region}, r.Sound →
      k'.regions = m.kernel.regions.insert id r → RegionsSound k' := by
    intro id r hr hk id' r' hr'
    rw [hk, get_insert] at hr'
    split at hr'
    · obtain rfl := Option.some.inj hr'
      exact hr
    · exact hs id' r' hr'
  cases h with
  | grown _ _ h => exact h.sound hs
  | made hargs hr h => exact hinsert hr h
  | gone hargs h =>
    intro id r hr
    rw [h, get_erase] at hr
    split at hr
    · cases hr
    · exact hs id r hr
  | freed hr hused h => exact hinsert ((hs _ _ hr).release hused) h

/-! ## Identifiers -/

/-- The identifier that `rn_create` takes for the next region. -/
def Kernel.nextRegion (k : Kernel) : UInt32 := UInt32.ofNat k.regions.size

theorem Dense.next_toNat {k : Kernel} (h : Dense k) : k.nextRegion.toNat = k.regions.size :=
  UInt32.toNat_ofNat_of_lt' h.room

theorem Dense.next_fresh {k : Kernel} (h : Dense k) : k.nextRegion ∉ k.regions := by
  rw [h.live, h.next_toNat]
  exact Nat.lt_irrefl _

theorem Dense.insert {k k' : Kernel} (h : Dense k) {r : Region}
    (hk : k'.regions = k.regions.insert k.nextRegion r) :
    k'.regions.size = k.regions.size + 1 ∧
      ∀ id : UInt32, id ∈ k'.regions ↔ id.toNat < k.regions.size + 1 := by
  have hsize : k'.regions.size = k.regions.size + 1 := by
    rw [hk, TreeMap.size_insert, if_neg]
    rw [← TreeMap.mem_iff_contains]
    exact h.next_fresh
  refine ⟨hsize, fun id => ?_⟩
  rw [hk, TreeMap.mem_insert, h.live, LawfulEqCmp.compare_eq_iff_eq, ← UInt32.toNat_inj,
    h.next_toNat]
  omega

theorem Dense.erase {k k' : Kernel} (h : Dense k) {id : UInt32} (hid : id ∈ k.regions)
    (hk : k'.regions = k.regions.erase id) :
    k'.regions.size = k.regions.size - 1 ∧
      ∀ id' : UInt32, id' ∈ k'.regions ↔ id' ≠ id ∧ id'.toNat < k.regions.size := by
  constructor
  · rw [hk, TreeMap.size_erase, if_pos]
    rwa [← TreeMap.mem_iff_contains]
  · intro id'
    rw [hk, TreeMap.mem_erase, h.live, ne_eq, LawfulEqCmp.compare_eq_iff_eq, @eq_comm _ id id']

/-- No live region has a higher identifier than the one that is deleted, and one more region can be
numbered. -/
def KeepsDense (m : Machine φ β) (a : Action φ β) : Prop :=
  (called m a = some .rnDelete → DeleteArgs m → ∀ id ∈ m.kernel.regions, id ≤ m.reg 1) ∧
    (called m a = some .rnCreate → CreateArgs m → m.kernel.regions.size + 1 < 2 ^ 32)

/-- Whatever its arguments, an `rn_create` that succeeds returns an identifier that is not live. -/
def CreatesFresh [M68k φ] [GuestBus β] (m : Machine φ β) : Prop :=
  ∀ cpu : CpuCore φ, (performed { m with cpu } .rnCreate).2 = 0 →
    (performed { m with cpu } .rnCreate).1.reg 1 ∉ m.kernel.regions

theorem createsFresh_iff [M68k φ] [GuestBus β] (m : Machine φ β) :
    CreatesFresh m ↔ m.kernel.nextRegion ∉ m.kernel.regions := by
  constructor
  · intro h
    let cpu := ((m.cpu.setDar 9 ramBase).setDar 2 4).setDar 3 4
    have hargs : CreateArgs (Machine.counted { m with cpu }) := by
      refine ⟨?_, ?_, ?_, ?_⟩ <;>
        simp [Machine.counted, Machine.reg, CpuCore.setDar, cpu, ramBase, ramRange, ramSize]
      decide
    obtain ⟨hstatus, hid, -⟩ := rnCreate_accepted hargs
    have hnew := h cpu hstatus
    rwa [show (performed { m with cpu } .rnCreate).1.reg 1 = m.kernel.nextRegion from hid] at hnew
  · intro h cpu hstatus
    by_cases hargs : CreateArgs (Machine.counted { m with cpu })
    · have hid : (performed { m with cpu } .rnCreate).1.reg 1 = m.kernel.nextRegion :=
        (rnCreate_accepted hargs).2.1
      rwa [hid]
    · exact absurd hstatus (rnCreate_refused hargs).2

/-- From dense identifiers a service keeps the next one fresh exactly when it keeps them dense. -/
theorem change_dense {m : Machine φ β} {a : Action φ β} {k' : Kernel} {s : Service}
    (h : RegionChange m k' s) (hcalled : called m a = some s) (hd : Dense m.kernel) :
    (k'.nextRegion ∉ k'.regions ↔ KeepsDense m a) ∧ (KeepsDense m a → Dense k') := by
  cases h with
  | grown hcreate hdelete h =>
    refine ⟨iff_of_true (h.dense hd).next_fresh ⟨fun hs => ?_, fun hs => ?_⟩, fun _ => h.dense hd⟩
    · obtain rfl : s = .rnDelete := by simpa [hcalled] using hs
      exact fun hargs => absurd hargs (hdelete rfl)
    · obtain rfl : s = .rnCreate := by simpa [hcalled] using hs
      exact fun hargs => absurd hargs (hcreate rfl)
  | made hargs hr h =>
    obtain ⟨hsize, hlive⟩ := hd.insert h
    have hkeeps : KeepsDense m a ↔ m.kernel.regions.size + 1 < 2 ^ 32 := by
      simp [KeepsDense, hcalled, hargs]
    rw [hkeeps]
    by_cases hroom : m.kernel.regions.size + 1 < 2 ^ 32
    · have hd' : Dense k' := ⟨hsize ▸ hroom, fun id => by rw [hlive, hsize]⟩
      exact ⟨iff_of_true hd'.next_fresh hroom, fun _ => hd'⟩
    · refine ⟨iff_of_false ?_ hroom, fun h => absurd h hroom⟩
      have hfull : k'.regions.size = 2 ^ 32 := by
        have := hd.room
        omega
      rw [not_not, Kernel.nextRegion, hfull, hlive]
      exact Nat.succ_pos _
  | gone hargs h =>
    obtain ⟨hsize, hlive⟩ := hd.erase hargs.2 h
    have hlt : (m.reg 1).toNat < m.kernel.regions.size := (hd.live _).mp hargs.2
    have hroom := hd.room
    have hnext : k'.nextRegion.toNat = m.kernel.regions.size - 1 := by
      rw [Kernel.nextRegion, hsize]
      exact UInt32.toNat_ofNat_of_lt' (Nat.lt_of_le_of_lt (Nat.sub_le _ _) hroom)
    have hkeeps : KeepsDense m a ↔ (m.reg 1).toNat + 1 = m.kernel.regions.size := by
      have : KeepsDense m a ↔ ∀ id ∈ m.kernel.regions, id ≤ m.reg 1 := by
        simp [KeepsDense, hcalled, hargs]
      rw [this]
      constructor
      · intro hall
        have hlast := hall (UInt32.ofNat (m.kernel.regions.size - 1)) ?_
        · have hle : (UInt32.ofNat (m.kernel.regions.size - 1)).toNat ≤ (m.reg 1).toNat := hlast
          rw [UInt32.toNat_ofNat_of_lt' (by simp [UInt32.size]; omega)] at hle
          omega
        · rw [hd.live, UInt32.toNat_ofNat_of_lt' (by simp [UInt32.size]; omega)]
          omega
      · intro hlast id hid
        rw [hd.live] at hid
        exact UInt32.le_iff_toNat_le.mpr (by omega)
    rw [hkeeps, hlive, ne_eq, ← UInt32.toNat_inj, hnext]
    refine ⟨by omega, fun hlast => ⟨by omega, fun id => ?_⟩⟩
    rw [hlive, ne_eq, ← UInt32.toNat_inj, hsize]
    omega
  | freed hr hused h =>
    have hmem : m.reg 1 ∈ m.kernel.regions := by
      rw [TreeMap.mem_iff_isSome_getElem?, hr]
      rfl
    have hsize : k'.regions.size = m.kernel.regions.size := by
      rw [h, TreeMap.size_insert, if_pos]
      rwa [← TreeMap.mem_iff_contains]
    have hd' : Dense k' := by
      refine ⟨hsize ▸ hd.room, fun id => ?_⟩
      rw [hsize, h, TreeMap.mem_insert, ← hd.live, LawfulEqCmp.compare_eq_iff_eq]
      exact ⟨fun hid => hid.elim (fun heq => heq ▸ hmem) fun hid => hid, Or.inr⟩
    refine ⟨iff_of_true hd'.next_fresh ?_, fun _ => hd'⟩
    simp [KeepsDense, hcalled]

theorem blank_dense {k : Kernel} (h : Blank k) : Dense k := by
  have honly : ∀ id : UInt32, id ∈ k.regions → id = 0 := by
    intro id hid
    by_contra hne
    rw [TreeMap.mem_iff_isSome_getElem?, h.regions id hne] at hid
    cases hid
  have herase : (k.regions.erase 0).size = 0 := by
    have hempty : (k.regions.erase 0).isEmpty = true := by
      rw [TreeMap.isEmpty_iff_forall_not_mem]
      intro id hid
      rw [TreeMap.mem_erase] at hid
      exact hid.1 (by rw [honly id hid.2]; rfl)
    rw [TreeMap.isEmpty_eq_size_eq_zero] at hempty
    exact beq_iff_eq.mp hempty
  rw [TreeMap.size_erase] at herase
  by_cases h0 : (0 : UInt32) ∈ k.regions
  · rw [if_pos (TreeMap.mem_iff_contains.mp h0)] at herase
    have hpos : k.regions.size ≠ 0 := by
      intro hzero
      have hempty : k.regions.isEmpty = true := by
        rw [TreeMap.isEmpty_eq_size_eq_zero, hzero]
        rfl
      exact TreeMap.isEmpty_iff_forall_not_mem.mp hempty 0 h0
    have hone : k.regions.size = 1 := by omega
    refine ⟨by omega, fun id => ⟨fun hid => by simp [honly id hid, hone], fun hid => ?_⟩⟩
    obtain rfl : id = 0 := UInt32.toNat.inj (by simpa [hone] using hid)
    exact h0
  · rw [if_neg fun hc => h0 (TreeMap.mem_iff_contains.mpr hc)] at herase
    refine ⟨by omega, fun id => iff_of_false (fun hid => ?_) (by omega)⟩
    exact h0 (honly id hid ▸ hid)

/-! ## Segments -/

variable [M68k φ] [GuestBus β]

/-- The segments that a call hands out: that of `rn_getseg`, and the stacks of a new task. -/
def handedOut (m : Machine φ β) (a : Action φ β) : List (UInt32 × UInt32) :=
  match called m a with
  | some .rnGetseg =>
    if (performed m .rnGetseg).2 = 0 then [(m.reg 1, (performed m .rnGetseg).1.reg 8)] else []
  | some .tCreate =>
    if (performed m .tCreate).2 = 0 then
      match (performed m .tCreate).1.kernel.tasks[(performed m .tCreate).1.reg 1]? with
      | none => []
      | some t =>
        (if t.stackSize = 0 then [] else [(0, t.stack)]) ++
          if t.superSize = 0 then [] else [(0, t.superStack)]
    else []
  | _ => []

/-- The call gives the segment back, or deletes its region. -/
def Releases (region base : UInt32) (m : Machine φ β) (a : Action φ β) : Prop :=
  called m a = some .rnRetseg ∧ m.reg 1 = region ∧ m.reg 8 = base ∨
    called m a = some .rnDelete ∧ m.reg 1 = region ∧ region ≠ 0

/-- An `rn_retseg` of the segment succeeds. -/
def Freeable (region base : UInt32) (m : Machine φ β) : Prop :=
  ∀ cpu : CpuCore φ, ({ m with cpu } : Machine φ β).reg 1 = region →
    ({ m with cpu } : Machine φ β).reg 8 = base → (performed { m with cpu } .rnRetseg).2 = 0

theorem held_freeable {region base : UInt32} {m : Machine φ β} (h : Held region base m.kernel) :
    Freeable region base m := by
  rintro cpu rfl rfl
  obtain ⟨r, hr, hused⟩ := h
  obtain ⟨size, hsize⟩ := Option.isSome_iff_exists.mp (TreeMap.mem_iff_isSome_getElem?.mp hused)
  have hperf : performed { m with cpu } .rnRetseg = (Machine.counted { m with cpu }).rnRetseg := rfl
  rw [hperf]
  unfold Machine.rnRetseg
  have hr' : (Machine.counted { m with cpu }).kernel.regions[
      (Machine.counted { m with cpu }).reg 1]? = some r := hr
  have hsize' : r.used[(Machine.counted { m with cpu }).reg 8]? = some size := hsize
  simp only [hr', hsize']

omit [M68k φ] in
/-- The stacks of a task that was created are allocated one after the other. -/
theorem create_stacks (k : Kernel) (name priority user superSize vbr : UInt32) (bus : β)
    (h : (k.create name priority user superSize bus vbr).2.1 = 0) :
    ∃ (k1 : Kernel) (t : Task), k1.regions = k.regions ∧
      k.create name priority user superSize bus vbr =
        ((k.reserve user superSize).setTask k.nextId t, 0, k.nextId) ∧
      k.reserve user superSize = ((k1.allocateStack user).1.allocateStack superSize).1 ∧
      t.stackSize = user ∧ t.stack = (k1.allocateStack user).2 ∧ t.superSize = superSize ∧
      t.superStack = ((k1.allocateStack user).1.allocateStack superSize).2 ∧
      (user ≠ 0 → t.stack ≠ 0) ∧ (superSize ≠ 0 → t.superStack ≠ 0) := by
  unfold Kernel.create at h ⊢
  split at h
  · simp at h
  · next hpriority =>
    split at h
    · simp at h
    · next hsuper =>
      split at h
      · simp at h
      · next hroom =>
        dsimp only at h
        split at h
        · simp at h
        · next hstacks =>
          rw [if_neg hpriority, if_neg hsuper, if_neg hroom]
          dsimp only
          rw [if_neg hstacks]
          simp only [not_or, not_and] at hstacks
          exact ⟨{ k with nextTask := k.nextTask + 1 }, _, rfl, rfl, rfl, rfl, rfl, rfl, rfl,
            hstacks.1, hstacks.2⟩

omit [M68k φ] [GuestBus β] in
theorem allocateStack_new {k : Kernel} (hs : RegionsSound k) {size : UInt32} (hsize : size ≠ 0)
    (h : (k.allocateStack size).2 ≠ 0) :
    ¬ Held 0 (k.allocateStack size).2 k ∧
      Held 0 (k.allocateStack size).2 (k.allocateStack size).1 := by
  unfold Kernel.allocateStack at h ⊢
  rw [if_neg hsize] at h ⊢
  exact Kernel.allocate_new hs h

omit [M68k φ] in
theorem Machine.tCreate_reg (m : Machine φ β) : m.tCreate.1.reg 1 =
    (m.kernel.create (m.reg 1) (m.reg 2) (m.reg 3) (m.reg 4) m.bus m.cpu.vbr).2.2 := by
  simp [Machine.tCreate, Machine.reg, Machine.setD, CpuCore.setD, CpuCore.setDar]

/-- A segment that `rn_getseg` returns was not held before. -/
theorem getseg_new {m : Machine φ β} (hs : RegionsSound m.kernel)
    (hstatus : (performed m .rnGetseg).2 = 0) :
    ¬ Held (m.reg 1) ((performed m .rnGetseg).1.reg 8) m.kernel ∧
      Held (m.reg 1) ((performed m .rnGetseg).1.reg 8) (performed m .rnGetseg).1.kernel := by
  have hpointer : (performed m .rnGetseg).1.reg 8 =
      (m.counted.kernel.allocate (m.reg 1) (m.reg 3)).2 := by
    show (m.counted.rnGetseg).1.reg 8 = _
    simp [Machine.rnGetseg, Machine.reg, CpuCore.setDar]
    rfl
  have hfound : (m.counted.kernel.allocate (m.reg 1) (m.reg 3)).2 ≠ 0 := by
    intro h0
    have h21 : (performed m .rnGetseg).2 =
      if (m.counted.kernel.allocate (m.reg 1) (m.reg 3)).2 = 0 then 0x21 else 0 := rfl
    rw [h21, if_pos h0] at hstatus
    simp at hstatus
  rw [hpointer]
  have hs' : RegionsSound m.counted.kernel := hs
  exact Kernel.allocate_new hs' hfound

/-- The stacks of a new task were not held before, and are apart. -/
theorem create_new {m : Machine φ β} (hs : RegionsSound m.kernel)
    (hstatus : (performed m .tCreate).2 = 0) :
    ∃ t, (performed m .tCreate).1.kernel.tasks[(performed m .tCreate).1.reg 1]? = some t ∧
      (t.stackSize ≠ 0 →
        ¬ Held 0 t.stack m.kernel ∧ Held 0 t.stack (performed m .tCreate).1.kernel) ∧
      (t.superSize ≠ 0 →
        ¬ Held 0 t.superStack m.kernel ∧ Held 0 t.superStack (performed m .tCreate).1.kernel) ∧
      (t.stackSize ≠ 0 → t.superSize ≠ 0 → t.stack ≠ t.superStack) := by
  obtain ⟨k1, t, hk1, hcreate, hreserve, husize, hstack, hssize, hsuper, hu0, hs0⟩ :=
    create_stacks m.counted.kernel (m.reg 1) (m.reg 2) (m.reg 3) (m.reg 4) m.cpu.vbr m.bus hstatus
  have hkernel : (performed m .tCreate).1.kernel =
      (m.counted.kernel.reserve (m.reg 3) (m.reg 4)).setTask m.kernel.nextId t :=
    congrArg Prod.fst hcreate
  have hid : (performed m .tCreate).1.reg 1 = m.kernel.nextId :=
    (m.counted.tCreate_reg).trans (congrArg (fun r => r.2.2) hcreate)
  have hsound : RegionsSound k1 := (grown_of_eq (k := m.kernel) hk1).sound hs
  have hgrown := (k1.allocateStack_allocates (m.reg 3)).grown
  have hgrown' := ((k1.allocateStack (m.reg 3)).1.allocateStack_allocates (m.reg 4)).grown
  have hbefore : ∀ {base : UInt32}, ¬ Held 0 base k1 → ¬ Held 0 base m.kernel := fun h hh =>
    h ((grown_of_eq (k := m.kernel) hk1).held hh)
  have hafter : ∀ {base : UInt32},
      Held 0 base ((k1.allocateStack (m.reg 3)).1.allocateStack (m.reg 4)).1 →
        Held 0 base (performed m .tCreate).1.kernel := by
    intro base hh
    rw [hkernel, hreserve]
    exact hh
  have hfirst : t.stackSize ≠ 0 →
      ¬ Held 0 t.stack k1 ∧ Held 0 t.stack (k1.allocateStack (m.reg 3)).1 := by
    rw [husize, hstack]
    intro hne
    exact allocateStack_new hsound hne (hstack ▸ hu0 hne)
  have hsecond : t.superSize ≠ 0 → ¬ Held 0 t.superStack (k1.allocateStack (m.reg 3)).1 ∧
      Held 0 t.superStack ((k1.allocateStack (m.reg 3)).1.allocateStack (m.reg 4)).1 := by
    rw [hssize, hsuper]
    intro hne
    exact allocateStack_new (hgrown.sound hsound) hne (hsuper ▸ hs0 hne)
  refine ⟨t, ?_, fun hne => ?_, fun hne => ?_, fun hne hne' heq => ?_⟩
  · rw [hkernel, hid]
    exact TreeMap.getElem?_insert_self
  · exact ⟨hbefore (hfirst hne).1, hafter (hgrown'.held (hfirst hne).2)⟩
  · exact ⟨hbefore fun hh => (hsecond hne).1 (hgrown.held hh), hafter (hsecond hne).2⟩
  · exact (hsecond hne').1 (heq ▸ (hfirst hne).2)

/-- What a service hands out was free, and is in use afterwards. -/
theorem handedOut_new {m : Machine φ β} {a : Action φ β} (hs : RegionsSound m.kernel) :
    (handedOut m a).Nodup ∧ ∀ s, called m a = some s → ∀ p ∈ handedOut m a,
      ¬ Held p.1 p.2 m.kernel ∧ Held p.1 p.2 (performed m s).1.kernel := by
  unfold handedOut
  split
  · next hcalled =>
    split
    · next hstatus =>
      refine ⟨List.nodup_singleton _, fun s hs' p hp => ?_⟩
      obtain rfl : Service.rnGetseg = s := by simpa [hcalled] using hs'
      obtain rfl := List.mem_singleton.mp hp
      exact getseg_new hs hstatus
    · simp
  · next hcalled =>
    split
    · next hstatus =>
      obtain ⟨t, htask, hfirst, hsecond, happart⟩ := create_new hs hstatus
      rw [htask]
      dsimp only
      refine ⟨?_, fun s hs' p hp => ?_⟩
      · split
        · split <;> simp
        · next hne =>
          split
          · simp
          · next hne' => simpa using happart hne hne'
      · obtain rfl : Service.tCreate = s := by simpa [hcalled] using hs'
        rcases List.mem_append.mp hp with hp | hp
        · split at hp
          · cases hp
          · next hne =>
            obtain rfl := List.mem_singleton.mp hp
            exact hfirst hne
        · split at hp
          · cases hp
          · next hne =>
            obtain rfl := List.mem_singleton.mp hp
            exact hsecond hne
    · simp
  · simp

/-! ## Steps -/

omit [M68k φ] [GuestBus β] in
theorem RegionChange.of_eq {m : Machine φ β} {k' k'' : Kernel} {s : Service}
    (h : RegionChange m k' s) (hk : k''.regions = k'.regions) : RegionChange m k'' s := by
  cases h with
  | grown hcreate hdelete h => exact .grown hcreate hdelete (h.trans (grown_of_eq hk))
  | made hargs hr h => exact .made hargs hr (hk.trans h)
  | gone hargs h => exact .gone hargs (hk.trans h)
  | freed hr hused h => exact .freed hr hused (hk.trans h)

/-- What a step does to the regions. -/
inductive RegionStep (m : Machine φ β) (a : Action φ β) : Prop where
  | service (s : Service) (hcalled : called m a = some s) (hactive : m.kernel.active = true)
      (h : RegionChange m (step m a).kernel s)
      (hsame : (step m a).kernel.regions = (performed m s).1.kernel.regions)
  | rest (hcalled : called m a = none) (h : (step m a).kernel.regions = m.kernel.regions)
  | start (hcalled : called m a = none) (hactive : m.kernel.active = false)
      (hblank : Blank (step m a).kernel)
      (h : RegionsSound m.kernel → RegionsSound (step m a).kernel)

theorem region_step {m : Machine φ β} (hwf : WF m.kernel) (a : Action φ β) : RegionStep m a := by
  cases step_cases hwf a with
  | service s hcalled ha hs =>
    have hsame : (step m a).kernel.regions = (performed m s).1.kernel.regions := by
      rw [hs]
      exact (Machine.finish_scheduled (performed_keyed hwf ha s)).frame.regions (by simp)
    exact .service s hcalled ha ((performed_regions m s).of_eq hsame) hsame
  | rest hcalled hr hidle =>
    obtain ⟨k1, hframe, -, hsched, -⟩ := hr
    exact .rest hcalled ((hsched.frame.regions (by simp)).trans (hframe.regions (by simp)))
  | start hcalled ha hblank hwf' hregions =>
    refine .start hcalled ha hblank fun hs => ?_
    obtain ⟨k, cpu, bus, hframe, hk⟩ := hregions
    have hsetUp := Kernel.setUp_sound ((grown_of_eq (hframe.regions (by simp))).sound hs) cpu bus
    exact (grown_of_eq hk).sound hsetUp

theorem step_sound {m : Machine φ β} (hwf : WF m.kernel) (hs : RegionsSound m.kernel)
    (a : Action φ β) : RegionsSound (step m a).kernel := by
  cases region_step hwf a with
  | service s hcalled ha h => exact change_sound h hs
  | rest hcalled h => exact (grown_of_eq h).sound hs
  | start hcalled ha hblank h => exact h hs

/-- From dense identifiers a step leads to a fresh next one exactly when it keeps them dense. -/
theorem step_dense {m : Machine φ β} (hwf : WF m.kernel) (hd : Dense m.kernel) (a : Action φ β) :
    (CreatesFresh (step m a) ↔ KeepsDense m a) ∧ (KeepsDense m a → Dense (step m a).kernel) := by
  rw [createsFresh_iff]
  have hsilent : called m a = none → KeepsDense m a := fun h => by simp [KeepsDense, h]
  cases region_step hwf a with
  | service s hcalled ha h => exact change_dense h hcalled hd
  | rest hcalled h =>
    have hd' := (grown_of_eq h).dense hd
    exact ⟨iff_of_true hd'.next_fresh (hsilent hcalled), fun _ => hd'⟩
  | start hcalled ha hblank h =>
    have hd' := blank_dense hblank
    exact ⟨iff_of_true hd'.next_fresh (hsilent hcalled), fun _ => hd'⟩

/-- A segment stays in use as long as identifiers stay dense and nobody releases it. -/
theorem step_held {m : Machine φ β} {a : Action φ β} {region base : UInt32} (hwf : WF m.kernel)
    (ha : m.kernel.active = true) (hd : Dense m.kernel) (hreleases : ¬ Releases region base m a)
    (hheld : Held region base m.kernel) : Held region base (step m a).kernel := by
  cases region_step hwf a with
  | service s hcalled _ h =>
    obtain ⟨r, hr, hused⟩ := hheld
    have hlive : region ∈ m.kernel.regions := by
      rw [TreeMap.mem_iff_isSome_getElem?, hr]
      rfl
    cases h with
    | grown _ _ h => exact h.held ⟨r, hr, hused⟩
    | made hargs _ h =>
      have hne : region ≠ UInt32.ofNat m.kernel.regions.size := by
        rintro rfl
        exact hd.next_fresh hlive
      exact ⟨r, by rw [h, get_insert_ne _ _ hne, hr], hused⟩
    | gone hargs h =>
      have hne : region ≠ m.reg 1 := by
        rintro rfl
        exact hreleases (Or.inr ⟨hcalled, rfl, hargs.1⟩)
      exact ⟨r, by rw [h, get_erase, if_neg hne, hr], hused⟩
    | @freed r' size hr' hused' h =>
      by_cases hregion : region = m.reg 1
      · subst hregion
        obtain rfl : r = r' := by simpa [hr] using hr'
        have hne : base ≠ m.reg 8 := by
          rintro rfl
          exact hreleases (Or.inl ⟨hcalled, rfl, rfl⟩)
        refine ⟨_, by rw [h]; exact TreeMap.getElem?_insert_self, ?_⟩
        rw [TreeMap.mem_iff_isSome_getElem?] at hused ⊢
        simpa only [Region.release, get_erase, if_neg hne] using hused
      · exact ⟨r, by rw [h, get_insert_ne _ _ hregion, hr], hused⟩
  | rest hcalled h => exact (grown_of_eq h).held hheld
  | start hcalled hf => exact absurd (ha.symm.trans hf) (by simp)

/-! ## Runs -/

/-- Every segment that a call of the run hands out was free, and its owner can give it back as long
as neither it nor its region has been given up. -/
def SegmentsKept (m : Machine φ β) (acts : List (Action φ β)) : Prop :=
  ∀ (before after : List (Action φ β)) (a : Action φ β), acts = before ++ a :: after →
    (handedOut (run step m before) a).Nodup ∧ ∀ p ∈ handedOut (run step m before) a,
      ¬ Held p.1 p.2 (run step m before).kernel ∧
        (Each step (fun m a => ¬ Releases p.1 p.2 m a) (run step m (before ++ [a])) after →
          Freeable p.1 p.2 (run step m acts))

theorem run_held {m : Machine φ β} {acts : List (Action φ β)} {region base : UInt32}
    (hwf : WF m.kernel) (ha : m.kernel.active = true) (hd : Dense m.kernel)
    (hkeeps : Each step KeepsDense m acts)
    (hreleases : Each step (fun m a => ¬ Releases region base m a) m acts)
    (hheld : Held region base m.kernel) : Held region base (run step m acts).kernel := by
  induction acts generalizing m with
  | nil => exact hheld
  | cons a acts ih =>
    exact ih (wf_step hwf a) (step_active hwf ha a) ((step_dense hwf hd a).2 hkeeps.1) hkeeps.2
      hreleases.2 (step_held hwf ha hd hreleases.1 hheld)

theorem segments_kept {m : Machine φ β} {acts : List (Action φ β)} (hwf : WF m.kernel)
    (hs : RegionsSound m.kernel) (hd : Dense m.kernel) (hkeeps : Each step KeepsDense m acts) :
    SegmentsKept m acts := by
  rintro before after a rfl
  rw [each_append] at hkeeps
  obtain ⟨hbefore, ha, hafter⟩ := hkeeps
  obtain ⟨hwf', hs', hd'⟩ : WF (run step m before).kernel ∧
      RegionsSound (run step m before).kernel ∧ Dense (run step m before).kernel :=
    run_keeps (I := fun m : Machine φ β => WF m.kernel ∧ RegionsSound m.kernel ∧ Dense m.kernel)
      (fun m a hp h => ⟨wf_step h.1 a, step_sound h.1 h.2.1 a, (step_dense h.1 h.2.2 a).2 hp⟩)
      hbefore ⟨hwf, hs, hd⟩
  obtain ⟨hnodup, hnew⟩ := @handedOut_new _ _ _ _ _ a hs'
  refine ⟨hnodup, fun p hp => ?_⟩
  cases region_step hwf' a with
  | service s hcalled hactive _ hsame =>
    obtain ⟨hfree, hheld⟩ := hnew s hcalled p hp
    refine ⟨hfree, fun hreleases => held_freeable ?_⟩
    rw [run_append, run_cons, run_nil] at hreleases
    rw [run_append, run_cons]
    exact run_held (wf_step hwf' a) (step_active hwf' hactive a) ((step_dense hwf' hd' a).2 ha)
      hafter hreleases ((grown_of_eq hsame).held hheld)
  | rest hcalled => simp [handedOut, hcalled] at hp
  | start hcalled => simp [handedOut, hcalled] at hp

/-- Region identity holds in a run exactly as long as its steps keep the identifiers dense. -/
theorem region_identity (cpu : CpuCore φ) (bus : β) (acts : List (Action φ β)) :
    Always step CreatesFresh (reset cpu bus) acts ∧ SegmentsKept (reset cpu bus) acts ↔
      Each step KeepsDense (reset cpu bus) acts := by
  have hwf := wf_reset cpu bus
  have hs : RegionsSound (reset cpu bus).kernel := fun id r hr => by simp [reset] at hr
  have hd : Dense (reset cpu bus).kernel := blank_dense (hwf.blank rfl)
  have hiff : Always step CreatesFresh (reset cpu bus) acts ↔
      Each step KeepsDense (reset cpu bus) acts :=
    @always_iff_each_of _ _ step KeepsDense CreatesFresh (fun m : Machine φ β => WF m.kernel)
      (fun m => Dense m.kernel) (fun m a h => wf_step h a)
      (fun m h => (createsFresh_iff m).mpr h.next_fresh)
      (fun m a h hd hp => (step_dense h hd a).2 hp) (fun m a h hd => (step_dense h hd a).1)
      (reset cpu bus) acts hwf hd
  exact ⟨fun h => hiff.mp h.1, fun h => ⟨hiff.mpr h, segments_kept hwf hs hd h⟩⟩

/-! ## A region that is replaced -/

/-- ROOT makes regions 1 and 2, and deletes region 1. -/
def deleteFirst : List (List (Fin 16 × UInt32)) :=
  [[(0, 0xe), (1, 1), (2, 0x100), (3, 16), (9, 0x180000)], [(0, 0xe), (9, 0x180100)],
    [(0, 0x10), (1, 1)]]

theorem next_region_is_live :
    ¬ ∀ m : Machine UInt16 Board, Reachable m → CreatesFresh m := by
  intro h
  have hlive : (deleteFirst.foldl serve booted).kernel.nextRegion ∈
      (deleteFirst.foldl serve booted).kernel.regions := by
    rw [booted_eq]
    decide +kernel
  have hfresh := h _ (serve_reachable booted_reachable deleteFirst)
  rw [createsFresh_iff] at hfresh
  exact hfresh hlive

end OpenSaab.Psos
