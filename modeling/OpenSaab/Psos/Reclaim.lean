import OpenSaab.Psos.Board
import OpenSaab.Psos.Regions

/-!
# Segments that are given back

A segment that is given back is a free block again, but no two blocks are ever joined. What can be
allocated from a region once all of its segments are back.
-/

namespace OpenSaab.Psos

open Std OpenSaab.Table OpenSaab.Runs OpenSaab.Blocks

variable {φ β : Type}

/-! ## One allocation -/

namespace Region

variable {r r' : Region} {lo hi : Nat} {bytes base : UInt32}

/-- What an allocation takes: whole units, from a free block that holds them. -/
theorem allocate_takes (h : r.allocate bytes = some (r', base)) :
    ∃ size n, r.free[base]? = some size ∧ n ≠ 0 ∧ n ≤ size ∧ n.toNat = segmentSize bytes r.unit ∧
      r' = r.take base size n := by
  obtain ⟨size, n, hfree, hn, hle, rfl⟩ := allocate_spec h
  refine ⟨size, n, hfree, hn, hle, ?_, rfl⟩
  unfold allocate at h
  split at h
  · cases h
  split at h
  · cases h
  next hlarge =>
  dsimp only at h
  split at h
  · cases h
  next b s hfit =>
  obtain ⟨htaken, rfl⟩ := Prod.mk.inj (Option.some.inj h)
  have hused := congrArg (fun r : Region => r.used[b]?) htaken
  simp only [take_used, if_true, Option.some.injEq] at hused
  rw [← hused, UInt32.toNat_ofNat_of_lt']
  change segmentSize bytes r.unit < 2 ^ 32
  omega

/-- An allocation succeeds when some free block is large enough. -/
theorem allocate_isSome_iff : (r.allocate bytes).isSome ↔
    bytes ≠ 0 ∧ r.unit ≠ 0 ∧ segmentSize bytes r.unit ≤ 0x1000000 ∧
      ∃ b s : UInt32, r.free[b]? = some s ∧ segmentSize bytes r.unit ≤ s.toNat := by
  unfold allocate
  by_cases hargs : bytes = 0 ∨ r.unit = 0
  · rw [if_pos hargs]
    refine iff_of_false Bool.false_ne_true fun h => ?_
    exact hargs.elim h.1 h.2.1
  rw [if_neg hargs]
  rw [not_or] at hargs
  by_cases hlarge : 0x1000000 < segmentSize bytes r.unit
  · rw [if_pos hlarge]
    exact iff_of_false Bool.false_ne_true fun h => Nat.not_lt.mpr h.2.2.1 hlarge
  rw [if_neg hlarge]
  have hvalue : (UInt32.ofNat (segmentSize bytes r.unit)).toNat = segmentSize bytes r.unit := by
    refine UInt32.toNat_ofNat_of_lt' ?_
    change segmentSize bytes r.unit < 2 ^ 32
    omega
  dsimp only
  cases hfit : r.fit (UInt32.ofNat (segmentSize bytes r.unit)) with
  | none =>
    refine iff_of_false Bool.false_ne_true ?_
    rintro ⟨-, -, -, b, s, hfree, hle⟩
    have hnone := List.find?_eq_none.mp hfit (b, s)
      (TreeMap.mem_toList_iff_getElem?_eq_some.mpr hfree)
    refine hnone (decide_eq_true ?_)
    rw [UInt32.le_iff_toNat_le, hvalue]
    exact hle
  | some found =>
    obtain ⟨b, s⟩ := found
    refine iff_of_true rfl ⟨hargs.1, hargs.2, Nat.not_lt.mp hlarge, b, s,
      get_of_mem (List.mem_of_find?_eq_some hfit), ?_⟩
    have hle : UInt32.ofNat (segmentSize bytes r.unit) ≤ s := by simpa using List.find?_some hfit
    rwa [UInt32.le_iff_toNat_le, hvalue] at hle

/-- The blocks after an allocation of `n` bytes, whether they are a whole block or part of one. -/
theorem take_blocks {size n : UInt32} (h : r.Within lo hi) (hfree : r.free[base]? = some size)
    (hn : n ≠ 0) (hle : n ≤ size) {b s : Nat} (hb : (r.take base size n).block b s) :
    r.block b s ∧ b ≠ base.toNat ∨ b = base.toNat ∧ s = n.toNat ∨
      b = base.toNat + n.toNat ∧ s = size.toNat - n.toNat ∧ n < size := by
  by_cases hlt : n < size
  · rcases (take_block h hfree hn hlt b s).mp hb with h | h | ⟨h, h'⟩
    · exact .inl h
    · exact .inr (.inl h)
    · exact .inr (.inr ⟨h, h', hlt⟩)
  · obtain rfl : n = size := UInt32.le_antisymm hle (UInt32.not_lt.mp hlt)
    have hmem : base ∈ r.free := by
      rw [TreeMap.mem_iff_isSome_getElem?, hfree]
      rfl
    have hold := (take_block_all hfree b s (h.separate base hmem)).mp hb
    by_cases hbase : b = base.toNat
    · subst hbase
      exact .inr (.inl ⟨rfl, h.tiles.size_eq hold (block_free hfree)⟩)
    · exact .inl ⟨hold, hbase⟩

end Region

/-! ## Calls about one region -/

/-- `rn_getseg` and `rn_retseg`, with their arguments but for the region. -/
inductive SegmentCall where
  | get (bytes : UInt32)
  | ret (base : UInt32)
  deriving DecidableEq, Repr

/-- The service and its status. -/
def Machine.segment (region : UInt32) (m : Machine φ β) : SegmentCall → Machine φ β × UInt32
  | .get bytes => ((m.setD 1 region).setD 3 bytes).rnGetseg
  | .ret base => { m.setD 1 region with cpu := (m.setD 1 region).cpu.setDar 8 base }.rnRetseg

def Machine.segments (region : UInt32) (m : Machine φ β) (c : SegmentCall) : Machine φ β :=
  (m.segment region c).1

/-- The sizes of the segments that a call hands out, in whole units. -/
def gotten (region unit : UInt32) (m : Machine φ β) : SegmentCall → List Nat
  | .get bytes => if (m.segment region (.get bytes)).2 = 0 then [segmentSize bytes unit] else []
  | .ret _ => []

/-- The most that an allocation can ask for with success. -/
structure Largest (region : UInt32) (m : Machine φ β) (bytes : UInt32) : Prop where
  succeeds : (m.segment region (.get bytes)).2 = 0
  most : ∀ more : UInt32, (m.segment region (.get more)).2 = 0 → more ≤ bytes

theorem allocate_zero {r r' : Region} {bytes base : UInt32} (hlow : 0 ∉ r.free)
    (h : r.allocate bytes = some (r', base)) : base ≠ 0 := by
  obtain ⟨size, n, hfree, -⟩ := Region.allocate_takes h
  rintro rfl
  refine hlow ?_
  rw [TreeMap.mem_iff_isSome_getElem?, hfree]
  rfl

/-- An allocation succeeds exactly if the region has a block for it. -/
theorem segment_get {m : Machine φ β} {region : UInt32} {r : Region}
    (hr : m.kernel.regions[region]? = some r) (hlow : 0 ∉ r.free) (bytes : UInt32) :
    (r.allocate bytes = none ∧ (m.segment region (.get bytes)).2 ≠ 0 ∧
        (m.segments region (.get bytes)).kernel.regions = m.kernel.regions) ∨
      ∃ r' base, r.allocate bytes = some (r', base) ∧ (m.segment region (.get bytes)).2 = 0 ∧
        (m.segments region (.get bytes)).kernel.regions = m.kernel.regions.insert region r' := by
  let called : Machine φ β := (m.setD 1 region).setD 3 bytes
  have hregion : called.reg 1 = region := by
    simp [called, Machine.reg, Machine.setD, CpuCore.setD, CpuCore.setDar]
  have hbytes : called.reg 3 = bytes := by
    simp [called, Machine.reg, Machine.setD, CpuCore.setD, CpuCore.setDar]
  have hkernel : called.kernel = m.kernel := rfl
  change (_ ∧ called.rnGetseg.2 ≠ 0 ∧ called.rnGetseg.1.kernel.regions = _) ∨
    ∃ r' base, _ ∧ called.rnGetseg.2 = 0 ∧ called.rnGetseg.1.kernel.regions = _
  unfold Machine.rnGetseg Kernel.allocate
  rw [hregion, hbytes, hkernel, hr]
  dsimp only
  cases hallocate : r.allocate bytes with
  | none => exact .inl ⟨rfl, show (0x21 : UInt32) ≠ 0 by decide, rfl⟩
  | some found =>
    obtain ⟨r', base⟩ := found
    exact .inr ⟨r', base, rfl, if_neg (allocate_zero hlow hallocate), rfl⟩

/-- A segment that is in use is free again; nothing else is given back. -/
theorem segment_ret {m : Machine φ β} {region : UInt32} {r : Region}
    (hr : m.kernel.regions[region]? = some r) (base : UInt32) :
    (m.segments region (.ret base)).kernel.regions = m.kernel.regions ∨
      ∃ size, r.used[base]? = some size ∧ (m.segments region (.ret base)).kernel.regions =
        m.kernel.regions.insert region (r.release base size) := by
  let called : Machine φ β :=
    { m.setD 1 region with cpu := (m.setD 1 region).cpu.setDar 8 base }
  have hregion : called.reg 1 = region := by
    simp [called, Machine.reg, Machine.setD, CpuCore.setD, CpuCore.setDar]
  have hbase : called.reg 8 = base := by
    simp [called, Machine.reg, Machine.setD, CpuCore.setD, CpuCore.setDar]
  have hkernel : called.kernel = m.kernel := rfl
  change called.rnRetseg.1.kernel.regions = _ ∨ ∃ size, _ ∧ called.rnRetseg.1.kernel.regions = _
  unfold Machine.rnRetseg
  rw [hregion, hbase, hkernel, hr]
  dsimp only
  cases hused : r.used[base]? with
  | none => exact .inl rfl
  | some size => exact .inr ⟨size, rfl, rfl⟩

/-! ## What is left of a region -/

namespace Region

/-- The region as `rn_create` makes it. -/
def fresh (name unit base size : UInt32) : Region :=
  { name, unit, free := (∅ : Table UInt32).insert base size, used := ∅ }

/-- One block has room for `n` bytes, and what else there is is less than a unit. -/
structure Whole (r : Region) (base n : Nat) : Prop where
  room : ∃ s, r.block base s ∧ n ≤ s ∧ s < n + r.unit.toNat
  rest : ∀ b s, r.block b s → b ≠ base → s < r.unit.toNat

/-- No block has room for `n` bytes. -/
def Broken (r : Region) (n : Nat) : Prop := ∀ b s, r.block b s → s < n

variable {r r' : Region} {lo hi n k : Nat}

/-- A segment of `k` bytes, which are whole units, cut from a region that is whole for `n`. -/
theorem Whole.cut (h : r.Whole lo n) (hwithin : r.Within lo hi) {base size m : UInt32}
    (hfree : r.free[base]? = some size) (hm : m ≠ 0) (hle : m ≤ size) {p q : Nat}
    (hp : m.toNat = p * r.unit.toNat) (hq : n = q * r.unit.toNat) (hqpos : 0 < q) :
    (n ≤ m.toNat → (r.take base size m).Whole lo n) ∧
      (m.toNat < n → (r.take base size m).Broken n) := by
  obtain ⟨s, hblock, hns, hsn⟩ := h.room
  have hmpos : 0 < m.toNat := Nat.pos_of_ne_zero fun h0 => hm (UInt32.toNat.inj h0)
  have hppos : 0 < p := by
    rcases Nat.eq_zero_or_pos p with h0 | h0
    · rw [hp, h0, Nat.zero_mul] at hmpos
      exact absurd hmpos (Nat.lt_irrefl 0)
    · exact h0
  have hunit : r.unit.toNat ≤ m.toNat := hp ▸ Nat.le_mul_of_pos_left _ hppos
  have hunit' : r.unit.toNat ≤ n := hq ▸ Nat.le_mul_of_pos_left _ hqpos
  have hle' : m.toNat ≤ size.toNat := hle
  -- only the block with room for `n` bytes holds a unit
  have hbase : base.toNat = lo := by
    by_contra hne
    have hsmall := h.rest base.toNat size.toNat (block_free hfree) hne
    omega
  have hsize : size.toNat = s := hwithin.tiles.size_eq (hbase ▸ block_free hfree) hblock
  constructor
  · intro hlarge
    have hsame : m.toNat = n := by
      refine Nat.le_antisymm ?_ hlarge
      have hlt : p * r.unit.toNat < (q + 1) * r.unit.toNat := by
        rw [Nat.add_mul, Nat.one_mul, ← hp, ← hq]
        omega
      rw [hp, hq]
      exact Nat.mul_le_mul_right _ (Nat.le_of_lt_succ (Nat.lt_of_mul_lt_mul_right hlt))
    have hpos : 0 < r.unit.toNat := by
      rw [hp] at hmpos
      exact Nat.pos_of_mul_pos_left hmpos
    refine ⟨⟨n, ?_, Nat.le_refl n, Nat.lt_add_of_pos_right hpos⟩, fun b t hb hne => ?_⟩
    · have hused : (r.take base size m).used[base]? = some m := by rw [take_used, if_pos rfl]
      rw [← hbase, ← hsame]
      exact block_used hused
    · rcases take_blocks hwithin hfree hm hle hb with ⟨hold, -⟩ | ⟨heq, -⟩ | ⟨-, rfl, -⟩
      · exact h.rest b t hold hne
      · exact absurd (heq.trans hbase) hne
      · change size.toNat - m.toNat < r.unit.toNat
        omega
  · intro hsmall b t hb
    rcases take_blocks hwithin hfree hm hle hb with ⟨hold, hne⟩ | ⟨-, rfl⟩ | ⟨-, rfl, -⟩
    · exact Nat.lt_of_lt_of_le (h.rest b t hold (hbase ▸ hne)) hunit'
    · exact hsmall
    · omega

theorem Broken.cut (h : r.Broken n) (hwithin : r.Within lo hi) {base size m : UInt32}
    (hfree : r.free[base]? = some size) (hm : m ≠ 0) (hle : m ≤ size) :
    (r.take base size m).Broken n := by
  intro b s hb
  have hsize := h base.toNat size.toNat (block_free hfree)
  have hle' : m.toNat ≤ size.toNat := hle
  rcases take_blocks hwithin hfree hm hle hb with ⟨hold, -⟩ | ⟨-, rfl⟩ | ⟨-, rfl, -⟩
  · exact h b s hold
  · omega
  · omega

theorem Whole.congr (h : r.Whole lo n) (hunit : r'.unit = r.unit)
    (hblock : ∀ b s, r'.block b s ↔ r.block b s) : r'.Whole lo n := by
  obtain ⟨s, hs, hle, hlt⟩ := h.room
  refine ⟨⟨s, (hblock lo s).mpr hs, hle, hunit ▸ hlt⟩, fun b t hb hne => ?_⟩
  rw [hunit]
  exact h.rest b t ((hblock b t).mp hb) hne

end Region

/-- What the segments that were handed out, of these sizes, have left of a region that had room for
`n` bytes. -/
def Left (region unit : UInt32) (lo hi n : Nat) (m : Machine φ β) (sizes : List Nat) : Prop :=
  ∃ r : Region, m.kernel.regions[region]? = some r ∧ r.unit = unit ∧ r.Within lo hi ∧
    ((∀ k ∈ sizes, n ≤ k) → r.Whole lo n) ∧ ∀ k ∈ sizes, k < n → r.Broken n

section

variable {region unit : UInt32} {lo hi n : Nat} {m : Machine φ β} {sizes : List Nat}

theorem Region.Within.low {r : Region} (h : r.Within lo hi) (hlo : 0 < lo) : 0 ∉ r.free := by
  intro hmem
  rw [TreeMap.mem_iff_isSome_getElem?] at hmem
  obtain ⟨size, hfree⟩ := Option.isSome_iff_exists.mp hmem
  have hin := (h.tiles.inside (Region.block_free hfree)).1
  exact Nat.not_lt.mpr hin hlo

theorem Left.get (hlo : 0 < lo) {q : Nat} (hn : n = q * unit.toNat) (hq : 0 < q)
    (h : Left region unit lo hi n m sizes) (bytes : UInt32) :
    Left region unit lo hi n (m.segments region (.get bytes))
      (sizes ++ gotten region unit m (.get bytes)) := by
  obtain ⟨r, hr, rfl, hwithin, hwhole, hbroken⟩ := h
  rw [gotten]
  rcases segment_get hr (hwithin.low hlo) bytes with ⟨-, hstatus, hregions⟩ |
    ⟨r', base, hallocate, hstatus, hregions⟩
  · rw [if_neg hstatus, List.append_nil]
    exact ⟨r, hregions ▸ hr, rfl, hwithin, hwhole, hbroken⟩
  rw [if_pos hstatus]
  obtain ⟨size, k, hfree, hk, hle, hsize, rfl⟩ := Region.allocate_takes hallocate
  have hunit : (r.take base size k).unit = r.unit := rfl
  refine ⟨_, by rw [hregions]; exact TreeMap.getElem?_insert_self, hunit,
    hwithin.take hfree hk hle, fun hall => ?_, fun j hj hjn => ?_⟩
  · have hold := hwhole fun j hj => hall j (List.mem_append_left _ hj)
    exact (hold.cut hwithin hfree hk hle hsize hn hq).1
      (hsize ▸ hall _ (List.mem_append_right _ List.mem_cons_self))
  · by_cases hsome : ∃ i ∈ sizes, i < n
    · obtain ⟨i, hi, hin⟩ := hsome
      exact (hbroken i hi hin).cut hwithin hfree hk hle
    · have hold := hwhole fun i hi => Nat.not_lt.mp fun hlt => hsome ⟨i, hi, hlt⟩
      rcases List.mem_append.mp hj with hj | hj
      · exact absurd ⟨j, hj, hjn⟩ hsome
      · rw [List.mem_singleton.mp hj, ← hsize] at hjn
        exact (hold.cut hwithin hfree hk hle hsize hn hq).2 hjn

theorem Left.ret (h : Left region unit lo hi n m sizes) (base : UInt32) :
    Left region unit lo hi n (m.segments region (.ret base)) sizes := by
  obtain ⟨r, hr, rfl, hwithin, hwhole, hbroken⟩ := h
  rcases segment_ret hr base with hregions | ⟨size, hused, hregions⟩
  · exact ⟨r, hregions ▸ hr, rfl, hwithin, hwhole, hbroken⟩
  have hunit : (r.release base size).unit = r.unit := rfl
  have hblock := Region.release_block hwithin hused
  refine ⟨_, by rw [hregions]; exact TreeMap.getElem?_insert_self, hunit, hwithin.release hused,
    fun hall => (hwhole hall).congr hunit hblock, fun k hk hkn b s hb => ?_⟩
  exact hbroken k hk hkn b s ((hblock b s).mp hb)

theorem Left.run (hlo : 0 < lo) {q : Nat} (hn : n = q * unit.toNat) (hq : 0 < q)
    (h : Left region unit lo hi n m []) (calls : List SegmentCall) :
    Left region unit lo hi n (run (Machine.segments region) m calls)
      (log (Machine.segments region) (gotten region unit) m calls) := by
  refine log_keeps (R := Left region unit lo hi n) (fun m c sizes h => ?_) calls h
  cases c with
  | get bytes => exact h.get hlo hn hq bytes
  | ret base => exact (List.append_nil sizes).symm ▸ h.ret base

end

/-! ## The region that was made -/

section

variable {region name unit base size bytes : UInt32} {m : Machine φ β}

theorem segmentSize_units (bytes unit : UInt32) :
    segmentSize bytes unit = (bytes.toNat + unit.toNat - 1) / unit.toNat * unit.toNat := rfl

/-- Whole units are not rounded. -/
theorem segmentSize_mul {q : Nat} (hunit : 0 < unit.toNat) (h : bytes.toNat = q * unit.toNat) :
    segmentSize bytes unit = bytes.toNat := by
  have hdiv : (q * unit.toNat + unit.toNat - 1) / unit.toNat = q := by
    refine Nat.div_eq_of_lt_le ?_ ?_
    · omega
    · rw [Nat.add_mul, Nat.one_mul]
      omega
  rw [segmentSize, h, hdiv]

theorem le_segmentSize (hunit : 0 < unit.toNat) (bytes : UInt32) :
    bytes.toNat ≤ segmentSize bytes unit := by
  have hdiv := Nat.div_add_mod (bytes.toNat + unit.toNat - 1) unit.toNat
  have hmod := Nat.mod_lt (bytes.toNat + unit.toNat - 1) hunit
  rw [segmentSize, Nat.mul_comm]
  omega

theorem fresh_succeeds (hfresh : m.kernel.regions[region]? = some (Region.fresh name unit base size))
    (hrange : ramRange base size) (bytes : UInt32) :
    (m.segment region (.get bytes)).2 = 0 ↔
      bytes ≠ 0 ∧ unit ≠ 0 ∧ segmentSize bytes unit ≤ size.toNat := by
  have hlow : 0 ∉ (Region.fresh name unit base size).free := by
    intro hmem
    rw [Region.fresh, TreeMap.mem_iff_isSome_getElem?, get_insert] at hmem
    split at hmem
    · next hzero =>
      rw [← hzero] at hrange
      exact absurd hrange.1 (by decide)
    · simp at hmem
  have hsize : size.toNat ≤ 0x1000000 := by
    have hend := hrange.2
    have hram : ramBase.toNat + ramSize.toNat = 0x200000 := rfl
    omega
  have hiff : ((Region.fresh name unit base size).allocate bytes).isSome ↔
      bytes ≠ 0 ∧ unit ≠ 0 ∧ segmentSize bytes unit ≤ size.toNat := by
    rw [Region.allocate_isSome_iff]
    refine and_congr_right fun _ => and_congr_right fun _ => ?_
    constructor
    · rintro ⟨-, b, s, hfree, hle⟩
      rw [Region.fresh, get_insert] at hfree
      split at hfree
      · obtain rfl := Option.some.inj hfree
        exact hle
      · simp at hfree
    · intro hle
      exact ⟨Nat.le_trans hle hsize, base, size, TreeMap.getElem?_insert_self, hle⟩
  rw [← hiff]
  rcases segment_get hfresh hlow bytes with ⟨hnone, hstatus, -⟩ | ⟨r', b, hsome, hstatus, -⟩
  · rw [hnone]
    exact iff_of_false hstatus Bool.false_ne_true
  · rw [hsome]
    exact iff_of_true hstatus rfl

/-- The largest segment is the number of whole units that the region has room for. -/
theorem Largest.units (hfresh : m.kernel.regions[region]? = some (Region.fresh name unit base size))
    (hrange : ramRange base size) (h : Largest region m bytes) :
    ∃ q, 0 < q ∧ bytes.toNat = q * unit.toNat ∧ bytes.toNat ≤ size.toNat ∧
      size.toNat < bytes.toNat + unit.toNat := by
  obtain ⟨hbytes, hunit, hle⟩ := (fresh_succeeds hfresh hrange bytes).mp h.succeeds
  have hunitpos : 0 < unit.toNat := Nat.pos_of_ne_zero fun h0 => hunit (UInt32.toNat.inj h0)
  have hbytespos : 0 < bytes.toNat := Nat.pos_of_ne_zero fun h0 => hbytes (UInt32.toNat.inj h0)
  have hround := le_segmentSize hunitpos bytes
  -- a number of units that fit is an allocation that succeeds
  have hmost : ∀ q, 0 < q → q * unit.toNat ≤ size.toNat → q * unit.toNat ≤ bytes.toNat := by
    intro q hq hfit
    have hvalue : (UInt32.ofNat (q * unit.toNat)).toNat = q * unit.toNat :=
      UInt32.toNat_ofNat_of_lt' (Nat.lt_of_le_of_lt hfit size.toNat_lt)
    have hpos : 0 < q * unit.toNat := Nat.mul_pos hq hunitpos
    have hmore := h.most (UInt32.ofNat (q * unit.toNat))
      ((fresh_succeeds hfresh hrange _).mpr ⟨?_, hunit, ?_⟩)
    · rwa [UInt32.le_iff_toNat_le, hvalue] at hmore
    · intro h0
      rw [h0] at hvalue
      exact Nat.ne_of_lt hpos hvalue
    · rw [segmentSize_mul hunitpos hvalue, hvalue]
      exact hfit
  have hquotient : 0 < (bytes.toNat + unit.toNat - 1) / unit.toNat :=
    Nat.div_pos (by omega) hunitpos
  have hwhole := hmost _ hquotient hle
  have heq : bytes.toNat = segmentSize bytes unit := Nat.le_antisymm hround hwhole
  refine ⟨_, hquotient, heq, heq ▸ hle, Nat.not_le.mp fun hroom => ?_⟩
  have hnext := hmost ((bytes.toNat + unit.toNat - 1) / unit.toNat + 1) (Nat.succ_pos _) (by
    rw [Nat.add_mul, Nat.one_mul, ← segmentSize_units, ← heq]
    exact hroom)
  rw [Nat.add_mul, Nat.one_mul, ← segmentSize_units, ← heq] at hnext
  omega

/-- Once all segments are back, the free blocks are the whole region again, but they are those that the
allocations have cut: the largest segment can be had exactly if nothing smaller was ever handed out. -/
theorem segments_recycled (hfresh : m.kernel.regions[region]? = some (Region.fresh name unit base size))
    (hrange : ramRange base size) (hlargest : Largest region m bytes) (calls : List SegmentCall)
    (hback : ∀ r : Region, (run (Machine.segments region) m calls).kernel.regions[region]? = some r →
      ∀ b : UInt32, b ∉ r.used) :
    (∃ r : Region, (run (Machine.segments region) m calls).kernel.regions[region]? = some r ∧
      Tiles base.toNat (base.toNat + size.toNat) fun b s =>
        ∃ x y : UInt32, r.free[x]? = some y ∧ x.toNat = b ∧ y.toNat = s) ∧
      (((run (Machine.segments region) m calls).segment region (.get bytes)).2 = 0 ↔
        ∀ n ∈ log (Machine.segments region) (gotten region unit) m calls, bytes.toNat ≤ n) := by
  obtain ⟨q, hq, hbytes, hle, hlt⟩ := hlargest.units hfresh hrange
  obtain ⟨hbytes0, hunit0, -⟩ := (fresh_succeeds hfresh hrange bytes).mp hlargest.succeeds
  have hunitpos : 0 < unit.toNat := Nat.pos_of_ne_zero fun h0 => hunit0 (UInt32.toNat.inj h0)
  have hlo : 0 < base.toNat := Nat.lt_of_lt_of_le (by decide) (UInt32.le_iff_toNat_le.mp hrange.1)
  have hend : base.toNat + size.toNat ≤ 0x200000 := hrange.2
  have hsize0 : size ≠ 0 := fun h0 => by
    rw [h0] at hle
    exact hbytes0 (UInt32.toNat.inj (Nat.le_zero.mp hle))
  have hwithin : (Region.fresh name unit base size).Within base.toNat (base.toNat + size.toNat) :=
    Region.within_new name unit hsize0 (by omega)
  have hblock : (Region.fresh name unit base size).block base.toNat size.toNat :=
    Region.block_free TreeMap.getElem?_insert_self
  have hstart : Left region unit base.toNat (base.toNat + size.toNat) bytes.toNat m [] := by
    refine ⟨_, hfresh, rfl, hwithin, fun _ => ⟨⟨_, hblock, hle, hlt⟩, fun b s hb hne => ?_⟩, nofun⟩
    obtain ⟨hpos, hin⟩ := hwithin.tiles.inside hb
    have hs := hwithin.tiles.positive hb
    rcases hwithin.tiles.apart hb hblock with ⟨heq, -⟩ | hapart | hapart
    · exact absurd heq hne
    · omega
    · omega
  obtain ⟨r, hr, hunit, hwithin, hwhole, hbroken⟩ := hstart.run hlo hbytes hq calls
  have hunused := hback r hr
  have hfree : ∀ b s, r.block b s ↔
      ∃ x y : UInt32, r.free[x]? = some y ∧ x.toNat = b ∧ y.toNat = s := by
    intro b s
    refine exists_congr fun x => exists_congr fun y => and_congr_left fun _ => or_iff_left fun hused => ?_
    exact hunused x (by rw [TreeMap.mem_iff_isSome_getElem?, hused]; rfl)
  refine ⟨⟨r, hr, hwithin.tiles.congr fun b s => (hfree b s).symm⟩, ?_⟩
  have hround : segmentSize bytes r.unit = bytes.toNat := by
    rw [hunit]
    exact segmentSize_mul hunitpos hbytes
  have hsucceeds : ((run (Machine.segments region) m calls).segment region (.get bytes)).2 = 0 ↔
      (r.allocate bytes).isSome := by
    rcases segment_get hr (hwithin.low hlo) bytes with ⟨hnone, hstatus, -⟩ |
      ⟨r', b, hsome, hstatus, -⟩
    · rw [hnone]
      exact iff_of_false hstatus Bool.false_ne_true
    · rw [hsome]
      exact iff_of_true hstatus rfl
  rw [hsucceeds, Region.allocate_isSome_iff, hround]
  constructor
  · rintro ⟨-, -, -, x, y, hxy, hroom⟩ n hn
    by_contra hsmall
    have hless := hbroken n hn (Nat.not_le.mp hsmall) x.toNat y.toNat (Region.block_free hxy)
    omega
  · intro hall
    obtain ⟨s, hs, hroom, -⟩ := (hwhole hall).room
    obtain ⟨x, y, hxy, -, rfl⟩ := (hfree _ _).mp hs
    exact ⟨hbytes0, hunit ▸ hunit0, by omega, x, y, hxy, hroom⟩

end

/-! ## Two units -/

/-- A region of two units of 16 bytes, under the number 1. -/
def paired : Machine UInt16 Board where
  kernel := { regions := (∅ : Table Region).insert 1 (Region.fresh 0x52 16 0x180000 32) }
  cpu := bootCpu
  bus := bootBoard

def halved : List SegmentCall := [.get 16, .ret 0x180000]

theorem paired_fresh : paired.kernel.regions[(1 : UInt32)]? =
    some (Region.fresh 0x52 16 0x180000 32) := TreeMap.getElem?_insert_self

theorem paired_largest : Largest 1 paired 32 where
  succeeds := by decide +kernel
  most more h := by
    obtain ⟨-, -, hle⟩ := (fresh_succeeds paired_fresh (by decide) more).mp h
    rw [UInt32.le_iff_toNat_le]
    exact Nat.le_trans (le_segmentSize (by decide) more) hle

theorem halved_back (r : Region)
    (hr : (run (Machine.segments 1) paired halved).kernel.regions[(1 : UInt32)]? = some r)
    (b : UInt32) : b ∉ r.used := by
  have hempty : ((run (Machine.segments 1) paired halved).kernel.regions[(1 : UInt32)]?.map
      fun r => r.used.isEmpty) = some true := by decide +kernel
  rw [hr] at hempty
  exact TreeMap.isEmpty_iff_forall_not_mem.mp (Option.some.inj hempty) b

theorem halved_recycled :
    (∃ r : Region, (run (Machine.segments 1) paired halved).kernel.regions[(1 : UInt32)]? = some r ∧
      Tiles 0x180000 (0x180000 + 32) fun b s =>
        ∃ x y : UInt32, r.free[x]? = some y ∧ x.toNat = b ∧ y.toNat = s) ∧
      (((run (Machine.segments 1) paired halved).segment 1 (.get 32)).2 = 0 ↔
        ∀ n ∈ log (Machine.segments 1) (gotten 1 16) paired halved, 32 ≤ n) :=
  segments_recycled paired_fresh (by decide) paired_largest halved halved_back

/-- The two halves are free, and the whole cannot be had. -/
theorem halves_not_joined : ¬ ∀ (m : Machine UInt16 Board) (region name unit base size bytes : UInt32)
    (calls : List SegmentCall),
    m.kernel.regions[region]? = some (Region.fresh name unit base size) → ramRange base size →
      Largest region m bytes →
        (∀ r : Region, (run (Machine.segments region) m calls).kernel.regions[region]? = some r →
          ∀ b : UInt32, b ∉ r.used) →
          ((run (Machine.segments region) m calls).segment region (.get bytes)).2 = 0 := by
  intro h
  have hwhole := h paired 1 0x52 16 0x180000 32 32 halved paired_fresh (by decide) paired_largest
    halved_back
  exact absurd hwhole (by decide +kernel)

end OpenSaab.Psos
