import OpenSaab.Library.Bits
import OpenSaab.Psos.Reclaim
import OpenSaab.Psos.Selection

/-!
# The argument frame of a task

`start` writes twenty bytes below the top of a stack that `create` has allocated. When they lie in
that stack.
-/

namespace OpenSaab.Psos

open Std OpenSaab.Table OpenSaab.Runs

variable {φ β : Type}

/-! ## What a start writes -/

/-- The addresses of `n` longs below `top`, downwards. -/
def slots (top : UInt32) : Nat → List UInt32
  | 0 => []
  | n + 1 => (top - 4) :: slots (top - 4) n

def writeLongs [GuestBus β] (bus : β) (longs : List (UInt32 × UInt32)) : β :=
  longs.foldl (fun bus w => GuestBus.writeLong bus w.1 w.2) bus

theorem foldl_pushLong [GuestBus β] (values : List UInt32) (top : UInt32) (bus : β) :
    (values.foldl pushLong (top, bus)).2 = writeLongs bus ((slots top values.length).zip values) := by
  induction values generalizing top bus with
  | nil => rfl
  | cons v values ih => exact ih (top - 4) (GuestBus.writeLong bus (top - 4) v)

theorem foldl_pushLong_top [GuestBus β] (values : List UInt32) (top : UInt32) (bus : β) :
    (values.foldl pushLong (top, bus)).1 = top - 4 * UInt32.ofNat values.length := by
  induction values generalizing top bus with
  | nil => simp
  | cons v values ih =>
    have h := ih (top - 4) (GuestBus.writeLong bus (top - 4) v)
    simp only [List.foldl_cons, List.length_cons, pushLong] at h ⊢
    rw [h, UInt32.ofNat_add]
    grind

/-- The return entry with the arguments above it, as `start` pushes them. -/
def Kernel.frameLongs (k : Kernel) (top : UInt32) (args : List UInt32) : List (UInt32 × UInt32) :=
  (slots top 5).zip (args.reverse ++ [k.returnEntry])

/-- A start that succeeds leaves the task at its entry, below the frame that it has written. -/
theorem Kernel.start_started [GuestBus β] {k : Kernel} {id mode pc : UInt32} {args : List UInt32}
    {bus : β} (hargs : args.length = 4) (h : (k.start id mode pc args bus).2.2 = 0) :
    ∃ t, k.tasks[k.taskId id]? = some t ∧ 20 ≤ (t.stackTop mode).toNat ∧
      k.start id mode pc args bus =
        (k.setTask (k.taskId id) (t.started mode pc (t.stackTop mode - 20)),
          writeLongs bus (k.frameLongs (t.stackTop mode) args), 0) := by
  unfold Kernel.start at h ⊢
  dsimp only at h ⊢
  split at h
  · exact absurd h (show (5 : UInt32) ≠ 0 by decide)
  next t ht =>
  split at h
  · exact absurd h (show (0x18 : UInt32) ≠ 0 by decide)
  next hpc =>
  split at h
  · exact absurd h (show (0x0f : UInt32) ≠ 0 by decide)
  next hroom =>
  refine ⟨t, ht, Nat.not_lt.mp (not_or.mp hroom).1, ?_⟩
  have hlength : (args.reverse ++ [k.returnEntry]).length = 5 := by simp [hargs]
  have hbus := foldl_pushLong (args.reverse ++ [k.returnEntry]) (t.stackTop mode) bus
  have htop := foldl_pushLong_top (args.reverse ++ [k.returnEntry]) (t.stackTop mode) bus
  rw [hlength] at hbus htop
  rw [if_neg hpc, if_neg hroom, hbus, htop]
  rfl

/-! ## The stacks of a task -/

structure Stacks where
  stack : UInt32
  stackSize : UInt32
  superStack : UInt32
  superSize : UInt32

def Task.stacks (t : Task) : Stacks := ⟨t.stack, t.stackSize, t.superStack, t.superSize⟩

def SameStacks (t t' : Task) : Prop := t'.id = t.id ∧ t'.stacks = t.stacks

theorem sameStacks_refl (t : Task) : SameStacks t t := ⟨rfl, rfl⟩

theorem sameStacks_trans (a b c : Task) (h : SameStacks a b) (h' : SameStacks b c) :
    SameStacks a c := ⟨h'.1.trans h.1, h'.2.trans h.2⟩

namespace Kernel

theorem start_stacks [GuestBus β] (k : Kernel) (id mode pc : UInt32) (args : List UInt32) (bus : β) :
    Pointwise SameStacks k.tasks (k.start id mode pc args bus).1.tasks := by
  cases hs : k.startable id mode pc with
  | false =>
    rw [(start_unstartable hs args bus).1]
    exact .refl sameStacks_refl _
  | true =>
    obtain ⟨-, t, top, ht, hk⟩ := start_startable hs args bus
    rw [hk]
    exact .insert sameStacks_refl ht ⟨rfl, rfl⟩

end Kernel

section Services

variable {m : Machine φ β}

end Services

/-! ## Segments -/

/-- The size of the segment of region 0 that is in use at `base`. -/
def Kernel.segmentAt (k : Kernel) (base : UInt32) : Option UInt32 :=
  match k.regions[(0 : UInt32)]? with
  | none => none
  | some r => r.used[base]?

/-- There is no stack, or a segment with room for it is in use at its base. -/
def Stands (k : Kernel) (base size : UInt32) : Prop :=
  size = 0 ∧ base = 0 ∨ size ≠ 0 ∧ base ≠ 0 ∧ ∃ n, k.segmentAt base = some n ∧ size ≤ n

def Standing (k : Kernel) (t : Task) : Prop :=
  Stands k t.stack t.stackSize ∧ Stands k t.superStack t.superSize

theorem segmentAt_congr {k k' : Kernel} (h : k'.regions = k.regions) (base : UInt32) :
    k'.segmentAt base = k.segmentAt base := by
  unfold Kernel.segmentAt
  rw [h]

/-- An allocation takes no segment that is in use. -/
theorem Allocates.segmentAt {k k' : Kernel} (h : Allocates k k') (hs : RegionsSound k)
    {base n : UInt32} (hb : k.segmentAt base = some n) : k'.segmentAt base = some n := by
  induction h with
  | same h => exact (segmentAt_congr h base).trans hb
  | @take k k' id start size taken r hr hfree hn hle h =>
    unfold Kernel.segmentAt at hb ⊢
    rw [h, get_insert]
    split at hb
    · cases hb
    next r0 hr0 =>
    by_cases hid : (0 : UInt32) = id
    · subst hid
      obtain rfl := Option.some.inj (hr.symm.trans hr0)
      rw [if_pos rfl]
      have hne : base ≠ start := by
        rintro rfl
        refine (hs 0 r hr).separate base ?_ ?_ <;> rw [TreeMap.mem_iff_isSome_getElem?]
        · rw [hfree]
          rfl
        · rw [hb]
          rfl
      exact (r.take_used start size taken base).trans ((if_neg hne).trans hb)
    · rw [if_neg hid, hr0]
      exact hb
  | trans h h' ih ih' => exact ih' (h.grown.sound hs) (ih hs hb)

theorem Stands.allocates {k k' : Kernel} {base size : UInt32} (h : Stands k base size)
    (hs : RegionsSound k) (ha : Allocates k k') : Stands k' base size := by
  rcases h with h | ⟨hsize, hbase, n, hn, hle⟩
  · exact Or.inl h
  · exact Or.inr ⟨hsize, hbase, n, ha.segmentAt hs hn, hle⟩

theorem Standing.allocates {k k' : Kernel} {t : Task} (h : Standing k t) (hs : RegionsSound k)
    (ha : Allocates k k') : Standing k' t := ⟨h.1.allocates hs ha, h.2.allocates hs ha⟩

/-- The two stacks are all that standing is about. -/
theorem Standing.same {k : Kernel} {t t' : Task} (h : Standing k t) (hsame : SameStacks t t') :
    Standing k t' := by
  obtain ⟨h1, h2, h3, h4⟩ := Stacks.mk.inj hsame.2
  unfold Standing
  rwa [h1, h2, h3, h4]

/-- A stack that was allocated has a segment with room for it. -/
theorem allocateStack_stands (k : Kernel) {size : UInt32}
    (h : size ≠ 0 → (k.allocateStack size).2 ≠ 0) :
    Stands (k.allocateStack size).1 (k.allocateStack size).2 size := by
  unfold Kernel.allocateStack at h ⊢
  by_cases hsize : size = 0
  · rw [if_pos hsize]
    exact Or.inl ⟨hsize, rfl⟩
  rw [if_neg hsize] at h ⊢
  refine Or.inr ⟨hsize, h hsize, ?_⟩
  rcases k.allocate_cases 0 size with heq | ⟨r, r', base, hr, hbase, heq⟩
  · rw [heq] at h
    exact absurd rfl (h hsize)
  · rw [heq]
    have hunit := (Region.allocate_isSome_iff.mp (Option.isSome_of_eq_some hbase)).2.1
    obtain ⟨free, n, hfree, hn, hle, hvalue, rfl⟩ := Region.allocate_takes hbase
    refine ⟨n, ?_, ?_⟩
    · unfold Kernel.segmentAt
      dsimp only
      rw [TreeMap.getElem?_insert_self]
      exact (r.take_used base free n base).trans (if_pos rfl)
    · rw [UInt32.le_iff_toNat_le, hvalue]
      exact le_segmentSize (Nat.pos_of_ne_zero fun h0 => hunit (UInt32.toNat.inj h0)) size

namespace Kernel

variable [GuestBus β]

/-- A creation adds at most one task, under a new identifier, whose stacks stand. -/
theorem create_stands {k : Kernel} (hs : RegionsSound k) (hn : Numbered k)
    (name priority user superSize vbr : UInt32) (bus : β) {id : UInt32} {t : Task}
    (ht : (k.create name priority user superSize bus vbr).1.tasks[id]? = some t) :
    k.tasks[id]? = some t ∨
      id ∉ k.tasks ∧ Standing (k.create name priority user superSize bus vbr).1 t := by
  obtain ⟨regions, hr⟩ := k.reserve_frame user superSize
  rcases k.create_cases name priority user superSize vbr bus with h | ⟨hroom, h | ⟨_, -, -, h⟩⟩
  · rw [h] at ht
    exact Or.inl ht
  · rw [h, hr] at ht
    exact Or.inl ht
  · obtain ⟨k1, new, hk1, hcreate, hreserve, husize, hstack, hssize, hsuper, hu0, hs0⟩ :=
      create_stacks k name priority user superSize vbr bus (congrArg (fun r => r.2.1) h)
    rw [hcreate] at ht ⊢
    have hget : ((k.reserve user superSize).setTask k.nextId new).tasks[id]? =
        if id = k.nextId then some new else k.tasks[id]? := by
      rw [setTask, hr]
      exact get_insert k.tasks k.nextId id new
    rw [hget] at ht
    split at ht
    · next hid =>
      obtain rfl := Option.some.inj ht
      have hnew : id ∉ k.tasks := by
        rw [TreeMap.mem_iff_isSome_getElem?, hid, nextId_absent hn hroom]
        exact Bool.false_ne_true
      refine Or.inr ⟨hnew, ?_⟩
      have hs1 : RegionsSound k1 := (grown_of_eq hk1).sound hs
      have hs2 := (k1.allocateStack_allocates user).grown.sound hs1
      have hallocates := (k1.allocateStack user).1.allocateStack_allocates superSize
      have hs3 := hallocates.grown.sound hs2
      have hfirst := allocateStack_stands k1 fun h => hstack ▸ hu0 h
      have hsecond := allocateStack_stands (k1.allocateStack user).1 fun h => hsuper ▸ hs0 h
      have hlast : Allocates ((k1.allocateStack user).1.allocateStack superSize).1
          ((k.reserve user superSize).setTask k.nextId new) :=
        .same (show (k.reserve user superSize).regions = _ by rw [hreserve])
      unfold Standing
      rw [husize, hssize, hstack, hsuper]
      exact ⟨(hfirst.allocates hs2 hallocates).allocates hs3 hlast, hsecond.allocates hs3 hlast⟩
    · exact Or.inl ht

theorem create_mem {k : Kernel} (name priority user superSize vbr : UInt32) (bus : β) {id : UInt32}
    (hid : id ∈ k.tasks) : id ∈ (k.create name priority user superSize bus vbr).1.tasks := by
  obtain ⟨regions, hr⟩ := k.reserve_frame user superSize
  rcases k.create_cases name priority user superSize vbr bus with h | ⟨-, h | ⟨t, -, -, h⟩⟩
  · rwa [h]
  · rwa [h, hr]
  · rw [h, hr]
    exact TreeMap.mem_insert.mpr (Or.inr hid)

end Kernel

/-! ## The start of the kernel -/

/-- Every task of `k'` was there before, with the same stacks, or is new, with stacks that stand. -/
def Seated (k k' : Kernel) : Prop :=
  ∀ (id : UInt32) (t' : Task), k'.tasks[id]? = some t' →
    (∃ t, k.tasks[id]? = some t ∧ SameStacks t t') ∨ id ∉ k.tasks ∧ Standing k' t'

/-- What the start of the kernel keeps: it adds tasks to those of `k0`, with stacks that stand. -/
structure Seating (k0 k : Kernel) : Prop where
  blank : Blank k
  sound : RegionsSound k
  kept : ∀ id : UInt32, id ∈ k0.tasks → id ∈ k.tasks
  seated : Seated k0 k

/-- Tasks that keep their stacks stay seated, whatever is allocated. -/
theorem Seated.same {k k1 k2 : Kernel} (h : Seated k k1) (hs : RegionsSound k1)
    (hsame : Pointwise SameStacks k1.tasks k2.tasks) (ha : Allocates k1 k2) : Seated k k2 := by
  intro id t' ht'
  obtain ⟨t, ht, hst⟩ := hsame.after ht'
  rcases h id t ht with ⟨t0, ht0, hst0⟩ | ⟨hnone, hstanding⟩
  · exact Or.inl ⟨t0, ht0, sameStacks_trans t0 t t' hst0 hst⟩
  · exact Or.inr ⟨hnone, (hstanding.same hst).allocates hs ha⟩

/-- What has made no task yet. -/
theorem Seating.prepared {k0 k : Kernel} (h0 : Blank k0) (hs : RegionsSound k) (hp : Prepared k0 k) :
    Seating k0 k := by
  have hblank := h0.prepared hp
  obtain ⟨_, _, _, _, _, rfl, -⟩ := hp
  exact ⟨hblank, hs, fun _ h => h, fun _ t ht => Or.inl ⟨t, ht, sameStacks_refl t⟩⟩

theorem Prepared.trans {k k' k'' : Kernel} (h : Prepared k k') (h' : Prepared k' k'') :
    Prepared k k'' := by
  obtain ⟨_, _, _, _, _, rfl, hregions⟩ := h
  obtain ⟨_, _, _, _, _, rfl, hregions'⟩ := h'
  exact ⟨_, _, _, _, _, rfl, fun id hid => (hregions' id hid).trans (hregions id hid)⟩

variable [GuestBus β]

theorem Seating.create {k0 k : Kernel} (h : Seating k0 k) (name priority user superSize vbr : UInt32)
    (bus : β) : Seating k0 (k.create name priority user superSize bus vbr).1 := by
  have hallocates := k.create_allocates name priority user superSize vbr bus
  refine ⟨h.blank.create name priority user superSize vbr bus, hallocates.grown.sound h.sound,
    fun id hid => Kernel.create_mem _ _ _ _ _ _ (h.kept id hid), fun id t' ht' => ?_⟩
  rcases Kernel.create_stands h.sound h.blank.numbered name priority user superSize vbr bus ht' with
    hold | ⟨hnew, hstanding⟩
  · rcases h.seated id t' hold with hsame | ⟨hnew, hstanding⟩
    · exact Or.inl hsame
    · exact Or.inr ⟨hnew, hstanding.allocates h.sound hallocates⟩
  · exact Or.inr ⟨fun hid => hnew (h.kept id hid), hstanding⟩

theorem Seating.start {k0 k : Kernel} (h : Seating k0 k) (id mode pc : UInt32) (args : List UInt32)
    (bus : β) : Seating k0 (k.start id mode pc args bus).1 := by
  have hallocates := k.start_allocates id mode pc args bus
  have hsame := k.start_stacks id mode pc args bus
  exact ⟨h.blank.start id mode pc args bus, hallocates.grown.sound h.sound,
    fun a ha => hsame.mem (h.kept a ha), h.seated.same h.sound hsame hallocates⟩

variable [M68k φ]

/-- A stack segment that was allocated to a task. -/
structure Segment where
  task : UInt32
  base : UInt32
  size : UInt32

/-- The long at `slot` lies in the segment. -/
def Segment.Holds (g : Segment) (slot : UInt32) : Prop :=
  g.base ≤ slot ∧ slot.toNat + 4 ≤ g.base.toNat + g.size.toNat

/-- The segments that region 0 has in use at the bases of a task's stacks. -/
def Task.segments (t : Task) (k : Kernel) : List Segment :=
  ([t.stack, t.superStack].filter (· ≠ 0)).filterMap fun base =>
    (k.segmentAt base).map fun size => ⟨t.id, base, size⟩

/-- The base and the size of the stack that a start in the task's mode uses. -/
def Task.usedStack (t : Task) : UInt32 × UInt32 :=
  if t.mode &&& 0x2000 ≠ 0 ∨ t.superSize = 0 then (t.stack, t.stackSize)
  else (t.superStack, t.superSize)

/-- The stack holds the frame and what rounding its end down to a multiple of four drops. -/
def Task.Roomy (t : Task) : Prop :=
  20 + (t.usedStack.1.toNat + t.usedStack.2.toNat) % 4 ≤ t.usedStack.2.toNat

instance decidableRoomy (t : Task) : Decidable t.Roomy := inferInstanceAs (Decidable (_ ≤ _))

theorem tRestart_performed {m : Machine φ β} {t : Task} (ht : m.kernel.tasks[m.target]? = some t) :
    performed m .tRestart =
      ({ m.counted with
          kernel := (m.counted.kernel.start m.target t.mode t.entry
            [m.reg 2, m.reg 3, m.reg 4, m.reg 5] m.bus).1
          bus := (m.counted.kernel.start m.target t.mode t.entry
            [m.reg 2, m.reg 3, m.reg 4, m.reg 5] m.bus).2.1 },
        (m.counted.kernel.start m.target t.mode t.entry
          [m.reg 2, m.reg 3, m.reg 4, m.reg 5] m.bus).2.2) := by
  have ht' : m.counted.kernel.tasks[m.counted.target]? = some t := ht
  show m.counted.tRestart = _
  simp only [Machine.tRestart, ht']
  rfl

/-! ## The segments of a run -/

/-- There is no stack, or a segment with room for it was allocated to the task. -/
def Allotted (gs : List Segment) (id base size : UInt32) : Prop :=
  size = 0 ∧ base = 0 ∨
    size ≠ 0 ∧ base ≠ 0 ∧ ∃ g ∈ gs, g.task = id ∧ g.base = base ∧ size ≤ g.size

/-- The segments so far account for the stacks of every task. -/
structure Accounted (m : Machine φ β) (gs : List Segment) : Prop where
  wf : WF m.kernel
  sound : RegionsSound m.kernel
  bound : ∀ g ∈ gs, g.base ≠ 0 ∧ g.base.toNat + g.size.toNat < 2 ^ 32
  tasks : ∀ (id : UInt32) (t : Task), m.kernel.tasks[id]? = some t →
    Allotted gs t.id t.stack t.stackSize ∧ Allotted gs t.id t.superStack t.superSize

omit [M68k φ] [GuestBus β] in
theorem Allotted.more {gs : List Segment} {id base size : UInt32} (h : Allotted gs id base size)
    (more : List Segment) : Allotted (gs ++ more) id base size := by
  rcases h with h | ⟨hsize, hbase, g, hg, hrest⟩
  · exact Or.inl h
  · exact Or.inr ⟨hsize, hbase, g, List.mem_append_left _ hg, hrest⟩

section Frame

variable {gs : List Segment} {t : Task}

end Frame

/-! ## Runs -/

end OpenSaab.Psos
