import OpenSaab.Candi.Demand
import OpenSaab.Library.Runs
import OpenSaab.Psos.Board

/-!
# The caller sees nothing of it

For every state in which the initialisation starts and everything that the routines do below the stack
of the caller: the instruction is held back until it goes on with the registers, the status and the stack
that it had, or the guest has been stopped.
-/

namespace OpenSaab.Candi.Demand

open Psos

/-! ## The stack of the caller -/

namespace Memory

variable {m : Memory} {a x : UInt32}

theorem masked (h : x.toNat < 2 ^ 24) : x &&& 0xffffff = x := by
  refine UInt32.toNat_inj.mp ?_
  rw [UInt32.toNat_and]
  exact (Nat.and_two_pow_sub_one_eq_mod x.toNat 24).trans (Nat.mod_eq_of_lt h)

theorem sub_ne {a x base : UInt32} (h : a ≠ x) : a - base ≠ x - base := fun heq =>
  h (by rw [← UInt32.sub_add_cancel a base, heq, UInt32.sub_add_cancel])

theorem stored_writeByte {v : UInt8} (hx : x.toNat < 2 ^ 24) (h : a ≠ x) :
    (m.writeByte x v).stored a = m.stored a := by
  unfold writeByte
  rw [masked hx]
  dsimp only
  split_ifs
  · rfl
  · rfl
  · simp [stored, setCell, sub_ne h]
  · simp [stored, setCell, sub_ne h]
  · rfl

theorem stored_writeWord {v : UInt16} (h : x.toNat + 1 < a.toNat) (hx : x.toNat + 1 < 2 ^ 24) :
    (m.writeWord x v).stored a = m.stored a := by
  have hnext : (x + 1).toNat = x.toNat + 1 := by
    rw [UInt32.toNat_add]
    exact Nat.mod_eq_of_lt (by change x.toNat + 1 < 2 ^ 32; omega)
  unfold writeWord
  split_ifs
  · rfl
  · rw [stored_writeByte (by omega) (fun heq => by rw [heq, hnext] at h; omega),
      stored_writeByte (by omega) (fun heq => by rw [heq] at h; omega)]

theorem stored_writeLong {v : UInt32} (h : x.toNat + 3 < a.toNat) (hx : x.toNat + 3 < 2 ^ 24) :
    (m.writeLong x v).stored a = m.stored a := by
  have hnext : (x + 2).toNat = x.toNat + 2 := by
    rw [UInt32.toNat_add]
    exact Nat.mod_eq_of_lt (by change x.toNat + 2 < 2 ^ 32; omega)
  unfold writeLong
  rw [stored_writeWord (by omega) (by omega), stored_writeWord (by omega) (by omega)]

/-- Where a stack that can be looked at is. -/
theorem stack_bounds {sp : UInt32} (h : (m.peekBytes (sp - 8) 8).isSome) :
    8 ≤ sp.toNat ∧ sp.toNat < 2 ^ 24 := by
  have hsub : (sp - 8).toNat = (2 ^ 32 - 8 + sp.toNat) % 2 ^ 32 := UInt32.toNat_sub sp 8
  have hsp := sp.toNat_lt
  unfold peekBytes at h
  by_cases hflash : (sp - 8).toNat < BootFlash.flashSize
  · unfold BootFlash.flashSize at hflash
    omega
  rw [if_neg hflash] at h
  by_cases hram : inRam (sp - 8)
  · have hlow := UInt32.le_iff_toNat_le.mp hram.1
    have hhigh := UInt32.lt_iff_toNat_lt.mp hram.2
    have hb : ramBase.toNat = 0x100000 := rfl
    have he : (ramBase + ramSize).toNat = 0x200000 := rfl
    omega
  rw [if_neg hram] at h
  split at h
  · rename_i heram
    have hlow := UInt32.le_iff_toNat_le.mp heram.1
    have hhigh := UInt32.lt_iff_toNat_lt.mp heram.2
    have hb : (eramBase + 0x1000).toNat = 0x301000 := rfl
    have he : (eramBase + eramSize).toNat = 0x400000 := rfl
    omega
  · cases h

end Memory

/-- What is pushed for a routine is below the stack of the caller. -/
theorem stored_push {i : GuestInit} {m : Memory} {a : UInt32} (hlow : 8 ≤ i.sp.toNat)
    (hhigh : i.sp.toNat < 2 ^ 24) (ha : i.sp ≤ a) : (i.push m).stored a = m.stored a := by
  have hle := UInt32.le_iff_toNat_le.mp ha
  have hsub (k : UInt32) (hk : k.toNat ≤ 8) : (i.sp - k).toNat = i.sp.toNat - k.toNat :=
    UInt32.toNat_sub_of_le _ _ (UInt32.le_iff_toNat_le.mpr (by omega))
  have htwo := hsub 2 (by decide)
  have hfour := hsub 4 (by decide)
  have hsix := hsub 6 (by decide)
  have height := hsub 8 (by decide)
  simp only [show (2 : UInt32).toNat = 2 from rfl, show (4 : UInt32).toNat = 4 from rfl,
    show (6 : UInt32).toNat = 6 from rfl, show (8 : UInt32).toNat = 8 from rfl] at *
  unfold GuestInit.push GuestInit.callSp
  dsimp only
  have hcall : ∀ m : Memory, (m.writeLong (i.sp - (if i.markAttempt then 6 else
      if i.inventory then 4 else 8)) i.resume).stored a = m.stored a := fun m => by
    split_ifs
    · exact Memory.stored_writeLong (by omega) (by omega)
    · exact Memory.stored_writeLong (by omega) (by omega)
    · exact Memory.stored_writeLong (by omega) (by omega)
  rw [hcall]
  have hmark : (if i.markAttempt then m.writeWord (i.sp - 2) 8 else m).stored a = m.stored a := by
    split_ifs
    · exact Memory.stored_writeWord (by omega) (by omega)
    · rfl
  cases i.inventory with
  | true => exact hmark
  | false => exact (Memory.stored_writeLong (by omega) (by omega)).trans hmark

/-! ## The claim on a run -/

variable {φ : Type} [M68k φ]

/-- Writing the status register leaves the program counter. -/
class KeepsPc (φ : Type) [M68k φ] : Prop where
  pc_setSrNointNosp (cpu : CpuCore φ) (sr : UInt16) : (M68k.setSrNointNosp cpu sr).pc = cpu.pc

/-- The state in which the initialisation starts. -/
structure Triggers (s : Machine φ) : Prop where
  free : s.bus.demandGuestInit = none
  pending : s.bus.pendingCandi.isSome
  booted : s.bus.demandBootComplete = true
  running : s.bus.failureReason = none
  silent : s.bus.notes = []
  entry : s.atInit ∨ s.atRequest

/-- A round while a routine is called: these bytes are left alone, and the routine comes back to where
it was called only with the stack pointer that its convention prescribes. -/
structure Conforms (S : UInt32 → Prop) (s : Machine φ) (r : Round φ) : Prop where
  guest : ∀ a, S a → r.guest.memory.stored a = s.bus.memory.stored a
  kernel : ∀ a, S a → r.kernel.memory.stored a = r.guest.memory.stored a
  returns : ∀ i, s.bus.demandGuestInit = some i → r.kernel.cpu.pc = i.resume →
    r.kernel.cpu.activeSp = i.sp → i.returnSp = i.sp

/-- Nothing is asked of the guest once the initialisation is over. -/
def Behaves (S : UInt32 → Prop) (s : Machine φ) (r : Round φ) : Prop :=
  s.bus.demandGuestInit.isSome → Conforms S s r

/-- The machine goes on to the instruction that was held back, in the frame of its caller. -/
def Intercepted (s₀ s : Machine φ) : Prop :=
  s.cpu.pc = s₀.cpu.pc ∧ s.cpu.activeSp = s₀.cpu.activeSp

structure Restored (S : UInt32 → Prop) (s₀ s : Machine φ) : Prop where
  pc : s.cpu.pc = s₀.cpu.pc
  registers : s.cpu.dar = s₀.cpu.dar
  status : M68k.getSr s.cpu = M68k.getSr s₀.cpu
  stack : ∀ a, S a → s.bus.memory.stored a = s₀.bus.memory.stored a

/-- How a note follows from the notes before it. -/
def Explains (earlier : List Note) : Note → Prop
  | .call .wait flags => flags &&& 2 = 0
  | .call .mark flags => flags &&& 2 ≠ 0 ∧ ∀ f, .call .mark f ∉ earlier
  | .call .loader flags => flags &&& 2 ≠ 0 ∧ ∃ f, .call .mark f ∈ earlier
  | .loaded result flags =>
    flags &&& 0xf000 ≠ 0 ∧ (result.toUInt8 = 0 ∨ result.toUInt8 = 2) ∧
      ∃ f, .call .loader f ∈ earlier

/-! ## While a routine is called -/

/-- What is known of the initialisation and of what has been noted. -/
structure Saved (s₀ : Machine φ) (now : Nat) (i : GuestInit) : Prop where
  registers : i.registers = s₀.cpu.dar
  sr : i.sr = M68k.getSr s₀.cpu
  resume : i.resume = s₀.cpu.pc
  started : i.started = now

/-- Nothing has failed, and the notes say how far it has come. -/
structure Sound (S : UInt32 → Prop) (s₀ s : Machine φ) : Prop where
  running : s.bus.failureReason = none
  taken : s.bus.pendingCandi = none
  stack : ∀ a, S a → s.bus.memory.stored a = s₀.bus.memory.stored a
  notes : Runs.Justified Explains s.bus.notes
  unloaded : ∀ result flags, .loaded result flags ∉ s.bus.notes

/-- A routine can be called. -/
structure Callable (notes : List Note) (i : GuestInit) : Prop where
  unmarked : i.marked = false → ∀ f, .call .mark f ∉ notes
  marked : i.marked = true → ∃ f, .call .mark f ∈ notes

/-- A routine has been called. -/
structure Called (notes : List Note) (i : GuestInit) : Prop where
  fresh : i.marked = false → i.markAttempt = false → ∀ f, .call .mark f ∉ notes
  marking : i.markAttempt = true ∨ i.marked = true → ∃ f, .call .mark f ∈ notes
  loading : i.inventory = true → i.markAttempt = false → ∃ f, .call .loader f ∈ notes

structure Under (S : UInt32 → Prop) (s₀ : Machine φ) (now : Nat) (i : GuestInit)
    (s : Machine φ) : Prop where
  held : s.bus.demandGuestInit = some i
  saved : Saved s₀ now i
  sound : Sound S s₀ s
  called : Called s.bus.notes i

variable {S : UInt32 → Prop} {s₀ s : Machine φ} {now : Nat} {i : GuestInit}

theorem look_routine (i : GuestInit) (m : Memory) :
    (m.ramWord flagWord &&& 2 = 0 ∧ (i.look m).routine = .wait ∧ (i.look m).markAttempt = false ∧
        (i.look m).inventory = false) ∨
      (m.ramWord flagWord &&& 2 ≠ 0 ∧ i.marked = false ∧ (i.look m).routine = .mark ∧
        (i.look m).markAttempt = true ∧ (i.look m).inventory = true) ∨
      (m.ramWord flagWord &&& 2 ≠ 0 ∧ i.marked = true ∧ (i.look m).routine = .loader ∧
        (i.look m).markAttempt = false ∧ (i.look m).inventory = true) := by
  by_cases hflag : m.ramWord flagWord &&& 2 = 0
  · exact .inl (by simp [GuestInit.look, GuestInit.routine, hflag])
  · cases hmarked : i.marked with
    | false => exact .inr (.inl (by simp [GuestInit.look, GuestInit.routine, hflag, hmarked]))
    | true => exact .inr (.inr (by simp [GuestInit.look, GuestInit.routine, hflag, hmarked]))

/-- The call of a routine notes what it is and leaves the stack of the caller. -/
theorem call_under (hsaved : Saved s₀ now i) (hsound : Sound S s₀ s)
    (hcallable : Callable s.bus.notes i) (hlow : 8 ≤ i.sp.toNat) (hhigh : i.sp.toNat < 2 ^ 24)
    (hS : ∀ a, S a → i.sp ≤ a) : Under S s₀ now (i.look s.bus.memory) (s.call i) where
  held := rfl
  saved := ⟨hsaved.registers, hsaved.sr, hsaved.resume, hsaved.started⟩
  sound := by
    refine ⟨hsound.running, hsound.taken, fun a ha => ?_, hsound.notes.snoc ?_, ?_⟩
    · exact (stored_push (i := i.look s.bus.memory) hlow hhigh (hS a ha)).trans (hsound.stack a ha)
    · rcases look_routine i s.bus.memory with ⟨hflag, hroutine, -⟩ | ⟨hflag, hmarked, hroutine, -⟩ |
        ⟨hflag, hmarked, hroutine, -⟩
      · rw [hroutine]
        exact hflag
      · rw [hroutine]
        exact ⟨hflag, hcallable.unmarked hmarked⟩
      · rw [hroutine]
        exact ⟨hflag, hcallable.marked hmarked⟩
    · intro result flags hmem
      rcases List.mem_append.mp hmem with hmem | hmem
      · exact hsound.unloaded result flags hmem
      · cases List.mem_singleton.mp hmem
  called := by
    have hmarked : (i.look s.bus.memory).marked = i.marked := rfl
    have hnotes : (s.call i).bus.notes = s.bus.notes ++
      [.call (i.look s.bus.memory).routine (s.bus.memory.ramWord flagWord)] := rfl
    rw [hnotes]
    rcases look_routine i s.bus.memory with ⟨-, hroutine, hattempt, hinventory⟩ |
      ⟨-, hold, hroutine, hattempt, hinventory⟩ | ⟨-, hold, hroutine, hattempt, hinventory⟩
    · refine ⟨fun hfree _ f hmem => ?_, fun hmark => ?_, fun h => ?_⟩
      · rw [hroutine] at hmem
        rcases List.mem_append.mp hmem with hmem | hmem
        · exact hcallable.unmarked (hmarked ▸ hfree) f hmem
        · cases List.mem_singleton.mp hmem
      · rcases hmark with hmark | hmark
        · rw [hattempt] at hmark
          cases hmark
        · obtain ⟨f, hf⟩ := hcallable.marked (hmarked ▸ hmark)
          exact ⟨f, List.mem_append_left _ hf⟩
      · rw [hinventory] at h
        cases h
    · refine ⟨fun _ h => ?_, fun _ => ?_, fun _ h => ?_⟩
      · rw [hattempt] at h
        cases h
      · exact ⟨_, List.mem_append_right _ (by rw [hroutine]; exact List.mem_singleton_self _)⟩
      · rw [hattempt] at h
        cases h
    · refine ⟨fun h => ?_, fun _ => ?_, fun _ _ => ?_⟩
      · rw [hmarked, hold] at h
        cases h
      · obtain ⟨f, hf⟩ := hcallable.marked hold
        exact ⟨f, List.mem_append_left _ hf⟩
      · exact ⟨_, List.mem_append_right _ (by rw [hroutine]; exact List.mem_singleton_self _)⟩

/-! ## The trigger -/

/-- What starting the link leaves as it was. -/
structure SameRun (b b' : Bus) : Prop where
  memory : b'.memory = b.memory
  notes : b'.notes = b.notes
  held : b'.demandGuestInit = b.demandGuestInit

namespace SameRun

theorem refl (b : Bus) : SameRun b b := ⟨rfl, rfl, rfl⟩

theorem fail {b b' : Bus} (h : SameRun b b') (reason : String) : SameRun b (b'.fail reason) :=
  ⟨h.memory, h.notes, h.held⟩

theorem startTrace {b b' : Bus} (h : SameRun b b') (p : Pending) : SameRun b (b'.startTrace p) := by
  unfold Bus.startTrace
  split_ifs
  · cases b'.openTrace with
    | ok _ => exact ⟨h.memory, h.notes, h.held⟩
    | error e => exact h.fail _
  · exact h

theorem startLink (b : Bus) (p : Pending) : SameRun b (b.startLink p) := by
  unfold Bus.startLink
  cases p.start with
  | ok _ => exact ⟨rfl, rfl, rfl⟩
  | error e => exact ⟨rfl, rfl, rfl⟩

end SameRun

theorem ensureCandi_same (b : Bus) : SameRun b b.ensureCandi := by
  unfold Bus.ensureCandi
  cases b.pendingCandi with
  | none => exact .refl b
  | some p => exact (SameRun.startLink b p).startTrace p

theorem pending_startTrace (b : Bus) (p : Pending) :
    (b.startTrace p).pendingCandi = b.pendingCandi := by
  unfold Bus.startTrace
  split_ifs
  · cases b.openTrace with
    | ok _ => rfl
    | error e => rfl
  · rfl

/-- The link is started once, whatever comes of it. -/
theorem pending_ensureCandi (b : Bus) : b.ensureCandi.pendingCandi = none := by
  unfold Bus.ensureCandi
  cases hp : b.pendingCandi with
  | none => exact hp
  | some p =>
    refine (pending_startTrace _ p).trans ?_
    unfold Bus.startLink
    cases p.start with
    | ok _ => rfl
    | error e => rfl

omit [M68k φ] in
/-- The two instructions that need the link. -/
theorem Triggers.pc (h : Triggers s₀) : s₀.cpu.pc = 0x1ee5a6 ∨ s₀.cpu.pc = 0x1dbb96 := by
  rcases h.entry with hentry | hentry
  · unfold Machine.atInit at hentry
    rw [Bool.and_eq_true] at hentry
    exact .inl (beq_iff_eq.mp hentry.1)
  · unfold Machine.atRequest at hentry
    rw [Bool.and_eq_true, Bool.and_eq_true] at hentry
    exact .inr (beq_iff_eq.mp hentry.1.1)

omit [M68k φ] in
/-- No routine is entered at one of them. -/
theorem Triggers.entry_ne (h : Triggers s₀) (r : Routine) : r.entry ≠ s₀.cpu.pc := by
  intro heq
  rcases h.pc with hpc | hpc <;> rw [hpc] at heq <;> cases r <;> exact absurd heq (by decide)

omit [M68k φ] in
/-- A call goes to a routine. -/
theorem Triggers.called_elsewhere (h : Triggers s₀) (s : Machine φ) (i : GuestInit) :
    ¬ Intercepted s₀ (s.call i) := fun hinter =>
  h.entry_ne (i.look s.bus.memory).routine hinter.1

/-- The calls have room below the stack of the caller. -/
structure Room (s₀ : Machine φ) : Prop where
  low : 8 ≤ s₀.cpu.activeSp.toNat
  high : s₀.cpu.activeSp.toNat < 2 ^ 24

/-- The initialisation is under way, and the instruction is not executed now. -/
structure Open (S : UInt32 → Prop) (s₀ : Machine φ) (now : Nat) (s : Machine φ) : Prop where
  room : Room s₀
  under : ∃ i, Under S s₀ now i s
  elsewhere : ¬ Intercepted s₀ s

theorem Triggers.triggered (h : Triggers s₀) (now : Nat) :
    s₀.guestDependency now = s₀.triggered now := by
  unfold Machine.guestDependency
  rw [h.free]
  dsimp only
  rw [if_neg (by simp [Option.isSome_iff_ne_none.mp h.pending, h.booted]), if_pos h.entry]

/-- The link is started, and the first routine is called. -/
theorem triggered_left (h : Triggers s₀) (hS : ∀ a, S a → s₀.cpu.activeSp ≤ a) (now : Nat) :
    ((s₀.guestDependency now).bus.failureReason.isSome ∧
        Runs.Justified Explains (s₀.guestDependency now).bus.notes) ∨
      Open S s₀ now (s₀.guestDependency now) := by
  rw [h.triggered now]
  have hsilent : Runs.Justified Explains s₀.bus.notes := h.silent ▸ .nil
  unfold Machine.triggered
  dsimp only
  by_cases hloader : s₀.bus.memory.peekBytes 0x1d8f46 16 ≠ some Machine.loaderCode
  · rw [if_pos hloader]
    exact .inl ⟨rfl, hsilent⟩
  rw [if_neg hloader]
  by_cases hhelper : s₀.bus.memory.peekBytes 0x126f6 20 ≠ some Machine.waitCode ∨
      s₀.bus.memory.peekBytes 0x1d68c6 22 ≠ some Machine.markCode ∨
      (s₀.bus.memory.peekBytes (s₀.cpu.activeSp - 8) 8).isNone
  · rw [if_pos hhelper]
    exact .inl ⟨rfl, hsilent⟩
  rw [if_neg hhelper]
  have hsame := ensureCandi_same s₀.bus
  by_cases hfailed : s₀.bus.ensureCandi.failureReason.isSome
  · rw [if_pos hfailed]
    exact .inl ⟨hfailed, hsame.notes ▸ hsilent⟩
  rw [if_neg hfailed]
  have hstack : (s₀.bus.memory.peekBytes (s₀.cpu.activeSp - 8) 8).isSome := by
    rw [not_or, not_or] at hhelper
    exact Option.isSome_iff_ne_none.mpr fun heq => hhelper.2.2 (by rw [heq]; rfl)
  obtain ⟨hlow, hhigh⟩ := Memory.stack_bounds hstack
  have hnotes : s₀.bus.ensureCandi.notes = [] := hsame.notes.trans h.silent
  refine .inr ⟨⟨hlow, hhigh⟩, ⟨_, call_under (s := { s₀ with bus := s₀.bus.ensureCandi }) ⟨rfl, rfl, rfl, rfl⟩
    ⟨?_, pending_ensureCandi s₀.bus, fun a _ => ?_, ?_, ?_⟩ ⟨?_, ?_⟩ hlow hhigh hS⟩,
    h.called_elsewhere _ _⟩
  · exact Option.not_isSome_iff_eq_none.mp hfailed
  · exact congrArg (·.stored a) hsame.memory
  · exact hnotes ▸ .nil
  · exact hnotes ▸ fun _ _ => List.not_mem_nil
  · exact fun _ => hnotes ▸ fun _ => List.not_mem_nil
  · exact fun hmarked => nomatch hmarked

/-! ## A round while a routine is called -/

/-- The instruction goes on. -/
structure Released (S : UInt32 → Prop) (s₀ s : Machine φ) : Prop where
  restored : Restored S s₀ s
  running : s.bus.failureReason = none
  free : s.bus.demandGuestInit = none
  taken : s.bus.pendingCandi = none
  notes : Runs.Justified Explains s.bus.notes
  loaded : ∃ result flags, .loaded result flags ∈ s.bus.notes

/-- What a round leaves: the guest is stopped, or a routine is called, or the instruction goes on. -/
inductive Left (S : UInt32 → Prop) (s₀ : Machine φ) (now : Nat) (s : Machine φ) : Prop where
  | failed (reason : s.bus.failureReason.isSome) (notes : Runs.Justified Explains s.bus.notes)
  | still (still : Open S s₀ now s)
  | released (released : Released S s₀ s)

theorem restore_frame [LawfulM68k φ] [KeepsPc φ] (hsaved : Saved s₀ now i)
    (hpc : s.cpu.pc = i.resume) :
    (s.restore i).cpu.pc = s₀.cpu.pc ∧ (s.restore i).cpu.dar = s₀.cpu.dar ∧
      M68k.getSr (s.restore i).cpu = M68k.getSr s₀.cpu := by
  refine ⟨?_, hsaved.registers, ?_⟩
  · exact (KeepsPc.pc_setSrNointNosp s.cpu i.sr).trans (hpc.trans hsaved.resume)
  · have hflags : M68k.getSr (s.restore i).cpu = M68k.getSr (M68k.setSrNointNosp s.cpu i.sr) :=
      LawfulM68k.getSr_congr rfl rfl rfl
    rw [hflags, hsaved.sr, LawfulM68k.getSr_setSrNointNosp]

/-- A call of the routine that comes next. -/
theorem call_open (htrigger : Triggers s₀) (hsaved : Saved s₀ now i) (hsound : Sound S s₀ s)
    (hcallable : Callable s.bus.notes i) (hroom : Room s₀)
    (hS : ∀ a, S a → s₀.cpu.activeSp ≤ a) : Open S s₀ now (s.call i) := by
  have hsp : i.sp = s₀.cpu.activeSp := congrArg (·[15]) hsaved.registers
  exact ⟨hroom, ⟨_, call_under hsaved hsound hcallable (hsp ▸ hroom.low) (hsp ▸ hroom.high)
    (hsp ▸ hS)⟩, htrigger.called_elsewhere s i⟩

variable [LawfulM68k φ] [KeepsPc φ]

/-- The loader has returned. -/
theorem finish_left (hpc : s.cpu.pc = i.resume) (hsaved : Saved s₀ now i) (hsound : Sound S s₀ s)
    (hcalled : ∃ f, .call .loader f ∈ s.bus.notes) (hfree : s.bus.demandGuestInit = none)
    (result : UInt32) : Left S s₀ now ((s.restore i).finish result) := by
  unfold Machine.finish
  dsimp only
  split
  · exact .failed rfl hsound.notes
  · rename_i hok
    rw [not_or, not_not] at hok
    obtain ⟨hpc', hdar, hsr⟩ := restore_frame hsaved hpc
    refine .released ⟨⟨hpc', hdar, hsr, hsound.stack⟩, hsound.running, hfree, hsound.taken,
      hsound.notes.snoc ?_, result, _, List.mem_append_right _ (List.mem_singleton_self _)⟩
    exact ⟨hok.1, hok.2, hcalled⟩

theorem returned_left (htrigger : Triggers s₀) (hpc : s.cpu.pc = i.resume) (hsaved : Saved s₀ now i)
    (hsound : Sound S s₀ s) (hcalled : Called s.bus.notes i) (hfree : s.bus.demandGuestInit = none)
    (hroom : Room s₀) (hS : ∀ a, S a → s₀.cpu.activeSp ≤ a) : Left S s₀ now (s.returned i) := by
  have hrestored : Sound S s₀ (s.restore i) := ⟨hsound.running, hsound.taken, hsound.stack,
    hsound.notes, hsound.unloaded⟩
  unfold Machine.returned
  dsimp only
  by_cases hattempt : i.markAttempt = true
  · rw [if_pos hattempt]
    refine .still (call_open htrigger ⟨hsaved.registers, hsaved.sr, hsaved.resume, hsaved.started⟩
      hrestored ⟨fun h => ?_, fun _ => hcalled.marking (.inl hattempt)⟩ hroom hS)
    cases h
  · rw [if_neg hattempt]
    have hattempt' : i.markAttempt = false := Bool.eq_false_iff.mpr hattempt
    by_cases hinventory : i.inventory = true
    · rw [if_pos hinventory]
      exact finish_left hpc hsaved hsound (hcalled.loading hinventory hattempt') hfree _
    · rw [if_neg hinventory]
      exact .still (call_open htrigger hsaved hrestored
        ⟨fun h => hcalled.fresh h hattempt', fun h => hcalled.marking (.inr h)⟩ hroom hS)

/-- The time that an initialisation may take. -/
theorem continued_left (htrigger : Triggers s₀) (hunder : Under S s₀ now i s)
    (hreturns : s.cpu.pc = i.resume → s.cpu.activeSp = i.sp → i.returnSp = i.sp)
    (hroom : Room s₀) (hS : ∀ a, S a → s₀.cpu.activeSp ≤ a) (later : Nat) :
    Left S s₀ now (s.continued later i) ∧
      ((s.continued later i).bus.failureReason = none → later - now ≤ 60 * Machine.second) := by
  have hstarted := hunder.saved.started
  have hsound : Sound S s₀ (s.hold none) := ⟨hunder.sound.running, hunder.sound.taken,
    hunder.sound.stack, hunder.sound.notes, hunder.sound.unloaded⟩
  unfold Machine.continued
  dsimp only
  by_cases hlate : 60 * Machine.second < later - i.started
  · rw [if_pos hlate]
    exact ⟨.failed rfl hsound.notes, fun h => nomatch h⟩
  rw [if_neg hlate]
  refine ⟨?_, fun _ => by omega⟩
  by_cases hback : (s.hold none).cpu.pc = i.resume ∧ (s.hold none).cpu.activeSp = i.returnSp
  · rw [if_pos hback]
    exact returned_left htrigger hback.1 hunder.saved hsound hunder.called rfl hroom hS
  · rw [if_neg hback]
    refine .still ⟨hroom, ⟨i, rfl, hunder.saved, ⟨hsound.running, hsound.taken, hsound.stack,
      hsound.notes, hsound.unloaded⟩, hunder.called⟩, fun hinter => hback ?_⟩
    have hresume : s.cpu.pc = i.resume := hinter.1.trans hunder.saved.resume.symm
    have hsp : s.cpu.activeSp = i.sp :=
      hinter.2.trans (congrArg (·[15]) hunder.saved.registers).symm
    exact ⟨hresume, hsp.trans (hreturns hresume hsp).symm⟩

/-- What a guest that keeps to its conventions leaves after one round. -/
theorem round_left (htrigger : Triggers s₀) (hopen : Open S s₀ now s)
    (hS : ∀ a, S a → s₀.cpu.activeSp ≤ a) {r : Round φ} (hr : Behaves S s r) :
    Left S s₀ now (s.step r) ∧
      ((s.step r).bus.failureReason = none → r.now - now ≤ 60 * Machine.second) := by
  obtain ⟨hroom, ⟨i, hunder⟩, -⟩ := hopen
  have hconforms : Conforms S s r := hr (by rw [hunder.held]; rfl)
  have hnotes := hunder.sound.notes
  unfold Machine.step Machine.stepGuest
  dsimp only
  by_cases hguest : (s.turn r.guest).bus.failureReason.isSome
  · rw [if_pos hguest]
    exact ⟨.failed hguest hnotes, fun h => by rw [h] at hguest; cases hguest⟩
  rw [if_neg hguest]
  by_cases hhalt : (s.turn r.guest).atAssertionHalt
  · rw [if_pos hhalt]
    exact ⟨.failed rfl hnotes, fun h => nomatch h⟩
  rw [if_neg hhalt]
  by_cases hkernel : ((s.turn r.guest).turn r.kernel).bus.failureReason.isSome
  · rw [if_pos hkernel]
    exact ⟨.failed hkernel hnotes, fun h => by rw [h] at hkernel; cases hkernel⟩
  rw [if_neg hkernel]
  have hcontinued : ((s.turn r.guest).turn r.kernel).guestDependency r.now =
      ((s.turn r.guest).turn r.kernel).continued r.now i := by
    unfold Machine.guestDependency
    rw [show ((s.turn r.guest).turn r.kernel).bus.demandGuestInit = some i from hunder.held]
  rw [hcontinued]
  refine continued_left (s := (s.turn r.guest).turn r.kernel) htrigger ⟨hunder.held, hunder.saved, ⟨?_, hunder.sound.taken, fun a ha => ?_,
    hnotes, hunder.sound.unloaded⟩, hunder.called⟩ (hconforms.returns i hunder.held) hroom hS _
  · exact Option.not_isSome_iff_eq_none.mp hkernel
  · exact ((hconforms.kernel a ha).trans (hconforms.guest a ha)).trans (hunder.sound.stack a ha)

/-! ## Runs -/

/-- What has been done by the end of a run, of which these are the states that went on to execute. -/
inductive Outcome (S : UInt32 → Prop) (s₀ : Machine φ) (now : Nat) (rounds : List (Round φ))
    (s : Machine φ) (hs : List (Machine φ)) : Prop where
  | failed (reason : s.bus.failureReason.isSome) (never : ∀ x ∈ hs, ¬ Intercepted s₀ x)
  | still (held : s.bus.demandGuestInit.isSome) (running : s.bus.failureReason = none)
    (never : ∀ x ∈ hs, ¬ Intercepted s₀ x)
    (soon : ∀ r ∈ rounds, r.now - now ≤ 60 * Machine.second)
  | resumed (before : List (Machine φ)) (x : Machine φ) (after : List (Machine φ))
    (executed : hs = before ++ x :: after) (never : ∀ y ∈ before, ¬ Intercepted s₀ y)
    (restored : Restored S s₀ x) (loaded : ∃ result flags, .loaded result flags ∈ s.bus.notes)
    (ended : ∀ later, s.guestDependency later = s)

omit [LawfulM68k φ] [KeepsPc φ] in
theorem Outcome.hand {rounds : List (Round φ)} {hs : List (Machine φ)} {x : Machine φ}
    (h : Outcome S s₀ now rounds s hs) (hx : ¬ Intercepted s₀ x) :
    Outcome S s₀ now rounds s (x :: hs) := by
  cases h with
  | failed reason never => exact .failed reason (List.forall_mem_cons.mpr ⟨hx, never⟩)
  | still held running never soon =>
    exact .still held running (List.forall_mem_cons.mpr ⟨hx, never⟩) soon
  | resumed before y after executed never restored loaded ended =>
    exact .resumed (x :: before) y after (congrArg (x :: ·) executed)
      (List.forall_mem_cons.mpr ⟨hx, never⟩) restored loaded ended

omit [LawfulM68k φ] [KeepsPc φ] in
theorem Outcome.round {rounds : List (Round φ)} {hs : List (Machine φ)} {r : Round φ}
    (h : Outcome S s₀ now rounds s hs) (hsoon : r.now - now ≤ 60 * Machine.second) :
    Outcome S s₀ now (r :: rounds) s hs := by
  cases h with
  | failed reason never => exact .failed reason never
  | still held running never soon =>
    exact .still held running never (List.forall_mem_cons.mpr ⟨hsoon, soon⟩)
  | resumed before y after executed never restored loaded ended =>
    exact .resumed before y after executed never restored loaded ended

/-- The states that a run hands to the instructions of the guest. -/
def executions (s : Machine φ) (rounds : List (Round φ)) : List (Machine φ) :=
  Runs.log Machine.step (fun s r => (s.step r).handed) s rounds

omit [LawfulM68k φ] [KeepsPc φ] in
/-- A guest that has been stopped stays so. -/
theorem failed_run (h : s.bus.failureReason.isSome) (rounds : List (Round φ)) :
    (Runs.run Machine.step s rounds).bus.failureReason.isSome ∧
      (Runs.run Machine.step s rounds).bus.notes = s.bus.notes ∧ executions s rounds = [] := by
  induction rounds generalizing s with
  | nil => exact ⟨h, rfl, rfl⟩
  | cons r rounds ih =>
    have hguest : (s.turn r.guest).bus.failureReason.isSome := by
      change (s.bus.failureReason.or r.guest.failure).isSome
      rw [Option.isSome_or, h]
      rfl
    have hstep : s.step r = s.turn r.guest := if_pos hguest
    obtain ⟨hend, hnotes, hnone⟩ := ih (s := s.step r) (hstep ▸ hguest)
    refine ⟨hend, hnotes.trans (congrArg (·.bus.notes) hstep), ?_⟩
    have hhanded : (s.step r).handed = [] := if_pos (hstep ▸ hguest)
    change (s.step r).handed ++ executions (s.step r) rounds = []
    rw [hhanded, hnone]
    rfl

/-- Nothing is left to be done. -/
structure Done (notes : List Note) (s : Machine φ) : Prop where
  free : s.bus.demandGuestInit = none
  taken : s.bus.pendingCandi = none
  notes : s.bus.notes = notes

namespace Done

variable {notes : List Note}

omit [LawfulM68k φ] [KeepsPc φ] in
theorem guestDependency (h : Done notes s) (later : Nat) : s.guestDependency later = s := by
  unfold Machine.guestDependency
  rw [h.free, h.taken]
  exact if_pos (.inl rfl)

omit [LawfulM68k φ] [KeepsPc φ] in
theorem step (h : Done notes s) (r : Round φ) : Done notes (s.step r) := by
  have hkernel : Done notes ((s.turn r.guest).turn r.kernel) := ⟨h.free, h.taken, h.notes⟩
  unfold Machine.step Machine.stepGuest
  dsimp only
  by_cases hguest : (s.turn r.guest).bus.failureReason.isSome
  · rw [if_pos hguest]
    exact ⟨h.free, h.taken, h.notes⟩
  rw [if_neg hguest]
  by_cases hhalt : (s.turn r.guest).atAssertionHalt
  · rw [if_pos hhalt]
    exact ⟨h.free, h.taken, h.notes⟩
  rw [if_neg hhalt, hkernel.guestDependency, ite_self]
  exact hkernel

end Done

theorem open_run (htrigger : Triggers s₀) (hS : ∀ a, S a → s₀.cpu.activeSp ≤ a)
    (rounds : List (Round φ)) (hopen : Open S s₀ now s)
    (heach : Runs.Each Machine.step (Behaves S) s rounds) :
    Outcome S s₀ now rounds (Runs.run Machine.step s rounds) (executions s rounds) ∧
      Runs.Justified Explains (Runs.run Machine.step s rounds).bus.notes := by
  induction rounds generalizing s with
  | nil =>
    obtain ⟨-, ⟨i, hunder⟩, -⟩ := hopen
    refine ⟨.still ?_ hunder.sound.running (fun _ h => nomatch h) (fun _ h => nomatch h),
      hunder.sound.notes⟩
    rw [Runs.run_nil, hunder.held]
    rfl
  | cons r rounds ih =>
    obtain ⟨hleft, hsoon⟩ := round_left htrigger hopen hS heach.1
    have hexec : executions s (r :: rounds) = (s.step r).handed ++ executions (s.step r) rounds := rfl
    rw [hexec, Runs.run_cons]
    cases hleft with
    | failed reason notes =>
      obtain ⟨hend, hnotes, hnone⟩ := failed_run reason rounds
      rw [hnone, hnotes, Machine.handed, if_pos reason]
      exact ⟨.failed hend fun _ h => (nomatch h), notes⟩
    | still still =>
      obtain ⟨houtcome, hjustified⟩ := ih still heach.2
      obtain ⟨-, ⟨i, hunder⟩, helsewhere⟩ := still
      have hrunning := hunder.sound.running
      rw [Machine.handed, if_neg (by rw [hrunning]; exact Bool.false_ne_true)]
      exact ⟨(houtcome.hand helsewhere).round (hsoon hrunning), hjustified⟩
    | released released =>
      have hdone : Done (s.step r).bus.notes (Runs.run Machine.step (s.step r) rounds) :=
        Runs.run_invariant (I := Done (s.step r).bus.notes) (fun _ r h => h.step r) rounds
          ⟨released.free, released.taken, rfl⟩
      rw [Machine.handed, if_neg (by rw [released.running]; exact Bool.false_ne_true), hdone.notes]
      refine ⟨.resumed [] _ _ rfl (fun _ h => nomatch h) released.restored ?_ hdone.guestDependency,
        released.notes⟩
      rw [hdone.notes]
      exact released.loaded

/-- Whatever starting the link brings, and whatever the routines do while they leave the bytes of `S`
alone: the instruction that was held back is executed in the frame that it had, or never. Only the wait,
the mark and the loader are called, in this order. -/
theorem initialisation_transparent (htrigger : Triggers s₀) (hS : ∀ a, S a → s₀.cpu.activeSp ≤ a)
    (now : Nat) (rounds : List (Round φ))
    (heach : Runs.Each Machine.step (Behaves S) (s₀.guestDependency now) rounds) :
    Outcome S s₀ now rounds (Runs.run Machine.step (s₀.guestDependency now) rounds)
        ((s₀.guestDependency now).handed ++ executions (s₀.guestDependency now) rounds) ∧
      Runs.Justified Explains
        (Runs.run Machine.step (s₀.guestDependency now) rounds).bus.notes := by
  rcases triggered_left htrigger hS now with ⟨hreason, hjustified⟩ | hopen
  · obtain ⟨hend, hnotes, hnone⟩ := failed_run hreason rounds
    rw [hnone, hnotes, Machine.handed, if_pos hreason]
    exact ⟨.failed hend fun _ h => (nomatch h), hjustified⟩
  · obtain ⟨houtcome, hjustified⟩ := open_run htrigger hS rounds hopen heach
    obtain ⟨-, ⟨i, hunder⟩, helsewhere⟩ := hopen
    rw [Machine.handed, if_neg (by rw [hunder.sound.running]; exact Bool.false_ne_true)]
    exact ⟨houtcome.hand helsewhere, hjustified⟩

/-! ## A guest at the entry -/

instance instKeepsPcUInt16 : KeepsPc UInt16 where
  pc_setSrNointNosp _ _ := rfl

/-- These bytes from here on, and the rest below them. -/
def placed (start : UInt32) (bytes : List UInt8) (rest : UInt32 → UInt8) : UInt32 → UInt8 := fun i =>
  if start ≤ i ∧ (i - start).toNat < bytes.length then bytes.getD (i - start).toNat 0 else rest i

/-- The routines of the guest and its entry of the communication, with an inventory that is empty. -/
def entryMemory : Memory where
  eprom := .new (List.replicate 0x126f6 0xff ++ Machine.waitCode)
  ram :=
    placed 0xee5a6 [0x48, 0xe7, 0x3f, 0x3e, 0x4f, 0xef, 0xff, 0xee, 0x42, 0x43, 0x61, 0x00] <|
      placed 0xd8f46 Machine.loaderCode <| placed 0xd68c6 Machine.markCode fun _ => 0
  eram := fun _ => 0
  captureInserted := false

def entered : Machine UInt16 where
  cpu := { bootCpu with pc := 0x1ee5a6, dar := bootCpu.dar.set 15 0x180000 a7_lt }
  bus :=
    { memory := entryMemory
      failureReason := none
      pendingCandi := some ⟨.ok (), true⟩
      candiLink := false
      traceWriter := false
      openTrace := .ok ()
      demandBootComplete := true
      demandGuestInit := none
      notes := [] }

/-- The pause has been executed, and it comes back with what it was called with taken off. -/
def paused : Round UInt16 where
  guest := ⟨{ entered.cpu with dar := entered.cpu.dar.set 15 0x17fffc a7_lt }, entryMemory, none⟩
  kernel := ⟨{ entered.cpu with dar := entered.cpu.dar.set 15 0x17fffc a7_lt }, entryMemory, none⟩
  now := 1000
  screen := ""

theorem entered_triggers : Triggers entered :=
  ⟨rfl, rfl, rfl, rfl, rfl, .inl (by decide +kernel)⟩

theorem entered_waits : entryMemory.peekBytes 0x126f6 20 = some Machine.waitCode := by
  unfold Memory.peekBytes
  rw [if_pos (by decide)]
  have hlength : entryMemory.eprom.chip.flash.length = 0x126f6 + 20 := by
    change (List.replicate 0x126f6 0xff ++ Machine.waitCode).length = _
    rw [List.length_append, List.length_replicate]
    rfl
  rw [if_pos (by rw [hlength]; decide)]
  have hdrop : entryMemory.eprom.chip.flash.drop 0x126f6 = Machine.waitCode :=
    List.drop_left' List.length_replicate
  exact congrArg some (congrArg (List.take 20) hdrop)

/-- The link is started and the pause is called. -/
theorem entered_calls : entered.guestDependency 0 =
    Machine.call { entered with bus := entered.bus.ensureCandi } (entered.guestInit 0) := by
  have hloader : entered.bus.memory.peekBytes 0x1d8f46 16 = some Machine.loaderCode := by
    decide +kernel
  have hmark : entered.bus.memory.peekBytes 0x1d68c6 22 = some Machine.markCode := by
    decide +kernel
  have hstack : (entered.bus.memory.peekBytes (entered.cpu.activeSp - 8) 8).isNone = false := by
    decide +kernel
  rw [entered_triggers.triggered, Machine.triggered]
  dsimp only
  rw [if_neg (not_not.mpr hloader), if_neg, if_neg]
  · exact fun h => nomatch h
  · rw [show entered.bus.memory.peekBytes 0x126f6 20 = _ from entered_waits, hmark, hstack]
    exact fun h => h.elim (fun h => h rfl) (fun h => h.elim (fun h => h rfl) (fun h => nomatch h))

theorem paused_behaves : Behaves (fun a => entered.cpu.activeSp ≤ a) (entered.guestDependency 0)
    paused := by
  rw [entered_calls]
  refine fun _ => ⟨fun a ha => ?_, fun _ _ => rfl, fun i hi _ hsp => ?_⟩
  · exact (stored_push (i := (entered.guestInit 0).look entryMemory) (by decide) (by decide) ha).symm
  · obtain rfl : (entered.guestInit 0).look entryMemory = i := Option.some.inj hi
    exact absurd hsp (by decide)

theorem initialisation_transparent_entered :
    Outcome (fun a => entered.cpu.activeSp ≤ a) entered 0 [paused]
        (Runs.run Machine.step (entered.guestDependency 0) [paused])
        ((entered.guestDependency 0).handed ++ executions (entered.guestDependency 0) [paused]) ∧
      Runs.Justified Explains
        (Runs.run Machine.step (entered.guestDependency 0) [paused]).bus.notes :=
  initialisation_transparent entered_triggers (fun _ h => h) 0 [paused] ⟨paused_behaves, trivial⟩

end OpenSaab.Candi.Demand
