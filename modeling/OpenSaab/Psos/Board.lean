import OpenSaab.Psos.Steps

/-!
# A board

A CPU and a bus that the kernel can be run on: a flash with the blank kernel module, and RAM with
the node configuration that the guest leaves there before it enters the kernel.
-/

namespace OpenSaab.Psos

open Std OpenSaab.Table OpenSaab.Runs

/-! ## CPU -/

/-- The supervisor and master bits of `sr`, as the core keeps them. -/
def CpuCore.setModes (cpu : CpuCore UInt16) (sr : UInt16) : CpuCore UInt16 :=
  { cpu with
    flags := sr
    sFlag := if sr &&& 0x2000 ≠ 0 then 4 else 0
    mFlag := if sr &&& 0x1000 ≠ 0 then 2 else 0 }

/-- A core that keeps its whole status register in one word. -/
instance : M68k UInt16 where
  getSr cpu := cpu.flags
  setSrNointNosp cpu sr := cpu.setModes sr
  setSr cpu sr :=
    let saved := { cpu with sp := cpu.sp.setIfInBounds cpu.stackBank cpu.activeSp }
    let moved := saved.setModes sr
    moved.setSp (moved.sp[moved.stackBank]?.getD 0)

instance instLawfulM68kUInt16 : LawfulM68k UInt16 where
  getSr_congr hflags _ _ := hflags
  getSr_setSrNointNosp _ _ := rfl
  sound_setSr _ _ _ := rfl
  sound_setSrNointNosp _ _ _ := rfl

/-! ## Bus -/

/-- The bytes of RAM that were written, and why the guest was stopped. -/
structure Board where
  cells : Table UInt8 := ∅
  insns : UInt64 := 0
  failure : Option String := none

namespace Board

/-- The kernel module, which starts with a pointer to the global area. -/
def moduleBytes : List UInt8 := [0x00, 0x10, 0x00, 0x40] ++ moduleHeader

def flashSize : Nat := 0xc000

def flashByte (i : Nat) : UInt8 :=
  if 0x8018 ≤ i then 0 else if 0x8000 ≤ i then (moduleBytes[i - 0x8000]?).getD 0 else 0xff

def read (b : Board) (a : UInt32) : Option UInt8 :=
  if ramRange a 1 then some ((b.cells[a]?).getD 0)
  else if a.toNat < flashSize then some (flashByte a.toNat)
  else none

def write (b : Board) (a : UInt32) (v : UInt8) : Board :=
  if ramRange a 1 then { b with cells := b.cells.insert a v } else b

def readWord (b : Board) (a : UInt32) : Option UInt16 := do
  let high ← b.read a
  let low ← b.read (a + 1)
  return (high.toUInt16 <<< 8) ||| low.toUInt16

def readLong (b : Board) (a : UInt32) : Option UInt32 := do
  let high ← b.readWord a
  let low ← b.readWord (a + 2)
  return (high.toUInt32 <<< 16) ||| low.toUInt32

def writeWord (b : Board) (a : UInt32) (v : UInt16) : Board :=
  (b.write a (v >>> 8).toUInt8).write (a + 1) v.toUInt8

def writeLong (b : Board) (a : UInt32) (v : UInt32) : Board :=
  (b.writeWord a (v >>> 16).toUInt16).writeWord (a + 2) v.toUInt16

end Board

instance : GuestBus Board where
  u8 := Board.read
  u16 := Board.readWord
  u32 := Board.readLong
  bytes b a n := (List.range n).mapM fun i => b.read (a + UInt32.ofNat i)
  writeByte := Board.write
  writeWord := Board.writeWord
  writeLong := Board.writeLong
  flashLen _ := Board.flashSize
  flash _ := Board.flashByte
  currentInsns b := b.insns
  fail b e := { b with failure := some e }

/-! ## The node configuration -/

/-- The global pointer, the configuration table and the `check_page` callback. -/
def bootWords : List (UInt32 × UInt32) :=
  [(0x100040, 0x100100), (0x100108, 0x100200), (0x100204, 0x150000), (0x100208, 0x20000),
    (0x10020c, 4), (0x100210, 32), (0x100214, 32), (0x10023c, 0x100800), (0x100240, 0x400),
    (0x100244, 0x400), (0x100248, 0x2700), (0x100254, 0x110000), (0x110000, 0x484113f0),
    (0x110004, 0x11b00010), (0x110008, 0x03000060), (0x11000c, 0x060033c1),
    (0x110010, 0x00100400), (0x110014, 0x48414e75)]

def bootBoard : Board := bootWords.foldl (fun b w => b.writeLong w.1 w.2) {}

/-- The guest as it jumps to the entry of the kernel. -/
def bootCpu : CpuCore UInt16 where
  dar := (Vector.replicate 16 0).set 15 0x100f00 a7_lt
  sp := Vector.replicate 8 0
  pc := 0x8020
  vbr := 0
  sFlag := 4
  mFlag := 0
  stopped := 0
  prefetchCount := 0
  flags := 0x2700

def booted : Machine UInt16 Board := step (reset bootCpu bootBoard) .instruction

/-- The module stands at the first place that is looked at, whatever RAM holds. -/
theorem findModule_board (b : Board) : findModule b = some 0x8000 := by
  have hbody : (List.range' (0x8000 + 32) (0x398c - 32)).all
      (fun i => GuestBus.flash b i == 0) = true := by
    rw [List.all_eq_true]
    intro i hi
    have hplace : 0x8018 ≤ i := Nat.le_trans (by decide) (List.mem_range'_1.mp hi).1
    exact beq_iff_eq.mpr (if_pos hplace)
  have hheader : (flashHolds b (0x8000 + 4) moduleHeader &&
      flashHolds b (0x8000 + 24) (List.replicate 8 0) &&
      decide (0x8000 + 0x398c ≤ GuestBus.flashLen b)) = true := by rfl
  have hblank : blankModule b 0x8000 = true := Bool.and_eq_true_iff.mpr ⟨hheader, hbody⟩
  have hcount : 0 < (Board.flashSize - 32 - 0x8000 + 1) / 2 := by decide
  obtain ⟨n, hn⟩ := Nat.exists_eq_succ_of_ne_zero (Nat.ne_of_gt hcount)
  have hfind : findModule b = List.find? (blankModule b)
      (List.range' 0x8000 ((Board.flashSize - 32 - 0x8000 + 1) / 2) 2) := rfl
  rw [hfind, hn, List.range'_succ, List.find?_cons_of_pos hblank]

/-- The kernel that the guest enters has been found in the flash. -/
theorem step_boot (b : Board) : step (reset bootCpu b) .instruction =
    ({ kernel := Kernel.located {} (some 0x8000), cpu := bootCpu, bus := b } :
      Machine UInt16 Board).initializeKernel := by
  have hplace : ¬ (reset bootCpu b).kernel.scanned ∧ 0x8000 ≤ (reset bootCpu b).cpu.pc ∧
      (reset bootCpu b).cpu.pc < 0x40000 :=
    ⟨Bool.false_ne_true, (by decide : (0x8000 : UInt32) ≤ 0x8020),
      (by decide : (0x8020 : UInt32) < 0x40000)⟩
  have hscan : (reset bootCpu b).kernel.scan (reset bootCpu b).bus =
      Kernel.located {} (some 0x8000) := by
    rw [Kernel.scan, findModule_board]
    rfl
  rw [step, Machine.beforeInstruction]
  rw [if_pos hplace, hscan]
  exact if_pos ⟨Bool.false_ne_true, (by decide : (0x8020 : UInt32) ≠ 0), rfl⟩

/-- The boot with the search done, so that it can be run. -/
theorem booted_eq : booted =
    ({ kernel := Kernel.located {} (some 0x8000), cpu := bootCpu, bus := bootBoard } :
      Machine UInt16 Board).initializeKernel :=
  step_boot bootBoard

/-! ## Guest code that calls services -/

/-- The running guest loads the registers of a call. -/
def loading (m : Machine UInt16 Board) (regs : List (Fin 16 × UInt32)) : Action UInt16 Board :=
  .guest (regs.foldl (fun cpu r => cpu.setDar r.1 r.2) m.cpu) m.bus

/-- The running guest calls a service. -/
def serve (m : Machine UInt16 Board) (regs : List (Fin 16 × UInt32)) : Machine UInt16 Board :=
  step (step m (loading m regs)) (.trap 11 none)

/-- The actions of a guest that makes these calls one after the other. -/
def script (m : Machine UInt16 Board) : List (List (Fin 16 × UInt32)) → List (Action UInt16 Board)
  | [] => []
  | regs :: calls => loading m regs :: .trap 11 none :: script (serve m regs) calls

theorem run_script (m : Machine UInt16 Board) (calls : List (List (Fin 16 × UInt32))) :
    run step m (script m calls) = calls.foldl serve m := by
  induction calls generalizing m with
  | nil => rfl
  | cons regs calls ih => exact ih (serve m regs)

theorem script_snoc (m : Machine UInt16 Board) (calls : List (List (Fin 16 × UInt32)))
    (regs : List (Fin 16 × UInt32)) :
    script m (calls ++ [regs]) =
      script m calls ++ [loading (calls.foldl serve m) regs, .trap 11 none] := by
  induction calls generalizing m with
  | nil => rfl
  | cons r calls ih => exact congrArg (fun acts => loading m r :: .trap 11 none :: acts) (ih _)

theorem booted_reachable : Reachable booted :=
  ⟨bootCpu, bootBoard, [.instruction], by rw [run_cons, run_nil, booted]⟩

theorem serve_reachable {m : Machine UInt16 Board} (h : Reachable m)
    (calls : List (List (Fin 16 × UInt32))) : Reachable (calls.foldl serve m) := by
  obtain ⟨cpu, bus, acts, rfl⟩ := h
  refine ⟨cpu, bus, acts ++ script (run step (reset cpu bus) acts) calls, ?_⟩
  rw [run_append, run_script]

end OpenSaab.Psos
