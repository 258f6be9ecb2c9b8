import OpenSaab.Psos.Kernel

/-!
# Finding and starting the kernel

`scan` looks in the flash for the blank kernel module, `initialize` takes its place when the guest
jumps to it, and `before_instruction` is the hook that runs before every guest instruction.
-/

namespace OpenSaab.Psos

open Std OpenSaab.Table

variable {φ β : Type} [M68k φ] [GuestBus β]

/-! ## The module header -/

def moduleHeader : List UInt8 :=
  [0x06, 0xff, 0xa2, 0x84, 0, 0, 0x39, 0x8c, 0x4e, 0x4b, 0x4e, 0x75, 0x4e, 0x4c, 0x4e, 0x75, 0x4e,
    0x4d, 0, 1]

/-- The flash holds `bytes` at `offset`. -/
def flashHolds (bus : β) (offset : Nat) (bytes : List UInt8) : Bool :=
  bytes.zipIdx.all fun p => GuestBus.flash bus (offset + p.2) == p.1

/-- A module header with an empty body: a complete support kernel keeps its own code. -/
def blankModule (bus : β) (offset : Nat) : Bool :=
  flashHolds bus (offset + 4) moduleHeader && flashHolds bus (offset + 24) (List.replicate 8 0) &&
    offset + 0x398c ≤ GuestBus.flashLen bus &&
    (List.range' (offset + 32) (0x398c - 32)).all fun i => GuestBus.flash bus i == 0

/-- The first even offset from `0x8000` on that holds a blank module. -/
def findModule (bus : β) : Option Nat :=
  let count := (GuestBus.flashLen bus - 32 - 0x8000 + 1) / 2
  (List.range' 0x8000 count 2).find? (blankModule bus)

namespace Kernel

/-- The kernel after the search, with the entry just past the header that it found. -/
def located (k : Kernel) : Option Nat → Kernel
  | none => { k with scanned := true }
  | some offset =>
    { k with
      scanned := true
      kernelHeader := UInt32.ofNat offset
      kernelEntry := UInt32.ofNat offset + 32 }

def scan (k : Kernel) (bus : β) : Kernel := k.located (findModule bus)

end Kernel

/-! ## The node configuration -/

/-- The configuration table, through the module header's global pointer. -/
def findConfig (header : UInt32) (bus : β) : Except String UInt32 :=
  match GuestBus.u32 bus header with
  | none => .error "pSOS module header outside mapped memory"
  | some pointer =>
    match GuestBus.u32 bus pointer with
    | none => .error "pSOS global pointer outside mapped memory"
    | some global =>
      if 2 ^ 32 ≤ global.toNat + 8 then .error "pSOS config pointer overflow"
      else
        match GuestBus.u32 bus (global + 8) with
        | none => .error "pSOS config pointer unavailable"
        | some config =>
          if ramRange config 0x80 then .ok config else .error "pSOS kernel config outside RAM"

/-- A word of the configuration table, which lies in RAM. -/
def configWord (bus : β) (config offset : UInt32) : UInt32 :=
  (GuestBus.u32 bus (config + offset)).getD 0

/-- The one `check_page` callback that is supported, up to its two operands. -/
def checkPageCode (code : List UInt8) : Bool :=
  code.take 6 == [0x48, 0x41, 0x13, 0xf0, 0x11, 0xb0] &&
    (code.drop 10).take 6 == [0, 0x60, 6, 0, 0x33, 0xc1] &&
    (code.drop 20).take 4 == [0x48, 0x41, 0x4e, 0x75]

/-- The page table and the page task word, from the operands of `check_page`. -/
def pageOperands (bus : β) (config : UInt32) : Except String (UInt32 × UInt32) :=
  let check := configWord bus config 0x54
  match GuestBus.bytes bus check 24 with
  | none => .error "pSOS check_page callback outside memory"
  | some code =>
    if checkPageCode code then
      .ok ((GuestBus.u32 bus (check + 6)).getD 0, (GuestBus.u32 bus (check + 16)).getD 0)
    else .error "Unsupported pSOS check_page callback"

/-- Writes `words` at `address`, one after the other. -/
def writeWords (bus : β) (address : UInt32) (words : List UInt16) : β :=
  (words.foldl (fun p w => (p.1 + 2, GuestBus.writeWord p.2 p.1 w)) (address, bus)).2

def returnGlue : List UInt16 := [0x7200, 0x7005, 0x4e4b, 0x4e72, 0x2000, 0x60fa]
def idleGlue : List UInt16 := [0x4e72, 0x2000, 0x60fa]

namespace Kernel

/-- RN0, the region that the stacks come from. -/
def withRn0 (k : Kernel) (base size unit : UInt32) : Kernel :=
  { k with
    regions := k.regions.insert 0
      { name := 0x524e3020, unit, free := (∅ : Table UInt32).insert base size, used := ∅ } }

/-- ROOT and IDLE, created and started. -/
def startSystemTasks (k : Kernel) (idle : UInt32) (cpu : CpuCore φ) (bus : β) :
    Kernel × β × Option String :=
  let user := configWord bus k.kernelConfig 0x40
  let supervisor := configWord bus k.kernelConfig 0x44
  let (k, rootCode, root) := k.create 0x524f4f54 255 user supervisor bus cpu.vbr
  let (k, idleCode, idleTask) := k.create 0x49444c45 0 user 0 bus cpu.vbr
  if rootCode ≠ 0 ∨ idleCode ≠ 0 then (k, bus, some "Cannot create pSOS ROOT/IDLE")
  else
    let rootPc := configWord bus k.kernelConfig 0x3c
    let rootMode := configWord bus k.kernelConfig 0x48
    let (k, bus, code) := k.start root rootMode rootPc [0, 0, 0, 0] bus
    if code ≠ 0 then (k, bus, some "Cannot start pSOS ROOT/IDLE")
    else
      let (k, bus, code) := k.start idleTask 0x2000 idle [0, 0, 0, 0] bus
      if code ≠ 0 then (k, bus, some "Cannot start pSOS ROOT/IDLE") else (k, bus, none)

/-- RN0 with the two pieces of glue code, and the tasks. -/
def startMemory (k : Kernel) (cpu : CpuCore φ) (bus : β) : Kernel × β × Option String :=
  let base := configWord bus k.kernelConfig 4
  let size := configWord bus k.kernelConfig 8
  let unit := max (configWord bus k.kernelConfig 12) 1
  if ¬ ramRange base size ∨ size = 0 then (k, bus, some "pSOS RN0 outside RAM")
  else
    let k := k.withRn0 base size unit
    let (k, returnEntry) := k.allocate 0 32
    let k := { k with returnEntry }
    let (k, idle) := k.allocate 0 8
    if returnEntry = 0 ∨ idle = 0 then (k, bus, some "Cannot allocate pSOS glue")
    else
      let bus := writeWords (writeWords bus returnEntry returnGlue) idle idleGlue
      k.startSystemTasks idle cpu bus

/-- The kernel as far as it was set up, and the error that stopped it. -/
def setUp (k : Kernel) (cpu : CpuCore φ) (bus : β) : Kernel × β × Option String :=
  match findConfig k.kernelHeader bus with
  | .error e => (k, bus, some e)
  | .ok config =>
    let k := { k with kernelConfig := config }
    match pageOperands bus config with
    | .error e => (k, bus, some e)
    | .ok (pageTable, pageTaskWord) =>
      let k := { k with pageTable, pageTaskWord }
      if ¬ ramRange pageTable 256 ∨ ¬ ramRange pageTaskWord 2 then
        (k, bus, some "pSOS check_page operands outside RAM")
      else k.startMemory cpu bus

end Kernel

namespace Machine

def schedule (m : Machine φ β) (force : Bool) : Machine φ β :=
  let (kernel, cpu, bus) := m.kernel.schedule m.cpu m.bus force
  { kernel, cpu, bus }

def initializeKernel (m : Machine φ β) : Machine φ β :=
  match m.kernel.setUp m.cpu m.bus with
  | (k, bus, some e) =>
    { m with kernel := { k with error := some e }, bus := GuestBus.fail bus e }
  | (k, bus, none) =>
    schedule
      { m with
        kernel := { k with active := true, lastHostTick := GuestBus.currentInsns bus }, bus := bus }
      true

/-- The host tick: one every 100000 instructions. -/
def hostTick (m : Machine φ β) : Machine φ β :=
  let now := GuestBus.currentInsns m.bus
  if 100000 ≤ satSub now m.kernel.lastHostTick then
    { m with kernel := { m.kernel with lastHostTick := now }.tick }
  else m

def beforeInstruction (m : Machine φ β) : Machine φ β :=
  let m :=
    if ¬ m.kernel.scanned ∧ 0x8000 ≤ m.cpu.pc ∧ m.cpu.pc < 0x40000 then
      { m with kernel := m.kernel.scan m.bus }
    else m
  if ¬ m.kernel.active ∧ m.kernel.kernelEntry ≠ 0 ∧ m.cpu.pc = m.kernel.kernelEntry then
    m.initializeKernel
  else if m.kernel.active then m.hostTick.schedule false
  else m

end Machine

end OpenSaab.Psos
