import OpenSaab.Bus.Keypad
import OpenSaab.Candi.Uart
import OpenSaab.Flash.SsaCard

/-!
# Reads of the bus

`bus.rs`: how a byte of the address space is read, in the order in which the windows are looked at,
and the read of the load-test build that goes to the memories at once.
-/

namespace OpenSaab.Bus

open Bytes

/-! ## The address space -/

/-- `A24`. -/
def a24 : UInt32 := 0x00ffffff

def flashSize : Nat := 0x40000

def ramBase : Nat := 0x100000

def ramSize : Nat := 0x100000

def cardBase : Nat := 0x200000

def cardWin : Nat := 0x100000

def eramBase : Nat := 0x300000

def eramSize : Nat := 0x100000

def rtcBase : Nat := 0x500000

def rtcSize : Nat := 0x800

def cs6Base : Nat := 0x600000

def cs6Size : Nat := 0x100000

def keypadReg : Nat := 0x600500

def keyBase : Nat := 0x700000

def keySize : Nat := 0x10000

def unused : UInt8 := 0xff

def simOff (a : Nat) : Option Nat :=
  if 0x7ff000 ≤ a ∧ a < 0x7ff000 + 0x1000 ∨ 0xfff000 ≤ a then some (a % 0x1000) else none

/-- Whether the address is one of the display, and whether it is that of its commands. -/
def lcdKind (a : Nat) : Option Bool :=
  if 0x700000 ≤ a ∧ a < 0x700800 then some (a &&& 2 != 0)
  else if 0x400000 ≤ a ∧ a < 0x401800 then some (a &&& 1 != 0)
  else none

/-! ## The devices -/

/-- The capture card, as far as its registers are read. -/
structure CaptureCard where
  image : List UInt8
  inserted : Bool
  sector : UInt8
  cylinderLow : UInt8
  head : UInt8
  readPending : Bool
  readCursor : Nat
  unsupported : Nat
  outOfBounds : Nat
  deriving DecidableEq

def CaptureCard.offset (c : CaptureCard) (cursor : Nat) : Option Nat × CaptureCard :=
  let sector : Int :=
    (c.cylinderLow.toNat * 4 + (c.head &&& 15).toNat) * 32 + c.sector.toNat - 1 - 32
  let p := sector * 512 + cursor
  if p < 0 ∨ c.image.length ≤ p.toNat then (none, { c with outOfBounds := c.outOfBounds + 1 })
  else (some p.toNat, c)

def CaptureCard.refuse (c : CaptureCard) : UInt8 × CaptureCard :=
  (0xff, { c with unsupported := c.unsupported + 1 })

def CaptureCard.read8 (c : CaptureCard) (off : UInt32) (bank scratch : UInt8) :
    UInt8 × CaptureCard :=
  if !c.inserted then (0xff, c)
  else if scratch &&& 1 ≠ 0 then
    if bank &&& 1 ≠ 0 then c.refuse
    else if off = 0 then (0x22, c)
    else if off = 2 then (2, c)
    else if off = 6 then (1, c)
    else if off ∈ [1, 3, 4, 5, 7] then (0, c)
    else (0xff, c)
  else if off &&& 15 = 0 then
    let r := c.offset c.readCursor
    ((r.1.map fun p => c.image.getD p 0).getD 0xff,
      { r.2 with readCursor := (c.readCursor + 1) % 512 })
  else if off &&& 15 = 7 then (if c.readPending then 1 else 0, { c with readPending := false })
  else if off &&& 15 = 14 then (8, c)
  else c.refuse

/-- `Sed1335`, as far as it is read. -/
structure Sed1335 where
  vram : List UInt8
  cursor : UInt32
  cmd : UInt8
  status : UInt8
  ap : Nat
  cursorDirection : UInt8
  readPhase : UInt8
  deriving DecidableEq

def Sed1335.advanceCursor (l : Sed1335) : Sed1335 :=
  let delta : UInt32 :=
    if l.cursorDirection = 0 then 1
    else if l.cursorDirection = 1 then 0 - 1
    else if l.cursorDirection = 2 then 0 - UInt32.ofNat l.ap
    else UInt32.ofNat l.ap
  { l with cursor := (l.cursor + delta) &&& 0xffff }

def Sed1335.readData (l : Sed1335) : UInt8 × Sed1335 :=
  if l.cmd = 0x47 then
    if l.readPhase = 0 then (l.cursor.toUInt8, { l with readPhase := 1 })
    else ((l.cursor >>> 8).toUInt8, { l with readPhase := 0 })
  else if l.cmd = 0x43 then (l.vram.getD (l.cursor.toNat % l.vram.length) 0, l.advanceCursor)
  else (0, l)

structure Ata where
  err : UInt8
  nsec : UInt8
  lba : List UInt8
  dev : UInt8
  status : UInt8
  lbaAddr : Nat
  remaining : Nat
  deriving DecidableEq

/-- The next byte of the sector. -/
def Ata.next (t : Ata) (card : List UInt8) : UInt8 × Ata :=
  (card.getD t.lbaAddr 0,
    { t with
      lbaAddr := t.lbaAddr + 1
      remaining := t.remaining - 1
      status := if t.remaining - 1 = 0 then 0x50 else t.status })

/-! ## The bus -/

structure Tech2Bus where
  research : Bool
  flash : List UInt8
  ram : List UInt8
  eram : List UInt8
  rtc : List UInt8
  iram : List UInt8
  cs6 : List UInt8
  card : List UInt8
  sim : List UInt8
  bank : UInt32
  bankRaw : Bool
  smallBank : Bool
  ata : Ata
  capture : Option CaptureCard
  pendingCandi : Option Candi.Uart
  candiLink : Option Candi.Port
  lcd : Sed1335
  ssaFlash : Option SsaCard.SsaFlash
  cfiStatus : Bool
  epromCfiStatus : Bool
  cardRdPages : List Nat
  cs2Ram : Option (List UInt8)
  attrMem : List UInt8
  attrReads : Nat
  keypad : Keypad
  qspiPending : Bool
  eramTrace : Bool
  eramTraces : Nat
  deriving DecidableEq

namespace Tech2Bus

def traceEramAccess (b : Tech2Bus) (a : Nat) : Tech2Bus :=
  if b.eramTrace ∧ 0x2f0000 ≤ a ∧ a < 0x400000 then { b with eramTraces := b.eramTraces + 1 } else b

def captureInserted (b : Tech2Bus) : Bool := b.capture.any (·.inserted)

def readCapture (b : Tech2Bus) (a : UInt32) : UInt8 × Tech2Bus :=
  match b.capture with
  | none => (unused, b)
  | some c =>
    let off := (b.bank >>> 2) * UInt32.ofNat cardWin + a - UInt32.ofNat eramBase
    let r := c.read8 off b.bank.toUInt8 (b.rtc.getD 8 0)
    (r.1, { b with capture := some r.2 })

/-- The status of both card slots. -/
def slotStatus (b : Tech2Bus) (a : Nat) : UInt8 :=
  let status : UInt16 :=
    (if b.card = [] then 0x3000 else 0) ||| (if b.captureInserted then 0 else 0xc000)
  if a % 2 = 0 then (status >>> 8).toUInt8 else status.toUInt8

def readUart (b : Tech2Bus) (a : UInt32) : UInt8 × Tech2Bus :=
  match b.pendingCandi, b.candiLink with
  | some uart, _ => ((uart.read a).1, { b with pendingCandi := some (uart.read a).2 })
  | none, some link => ((link.read a).1, { b with candiLink := some (link.read a).2 })
  | none, none => (unused, b)

def readLcd (b : Tech2Bus) (isCmd : Bool) : UInt8 × Tech2Bus :=
  if b.lcd.cmd = 0x47 ∨ b.lcd.cmd = 0x43 ∨ isCmd = false then
    (b.lcd.readData.1, { b with lcd := b.lcd.readData.2 })
  else (b.lcd.status, b)

/-- Legacy dynamic equivalents of the research ROM patches. -/
def researchByte (a : Nat) : Option UInt8 :=
  if a = 0x16ed2 ∨ a = 0x10eeba then some 0x4e
  else if a = 0x16ed3 ∨ a = 0x10eebb then some 0x71
  else if a = 0x16eee ∨ a = 0x10eed6 then some 0x4e
  else if a = 0x16eef ∨ a = 0x10eed7 then some 0x71
  else if a = 0x5ffc then some 0x01
  else none

def readFlash (b : Tech2Bus) (a : Nat) : UInt8 :=
  if b.epromCfiStatus ∧ (a < 2 ∨ a = 0x8000 ∨ a = 0x8001) then 0x80 else b.flash.getD a 0

/-- The research harness makes up disk geometry in two bytes. -/
def readRam (b : Tech2Bus) (off : Nat) : UInt8 :=
  if b.research ∧ (off = 0x127f ∨ off = 0x1281) then
    if b.ram.getD off 0 = 0 ∧ b.ram.getD (off - 1) 0 = 0 then 8 else b.ram.getD off 0
  else b.ram.getD off 0

def cardOff (b : Tech2Bus) (off : Nat) : Option Nat :=
  if b.card = [] then none
  else
    let size := if b.smallBank then 0x20000 else 0x100000
    let base := if b.bankRaw then b.bank.toNat * size else (b.bank >>> 2).toNat * size
    if base + off < b.card.length then some (base + off) else none

/-- The bank of the card that takes flash commands. -/
def ssaHandles (off : Nat) : Bool := 0xf00000 ≤ off && off < 0xf00000 + 0x100000

def readCommon (b : Tech2Bus) (off : Option Nat) : UInt8 × Tech2Bus :=
  if b.cfiStatus then (0x80, b)
  else
    match off with
    | none => (unused, b)
    | some off =>
      (b.card.getD off 0,
        { b with cardRdPages := b.cardRdPages.modify ((off >>> 20) &&& 0xf) (· + 1) })

def readCard (b : Tech2Bus) (off : Nat) : UInt8 × Tech2Bus :=
  if b.bank &&& 3 = 0 then
    (b.attrMem.getD (off % b.attrMem.length) 0, { b with attrReads := b.attrReads + 1 })
  else
    match b.cs2Ram with
    | some ram => (ram.getD (off % ram.length) 0, b)
    | none =>
      match b.cardOff off, b.ssaFlash with
      | some place, some flash =>
        if ssaHandles place then (flash.status.getD (b.card.getD place 0), b)
        else b.readCommon (some place)
      | off, _ => b.readCommon off

def ataNext (b : Tech2Bus) : UInt8 × Tech2Bus :=
  ((b.ata.next b.card).1, { b with ata := (b.ata.next b.card).2 })

/-- The ATA shim of the research harness. -/
def readAta (b : Tech2Bus) (a : Nat) : UInt8 × Tech2Bus :=
  let eram := (b.eram.getD (a - eramBase) 0, b)
  if a = 0x300200 then (0x01, b)
  else
    match a % 16 with
    | 0 => if 0 < b.ata.remaining then b.ataNext else eram
    | 1 =>
      if b.ata.status &&& 0x08 ≠ 0 ∧ 0 < b.ata.remaining then b.ataNext else (b.ata.err, b)
    | 2 => (b.ata.nsec, b)
    | 3 => (b.ata.lba.getD 0 0, b)
    | 4 => (b.ata.lba.getD 1 0, b)
    | 5 => (b.ata.lba.getD 2 0, b)
    | 6 => (b.ata.dev, b)
    | 7 => (b.ata.status, b)
    | 14 => (b.ata.status, b)
    | _ => eram

def readRtc (b : Tech2Bus) (off : Nat) : UInt8 :=
  if off = 0x0a then b.rtc.getD off 0 ||| 0x20 else b.rtc.getD off 0

def readSim (b : Tech2Bus) (off : Nat) : UInt8 × Tech2Bus :=
  if off = 0x0c0c then (0xc0, b)
  else if off = 0x0c1f then
    let b :=
      if b.qspiPending then
        { b with qspiPending := false, sim := b.sim.set 0x0c1f (b.sim.getD 0x0c1f 0 ||| 0x80) }
      else b
    (b.sim.getD 0x0c1f 0, b)
  else if b.research ∧ off = 0x0e00 then (b.sim.getD 0x0e00 0 ||| 0x04, b)
  else if b.research ∧ (off = 0x0a04 ∨ off = 0x0a05) then (0x10, b)
  else (b.sim.getD off 0, b)

/-- The windows from the card on. -/
def readPeripheral (b : Tech2Bus) (a : Nat) : UInt8 × Tech2Bus :=
  if 0x7c0000 ≤ a ∧ a < 0x7ff000 then (b.card.getD a unused, b)
  else if cardBase ≤ a ∧ a < cardBase + cardWin then b.readCard (a - cardBase)
  else if b.research ∧ (0x300000 ≤ a ∧ a ≤ 0x30000f ∨ a = 0x300200) then b.readAta a
  else if eramBase ≤ a ∧ a < eramBase + eramSize then (b.eram.getD (a - eramBase) 0, b)
  else if rtcBase ≤ a ∧ a < rtcBase + rtcSize then (b.readRtc (a - rtcBase), b)
  else if keyBase ≤ a ∧ a < keyBase + keySize then (b.iram.getD (a - keyBase) 0, b)
  else if a = keypadReg then (b.keypad.read.1, { b with keypad := b.keypad.read.2 })
  else if cs6Base ≤ a ∧ a < cs6Base + cs6Size then (b.cs6.getD (a - cs6Base) 0, b)
  else
    match simOff a with
    | some off => b.readSim off
    | none => (unused, b)

/-- The memories, and what lies over them. -/
def readMemory (b : Tech2Bus) (a : Nat) : UInt8 × Tech2Bus :=
  match if b.research then researchByte a else none with
  | some v => (v, b)
  | none =>
    if a < flashSize then (b.readFlash a, b)
    else if ramBase ≤ a ∧ a < ramBase + ramSize then (b.readRam (a - ramBase), b)
    else b.readPeripheral a

def readByte (b : Tech2Bus) (address : UInt32) : UInt8 × Tech2Bus :=
  let a := (address &&& a24).toNat
  let b := b.traceEramAccess a
  if eramBase ≤ a ∧ a < eramBase + eramSize ∧ b.captureInserted then b.readCapture (address &&& a24)
  else if 0x600100 ≤ a ∧ a < 0x600200 ∧ b.capture.isSome then (b.slotStatus a, b)
  else if 0x401000 ≤ a ∧ a < 0x401800 then (unused, b)
  else if 0x400800 ≤ a ∧ a < 0x400810 ∧ (b.pendingCandi.isSome ∨ b.candiLink.isSome) then
    b.readUart (address &&& a24)
  else
    match lcdKind a with
    | some isCmd => b.readLcd isCmd
    | none => b.readMemory a

def readBytes (b : Tech2Bus) (address : UInt32) : Nat → List UInt8 × Tech2Bus
  | 0 => ([], b)
  | n + 1 =>
    let r := b.readByte address
    let rest := r.2.readBytes (address + 1) n
    (r.1 :: rest.1, rest.2)

/-! ## The read of the load-test build -/

/-- `get` of a range. -/
def range (xs : List UInt8) (lo hi : Nat) : Option (List UInt8) :=
  if lo ≤ hi ∧ hi ≤ xs.length then some (slice xs lo (hi - lo)) else none

/-- `try_into` of an array of `n` bytes. -/
def tryInto (n : Nat) (xs : List UInt8) : Option (List UInt8) :=
  if xs.length = n then some xs else none

def loadTestPlainRead (b : Tech2Bus) (n : Nat) (address : UInt32) : Option (List UInt8) :=
  let a := (address &&& a24).toNat
  let stop := (a + n) % 2 ^ 32
  if stop ≤ flashSize then
    if b.epromCfiStatus ∧ (a < 2 ∨ a < 0x8002 ∧ 0x8000 < stop) then none
    else if b.research ∧ (a ≤ 0x5ffc ∧ 0x5ffc < stop ∨ a < 0x16ef0 ∧ 0x16ed2 < stop) then none
    else (range b.flash a stop).bind (tryInto n)
  else if ramBase ≤ a ∧ stop ≤ ramBase + ramSize then
    if b.research ∧ (a < 0x101282 ∧ 0x10127f < stop ∨ a < 0x10eed8 ∧ 0x10eeba < stop) then none
    else (range b.ram (a - ramBase) (stop - ramBase)).bind (tryInto n)
  else none

end Tech2Bus

end OpenSaab.Bus
