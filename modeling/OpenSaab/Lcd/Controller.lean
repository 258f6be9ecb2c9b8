import OpenSaab.Bus.Reads
import OpenSaab.Library.Runs

/-!
# The display controller

`lcd.rs`: commands, and the data that are parameters of a command or go to the memory of the display.
-/

namespace OpenSaab.Lcd

open Bus Runs

def vramSize : Nat := 64 * 1024

/-- `Sed1335`. What is read of it is in the reads of the bus. -/
structure Controller extends Sed1335 where
  params : List UInt8
  paramsLeft : Nat
  dataWr : Nat
  cmdWr : Nat
  sad1 : Nat
  sad2 : Nat
  fx : UInt8
  fy : UInt8
  systemSet : UInt8
  cgramAddr : UInt16
  overlayMode : UInt8
  displayOn : Bool
  displayMode : UInt8
  sized : vram.length = vramSize

/-- Two bytes, the low one first. -/
def word (low high : UInt8) : Nat := low.toNat ||| (high.toNat <<< 8)

namespace Controller

def new : Controller where
  vram := List.replicate vramSize 0
  cursor := 0
  cmd := 0
  status := 0
  ap := 40
  cursorDirection := 0
  readPhase := 0
  params := []
  paramsLeft := 0
  dataWr := 0
  cmdWr := 0
  sad1 := 0x0000
  sad2 := 0x1000
  fx := 8
  fy := 8
  systemSet := 0x30
  cgramAddr := 0
  overlayMode := 0
  displayOn := true
  displayMode := 0x14
  sized := List.length_replicate

def param (l : Controller) (i : Nat) : UInt8 := l.params.getD i 0

/-! ## Commands -/

/-- The start of the first screen, if it is there. -/
def scrollFirst (l : Controller) : Controller :=
  if 2 ≤ l.params.length then { l with sad1 := word (l.param 0) (l.param 1) } else l

/-- With three parameters there is one screen, with five or more there are two. -/
def scrollSecond (l : Controller) : Controller :=
  if l.params.length = 3 then { l with sad2 := l.sad1 }
  else if 5 ≤ l.params.length then { l with sad2 := word (l.param 3) (l.param 4) }
  else l

/-- A scroll command that ends before its sixth parameter. -/
def endScroll (l : Controller) : Controller :=
  if l.cmd = 0x44 ∧ l.params ≠ [] ∧ 0 < l.paramsLeft then l.scrollFirst.scrollSecond else l

def paramCount (v : UInt8) : Nat :=
  if v = 0x40 then 8
  else if v = 0x44 then 6
  else if v = 0x46 then 2
  else if 0x58 ≤ v ∧ v ≤ 0x5b then 1
  else if 0x5c ≤ v ∧ v ≤ 0x5d then 2
  else 0

def isMove (v : UInt8) : Bool := 0x4c ≤ v ∧ v ≤ 0x4f

/-- How many of the next bytes are parameters. -/
def expected (v : UInt8) : Nat :=
  if v = 0x42 ∨ v = 0x43 ∨ v = 0x47 ∨ isMove v then 0 else paramCount v

/-- What a command does by itself. -/
def obey (l : Controller) (v : UInt8) : Controller :=
  let l := if isMove v then { l with cursorDirection := v &&& 3 } else l
  let l := if v = 0x58 then { l with displayOn := false } else l
  if v = 0x59 then { l with displayOn := true } else l

def writeCmd (l : Controller) (v : UInt8) : Controller :=
  { l.endScroll.obey v with
    cmdWr := l.cmdWr + 1
    cmd := v
    params := []
    readPhase := 0
    paramsLeft := expected v }

/-! ## Data -/

def systemSetParam (l : Controller) : Controller :=
  if l.cmd = 0x40 ∧ l.params.length = 8 then { l with
    systemSet := l.param 0
    fx := (l.param 1 &&& 0x07) + 1
    fy := (l.param 2 &&& 0x1f) + 1
    ap := word (l.param 6) (l.param 7) }
  else l

def scrollParam (l : Controller) : Controller :=
  if l.cmd = 0x44 then
    let l := if l.params.length = 2 then { l with sad1 := word (l.param 0) (l.param 1) } else l
    if l.params.length = 5 then { l with sad2 := word (l.param 3) (l.param 4) } else l
  else l

def displayParam (l : Controller) : Controller :=
  let l := if l.cmd = 0x5b then { l with overlayMode := l.param 0 } else l
  let l := if l.cmd = 0x5c ∧ l.params.length = 2 then
      { l with cgramAddr := UInt16.ofNat (word (l.param 0) (l.param 1)) }
    else l
  if l.cmd = 0x59 ∧ l.params ≠ [] then { l with displayMode := l.param 0 } else l

def cursorParam (l : Controller) : Controller :=
  if l.cmd = 0x46 ∧ l.params.length = 2 then
    { l with cursor := UInt32.ofNat (word (l.param 0) (l.param 1)) }
  else l

def takeParam (l : Controller) (v : UInt8) : Controller :=
  { l with params := l.params ++ [v], paramsLeft := l.paramsLeft - 1 }
    |>.systemSetParam.scrollParam.displayParam.cursorParam

/-- The byte goes to the memory, under the cursor. -/
def store (l : Controller) (v : UInt8) : Controller where
  toSed1335 := Sed1335.advanceCursor
    { l.toSed1335 with vram := l.vram.set (l.cursor.toNat % l.vram.length) v }
  params := l.params
  paramsLeft := l.paramsLeft
  dataWr := l.dataWr
  cmdWr := l.cmdWr
  sad1 := l.sad1
  sad2 := l.sad2
  fx := l.fx
  fy := l.fy
  systemSet := l.systemSet
  cgramAddr := l.cgramAddr
  overlayMode := l.overlayMode
  displayOn := l.displayOn
  displayMode := l.displayMode
  sized := List.length_set.trans l.sized

def writeData (l : Controller) (v : UInt8) : Controller :=
  let l := { l with dataWr := l.dataWr + 1 }
  if 0 < l.paramsLeft then l.takeParam v
  else if l.cmd ≠ 0x42 then l
  else l.store v

theorem readData_vram (s : Sed1335) : s.readData.2.vram = s.vram := by
  unfold Sed1335.readData
  split
  · split <;> rfl
  · split <;> rfl

def readData (l : Controller) : UInt8 × Controller :=
  (l.toSed1335.readData.1, { l with
    toSed1335 := l.toSed1335.readData.2
    sized := (congrArg List.length (readData_vram l.toSed1335)).trans l.sized })

/-! ## Streams -/

inductive Op
  | command (v : UInt8)
  | data (v : UInt8)
  | read
  deriving DecidableEq, Repr

def step (l : Controller) : Op → Controller
  | .command v => l.writeCmd v
  | .data v => l.writeData v
  | .read => l.readData.2

/-- What is read. -/
def readOut (l : Controller) : Op → List UInt8
  | .read => [l.readData.1]
  | _ => []

end Controller

end OpenSaab.Lcd
