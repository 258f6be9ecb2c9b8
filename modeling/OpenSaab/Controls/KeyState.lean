import OpenSaab.Library.Runs

/-!
# Keys of the host

`controls.rs`: the window queues every press and release of a key. Once a frame the queue is replayed
on the keypad of the scanner, or drained while the host waits.
-/

namespace OpenSaab.Controls

inductive Key
  | enter
  | numPadEnter
  | space
  | right
  | digit (d : Fin 10)
  | numPad (d : Fin 10)
  /-- F1 to F5. -/
  | function (i : Fin 5)
  | f12
  | escape
  | backspace
  | delete
  | left
  | up
  | down
  | q
  | leftSuper
  | rightSuper
  | leftCtrl
  | rightCtrl
  | pageUp
  | pageDown
  | pageEnd
  | other (code : Nat)
  deriving DecidableEq, Repr

/-- What the guest gets of a key. -/
inductive Delivery
  | select (code : UInt8)
  | exit
  | press (code : UInt8)
  | selectDigit (d : Nat)
  deriving DecidableEq, Repr

def keyUp : UInt8 := 0x09

def keyDown : UInt8 := 0x0c

/-- Milliseconds. -/
def initialRepeatDelay : Nat := 350

def repeatCadence : Nat := 120

/-- A key that repeats while it is held. -/
structure Repeater where
  code : UInt8
  held : Bool
  nextFire : Option Nat
  deriving DecidableEq, Repr

def Repeater.new (code : UInt8) : Repeater := ⟨code, false, none⟩

def Repeater.update (r : Repeater) (down : Bool) (now : Nat) : Repeater × List Delivery :=
  if !down then ({ r with held := false, nextFire := none }, [])
  else if !r.held then
    ({ r with held := true, nextFire := some (now + initialRepeatDelay) }, [.press r.code])
  else
    match r.nextFire with
    | some at_ =>
      if at_ ≤ now then ({ r with nextFire := some (now + repeatCadence) }, [.press r.code])
      else (r, [])
    | none => (r, [])

/-- The keys that are held. -/
abbrev Held := Key → Bool

structure KeyState where
  events : List (Key × Bool)
  heldKeys : Held
  quitRequested : Bool
  recoveryRequested : Bool
  consoleHistory : Int
  consoleLiveRequested : Bool
  enterCode : UInt8
  enterDown : Bool
  exitDown : Bool
  digitDown : Fin 10 → Bool
  fDown : Fin 5 → Bool
  up : Repeater
  down : Repeater

/-- What a poll sees apart from the keys: whether the guest has reached its splash screen, whether
its screen says that it is unavailable, and the time of each look, by the transitions left. -/
structure Surroundings where
  splashReached : Bool
  unavailable : Bool
  now : Nat → Nat

namespace KeyState

def new (enterCode : UInt8) : KeyState where
  events := []
  heldKeys := fun _ => false
  quitRequested := false
  recoveryRequested := false
  consoleHistory := 0
  consoleLiveRequested := false
  enterCode := enterCode
  enterDown := false
  exitDown := false
  digitDown := fun _ => false
  fDown := fun _ => false
  up := Repeater.new keyUp
  down := Repeater.new keyDown

/-- The window reports a transition. -/
def setKeyState (s : KeyState) (key : Key) (down : Bool) : KeyState :=
  { s with events := s.events ++ [(key, down)] }

def hold (held : Held) (key : Key) (down : Bool) : Held := fun k => if k = key then down else held k

def setHeld (s : KeyState) (key : Key) (down : Bool) : KeyState :=
  { s with heldKeys := hold s.heldKeys key down }

def modifier (held : Held) : Bool :=
  held .leftSuper || held .rightSuper || held .leftCtrl || held .rightCtrl

/-- The keys that turn the pages of the console. -/
def isPage : Key → Bool
  | .pageUp | .pageDown | .pageEnd => true
  | _ => false

def scroll (s : KeyState) (key : Key) (down : Bool) : KeyState :=
  if !down then s
  else
    match key with
    | .pageUp => { s with consoleHistory := s.consoleHistory + 1 }
    | .pageDown => { s with consoleHistory := s.consoleHistory - 1 }
    | .pageEnd => { s with consoleLiveRequested := true }
    | _ => s

/-- One transition while the host waits, and whether it cancels the wait. -/
def waitKey (s : KeyState) (event : Key × Bool) : KeyState × Bool :=
  let (key, down) := event
  let s := s.setHeld key down
  if !down then (s, false)
  else
    let s := s.scroll key down
    ({ s with
      recoveryRequested := s.recoveryRequested || key = .f12
      quitRequested := s.quitRequested || (key = .q && modifier s.heldKeys) },
      key = .escape || key = .backspace || key = .left)

def pollWait (s : KeyState) : KeyState × Bool :=
  s.events.foldl (fun (s, back) event => ((s.waitKey event).1, back || (s.waitKey event).2))
    ({ s with events := [] }, false)

/-- The keys that select something. -/
def selects : Key → Bool
  | .enter | .numPadEnter | .space | .right => true
  | .digit _ | .numPad _ => true
  | .function _ => true
  | _ => false

def hasPendingSelection (s : KeyState) : Bool :=
  s.events.any fun (key, down) => down && !s.heldKeys key && selects key

def enterKeys (held : Held) : Bool :=
  held .enter || held .numPadEnter || held .space || held .right

def exitKeys (held : Held) : Bool :=
  held .escape || held .backspace || held .delete || held .left

def digitKeys (held : Held) (d : Fin 10) : Bool := held (.digit d) || held (.numPad d)

def functionKeys (held : Held) (i : Fin 5) : Bool := held (.function i)

/-- The recovery shortcuts. -/
def recovers (g : Surroundings) (held : Held) : Bool := held .f12 || (held .escape && g.unavailable)

/-- One look at the keys that are held. -/
def pollSnapshot (g : Surroundings) (now : Nat) (s : KeyState) : KeyState × List Delivery :=
  let held := s.heldKeys
  if modifier held then ({ s with quitRequested := s.quitRequested || held .q }, [])
  else if recovers g held then ({ s with recoveryRequested := true }, [])
  else
    let (up, ups) := s.up.update (held .up) now
    let (down, downs) := s.down.update (held .down) now
    ({ s with
      enterDown := enterKeys held
      exitDown := exitKeys held
      up := up
      down := down
      digitDown := digitKeys held
      fDown := functionKeys held },
      (if enterKeys held && !s.enterDown then
        [.select (if g.splashReached then s.enterCode else 0x10)] else []) ++
      (if exitKeys held && !s.exitDown then [.exit] else []) ++ ups ++ downs ++
      ((List.finRange 10).filter fun d => digitKeys held d && !s.digitDown d).map
        (fun d => .selectDigit d) ++
      ((List.finRange 5).filter fun i => functionKeys held i && !s.fDown i).map
        (fun i => .selectDigit i))

/-- The transitions in turn, with a look after each change; a shortcut ends the replay. -/
def replay (g : Surroundings) : List (Key × Bool) → KeyState → KeyState × List Delivery
  | [], s => s.pollSnapshot g (g.now 0)
  | (key, down) :: rest, s =>
    if isPage key then replay g rest (s.scroll key down)
    else if s.heldKeys key = down then replay g rest s
    else
      let (s, out) := (s.setHeld key down).pollSnapshot g (g.now (rest.length + 1))
      if s.recoveryRequested || s.quitRequested then (s, out)
      else
        let (s, more) := replay g rest s
        (s, out ++ more)

def poll (g : Surroundings) (s : KeyState) : KeyState × List Delivery :=
  replay g s.events { s with events := [] }

def focusLost (s : KeyState) : KeyState :=
  { s with
    events := []
    heldKeys := fun _ => false
    enterDown := false
    exitDown := false
    digitDown := fun _ => false
    fDown := fun _ => false
    up := Repeater.new keyUp
    down := Repeater.new keyDown }

/-! ## Histories -/

inductive Op
  | key (key : Key) (down : Bool)
  | poll (g : Surroundings)
  | wait
  | focusLost

def step (s : KeyState) : Op → KeyState
  | .key key down => s.setKeyState key down
  | .poll g => (s.poll g).1
  | .wait => s.pollWait.1
  | .focusLost => s.focusLost

end KeyState

end OpenSaab.Controls
