import Mathlib.Data.List.Forall2
import OpenSaab.Library.Runs
import OpenSaab.Obdlink.Worker

/-!
# What the trace of the link says

The command that is open, how far the last request has come, and whether every exchange has been
certain, as they follow from what has happened. `Legal` is what may happen next.
-/

namespace OpenSaab.Obdlink

open Can Program

/-- How far the request that was taken last has come. -/
inductive Request where
  | idle
  | taken (controller : Nat) (tx : Transmission)
  | issued (controller : Nat) (tx : Transmission)
  | answered (controller : Nat) (tx : Transmission)

def Request.sent : Request → Request
  | .taken c tx => .issued c tx
  | r => r

def Request.prompted : Request → Request
  | .issued c tx => .answered c tx
  | r => r

/-- `waiting` is the command that has been written with no prompt parsed since, and `certain` is
whether every exchange has succeeded and no request has timed out. -/
structure Watch where
  waiting : Option (List Char)
  request : Request
  certain : Bool

def isRequest (cmd : List Char) : Bool := "STPX".toList.isPrefixOf cmd

def accepted (reply : Except String (List Char)) : Bool :=
  match reply with
  | .ok text => text == "WRITTEN".toList
  | .error _ => false

namespace Watch

def new : Watch := ⟨none, .idle, true⟩

def prompted (w : Watch) : Watch := { w with waiting := none, request := w.request.prompted }

/-- A command that is not accepted waits for nothing. -/
def wrote (w : Watch) (cmd : List Char) (reply : Except String (List Char)) : Watch where
  waiting := if accepted reply then some cmd else w.waiting
  request :=
    if isRequest cmd then if accepted reply then w.request.sent else .idle else w.request
  certain := w.certain && reply.toBool

def note (w : Watch) : Entry → Watch
  | .exchange (.write cmd) reply => w.wrote cmd reply
  | .exchange _ reply => { w with certain := w.certain && reply.toBool }
  | .parsed _ _ items => if items.any Item.isPrompt then w.prompted else w
  | .take c tx => { w with request := .taken c tx }
  | .report (.completed ..) => { w with request := .idle }
  | .report (.received ..) => w
  | .timeout => { w with certain := false }
  | .failed .. => w

end Watch

def watch (trace : List Entry) : Watch := trace.foldl Watch.note .new

def framesOf (controller : Nat) (items : List Item) : List (Nat × Frame) :=
  items.filterMap fun
    | .line l =>
      match frame l with
      | .ok (some f) => some (controller, f)
      | _ => none
    | .prompt => none

/-- The frames that the monitor and the ordinary requests have received, with their bus. -/
def Entry.frames : Entry → List (Nat × Frame)
  | .parsed true c items => framesOf c items
  | _ => []

def Entry.reports : Entry → List (Nat × Frame)
  | .report (.received c f) => [(c, f)]
  | _ => []

def Entry.takes : Entry → List (Nat × Transmission)
  | .take c tx => [(c, tx)]
  | _ => []

/-- The commands of requests. -/
def Entry.requests : Entry → List (List Char)
  | .exchange (.write cmd) _ => if isRequest cmd then [cmd] else []
  | _ => []

def wakeCommand : List Char := "STPXH:100,D:,R:0".toList

/-- A command whose answer holds no frame to report. -/
def Plain (cmd : List Char) : Prop :=
  cmd ≠ "STM".toList ∧ (isRequest cmd = true → cmd = wakeCommand)

/-- What may follow. -/
def Legal (w : Watch) : Entry → Prop
  | .exchange (.write cmd) _ =>
    w.certain = true ∧ w.waiting = none ∧
      (isRequest cmd = true → ∃ c tx, w.request = .taken c tx ∧ encode c tx = .ok cmd)
  | .exchange .read _ => w.certain = true
  | .exchange .interrupt _ => w.certain = true ∧ w.waiting = some "STM".toList
  | .exchange .close _ => True
  | .parsed reporting _ _ => reporting = false → ∀ cmd ∈ w.waiting, Plain cmd
  | .report (.completed c ticket _) => ∃ tx, w.request = .answered c tx ∧ tx.ticket = ticket
  | _ => True

def Legally (earlier : List Entry) (e : Entry) : Prop := Legal (watch earlier) e

variable {t : List Entry} {e : Entry}

theorem watch_snoc (t : List Entry) (e : Entry) : watch (t ++ [e]) = (watch t).note e := by
  simp [watch]

theorem flatMap_snoc {α : Type} (f : Entry → List α) (t : List Entry) (e : Entry) :
    (t ++ [e]).flatMap f = t.flatMap f ++ f e := by
  simp

theorem note_certain {c : Command} {text : List Char} {w : Watch} (hc : ∀ cmd, c ≠ .write cmd) :
    w.note (.exchange c (.ok text)) = w := by
  cases c with
  | write cmd => exact absurd rfl (hc cmd)
  | read | interrupt | close => simp [Watch.note, Except.toBool]

/-- A request that is issued waits for its prompt. -/
theorem issued_waiting (h : Runs.Justified Legally t) {c : Nat} {tx : Transmission}
    (hissued : (watch t).request = .issued c tx) : (watch t).waiting ≠ none := by
  revert hissued
  refine h.induct (I := fun t => (watch t).request = .issued c tx → (watch t).waiting ≠ none) ?_ ?_
  · intro hissued
    cases hissued
  intro t e ih hlegal
  rw [watch_snoc]
  cases e with
  | exchange c' reply =>
    cases c' with
    | write cmd =>
      simp only [Watch.note, Watch.wrote]
      by_cases haccepted : accepted reply = true
      · simp [haccepted]
      · rw [if_neg haccepted, if_neg haccepted]
        split
        · intro hissued
          cases hissued
        · exact ih
    | read | interrupt | close => exact ih
  | parsed reporting c' items =>
    simp only [Watch.note]
    split
    · simp only [Watch.prompted]
      intro hissued
      cases hrequest : (watch t).request <;> rw [hrequest] at hissued <;> cases hissued
    · exact ih
  | take c' tx' => exact fun hissued => nomatch hissued
  | report event =>
    cases event with
    | completed => exact fun hissued => nomatch hissued
    | received => exact ih
  | timeout => exact ih
  | failed => exact ih

theorem prompted_taken {r : Request} {c : Nat} {tx : Transmission}
    (h : r.prompted = .taken c tx) : r = .taken c tx := by
  cases r with
  | issued => cases h
  | idle | taken | answered => exact h

theorem not_taken_of_wrote {w : Watch} {cmd : List Char} {reply : Except String (List Char)}
    (hcmd : isRequest cmd = true) {c : Nat} {tx : Transmission} :
    (w.wrote cmd reply).request ≠ .taken c tx := by
  unfold Watch.wrote
  dsimp only
  rw [if_pos hcmd]
  split
  · cases w.request <;> exact fun h => nomatch h
  · exact fun h => nomatch h

/-- A request that is neither taken nor sent leaves what the last one is. -/
theorem note_taken {w : Watch} (htakes : e.takes = []) (hrequests : e.requests = []) {c : Nat}
    {tx : Transmission} (h : (w.note e).request = .taken c tx) : w.request = .taken c tx := by
  cases e with
  | exchange c' reply =>
    cases c' with
    | write cmd =>
      by_cases hcmd : isRequest cmd = true
      · simp [Entry.requests, hcmd] at hrequests
      · simpa [Watch.note, Watch.wrote, hcmd] using h
    | read | interrupt | close => exact h
  | parsed reporting c' items =>
    simp only [Watch.note] at h
    split at h
    · exact prompted_taken h
    · exact h
  | take => cases htakes
  | report event =>
    cases event with
    | completed => cases h
    | received => exact h
  | timeout | failed => exact h

/-- Every command of a request is that of a request taken before, each of them once and in order. -/
theorem requests_ordered (h : Runs.Justified Legally t) :
    ∃ sent, sent.Sublist (t.flatMap Entry.takes) ∧
      List.Forall₂ (fun r cmd => encode r.1 r.2 = .ok cmd) sent (t.flatMap Entry.requests) := by
  have hordered : ∃ sent before rest, sent.Sublist before ∧
      t.flatMap Entry.takes = before ++ rest ∧
      (∀ c tx, (watch t).request = .taken c tx → rest = [(c, tx)]) ∧
      List.Forall₂ (fun r cmd => encode r.1 r.2 = .ok cmd) sent (t.flatMap Entry.requests) := by
    refine h.induct (I := fun t => ∃ sent before rest, sent.Sublist before ∧
      t.flatMap Entry.takes = before ++ rest ∧
      (∀ c tx, (watch t).request = .taken c tx → rest = [(c, tx)]) ∧
      List.Forall₂ (fun r cmd => encode r.1 r.2 = .ok cmd) sent (t.flatMap Entry.requests)) ?_ ?_
    · exact ⟨[], [], [], List.Sublist.refl [], rfl, (fun c tx h => nomatch h), List.Forall₂.nil⟩
    rintro t e ⟨sent, before, rest, hsent, htakes, hrest, hrequests⟩ hlegal
    simp only [flatMap_snoc, watch_snoc]
    by_cases htake : e.takes = []
    · rw [htake, List.append_nil]
      by_cases hnone : e.requests = []
      · rw [hnone, List.append_nil]
        exact ⟨sent, before, rest, hsent, htakes,
          fun c tx h => hrest c tx (note_taken htake hnone h), hrequests⟩
      · -- only the command of a request is one of these, and the request has been taken
        obtain ⟨cmd, reply, rfl, hcmd⟩ : ∃ cmd reply, e = .exchange (.write cmd) reply ∧
            isRequest cmd = true := by
          cases e with
          | exchange c reply =>
            cases c with
            | write cmd =>
              refine ⟨cmd, reply, rfl, ?_⟩
              by_contra hcmd
              exact hnone (by simp [Entry.requests, hcmd])
            | read | interrupt | close => exact absurd rfl hnone
          | parsed | take | report | timeout | failed => exact absurd rfl hnone
        obtain ⟨c, tx, htaken, hencode⟩ := hlegal.2.2 hcmd
        have hlast := hrest c tx htaken
        refine ⟨sent ++ [(c, tx)], before ++ rest, [], ?_, by rw [htakes, List.append_nil],
          fun c tx h => absurd h (not_taken_of_wrote hcmd), ?_⟩
        · rw [hlast]
          exact hsent.append (List.Sublist.refl _)
        · rw [show Entry.requests (.exchange (.write cmd) reply) = [cmd] from if_pos hcmd]
          exact List.rel_append hrequests (List.Forall₂.cons hencode List.Forall₂.nil)
    · cases e with
      | take c tx =>
        refine ⟨sent, before ++ rest, [(c, tx)], hsent.trans (List.sublist_append_left ..), ?_, ?_, ?_⟩
        · rw [htakes]
          rfl
        · intro c' tx' h
          cases h
          rfl
        · rw [show Entry.requests (.take c tx) = [] from rfl, List.append_nil]
          exact hrequests
      | exchange | parsed | report | timeout | failed => exact absurd rfl htake
  obtain ⟨sent, before, rest, hsent, htakes, -, hrequests⟩ := hordered
  exact ⟨sent, htakes ▸ hsent.trans (List.sublist_append_left ..), hrequests⟩

end OpenSaab.Obdlink
