import OpenSaab.Library.Runs

/-!
# Bounded channels

The sending half of a bounded channel, which refuses when the channel is full or has no receiver any
more, and a check made before something is sent.
-/

namespace OpenSaab

structure Sender (α : Type*) where
  capacity : Nat
  queue : List α
  connected : Bool
  deriving DecidableEq, Repr

inductive TrySendError where
  | full
  | disconnected
  deriving DecidableEq, Repr

namespace Sender

variable {σ α ε : Type*}

def trySend (q : Sender α) (a : α) : Except TrySendError (Sender α) :=
  if q.connected = false then .error .disconnected
  else if q.capacity ≤ q.queue.length then .error .full
  else .ok { q with queue := q.queue ++ [a] }

/-- The receiver takes the oldest item. -/
def take (q : Sender α) : Sender α := { q with queue := q.queue.drop 1 }

/-- The channel is there, has a receiver and has room. -/
def ready (input : Option (Sender α)) : Bool :=
  input.any fun q => q.connected && q.queue.length < q.capacity

/-- Send what a check has passed. The check has moved its state on by then. -/
def submit (checked : σ × Except ε Unit) (closed full : ε) (input : Option (Sender α)) (a : α) :
    (σ × Option (Sender α)) × Except ε Unit :=
  match checked with
  | (s, .error e) => ((s, input), .error e)
  | (s, .ok ()) =>
    match input with
    | none => ((s, none), .error closed)
    | some q =>
      match q.trySend a with
      | .error _ => ((s, some q), .error full)
      | .ok q' => ((s, some q'), .ok ())

theorem trySend_ok_iff {q : Sender α} {a : α} :
    (∃ q', q.trySend a = .ok q') ↔ ready (some q) = true := by
  unfold trySend ready
  rw [Option.any_some, Bool.and_eq_true, decide_eq_true_eq]
  split_ifs with hconnected hfull
  · exact iff_of_false (fun ⟨_, h⟩ => by cases h) fun h => by simp [hconnected] at h
  · exact iff_of_false (fun ⟨_, h⟩ => by cases h) fun h => Nat.not_lt.mpr hfull h.2
  · rw [Bool.not_eq_false] at hconnected
    exact iff_of_true ⟨_, rfl⟩ ⟨hconnected, Nat.not_le.mp hfull⟩

theorem submit_state (checked : σ × Except ε Unit) (closed full : ε) (input : Option (Sender α))
    (a : α) : (submit checked closed full input a).1.1 = checked.1 := by
  obtain ⟨s, e | _⟩ := checked
  · rfl
  · unfold submit
    cases input with
    | none => rfl
    | some q =>
      dsimp only
      cases q.trySend a <;> rfl

theorem submit_ok_iff {checked : σ × Except ε Unit} {closed full : ε} {input : Option (Sender α)}
    {a : α} : (submit checked closed full input a).2 = .ok () ↔
      checked.2 = .ok () ∧ ready input = true := by
  obtain ⟨s, e | _⟩ := checked
  · exact iff_of_false (fun h => by cases h) fun h => by cases h.1
  · unfold submit
    cases input with
    | none => exact iff_of_false (fun h => by cases h) fun h => by cases h.2
    | some q =>
      dsimp only
      cases hsend : q.trySend a with
      | error e =>
        refine iff_of_false (fun h => by cases h) fun h => ?_
        obtain ⟨q', hq'⟩ := trySend_ok_iff.mpr h.2
        cases hsend.symm.trans hq'
      | ok q' => exact iff_of_true rfl ⟨rfl, trySend_ok_iff.mp ⟨q', hsend⟩⟩

/-- The state of a check that does not move when it refuses survives every failure exactly when there
is room or the check does not move. -/
theorem submit_keeps_iff {checked : σ × Except ε Unit} {closed full : ε} {input : Option (Sender α)}
    {a : α} {s : σ} (hrefused : ∀ e, checked.2 = .error e → checked.1 = s) :
    (∀ e, (submit checked closed full input a).2 = .error e →
        (submit checked closed full input a).1.1 = s) ↔
      (ready input = true ∨ checked.1 = s) := by
  rw [submit_state]
  constructor
  · intro h
    cases hsubmit : (submit checked closed full input a).2 with
    | error e => exact Or.inr (h e hsubmit)
    | ok => exact Or.inl (submit_ok_iff.mp hsubmit).2
  · rintro (hready | hsame) e he
    · cases hchecked : checked.2 with
      | error e' => exact hrefused e' hchecked
      | ok => cases (submit_ok_iff.mpr ⟨hchecked, hready⟩).symm.trans he
    · exact hsame

end Sender

end OpenSaab
