import Mathlib.Data.List.Perm.Basic
import Mathlib.Data.List.Basic

/-!
# A queue that some entries may jump

The abstract queue behind a message service: entries are put at the back or jump to the front, are
taken from the front, and are dropped all at once. Every entry keeps the number under which it was
accepted, so that the ledger says of each of them where it is.
-/

namespace OpenSaab.Deque

variable {α : Type*}

structure Entry (α : Type*) where
  number : Nat
  urgent : Bool
  value : α
  deriving DecidableEq

inductive Move (α : Type*) where
  /-- Accepted at the back. -/
  | put (value : α)
  /-- Accepted at the front. -/
  | jump (value : α)
  /-- Taken from the front, where it has to be. -/
  | take (value : α)
  /-- Everything stored is dropped. -/
  | clear
  deriving DecidableEq

structure Ledger (α : Type*) where
  next : Nat := 0
  stored : List (Entry α) := []
  taken : List (Entry α) := []
  dropped : List (Entry α) := []

/-- One move, which is refused if it takes what is not at the front. -/
def Ledger.apply [DecidableEq α] (l : Ledger α) : Move α → Option (Ledger α)
  | .put a =>
    some { l with next := l.next + 1, stored := l.stored ++ [⟨l.next, false, a⟩] }
  | .jump a => some { l with next := l.next + 1, stored := ⟨l.next, true, a⟩ :: l.stored }
  | .take a =>
    match l.stored with
    | [] => none
    | e :: es =>
      if e.value = a then some { l with stored := es, taken := l.taken ++ [e] } else none
  | .clear => some { l with stored := [], dropped := l.dropped ++ l.stored }

def Ledger.replay [DecidableEq α] : Ledger α → List (Move α) → Option (Ledger α)
  | l, [] => some l
  | l, move :: moves => (l.apply move).bind fun l' => l'.replay moves

/-- The entries that the moves accept, numbered from `n` on. -/
def accepted : Nat → List (Move α) → List (Entry α)
  | _, [] => []
  | n, .put a :: moves => ⟨n, false, a⟩ :: accepted (n + 1) moves
  | n, .jump a :: moves => ⟨n, true, a⟩ :: accepted (n + 1) moves
  | n, .take _ :: moves => accepted n moves
  | n, .clear :: moves => accepted n moves

def Ledger.entries (l : Ledger α) : List (Entry α) := l.stored ++ l.taken ++ l.dropped

/-- The values that are stored, from the front on. -/
def Ledger.values (l : Ledger α) : List α := l.stored.map Entry.value

/-- `x` may leave before `y`: it was accepted before it, or it jumped the queue. -/
def Entry.ahead (x y : Entry α) : Prop := x.number < y.number ∨ x.urgent = true

/-- The place of `x` before `y` in the store: behind everything older, or ahead of it by a jump. -/
def Entry.inPlace (x y : Entry α) : Prop :=
  x.number < y.number ∧ y.urgent = false ∨ y.number < x.number ∧ x.urgent = true

variable [DecidableEq α]

theorem replay_append (l : Ledger α) (moves more : List (Move α)) :
    l.replay (moves ++ more) = (l.replay moves).bind fun l' => l'.replay more := by
  induction moves generalizing l with
  | nil => rfl
  | cons move moves ih =>
    simp only [List.cons_append, Ledger.replay]
    cases l.apply move with
    | none => rfl
    | some l' => exact ih l'

@[simp] theorem replay_put (l : Ledger α) (a : α) :
    l.replay [.put a] =
      some { l with next := l.next + 1, stored := l.stored ++ [⟨l.next, false, a⟩] } := rfl

@[simp] theorem replay_jump (l : Ledger α) (a : α) :
    l.replay [.jump a] =
      some { l with next := l.next + 1, stored := ⟨l.next, true, a⟩ :: l.stored } := rfl

@[simp] theorem replay_clear (l : Ledger α) :
    l.replay [.clear] = some { l with stored := [], dropped := l.dropped ++ l.stored } := rfl

/-- What is at the front can be taken. -/
theorem replay_take {l : Ledger α} {a : α} {as : List α} (h : l.values = a :: as) :
    ∃ l', l.replay [.take a] = some l' ∧ l'.values = as := by
  unfold Ledger.values at h
  cases hs : l.stored with
  | nil => simp [hs] at h
  | cons e es =>
    rw [hs, List.map_cons, List.cons.injEq] at h
    refine ⟨{ l with stored := es, taken := l.taken ++ [e] }, ?_, h.2⟩
    simp [Ledger.replay, Ledger.apply, hs, h.1]

/-- An entry that is handed over at once, when nothing is stored. -/
theorem replay_hand {l : Ledger α} {move : Move α} {a : α} (hmove : move = .put a ∨ move = .jump a)
    (h : l.values = []) : ∃ l', l.replay [move, .take a] = some l' ∧ l'.values = [] := by
  have hs : l.stored = [] := List.map_eq_nil_iff.mp h
  rcases hmove with rfl | rfl
  · refine ⟨{ l with next := l.next + 1, taken := l.taken ++ [⟨l.next, false, a⟩] }, ?_, h⟩
    simp [Ledger.replay, Ledger.apply, hs]
  · refine ⟨{ l with next := l.next + 1, taken := l.taken ++ [⟨l.next, true, a⟩] }, ?_, h⟩
    simp [Ledger.replay, Ledger.apply, hs]

/-! ## What every replay keeps -/

/-- The order of everything in the ledger, and the bound on its numbers. -/
structure Ledger.Ordered (l : Ledger α) : Prop where
  bound : ∀ e ∈ l.entries, e.number < l.next
  leaving : (l.taken ++ l.stored).Pairwise Entry.ahead
  place : l.stored.Pairwise Entry.inPlace

omit [DecidableEq α] in
theorem ordered_empty : ({} : Ledger α).Ordered :=
  ⟨fun e he => by simp [Ledger.entries] at he, by simp, by simp⟩

theorem apply_ordered {l l' : Ledger α} {move : Move α} (h : l.apply move = some l')
    (hl : l.Ordered) : l'.Ordered := by
  obtain ⟨hbound, hleaving, hplace⟩ := hl
  have hold : ∀ e ∈ l.taken ++ l.stored, e.number < l.next := by
    intro e he
    refine hbound e ?_
    simp only [Ledger.entries, List.mem_append] at he ⊢
    tauto
  have hstored : ∀ e ∈ l.stored, e.number < l.next := fun e he => hold e (by simp [he])
  cases move with
  | put a =>
    obtain rfl := Option.some.inj h
    refine ⟨fun e he => ?_, ?_, ?_⟩
    · simp only [Ledger.entries, List.mem_append, List.mem_singleton] at he hbound ⊢
      rcases he with ((he | rfl) | he) | he
      · exact Nat.lt_succ_of_lt (hbound e (Or.inl (Or.inl he)))
      · exact Nat.lt_succ_self _
      · exact Nat.lt_succ_of_lt (hbound e (Or.inl (Or.inr he)))
      · exact Nat.lt_succ_of_lt (hbound e (Or.inr he))
    · rw [← List.append_assoc, List.pairwise_append]
      refine ⟨hleaving, by simp, fun x hx y hy => ?_⟩
      rw [List.mem_singleton.mp hy]
      exact Or.inl (hold x hx)
    · rw [List.pairwise_append]
      refine ⟨hplace, by simp, fun x hx y hy => ?_⟩
      rw [List.mem_singleton.mp hy]
      exact Or.inl ⟨hstored x hx, rfl⟩
  | jump a =>
    obtain rfl := Option.some.inj h
    refine ⟨fun e he => ?_, ?_, ?_⟩
    · simp only [Ledger.entries, List.mem_append, List.mem_cons] at he hbound ⊢
      rcases he with ((rfl | he) | he) | he
      · exact Nat.lt_succ_self _
      · exact Nat.lt_succ_of_lt (hbound e (Or.inl (Or.inl he)))
      · exact Nat.lt_succ_of_lt (hbound e (Or.inl (Or.inr he)))
      · exact Nat.lt_succ_of_lt (hbound e (Or.inr he))
    · rw [List.pairwise_append] at hleaving ⊢
      obtain ⟨htaken, hst, hcross⟩ := hleaving
      refine ⟨htaken, List.pairwise_cons.mpr ⟨fun y _ => Or.inr rfl, hst⟩, fun x hx y hy => ?_⟩
      rcases List.mem_cons.mp hy with rfl | hy
      · exact Or.inl (hold x (by simp [hx]))
      · exact hcross x hx y hy
    · exact List.pairwise_cons.mpr ⟨fun y hy => Or.inr ⟨hstored y hy, rfl⟩, hplace⟩
  | take a =>
    cases hs : l.stored with
    | nil => simp [Ledger.apply, hs] at h
    | cons e es =>
      simp only [Ledger.apply, hs] at h
      split at h
      · obtain rfl := Option.some.inj h
        refine ⟨fun x hx => hbound x ?_, ?_, ?_⟩
        · simp only [Ledger.entries, hs, List.mem_append, List.mem_cons] at hx ⊢
          tauto
        · simpa [hs] using hleaving
        · rw [hs] at hplace
          exact (List.pairwise_cons.mp hplace).2
      · cases h
  | clear =>
    obtain rfl := Option.some.inj h
    refine ⟨fun x hx => hbound x ?_, ?_, by simp⟩
    · simp only [Ledger.entries, List.mem_append] at hx ⊢
      tauto
    · rw [List.append_nil]
      exact (List.pairwise_append.mp hleaving).1

theorem replay_ordered {l l' : Ledger α} {moves : List (Move α)} (h : l.replay moves = some l')
    (hl : l.Ordered) : l'.Ordered := by
  induction moves generalizing l with
  | nil =>
    obtain rfl := Option.some.inj h
    exact hl
  | cons move moves ih =>
    obtain ⟨l1, h1, h2⟩ := Option.bind_eq_some_iff.mp h
    exact ih h2 (apply_ordered h1 hl)

/-- Exactly once: the entries of the ledger are those that it had and those that were accepted. -/
theorem replay_entries {l l' : Ledger α} {moves : List (Move α)} (h : l.replay moves = some l') :
    l'.entries.Perm (l.entries ++ accepted l.next moves) := by
  induction moves generalizing l with
  | nil =>
    obtain rfl := Option.some.inj h
    simp [accepted]
  | cons move moves ih =>
    obtain ⟨l1, h1, h2⟩ := Option.bind_eq_some_iff.mp h
    refine (ih h2).trans ?_
    rw [List.perm_iff_count]
    intro x
    cases move with
    | put a =>
      obtain rfl := Option.some.inj h1
      simp only [accepted, Ledger.entries, List.count_append, List.count_cons, List.count_nil]
      omega
    | jump a =>
      obtain rfl := Option.some.inj h1
      simp only [accepted, Ledger.entries, List.count_append, List.count_cons]
      omega
    | take a =>
      cases hs : l.stored with
      | nil => simp [Ledger.apply, hs] at h1
      | cons e es =>
        simp only [Ledger.apply, hs] at h1
        split at h1
        · obtain rfl := Option.some.inj h1
          simp only [accepted, Ledger.entries, hs, List.count_append, List.count_cons,
            List.count_nil]
          omega
        · cases h1
    | clear =>
      obtain rfl := Option.some.inj h1
      simp only [accepted, Ledger.entries, List.count_append, List.count_nil]
      omega

end OpenSaab.Deque
