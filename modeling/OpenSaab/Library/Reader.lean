import Mathlib.Data.List.Basic

/-!
# Readers

A reader takes items off the front of its input and knows how far it is. `Reads` says what a reader
makes of an input, whatever follows it.
-/

namespace OpenSaab.Reader

/-- What is left of the input, and where that starts. -/
structure Cursor (τ : Type*) where
  rest : List τ
  offset : Nat

structure Fault (ε : Type*) where
  offset : Nat
  reason : ε
  deriving DecidableEq, Repr

end Reader

abbrev Reader (τ ε α : Type) := StateT (Reader.Cursor τ) (Except (Reader.Fault ε)) α

namespace Reader

variable {τ ε α β : Type}

def fail (reason : ε) : Reader τ ε α := fun c => .error ⟨c.offset, reason⟩

/-- The next `n` items. -/
def take (n : Nat) (short : ε) : Reader τ ε (List τ) := fun c =>
  if n ≤ c.rest.length then .ok (c.rest.take n, ⟨c.rest.drop n, c.offset + n⟩)
  else .error ⟨c.offset, short⟩

/-- All that is left. -/
def rest : Reader τ ε (List τ) := fun c => .ok (c.rest, ⟨[], c.offset + c.rest.length⟩)

def finish (trailing : ε) : Reader τ ε Unit := fun c =>
  if c.rest.isEmpty then .ok ((), c) else .error ⟨c.offset, trailing⟩

/-- A reader of the whole input. -/
def whole (p : Reader τ ε α) (trailing : ε) : Reader τ ε α := do
  let v ← p
  finish trailing
  pure v

/-- The same reader, again and again. -/
def times : Nat → Reader τ ε α → Reader τ ε (List α)
  | 0, _ => pure []
  | n + 1, p => do
    let x ← p
    let xs ← times n p
    pure (x :: xs)

/-- What a reader has read, its parts have read in turn. -/
theorem bind_ok {p : Reader τ ε α} {f : α → Reader τ ε β} {c c' : Cursor τ} {b : β}
    (h : (p >>= f) c = .ok (b, c')) : ∃ a d, p c = .ok (a, d) ∧ f a d = .ok (b, c') := by
  change (p c >>= fun r => f r.1 r.2) = _ at h
  cases hp : p c with
  | error fault =>
    rw [hp] at h
    cases h
  | ok r =>
    rw [hp] at h
    exact ⟨r.1, r.2, rfl, h⟩

theorem take_ok {n : Nat} {short : ε} {c c' : Cursor τ} {xs : List τ}
    (h : take n short c = .ok (xs, c')) : xs.length = n ∧ c.rest = xs ++ c'.rest := by
  unfold take at h
  split at h
  · next hn =>
    obtain ⟨rfl, rfl⟩ := Prod.mk.inj (Except.ok.inj h)
    exact ⟨List.length_take_of_le hn, (List.take_append_drop n c.rest).symm⟩
  · cases h

/-- `p` reads `v` off an input that starts with `xs`, and leaves what follows. -/
def Reads (p : Reader τ ε α) (xs : List τ) (v : α) : Prop :=
  ∀ rest offset, p ⟨xs ++ rest, offset⟩ = .ok (v, ⟨rest, offset + xs.length⟩)

theorem Reads.pure (v : α) : Reads (pure v : Reader τ ε α) [] v := fun _ _ => rfl

theorem Reads.bind {p : Reader τ ε α} {f : α → Reader τ ε β} {xs ys : List τ} {a : α} {b : β}
    (hp : Reads p xs a) (hf : Reads (f a) ys b) : Reads (p >>= f) (xs ++ ys) b := by
  intro rest offset
  have hfirst := hp (ys ++ rest) offset
  have hsecond := hf rest (offset + xs.length)
  change (p ⟨xs ++ ys ++ rest, offset⟩ >>= fun r => f r.1 r.2) = _
  rw [List.append_assoc, hfirst, List.length_append, ← Nat.add_assoc]
  exact hsecond

/-- The case in which nothing is left for the second reader. -/
theorem Reads.last {p : Reader τ ε α} {f : α → Reader τ ε β} {xs : List τ} {a : α} {b : β}
    (hp : Reads p xs a) (hf : Reads (f a) [] b) : Reads (p >>= f) xs b := by
  rw [← List.append_nil xs]
  exact hp.bind hf

/-- The case in which the first reader takes nothing. -/
theorem Reads.skip {p : Reader τ ε α} {f : α → Reader τ ε β} {xs : List τ} {a : α} {b : β}
    (hp : Reads p [] a) (hf : Reads (f a) xs b) : Reads (p >>= f) xs b := by
  rw [← List.nil_append xs]
  exact hp.bind hf

theorem reads_take {xs : List τ} {n : Nat} (h : xs.length = n) (short : ε) :
    Reads (take n short) xs xs := by
  intro rest offset
  subst h
  rw [take, if_pos (by simp), List.take_left, List.drop_left]

theorem Reads.times {γ : Type} {p : Reader τ ε α} {write : γ → List τ} {read : γ → α}
    {items : List γ} (h : ∀ x ∈ items, Reads p (write x) (read x)) :
    Reads (times items.length p) (items.flatMap write) (items.map read) := by
  induction items with
  | nil => exact Reads.pure []
  | cons x xs ih =>
    have hrest := ih fun y hy => h y (List.mem_cons_of_mem x hy)
    exact (h x List.mem_cons_self).bind (hrest.last (Reads.pure _))

theorem Reads.whole {p : Reader τ ε α} {xs : List τ} {v : α} (h : Reads p xs v) (trailing : ε)
    (offset : Nat) : whole p trailing ⟨xs, offset⟩ = .ok (v, ⟨[], offset + xs.length⟩) := by
  have hall := h [] offset
  rw [List.append_nil] at hall
  change (p ⟨xs, offset⟩ >>= fun r => (finish trailing >>= fun _ => Pure.pure r.1) r.2) = _
  rw [hall]
  rfl

end OpenSaab.Reader
