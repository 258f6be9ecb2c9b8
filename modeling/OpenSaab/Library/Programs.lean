/-!
# Programs that can fail

A program works on a state and ends with a value or a failure. The state is kept when it fails.
`Keeps` says that whatever a program does, the state changes in an allowed way only.
-/

namespace OpenSaab

def Program (σ ε α : Type) := σ → Except ε α × σ

namespace Program

variable {σ τ ε α β : Type}

instance instMonad : Monad (Program σ ε) where
  pure a := fun s => (.ok a, s)
  bind p f := fun s =>
    match p s with
    | (.ok a, s') => f a s'
    | (.error e, s') => (.error e, s')

def fail (e : ε) : Program σ ε α := fun s => (.error e, s)

def read (f : σ → α) : Program σ ε α := fun s => (.ok (f s), s)

def change (f : σ → σ) : Program σ ε Unit := fun s => (.ok (), f s)

/-- A value that has been computed, or the failure of the computation. -/
def lift (r : Except ε α) : Program σ ε α := fun s => (r, s)

/-- A program whose failure is a value. -/
def attempt {ε' : Type} (p : Program σ ε α) : Program σ ε' (Except ε α) := fun s =>
  (.ok (p s).1, (p s).2)

/-- The program for each item of the list, up to the first failure. -/
def each (p : β → Program σ ε Unit) : List β → Program σ ε Unit
  | [] => pure ()
  | b :: bs => do
    p b
    each p bs

/-- The body over and over while the condition holds, `stop` when the fuel has run out. -/
def loop (stop : ε) (condition : Program σ ε Bool) (body : β → Program σ ε β) :
    Nat → β → Program σ ε β
  | 0, _ => fail stop
  | n + 1, b => do
    if ← condition then
      let b ← body b
      loop stop condition body n b
    else pure b

/-- A program on a part of the state. -/
def within (get : τ → σ) (set : τ → σ → τ) (p : Program σ ε α) : Program τ ε α := fun t =>
  let r := p (get t)
  (r.1, set t r.2)

/-! ## Running -/

section Running

variable {s s' : σ} {f : α → Program σ ε β} {p : Program σ ε α}

@[simp] theorem pure_apply (a : α) : (pure a : Program σ ε α) s = (.ok a, s) := rfl

@[simp] theorem fail_apply (e : ε) : (fail e : Program σ ε α) s = (.error e, s) := rfl

@[simp] theorem lift_apply (r : Except ε α) : lift r s = (r, s) := rfl

@[simp] theorem bind_read (g : σ → α) : (read g >>= f) s = f (g s) s := rfl

@[simp] theorem bind_change (g : σ → σ) (f : Unit → Program σ ε β) :
    (change g >>= f) s = f () (g s) := rfl

@[simp] theorem bind_attempt {ε' : Type} (p : Program σ ε α) (f : Except ε α → Program σ ε' β) :
    (attempt p >>= f) s = f (p s).1 (p s).2 := rfl

theorem bind_ok {a : α} (h : p s = (.ok a, s')) : (p >>= f) s = f a s' := by
  change (match p s with
    | (.ok a, s') => f a s'
    | (.error e, s') => (.error e, s')) = _
  rw [h]

theorem bind_error {e : ε} (h : p s = (.error e, s')) : (p >>= f) s = (.error e, s') := by
  change (match p s with
    | (.ok a, s') => f a s'
    | (.error e, s') => (.error e, s')) = _
  rw [h]

/-- What holds of a failure of the first program and of the second holds of both. -/
theorem bind_induct {Q : Except ε β × σ → Prop} (herror : ∀ e s', p s = (.error e, s') → Q (.error e, s'))
    (hok : ∀ a s', p s = (.ok a, s') → Q (f a s')) : Q ((p >>= f) s) := by
  cases h : p s with
  | mk r s' =>
    cases r with
    | error e =>
      rw [bind_error h]
      exact herror e s' h
    | ok a =>
      rw [bind_ok h]
      exact hok a s' h

/-- What is made of the value does not change the state. -/
theorem bind_pure_snd (g : α → β) : ((p >>= fun a => pure (g a)) s).2 = (p s).2 := by
  refine bind_induct (Q := fun r => r.2 = (p s).2) ?_ ?_
  · intro e s' h
    rw [h]
  · intro a s' h
    rw [h]
    rfl

end Running

theorem except_bind_ok {r : Except ε α} {f : α → Except ε β} {b : β} (h : (r >>= f) = .ok b) :
    ∃ a, r = .ok a ∧ f a = .ok b := by
  cases r with
  | error e => cases h
  | ok a => exact ⟨a, rfl, h⟩

/-! ## Changes -/

/-- An allowed change of the state: staying is one, and so are two of them in turn. -/
structure Allowed (σ : Type) where
  rel : σ → σ → Prop
  refl : ∀ s, rel s s
  trans : ∀ {s t u}, rel s t → rel t u → rel s u

/-- The change that keeps an invariant. -/
def Allowed.invariant (I : σ → Prop) : Allowed σ where
  rel s t := I s → I t
  refl _ := id
  trans h h' := h' ∘ h

def Keeps (R : Allowed σ) (p : Program σ ε α) : Prop := ∀ s, R.rel s (p s).2

variable {R : Allowed σ}

theorem Keeps.pure (a : α) : Keeps R (pure a : Program σ ε α) := fun s => R.refl s

theorem Keeps.fail (e : ε) : Keeps R (fail e : Program σ ε α) := fun s => R.refl s

theorem Keeps.read (f : σ → α) : Keeps R (read f : Program σ ε α) := fun s => R.refl s

theorem Keeps.lift (r : Except ε α) : Keeps R (lift r : Program σ ε α) := fun s => R.refl s

theorem Keeps.bind {p : Program σ ε α} {f : α → Program σ ε β} (hp : Keeps R p)
    (hf : ∀ a, Keeps R (f a)) : Keeps R (p >>= f) := by
  intro s
  have hfirst := hp s
  change R.rel s (match p s with
    | (.ok a, s') => f a s'
    | (.error e, s') => (.error e, s')).2
  generalize p s = r at hfirst ⊢
  obtain ⟨e | a, s'⟩ := r
  · exact hfirst
  · exact R.trans hfirst (hf a s')

theorem Keeps.each {p : β → Program σ ε Unit} {bs : List β} (h : ∀ b ∈ bs, Keeps R (p b)) :
    Keeps R (each p bs) := by
  induction bs with
  | nil => exact Keeps.pure ()
  | cons b bs ih =>
    exact (h b List.mem_cons_self).bind fun _ => ih fun c hc => h c (List.mem_cons_of_mem b hc)

/-- Whatever the program ends with has the property. -/
def Returns (Q : α → Prop) (p : Program σ ε α) : Prop := ∀ s a s', p s = (.ok a, s') → Q a

theorem Returns.pure {Q : α → Prop} {a : α} (h : Q a) : Returns Q (pure a : Program σ ε α) := by
  intro s b s' hrun
  obtain rfl := Except.ok.inj (Prod.mk.inj hrun).1
  exact h

theorem Returns.bind {Q : β → Prop} {p : Program σ ε α} {f : α → Program σ ε β}
    (h : ∀ a, Returns Q (f a)) : Returns Q (p >>= f) := by
  intro s b s' hrun
  cases hp : p s with
  | mk r t =>
    cases r with
    | error e =>
      rw [bind_error hp] at hrun
      cases (Prod.mk.inj hrun).1
    | ok a =>
      rw [bind_ok hp] at hrun
      exact h a t b s' hrun

/-! ## Triples -/

/-- From a state with `P` the program ends well with `Q`, or fails with `E`. -/
def Triple (P : σ → Prop) (p : Program σ ε α) (Q : α → σ → Prop) (E : ε → σ → Prop) : Prop :=
  ∀ s, P s → match p s with
    | (.ok a, s') => Q a s'
    | (.error e, s') => E e s'

section Triples

variable {P : σ → Prop} {Q : α → σ → Prop} {E : ε → σ → Prop}

theorem Triple.pure {a : α} (h : ∀ s, P s → Q a s) :
    Triple P (pure a : Program σ ε α) Q E := h

theorem Triple.fail {e : ε} (h : ∀ s, P s → E e s) : Triple P (fail e : Program σ ε α) Q E := h

theorem Triple.read {f : σ → α} (h : ∀ s, P s → Q (f s) s) :
    Triple P (read f : Program σ ε α) Q E := h

theorem Triple.change {f : σ → σ} {Q : Unit → σ → Prop} (h : ∀ s, P s → Q () (f s)) :
    Triple P (change f : Program σ ε Unit) Q E := h

theorem Triple.lift {r : Except ε α} (hok : ∀ a, r = .ok a → ∀ s, P s → Q a s)
    (herror : ∀ e, r = .error e → ∀ s, P s → E e s) : Triple P (lift r) Q E := by
  intro s hs
  cases r with
  | error e => exact herror e rfl s hs
  | ok a => exact hok a rfl s hs

theorem Triple.bind {p : Program σ ε α} {f : α → Program σ ε β} {R : α → σ → Prop}
    {Q : β → σ → Prop} (hp : Triple P p R E) (hf : ∀ a, Triple (R a) (f a) Q E) :
    Triple P (p >>= f) Q E := by
  intro s hs
  have hfirst := hp s hs
  rcases hrun : p s with ⟨e | a, s'⟩
  · rw [hrun] at hfirst
    rw [bind_error hrun]
    exact hfirst
  · rw [hrun] at hfirst
    rw [bind_ok hrun]
    exact hf a s' hfirst

/-- A program that goes one of two ways on what it reads. -/
theorem Triple.branch {c : σ → Bool} {p q : Program σ ε α}
    (hp : Triple (fun s => P s ∧ c s = true) p Q E)
    (hq : Triple (fun s => P s ∧ c s = false) q Q E) :
    Triple P (do if ← Program.read c then p else q) Q E := by
  intro s hs
  rw [bind_read]
  cases hc : c s with
  | true => exact hp s ⟨hs, hc⟩
  | false => exact hq s ⟨hs, hc⟩

theorem Triple.of_exists {p : Program σ ε α} {R : β → σ → Prop} (h : ∀ b, Triple (R b) p Q E) :
    Triple (fun s => ∃ b, R b s) p Q E := fun s ⟨b, hs⟩ => h b s hs

theorem Triple.of_and {p : Program σ ε α} {φ : Prop} (h : φ → Triple P p Q E) :
    Triple (fun s => φ ∧ P s) p Q E := fun s ⟨hφ, hs⟩ => h hφ s hs

theorem Triple.weaken {p : Program σ ε α} {P' : σ → Prop} (h : Triple P p Q E)
    (hP : ∀ s, P' s → P s) : Triple P' p Q E := fun s hs => h s (hP s hs)

theorem Triple.mono {p : Program σ ε α} {Q' : α → σ → Prop} (h : Triple P p Q E)
    (hQ : ∀ a s, Q a s → Q' a s) : Triple P p Q' E := by
  intro s hs
  have hend := h s hs
  rcases hrun : p s with ⟨e | a, s'⟩
  · rwa [hrun] at hend
  · rw [hrun] at hend
    exact hQ a s' hend

theorem Triple.attempt {ε' : Type} {p : Program σ ε α} {E' : ε' → σ → Prop} (h : Triple P p Q E) :
    Triple P (attempt p) (fun r s => match r with
      | .ok a => Q a s
      | .error e => E e s) E' := by
  intro s hs
  have hend := h s hs
  rcases hrun : p s with ⟨e | a, s'⟩
  · rw [hrun] at hend
    simpa [Program.attempt, hrun] using hend
  · rw [hrun] at hend
    simpa [Program.attempt, hrun] using hend

/-- What holds before an item and the rest holds before the rest. -/
theorem Triple.each {p : β → Program σ ε Unit} {I : List β → σ → Prop}
    (h : ∀ b bs, Triple (I (b :: bs)) (p b) (fun _ => I bs) E) (bs : List β) :
    Triple (I bs) (each p bs) (fun _ => I []) E := by
  induction bs with
  | nil => exact Triple.pure fun s hs => hs
  | cons b bs ih => exact (h b bs).bind fun _ => ih

/-- What holds before the condition holds after the body. -/
theorem Triple.loop {stop : ε} {condition : Program σ ε Bool} {body : β → Program σ ε β}
    {I J : β → σ → Prop} {Q : β → σ → Prop}
    (hcondition : ∀ b, Triple (I b) condition (fun c s => if c then J b s else Q b s) E)
    (hbody : ∀ b, Triple (J b) (body b) I E) (hstop : ∀ b s, I b s → E stop s) (n : Nat) (b : β) :
    Triple (I b) (loop stop condition body n b) Q E := by
  induction n generalizing b with
  | zero => exact Triple.fail (hstop b)
  | succ n ih =>
    refine (hcondition b).bind fun c => ?_
    cases c with
    | true => exact (hbody b).bind fun b => ih b
    | false => exact Triple.pure fun s hs => hs

/-- What holds at every end. -/
theorem Triple.always {p : Program σ ε α} {I : σ → Prop}
    (h : Triple P p (fun _ => I) fun _ => I) {s : σ} (hs : P s) : I (p s).2 := by
  have hend := h s hs
  rcases hrun : p s with ⟨e | a, s'⟩
  · rwa [hrun] at hend
  · rwa [hrun] at hend

end Triples

/-! ## Failure before any change -/

/-- The program does not change the state. -/
def Reads (p : Program σ ε α) : Prop := ∀ s, (p s).2 = s

/-- The program does not fail. -/
def Succeeds (p : Program σ ε α) : Prop := ∀ s, ∃ a, (p s).1 = .ok a

/-- When the program fails the state is as it was. -/
def Atomic (p : Program σ ε α) : Prop := ∀ s e s', p s = (.error e, s') → s' = s

theorem Succeeds.change (f : σ → σ) : Succeeds (change f : Program σ ε Unit) := fun _ => ⟨(), rfl⟩

theorem Succeeds.pure (a : α) : Succeeds (pure a : Program σ ε α) := fun _ => ⟨a, rfl⟩

theorem Succeeds.bind {p : Program σ ε α} {f : α → Program σ ε β} (hp : Succeeds p)
    (hf : ∀ a, Succeeds (f a)) : Succeeds (p >>= f) := by
  intro s
  obtain ⟨a, ha⟩ := hp s
  rw [bind_ok (Prod.ext ha rfl)]
  exact hf a (p s).2

theorem Succeeds.atomic {p : Program σ ε α} (h : Succeeds p) : Atomic p := by
  intro s e s' hrun
  obtain ⟨a, ha⟩ := h s
  rw [hrun] at ha
  cases ha

theorem Reads.read (f : σ → α) : Reads (read f : Program σ ε α) := fun _ => rfl

theorem Reads.lift (r : Except ε α) : Reads (lift r : Program σ ε α) := fun _ => rfl

theorem Atomic.fail (e : ε) : Atomic (fail e : Program σ ε α) :=
  fun _ _ _ h => (Prod.mk.inj h).2.symm

/-- What reads first fails before any change as long as the rest does. -/
theorem Atomic.reads {p : Program σ ε α} {f : α → Program σ ε β} (hp : Reads p)
    (hf : ∀ a, Atomic (f a)) : Atomic (p >>= f) := by
  intro s e s' hrun
  have hstate := hp s
  cases h : p s with
  | mk r t =>
    rw [h] at hstate
    cases r with
    | error e' =>
      rw [bind_error h] at hrun
      exact (Prod.mk.inj hrun).2.symm.trans hstate
    | ok a =>
      rw [bind_ok h] at hrun
      exact (hf a t e s' hrun).trans hstate

/-- What can fail comes first, and the rest does not fail. -/
theorem Atomic.succeeds {p : Program σ ε α} {f : α → Program σ ε β} (hp : Atomic p)
    (hf : ∀ a, Succeeds (f a)) : Atomic (p >>= f) := by
  intro s e s' hrun
  cases h : p s with
  | mk r t =>
    cases r with
    | error e' =>
      rw [bind_error h] at hrun
      exact (Prod.mk.inj hrun).2.symm.trans (hp s e' t h)
    | ok a =>
      obtain ⟨b, hb⟩ := hf a t
      rw [bind_ok h] at hrun
      rw [hrun] at hb
      cases hb

theorem Atomic.ite {c : Prop} [Decidable c] {p q : Program σ ε α} (hp : Atomic p) (hq : Atomic q) :
    Atomic (if c then p else q) := by
  split
  · exact hp
  · exact hq

theorem Succeeds.ite {c : Prop} [Decidable c] {p q : Program σ ε α} (hp : Succeeds p)
    (hq : Succeeds q) : Succeeds (if c then p else q) := by
  split
  · exact hp
  · exact hq

end Program

end OpenSaab
