import Mathlib.Logic.Basic
import Mathlib.Data.List.Basic
import Mathlib.Data.List.Induction

/-!
# Runs of a deterministic machine

A machine is a function `step` from a state and an action to the next state. `Each` is a
condition on every step of a run, `Always` a property of every state that the run reaches.
-/

namespace OpenSaab.Runs

variable {σ α ε : Type*} (step : σ → α → σ)

/-- The state after all the actions, in order. -/
def run : σ → List α → σ
  | s, [] => s
  | s, a :: as => run (step s a) as

/-- Every step of the run meets `P`, which sees the state before the step and the action. -/
def Each (P : σ → α → Prop) : σ → List α → Prop
  | _, [] => True
  | s, a :: as => P s a ∧ Each P (step s a) as

/-- Every state of the run, the first one included, satisfies `I`. -/
def Always (I : σ → Prop) : σ → List α → Prop
  | s, [] => I s
  | s, a :: as => I s ∧ Always I (step s a) as

/-- What the steps of the run put out, in order. -/
def log (out : σ → α → List ε) : σ → List α → List ε
  | _, [] => []
  | s, a :: as => out s a ++ log out (step s a) as

/-- The sum of what the steps of the run count. -/
def total (f : σ → α → Nat) : σ → List α → Nat
  | _, [] => 0
  | s, a :: as => f s a + total f (step s a) as

variable {step}

@[simp] theorem run_nil (s : σ) : run step s [] = s := rfl

@[simp] theorem run_cons (s : σ) (a : α) (as : List α) :
    run step s (a :: as) = run step (step s a) as := rfl

theorem run_append (s : σ) (as bs : List α) :
    run step s (as ++ bs) = run step (run step s as) bs := by
  induction as generalizing s with
  | nil => rfl
  | cons a as ih => exact ih (step s a)

/-- Actions that do nothing can be left out. -/
theorem log_filter {idle : α → Bool} {out : σ → α → List ε}
    (hstep : ∀ s a, idle a = true → step s a = s) (hout : ∀ s a, idle a = true → out s a = []) (s : σ)
    (as : List α) : log step out s (as.filter fun a => !idle a) = log step out s as := by
  induction as generalizing s with
  | nil => rfl
  | cons a as ih =>
    cases hidle : idle a with
    | true => rw [List.filter_cons_of_neg (by simp [hidle]), ih, log, hstep s a hidle, hout s a hidle,
        List.nil_append]
    | false => rw [List.filter_cons_of_pos (by simp [hidle]), log, log, ih]

/-- What is read off the output piece by piece. -/
theorem log_hom {ε' : Type*} {f : List ε → List ε'} (hnil : f [] = [])
    (happend : ∀ xs ys, f (xs ++ ys) = f xs ++ f ys) (out : σ → α → List ε) (s : σ) (as : List α) :
    f (log step out s as) = log step (fun s a => f (out s a)) s as := by
  induction as generalizing s with
  | nil => exact hnil
  | cons a as ih => rw [log, happend, ih, log]

theorem forall_mem_log {out : σ → α → List ε} {p : ε → Prop} (h : ∀ s a, ∀ x ∈ out s a, p x) (s : σ)
    (as : List α) : ∀ x ∈ log step out s as, p x := by
  induction as generalizing s with
  | nil => exact fun x hx => absurd hx List.not_mem_nil
  | cons a as ih =>
    intro x hx
    rcases List.mem_append.mp hx with hx | hx
    · exact h s a x hx
    · exact ih (step s a) x hx

instance decidableEach (P : σ → α → Prop) [∀ s a, Decidable (P s a)] (s : σ) :
    (as : List α) → Decidable (Each step P s as)
  | [] => isTrue trivial
  | a :: as =>
    have := decidableEach P (step s a) as
    inferInstanceAs (Decidable (P s a ∧ Each step P (step s a) as))

instance decidableAlways (I : σ → Prop) [∀ s, Decidable (I s)] (s : σ) :
    (as : List α) → Decidable (Always step I s as)
  | [] => inferInstanceAs (Decidable (I s))
  | a :: as =>
    have := decidableAlways I (step s a) as
    inferInstanceAs (Decidable (I s ∧ Always step I (step s a) as))

theorem each_congr {P Q : σ → α → Prop} (h : ∀ s a, P s a ↔ Q s a) {s : σ} {as : List α} :
    Each step P s as ↔ Each step Q s as := by
  induction as generalizing s with
  | nil => exact Iff.rfl
  | cons a as ih => exact and_congr (h s a) ih

theorem each_nil {P : σ → α → Prop} {s : σ} : Each step P s [] := trivial

theorem each_of_forall {P : α → Prop} {s : σ} {as : List α} (h : ∀ a ∈ as, P a) :
    Each step (fun _ a => P a) s as := by
  induction as generalizing s with
  | nil => trivial
  | cons a as ih =>
    obtain ⟨ha, has⟩ := List.forall_mem_cons.mp h
    exact ⟨ha, ih has⟩

theorem each_append {P : σ → α → Prop} (s : σ) (as bs : List α) :
    Each step P s (as ++ bs) ↔ Each step P s as ∧ Each step P (run step s as) bs := by
  induction as generalizing s with
  | nil => simp [Each]
  | cons a as ih => simp [Each, ih, and_assoc]

/-- The run rule: what every step keeps holds at the end. -/
theorem run_keeps {P : σ → α → Prop} {I : σ → Prop}
    (hstep : ∀ s a, P s a → I s → I (step s a)) {s : σ} {as : List α}
    (hP : Each step P s as) (hI : I s) : I (run step s as) := by
  induction as generalizing s with
  | nil => exact hI
  | cons a as ih => exact ih hP.2 (hstep s a hP.1 hI)

/-- The run rule for an invariant that needs no condition on the steps. -/
theorem run_invariant {I : σ → Prop} (hstep : ∀ s a, I s → I (step s a)) {s : σ} (as : List α)
    (hI : I s) : I (run step s as) := by
  induction as generalizing s with
  | nil => exact hI
  | cons a as ih => exact ih (hstep s a hI)

/-- A run is taken back by the steps that undo its own, the last one first. -/
theorem run_undone {undo : σ → α → σ} {P : α → Prop} {I : σ → Prop}
    (hI : ∀ s a, P a → I s → I (step s a)) (h : ∀ s a, P a → I s → undo (step s a) a = s)
    {as : List α} (has : ∀ a ∈ as, P a) {s : σ} (hs : I s) :
    run undo (run step s as) as.reverse = s := by
  induction as generalizing s with
  | nil => rfl
  | cons a as ih =>
    obtain ⟨ha, has⟩ := List.forall_mem_cons.mp has
    rw [run_cons, List.reverse_cons, run_append, ih has (hI s a ha hs)]
    exact h s a ha hs

theorem Always.first {I : σ → Prop} {s : σ} {as : List α} (h : Always step I s as) : I s := by
  cases as with
  | nil => exact h
  | cons a as => exact h.1

theorem Always.last {I : σ → Prop} {s : σ} {as : List α} (h : Always step I s as) :
    I (run step s as) := by
  induction as generalizing s with
  | nil => exact h
  | cons a as ih => exact ih h.2

theorem Always.drop {I : σ → Prop} {s : σ} {as bs : List α} (h : Always step I s (as ++ bs)) :
    Always step I (run step s as) bs := by
  induction as generalizing s with
  | nil => exact h
  | cons a as ih => exact ih h.2

/-- What holds throughout holds after every part of the run, and conversely. -/
theorem always_iff_take {I : σ → Prop} {s : σ} {as : List α} :
    Always step I s as ↔ ∀ before after, as = before ++ after → I (run step s before) := by
  constructor
  · rintro h before after rfl
    exact h.drop.first
  · intro h
    induction as generalizing s with
    | nil => exact h [] [] rfl
    | cons a as ih =>
      exact ⟨h [] _ rfl, ih fun before after heq => h (a :: before) after (congrArg (a :: ·) heq)⟩

/-- The balance rule: what comes in on one side and on the other of each step agrees over the
run. -/
theorem total_balance {P : σ → α → Prop} {I : σ → Prop} {level : σ → Nat} {out inn : σ → α → Nat}
    (hstep : ∀ s a, P s a → I s → I (step s a) → level (step s a) + out s a = level s + inn s a)
    {s : σ} {as : List α} (hP : Each step P s as) (hI : Always step I s as) :
    level (run step s as) + total step out s as = level s + total step inn s as := by
  induction as generalizing s with
  | nil => rfl
  | cons a as ih =>
    have hone := hstep s a hP.1 hI.1 hI.2.first
    have hrest := ih hP.2 hI.2
    simp only [run_cons, total]
    omega

/-- The run rule for a relation between the state and what has been put out so far. -/
theorem log_keeps {R : σ → List ε → Prop} {out : σ → α → List ε}
    (hstep : ∀ s a pre, R s pre → R (step s a) (pre ++ out s a)) {s : σ} {pre : List ε}
    (as : List α) (h : R s pre) : R (run step s as) (pre ++ log step out s as) := by
  induction as generalizing s pre with
  | nil => simpa [log] using h
  | cons a as ih =>
    rw [run_cons, log, ← List.append_assoc]
    exact ih (hstep s a pre h)

/-- The same rule where the steps meet a condition. -/
theorem log_keeps_of_each {P : σ → α → Prop} {R : σ → List ε → Prop} {out : σ → α → List ε}
    (hstep : ∀ s a pre, P s a → R s pre → R (step s a) (pre ++ out s a)) {s : σ} {pre : List ε}
    {as : List α} (hP : Each step P s as) (h : R s pre) :
    R (run step s as) (pre ++ log step out s as) := by
  induction as generalizing s pre with
  | nil => simpa [log] using h
  | cons a as ih =>
    rw [run_cons, log, ← List.append_assoc]
    exact ih hP.2 (hstep s a pre hP.1 h)

/-- A store that every step moves in order, from what comes in to what goes out. -/
theorem log_balance {I : σ → Prop} {store : σ → List ε} {inn out : σ → α → List ε}
    (hI : ∀ s a, I s → I (step s a))
    (hstep : ∀ s a, I s → store s ++ inn s a = out s a ++ store (step s a)) {s : σ} (h0 : I s)
    (as : List α) :
    store s ++ log step inn s as = log step out s as ++ store (run step s as) := by
  induction as generalizing s with
  | nil => simp [log]
  | cons a as ih =>
    simp only [log, run_cons]
    rw [← List.append_assoc, hstep s a h0, List.append_assoc, ih (hI s a h0), List.append_assoc]

theorem always_of_each {P : σ → α → Prop} {I : σ → Prop}
    (hstep : ∀ s a, P s a → I s → I (step s a)) {s : σ} {as : List α}
    (hP : Each step P s as) (hI : I s) : Always step I s as := by
  induction as generalizing s with
  | nil => exact hI
  | cons a as ih => exact ⟨hI, ih hP.2 (hstep s a hP.1 hI)⟩

theorem always_invariant {I : σ → Prop} (hstep : ∀ s a, I s → I (step s a)) {s : σ}
    (as : List α) (hI : I s) : Always step I s as := by
  induction as generalizing s with
  | nil => exact hI
  | cons a as ih => exact ⟨hI, ih (hstep s a hI)⟩

theorem Each.of_invariant {P : σ → α → Prop} {I : σ → Prop} (hstep : ∀ s a, I s → I (step s a))
    (hP : ∀ s a, I s → P s a) {s : σ} (as : List α) (hI : I s) : Each step P s as := by
  induction as generalizing s with
  | nil => trivial
  | cons a as ih => exact ⟨hP s a hI, ih (hstep s a hI)⟩

/-- What a state shows at the end is what the log makes of it, where each step does so. -/
theorem log_replay {β : Type*} {I : σ → Prop} {view : σ → β} {replay : β → List ε → β}
    {out : σ → α → List ε} (hnil : ∀ b, replay b [] = b)
    (happend : ∀ b xs ys, replay b (xs ++ ys) = replay (replay b xs) ys)
    (hI : ∀ s a, I s → I (step s a))
    (hstep : ∀ s a, I s → view (step s a) = replay (view s) (out s a)) {s : σ} (as : List α)
    (h0 : I s) : view (run step s as) = replay (view s) (log step out s as) := by
  induction as generalizing s with
  | nil => exact (hnil (view s)).symm
  | cons a as ih => rw [run_cons, ih (hI s a h0), hstep s a h0, log, happend]

/-- What a state can only have from the state before holds throughout if it holds at the end. -/
theorem always_of_last {I J : σ → Prop} (hJ : ∀ s a, J s → J (step s a))
    (hback : ∀ s a, J s → I (step s a) → I s) {s : σ} {as : List α} (h0 : J s)
    (h : I (run step s as)) : Always step I s as := by
  induction as generalizing s with
  | nil => exact h
  | cons a as ih =>
    have hrest := ih (hJ s a h0) h
    exact ⟨hback s a h0 hrest.first, hrest⟩

theorem Always.and {I I' : σ → Prop} {s : σ} {as : List α} (h : Always step I s as)
    (h' : Always step I' s as) : Always step (fun s => I s ∧ I' s) s as := by
  induction as generalizing s with
  | nil => exact ⟨h, h'⟩
  | cons a as ih => exact ⟨⟨h.1, h'.1⟩, ih h.2 h'.2⟩

theorem Each.mono {P Q : σ → α → Prop} (hQ : ∀ s a, P s a → Q s a) {s : σ} {as : List α}
    (h : Each step P s as) : Each step Q s as := by
  induction as generalizing s with
  | nil => trivial
  | cons a as ih => exact ⟨hQ s a h.1, ih h.2⟩

theorem Each.and {P Q : σ → α → Prop} {s : σ} {as : List α} (h : Each step P s as)
    (h' : Each step Q s as) : Each step (fun s a => P s a ∧ Q s a) s as := by
  induction as generalizing s with
  | nil => trivial
  | cons a as ih => exact ⟨⟨h.1, h'.1⟩, ih h.2 h'.2⟩

theorem Always.mono {I I' : σ → Prop} (hI : ∀ s, I s → I' s) {s : σ} {as : List α}
    (h : Always step I s as) : Always step I' s as := by
  induction as generalizing s with
  | nil => exact hI s h
  | cons a as ih => exact ⟨hI s h.1, ih h.2⟩

/-- What each step does follows from the state that it starts in and the condition that it meets. -/
theorem Each.of_always {P Q : σ → α → Prop} {I J : σ → Prop} (hJ : ∀ s a, J s → J (step s a))
    (hQ : ∀ s a, J s → I s → P s a → Q s a) {s : σ} {as : List α} (h0 : J s)
    (hI : Always step I s as) (hP : Each step P s as) : Each step Q s as := by
  induction as generalizing s with
  | nil => trivial
  | cons a as ih => exact ⟨hQ s a h0 hI.1 hP.1, ih (hJ s a h0) hI.2 hP.2⟩

/-- Where `J` holds throughout, `K` holds as long as the steps meet `P`, and from `K` one step leads
to `I` exactly when it meets `P`: then a run stays within `I` exactly when all its steps meet
`P`. -/
theorem always_iff_each_of {P : σ → α → Prop} {I J K : σ → Prop}
    (hJ : ∀ s a, J s → J (step s a)) (hKI : ∀ s, K s → I s)
    (hK : ∀ s a, J s → K s → P s a → K (step s a))
    (hstep : ∀ s a, J s → K s → (I (step s a) ↔ P s a)) {s : σ} {as : List α}
    (h0 : J s) (hs : K s) : Always step I s as ↔ Each step P s as := by
  induction as generalizing s with
  | nil => simpa [Always, Each] using hKI s hs
  | cons a as ih =>
    simp only [Always, Each]
    constructor
    · rintro ⟨-, h⟩
      have hP : P s a := (hstep s a h0 hs).mp h.first
      exact ⟨hP, (ih (hJ s a h0) (hK s a h0 hs hP)).mp h⟩
    · rintro ⟨hP, h⟩
      exact ⟨hKI s hs, (ih (hJ s a h0) (hK s a h0 hs hP)).mpr h⟩

/-- The case in which `I` itself is all that the next step needs. -/
theorem always_iff_each {P : σ → α → Prop} {I J : σ → Prop}
    (hJ : ∀ s a, J s → J (step s a))
    (hstep : ∀ s a, J s → I s → (I (step s a) ↔ P s a)) {s : σ} {as : List α}
    (h0 : J s) (hI : I s) : Always step I s as ↔ Each step P s as :=
  always_iff_each_of hJ (fun _ h => h) (fun s a hj hi hp => (hstep s a hj hi).mpr hp) hstep h0 hI

/-- Where each step is overtaken by a later one, only the last one counts. -/
theorem run_overtaken {R : α → α → Prop} {I : σ → α → Prop}
    (hI : ∀ s a b, I s a → R a b → I (step s a) b)
    (h : ∀ s a b, I s a → R a b → step (step s a) b = step s b) {s : σ} {as : List α} {b : α}
    (hR : (as ++ [b]).Pairwise R) (hs : ∀ a ∈ as ++ [b], I s a) :
    run step s (as ++ [b]) = step s b := by
  induction as generalizing s with
  | nil => rfl
  | cons a as ih =>
    obtain ⟨hfirst, hrest⟩ := List.pairwise_cons.mp hR
    have ha : I s a := hs a List.mem_cons_self
    have hb : b ∈ as ++ [b] := List.mem_append_right _ (List.mem_singleton.mpr rfl)
    rw [List.cons_append, run_cons, ih hrest fun c hc => hI s a c ha (hfirst c hc)]
    exact h s a b ha (hfirst b hb)

/-! ## Histories -/

/-- Each entry is justified by the entries before it. -/
def Justified (P : List ε → ε → Prop) (history : List ε) : Prop :=
  ∀ before x after, history = before ++ x :: after → P before x

theorem Justified.nil {P : List ε → ε → Prop} : Justified P [] := by
  intro before x after h
  cases before <;> cases h

theorem Justified.snoc {P : List ε → ε → Prop} {history : List ε} {a : ε} (h : Justified P history)
    (ha : P history a) : Justified P (history ++ [a]) := by
  intro before x after heq
  rcases List.eq_nil_or_concat after with rfl | ⟨rest, last, rfl⟩
  · obtain ⟨rfl, hlast⟩ := List.append_inj' heq rfl
    exact (List.cons.inj hlast).1 ▸ ha
  · rw [List.concat_eq_append, ← List.cons_append, ← List.append_assoc] at heq
    exact h before x rest (List.append_inj' heq rfl).1

theorem Justified.append {P : List ε → ε → Prop} {history : List ε} (h : Justified P history)
    {new : List ε} (hnew : Justified (fun before x => P (history ++ before) x) new) :
    Justified P (history ++ new) := by
  intro before x after heq
  rcases List.append_eq_append_iff.mp heq with ⟨rest, rfl, hrest⟩ | ⟨rest, rfl, hrest⟩
  · exact hnew rest x after hrest
  · cases rest with
    | nil => simpa only [List.append_nil] using hnew [] x after hrest.symm
    | cons y rest =>
      obtain ⟨rfl, -⟩ := List.cons.inj hrest
      exact h before x rest rfl

theorem Justified.of_append {P : List ε → ε → Prop} {history new : List ε}
    (h : Justified P (history ++ new)) : Justified P history := by
  intro before x after heq
  exact h before x (after ++ new) (by simp [heq])

/-- Induction on a history, entry by entry. -/
theorem Justified.induct {P : List ε → ε → Prop} {I : List ε → Prop} (hnil : I [])
    (hsnoc : ∀ history a, I history → P history a → I (history ++ [a])) {history : List ε}
    (h : Justified P history) : I history := by
  induction history using List.reverseRecOn with
  | nil => exact hnil
  | append_singleton history a ih => exact hsnoc history a (ih h.of_append) (h history a [] rfl)

/-- There has been an entry with `P`, which may look at those before it, and `Q` for all after it. -/
def Since (P : List ε → ε → Prop) (Q : ε → Prop) (history : List ε) : Prop :=
  ∃ before x after, history = before ++ x :: after ∧ P before x ∧ ∀ y ∈ after, Q y

theorem Since.mono {P P' : List ε → ε → Prop} {Q : ε → Prop} {history : List ε}
    (h : Since P Q history) (hP : ∀ before x, P before x → P' before x) : Since P' Q history := by
  obtain ⟨before, x, after, heq, hx, hafter⟩ := h
  exact ⟨before, x, after, heq, hP before x hx, hafter⟩

theorem since_nil {P : List ε → ε → Prop} {Q : ε → Prop} : ¬ Since P Q [] := by
  rintro ⟨before, x, after, heq, -⟩
  cases before <;> cases heq

theorem since_snoc {P : List ε → ε → Prop} {Q : ε → Prop} {history : List ε} {a : ε} :
    Since P Q (history ++ [a]) ↔ P history a ∨ Since P Q history ∧ Q a := by
  constructor
  · rintro ⟨before, x, after, heq, hx, hafter⟩
    rcases List.eq_nil_or_concat after with rfl | ⟨rest, last, rfl⟩
    · obtain ⟨rfl, hlast⟩ := List.append_inj' heq rfl
      exact .inl ((List.cons.inj hlast).1 ▸ hx)
    · rw [List.concat_eq_append, ← List.cons_append, ← List.append_assoc] at heq
      obtain ⟨rfl, hlast⟩ := List.append_inj' heq rfl
      obtain ⟨rfl, -⟩ := List.cons.inj hlast
      rw [List.concat_eq_append, List.forall_mem_append] at hafter
      exact .inr ⟨⟨before, x, rest, rfl, hx, hafter.1⟩, hafter.2 a (List.mem_singleton.mpr rfl)⟩
  · rintro (ha | ⟨⟨before, x, after, rfl, hx, hafter⟩, ha⟩)
    · exact ⟨history, a, [], rfl, ha, nofun⟩
    · refine ⟨before, x, after ++ [a], by simp, hx, fun y hy => ?_⟩
      rcases List.mem_append.mp hy with hy | hy
      · exact hafter y hy
      · exact List.mem_singleton.mp hy ▸ ha

/-- Entries of these kinds occur one after the other, with any others between them. -/
def InOrder : List (ε → Prop) → List ε → Prop
  | [], _ => True
  | P :: ps, history => ∃ before x after, history = before ++ x :: after ∧ P x ∧ InOrder ps after

theorem InOrder.append {ps : List (ε → Prop)} {history : List ε} (h : InOrder ps history)
    (new : List ε) : InOrder ps (history ++ new) := by
  induction ps generalizing history with
  | nil => trivial
  | cons P ps ih =>
    obtain ⟨before, x, after, rfl, hx, hrest⟩ := h
    exact ⟨before, x, after ++ new, by simp, hx, ih hrest⟩

theorem InOrder.snoc {ps : List (ε → Prop)} {P : ε → Prop} {history : List ε} {a : ε}
    (h : InOrder ps history) (ha : P a) : InOrder (ps ++ [P]) (history ++ [a]) := by
  induction ps generalizing history with
  | nil => exact ⟨history, a, [], rfl, ha, trivial⟩
  | cons Q ps ih =>
    obtain ⟨before, x, after, rfl, hx, hrest⟩ := h
    exact ⟨before, x, after ++ [a], by simp, hx, ih hrest⟩

theorem InOrder.mem {ps : List (ε → Prop)} {history : List ε} (h : InOrder ps history) :
    ∀ P ∈ ps, ∃ x ∈ history, P x := by
  induction ps generalizing history with
  | nil => exact fun P hP => absurd hP List.not_mem_nil
  | cons Q ps ih =>
    obtain ⟨before, x, after, rfl, hx, hrest⟩ := h
    intro P hP
    rcases List.mem_cons.mp hP with rfl | hP
    · exact ⟨x, by simp, hx⟩
    · obtain ⟨y, hy, hPy⟩ := ih hrest P hP
      exact ⟨y, List.mem_append_right _ (List.mem_cons_of_mem _ hy), hPy⟩

end OpenSaab.Runs
