import Mathlib.Data.List.FinRange

/-!
# Queues that are drained through a callback

Each of `n` queues is emptied from its front through a callback with a state of its own. The
callback takes the entry, leaves it for a later round, or fails. An entry that it leaves holds back
only its own queue, an entry on which it fails stops the whole round, and neither is lost.
-/

namespace OpenSaab.Drain

variable {σ α ε : Type*} {n : Nat}

/-- The callback is given the number of the queue and the entry at its front. It says whether it has
taken the entry. -/
abbrev Callback (σ α ε : Type*) (n : Nat) := Fin n → α → σ → Except ε Bool × σ

/-- One queue. The result says whether its front was left. -/
def queue (deliver : α → σ → Except ε Bool × σ) : List α → σ → Except ε Bool × List α × σ
  | [], s => (.ok false, [], s)
  | a :: as, s =>
    match deliver a s with
    | (.error e, s) => (.error e, a :: as, s)
    | (.ok false, s) => (.ok true, a :: as, s)
    | (.ok true, s) => queue deliver as s

/-- The queues of the list, one after the other. The result counts those whose front was left. -/
def queues (deliver : Callback σ α ε n) :
    List (Fin n) → Vector (List α) n → σ → Except ε Nat × Vector (List α) n × σ
  | [], qs, s => (.ok 0, qs, s)
  | c :: cs, qs, s =>
    match queue (deliver c) qs[c] s with
    | (.error e, rest, s) => (.error e, qs.set c rest, s)
    | (.ok left, rest, s) =>
      let (deferred, qs, s) := queues deliver cs (qs.set c rest) s
      (deferred.map (left.toNat + ·), qs, s)

theorem ok_of_map_ok {β γ : Type*} {f : β → γ} {x : Except ε β} {b : γ} (h : x.map f = .ok b) :
    ∃ a, x = .ok a := by
  cases x with
  | error e => cases h
  | ok a => exact ⟨a, rfl⟩

theorem error_of_map_error {β γ : Type*} {f : β → γ} {x : Except ε β} {e : ε}
    (h : x.map f = .error e) : x = .error e := by
  cases x with
  | error e' => exact congrArg Except.error (Except.error.inj h)
  | ok a => cases h

/-! ## What is taken -/

/-- An entry that the callback took, with the state in which it took it. -/
structure Taken (σ α : Type*) (n : Nat) where
  queue : Fin n
  entry : α
  before : σ

/-- The callback, with a record of what it takes. -/
def recorded (deliver : Callback σ α ε n) : Callback (σ × List (Taken σ α n)) α ε n :=
  fun c a (s, taken) =>
    match deliver c a s with
    | (.error e, s') => (.error e, s', taken)
    | (.ok false, s') => (.ok false, s', taken)
    | (.ok true, s') => (.ok true, s', taken ++ [⟨c, a, s⟩])

/-- The record says what the callback did. -/
def Taken.Valid (deliver : Callback σ α ε n) (t : Taken σ α n) : Prop :=
  (deliver t.queue t.entry t.before).1 = .ok true

/-- The entries that were taken from one queue. -/
def Taken.of (c : Fin n) (taken : List (Taken σ α n)) : List α :=
  (taken.filter (·.queue = c)).map (·.entry)

theorem Taken.of_append (c : Fin n) (taken taken' : List (Taken σ α n)) :
    of c (taken ++ taken') = of c taken ++ of c taken' := by
  simp [of]

/-- The record of one queue: it is made beside the same steps, and what was taken from the front and
what is left are the queue as it was. -/
theorem queue_recorded (deliver : Callback σ α ε n) (c : Fin n) (as : List α) (s : σ)
    (taken : List (Taken σ α n)) :
    ∃ more, queue (recorded deliver c) as (s, taken) =
        ((queue (deliver c) as s).1, (queue (deliver c) as s).2.1,
          (queue (deliver c) as s).2.2, taken ++ more) ∧
      as = more.map (·.entry) ++ (queue (deliver c) as s).2.1 ∧
      ∀ t ∈ more, t.queue = c ∧ t.Valid deliver := by
  induction as generalizing s taken with
  | nil => exact ⟨[], by simp [queue], by simp [queue], by simp⟩
  | cons a as ih =>
    rcases hdeliver : deliver c a s with ⟨_ | (_ | _), s'⟩
    · exact ⟨[], by simp [queue, recorded, hdeliver], by simp [queue, hdeliver], by simp⟩
    · exact ⟨[], by simp [queue, recorded, hdeliver], by simp [queue, hdeliver], by simp⟩
    · obtain ⟨more, hrecord, hsplit, hvalid⟩ := ih s' (taken ++ [⟨c, a, s⟩])
      refine ⟨⟨c, a, s⟩ :: more, ?_, ?_, ?_⟩
      · simp only [queue, recorded, hdeliver]
        rw [hrecord, List.append_assoc, List.singleton_append]
      · simp only [queue, hdeliver, List.map_cons, List.cons_append]
        rw [← hsplit]
      · rintro t ht
        rcases List.mem_cons.mp ht with rfl | ht
        · exact ⟨rfl, by simp [Taken.Valid, hdeliver]⟩
        · exact hvalid t ht

theorem Taken.of_self {c : Fin n} {taken : List (Taken σ α n)} (h : ∀ t ∈ taken, t.queue = c) :
    of c taken = taken.map (·.entry) := by
  unfold of
  rw [List.filter_eq_self.mpr fun t ht => by simp [h t ht]]

theorem Taken.of_ne {c c' : Fin n} {taken : List (Taken σ α n)} (h : ∀ t ∈ taken, t.queue = c)
    (hne : c ≠ c') : of c' taken = [] := by
  unfold of
  rw [List.filter_eq_nil_iff.mpr fun t ht => by simp [h t ht, hne], List.map_nil]

/-- The record of a round: what was taken from each queue and what is left are the queue as it was,
however the round ends. -/
theorem queues_recorded (deliver : Callback σ α ε n) (cs : List (Fin n)) (qs : Vector (List α) n)
    (s : σ) (taken : List (Taken σ α n)) :
    ∃ more, queues (recorded deliver) cs qs (s, taken) =
        ((queues deliver cs qs s).1, (queues deliver cs qs s).2.1,
          (queues deliver cs qs s).2.2, taken ++ more) ∧
      (∀ c, qs[c] = Taken.of c more ++ (queues deliver cs qs s).2.1[c]) ∧
      ∀ t ∈ more, t.Valid deliver := by
  induction cs generalizing qs s taken with
  | nil => exact ⟨[], by simp [queues], by simp [queues, Taken.of], by simp⟩
  | cons c cs ih =>
    obtain ⟨first, hrecord, hsplit, hfirst⟩ := queue_recorded deliver c qs[c] s taken
    rcases hqueue : queue (deliver c) qs[c] s with ⟨_ | left, rest, s'⟩
    all_goals
      rw [hqueue] at hrecord hsplit
      have hown := Taken.of_self fun t ht => (hfirst t ht).1
      have hset : ∀ c', qs[c'] = Taken.of c' first ++ (qs.set c rest)[c'] := by
        intro c'
        by_cases hc : c = c'
        · subst hc
          rw [hown]
          simpa using hsplit
        · rw [Taken.of_ne (fun t ht => (hfirst t ht).1) hc]
          simp [Vector.getElem_set_ne _ _ (Fin.val_ne_iff.mpr hc)]
    · refine ⟨first, ?_, ?_, fun t ht => (hfirst t ht).2⟩
      · simp only [queues, hqueue, hrecord]
      · simpa only [queues, hqueue] using hset
    · obtain ⟨more, hrest, hleft, hvalid⟩ := ih (qs.set c rest) s' (taken ++ first)
      refine ⟨first ++ more, ?_, fun c' => ?_, fun t ht => ?_⟩
      · simp only [queues, hqueue, hrecord]
        rw [hrest, List.append_assoc]
      · rw [hset c', hleft c', Taken.of_append, List.append_assoc]
        simp only [queues, hqueue]
      · rcases List.mem_append.mp ht with ht | ht
        · exact (hfirst t ht).2
        · exact hvalid t ht

/-! ## What is left -/

/-- The front of the queue waits, if it has one. -/
def Waiting (W : α → Prop) (as : List α) : Prop := ∀ a rest, as = a :: rest → W a

theorem queue_waits {deliver : α → σ → Except ε Bool × σ} {W : σ → α → Prop}
    (hleft : ∀ a s, (deliver a s).1 = .ok false → W (deliver a s).2 a) (as : List α) (s : σ)
    {b : Bool}
    (h : (queue deliver as s).1 = .ok b) :
    Waiting (W (queue deliver as s).2.2) (queue deliver as s).2.1 := by
  induction as generalizing s with
  | nil => simp [queue, Waiting]
  | cons a as ih =>
    have hkept := hleft a s
    rcases hdeliver : deliver a s with ⟨_ | (_ | _), s'⟩
    · simp [queue, hdeliver] at h
    · rw [hdeliver] at hkept
      intro a' rest heq
      simp only [queue, hdeliver, List.cons.injEq] at heq ⊢
      exact heq.1 ▸ hkept rfl
    · simp only [queue, hdeliver] at h ⊢
      exact ih s' h

theorem queue_keeps {deliver : α → σ → Except ε Bool × σ} {I : σ → Prop}
    (hkeep : ∀ a s, I s → I (deliver a s).2) (as : List α) (s : σ) (h : I s) :
    I (queue deliver as s).2.2 := by
  induction as generalizing s with
  | nil => exact h
  | cons a as ih =>
    have hnext := hkeep a s h
    rcases hdeliver : deliver a s with ⟨_ | (_ | _), s'⟩ <;> rw [hdeliver] at hnext
    · simpa [queue, hdeliver] using hnext
    · simpa [queue, hdeliver] using hnext
    · simpa [queue, hdeliver] using ih s' hnext

/-- A round does not touch a queue that it does not come to, nor what the other deliveries keep. -/
theorem queues_keeps {deliver : Callback σ α ε n} {I : σ → Prop} {c : Fin n}
    (hkeep : ∀ c' ≠ c, ∀ a s, I s → I (deliver c' a s).2) {cs : List (Fin n)} (hc : c ∉ cs)
    (qs : Vector (List α) n) (s : σ) (h : I s) :
    (queues deliver cs qs s).2.1[c] = qs[c] ∧ I (queues deliver cs qs s).2.2 := by
  induction cs generalizing qs s with
  | nil => exact ⟨rfl, h⟩
  | cons c' cs ih =>
    obtain ⟨hne, hcs⟩ := not_or.mp (mt List.mem_cons.mpr hc)
    have hnext := queue_keeps (fun a s => hkeep c' (Ne.symm hne) a s) qs[c'] s h
    rcases hqueue : queue (deliver c') qs[c'] s with ⟨_ | left, rest, s'⟩
    all_goals
      rw [hqueue] at hnext
      have hset : (qs.set c' rest)[c] = qs[c] :=
        Vector.getElem_set_ne _ _ (Fin.val_ne_iff.mpr (Ne.symm hne))
    · simp only [queues, hqueue]
      exact ⟨hset, hnext⟩
    · simp only [queues, hqueue]
      obtain ⟨hsame, hkept⟩ := ih hcs (qs.set c' rest) s' hnext
      exact ⟨hsame.trans hset, hkept⟩

/-- After a round that ends well, the front of every queue waits: what is left in one queue is there
for a reason of its own, not because of another queue. -/
theorem queues_waits {deliver : Callback σ α ε n} {W : σ → Fin n → α → Prop}
    (hleft : ∀ c a s, (deliver c a s).1 = .ok false → W (deliver c a s).2 c a)
    (hkeep : ∀ c c', c' ≠ c → ∀ a a' s, W s c a → W (deliver c' a' s).2 c a)
    {cs : List (Fin n)} (hcs : cs.Nodup) (qs : Vector (List α) n) (s : σ) {deferred : Nat}
    (h : (queues deliver cs qs s).1 = .ok deferred) :
    ∀ c ∈ cs, Waiting (W (queues deliver cs qs s).2.2 c) (queues deliver cs qs s).2.1[c] := by
  induction cs generalizing qs s deferred with
  | nil => simp
  | cons c cs ih =>
    obtain ⟨hc, hnodup⟩ := List.nodup_cons.mp hcs
    rcases hqueue : queue (deliver c) qs[c] s with ⟨_ | left, rest, s'⟩
    · simp only [queues, hqueue, reduceCtorEq] at h
    · have hfirst := @queue_waits _ _ _ (deliver c) (fun s a => W s c a) (hleft c) qs[c] s left
        (by rw [hqueue])
      rw [hqueue] at hfirst
      simp only [queues, hqueue] at h ⊢
      intro c' hc'
      rcases List.mem_cons.mp hc' with rfl | hc'
      · obtain ⟨hsame, hwaits⟩ := queues_keeps (I := fun s => Waiting (W s c') rest)
          (fun c'' hne a' s hw a rest' heq => hkeep c' c'' hne a a' s (hw a rest' heq)) hc
          (qs.set c' rest) s' hfirst
        rw [hsame]
        simpa using hwaits
      · obtain ⟨deferred', hrest⟩ := ok_of_map_ok h
        exact ih hnodup _ s' hrest c' hc'

/-! ## Failure -/

theorem queue_fails {deliver : α → σ → Except ε Bool × σ} (as : List α) (s : σ) {e : ε}
    (h : (queue deliver as s).1 = .error e) :
    ∃ a rest s', (queue deliver as s).2.1 = a :: rest ∧
      deliver a s' = (.error e, (queue deliver as s).2.2) := by
  induction as generalizing s with
  | nil => simp [queue] at h
  | cons a as ih =>
    rcases hdeliver : deliver a s with ⟨e' | (_ | _), s'⟩
    · simp only [queue, hdeliver, Except.error.injEq] at h ⊢
      exact ⟨a, as, s, rfl, by rw [hdeliver, h]⟩
    · simp [queue, hdeliver] at h
    · simp only [queue, hdeliver] at h ⊢
      exact ih s' h

/-- A round that fails keeps the entry on which the callback failed at the front of its queue. -/
theorem queues_fails {deliver : Callback σ α ε n} {cs : List (Fin n)} (hcs : cs.Nodup)
    (qs : Vector (List α) n) (s : σ) {e : ε} (h : (queues deliver cs qs s).1 = .error e) :
    ∃ c ∈ cs, ∃ a rest s', (queues deliver cs qs s).2.1[c] = a :: rest ∧
      deliver c a s' = (.error e, (queues deliver cs qs s).2.2) := by
  induction cs generalizing qs s with
  | nil => simp [queues] at h
  | cons c cs ih =>
    have hfirst := @queue_fails _ _ _ (deliver c) qs[c] s
    rcases hqueue : queue (deliver c) qs[c] s with ⟨e' | left, rest, s'⟩
    · rw [hqueue] at hfirst
      simp only [queues, hqueue, Except.error.injEq] at h ⊢
      obtain ⟨a, rest', s₀, hfront, hfailed⟩ := hfirst (by rw [h])
      exact ⟨c, List.mem_cons_self, a, rest', s₀, by simpa using hfront, hfailed⟩
    · simp only [queues, hqueue] at h ⊢
      obtain ⟨c', hc', hkept⟩ := ih (List.nodup_cons.mp hcs).2 _ s' (error_of_map_error h)
      exact ⟨c', List.mem_cons_of_mem c hc', hkept⟩

end OpenSaab.Drain
