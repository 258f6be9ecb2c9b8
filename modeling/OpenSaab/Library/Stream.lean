import OpenSaab.Library.Runs

/-!
# Streams read in chunks

A reader takes one item to its next state and what it puts out, or fails. `feed` reads a chunk up to
the first failure. `latch` is a reader that remembers a failure: it leaves the stream alone from then
on. What such a reader makes of a stream does not depend on where the stream is cut.
-/

namespace OpenSaab.Stream

variable {σ β γ ε : Type*} (step : σ → β → σ × Except ε (List γ))

/-- One chunk, up to the first item that fails. -/
def feed : σ → List β → σ × Except ε (List γ)
  | s, [] => (s, .ok [])
  | s, b :: bs =>
    match step s b with
    | (s', .error e) => (s', .error e)
    | (s', .ok out) => ((feed s' bs).1, (feed s' bs).2.map (out ++ ·))

variable {step}

theorem feed_cons_ok {s s' : σ} {b : β} {out : List γ} (h : step s b = (s', .ok out))
    (bs : List β) :
    feed step s (b :: bs) = ((feed step s' bs).1, (feed step s' bs).2.map (out ++ ·)) := by
  rw [feed, h]

theorem feed_cons_error {s s' : σ} {b : β} {e : ε} (h : step s b = (s', .error e)) (bs : List β) :
    feed step s (b :: bs) = (s', .error e) := by
  rw [feed, h]

theorem feed_single {s s' : σ} {b : β} {out : List γ} (h : step s b = (s', .ok out)) :
    feed step s [b] = (s', .ok out) := by
  rw [feed_cons_ok h]
  simp [feed, Except.map]

theorem map_nil_append (r : Except ε (List γ)) : r.map ([] ++ ·) = r := by
  cases r <;> rfl

theorem map_append_append (xs ys : List γ) (r : Except ε (List γ)) :
    (r.map (ys ++ ·)).map (xs ++ ·) = r.map (xs ++ ys ++ ·) := by
  cases r <;> simp [Except.map]

/-- What a chunk that does not fail leaves is where the rest of the stream is read. -/
theorem feed_append_ok {s s' : σ} {as : List β} {out : List γ} (h : feed step s as = (s', .ok out))
    (bs : List β) :
    feed step s (as ++ bs) = ((feed step s' bs).1, (feed step s' bs).2.map (out ++ ·)) := by
  induction as generalizing s out with
  | nil =>
    obtain ⟨rfl, hout⟩ := Prod.mk.inj h
    obtain rfl := Except.ok.inj hout
    rw [map_nil_append, List.nil_append]
  | cons a as ih =>
    rcases hstep : step s a with ⟨t, e | first⟩
    · rw [feed_cons_error hstep] at h
      cases (Prod.mk.inj h).2
    · rw [feed_cons_ok hstep] at h
      rcases hrest : feed step t as with ⟨u, e | rest⟩
      · rw [hrest] at h
        cases (Prod.mk.inj h).2
      · rw [hrest] at h
        obtain ⟨rfl, hout⟩ := Prod.mk.inj h
        obtain rfl := Except.ok.inj hout
        rw [List.cons_append, feed_cons_ok hstep, ih hrest, map_append_append]

/-- A failure hides what follows it. -/
theorem feed_append_error {s s' : σ} {as : List β} {e : ε} (h : feed step s as = (s', .error e))
    (bs : List β) : feed step s (as ++ bs) = (s', .error e) := by
  induction as generalizing s with
  | nil => cases (Prod.mk.inj h).2
  | cons a as ih =>
    rcases hstep : step s a with ⟨t, e' | first⟩
    · rw [feed_cons_error hstep] at h
      rw [List.cons_append, feed_cons_error hstep, h]
    · rw [feed_cons_ok hstep] at h
      rcases hrest : feed step t as with ⟨u, e' | rest⟩
      · rw [hrest] at h
        obtain ⟨rfl, hout⟩ := Prod.mk.inj h
        rw [Except.error.inj hout] at hrest
        rw [List.cons_append, feed_cons_ok hstep, ih hrest]
        rfl
      · rw [hrest] at h
        cases (Prod.mk.inj h).2

/-- A run of chunks that do not fail, each started where the one before it ended. -/
theorem feed_append_eq {s t u : σ} {as bs : List β} {xs ys : List γ}
    (ha : feed step s as = (t, .ok xs)) (hb : feed step t bs = (u, .ok ys)) :
    feed step s (as ++ bs) = (u, .ok (xs ++ ys)) := by
  rw [feed_append_ok ha, hb]
  rfl

theorem feed_invariant {P : σ → Prop} (hstep : ∀ s b, P s → P (step s b).1) {s : σ} (bs : List β)
    (h : P s) : P (feed step s bs).1 := by
  induction bs generalizing s with
  | nil => exact h
  | cons b bs ih =>
    have hb := hstep s b h
    rcases hs : step s b with ⟨t, e | out⟩
    · rw [feed_cons_error hs]
      rwa [hs] at hb
    · rw [feed_cons_ok hs]
      rw [hs] at hb
      exact ih hb

/-! ## Readers that remember a failure -/

variable (step) (failed : σ → Bool) (stop : σ → σ) (refusal : ε)

/-- A chunk for a reader that refuses every chunk after a failure. -/
def latch (s : σ) (bs : List β) : σ × Except ε (List γ) :=
  if failed s then (s, .error refusal)
  else
    match feed step s bs with
    | (s', .ok out) => (s', .ok out)
    | (s', .error e) => (stop s', .error e)

/-- What the chunk puts out. -/
def produced (s : σ) (bs : List β) : List γ :=
  match (latch step failed stop refusal s bs).2 with
  | .ok out => out
  | .error _ => []

/-- The reader after a chunk. -/
def next (s : σ) (bs : List β) : σ := (latch step failed stop refusal s bs).1

variable {step failed stop refusal}

theorem latch_failed {s : σ} (h : failed s = true) (bs : List β) :
    latch step failed stop refusal s bs = (s, .error refusal) := if_pos h

theorem latch_ok {s s' : σ} {bs : List β} {out : List γ} (h : failed s = false)
    (hfeed : feed step s bs = (s', .ok out)) :
    latch step failed stop refusal s bs = (s', .ok out) := by
  rw [latch, if_neg (by simp [h]), hfeed]

theorem latch_error {s s' : σ} {bs : List β} {e : ε} (h : failed s = false)
    (hfeed : feed step s bs = (s', .error e)) :
    latch step failed stop refusal s bs = (stop s', .error e) := by
  rw [latch, if_neg (by simp [h]), hfeed]

theorem next_failed {s : σ} (h : failed s = true) (bs : List β) :
    next step failed stop refusal s bs = s := by
  rw [next, latch_failed h]

theorem produced_failed {s : σ} (h : failed s = true) (bs : List β) :
    produced step failed stop refusal s bs = [] := by
  rw [produced, latch_failed h]

section Cuts

variable (hkeep : ∀ s b, failed (step s b).1 = failed s) (hstop : ∀ s, failed (stop s) = true)
include hkeep

theorem feed_failed {s : σ} (bs : List β) (h : failed s = false) :
    failed (feed step s bs).1 = false :=
  feed_invariant (fun s b hs => (hkeep s b).trans hs) bs h

include hstop

/-- A chunk in two parts: the second part is read from where the first ended. -/
theorem latch_append (s : σ) (as bs : List β) :
    next step failed stop refusal s (as ++ bs) =
        next step failed stop refusal (next step failed stop refusal s as) bs ∧
      (failed (next step failed stop refusal s (as ++ bs)) = false →
        produced step failed stop refusal s (as ++ bs) =
          produced step failed stop refusal s as ++
            produced step failed stop refusal (next step failed stop refusal s as) bs) := by
  cases hs : failed s with
  | true =>
    simp only [next_failed hs, produced_failed hs, List.append_nil, implies_true, and_self]
  | false =>
    rcases ha : feed step s as with ⟨t, e | xs⟩
    · have hab := feed_append_error ha bs
      have hnext : next step failed stop refusal s as = stop t := by rw [next, latch_error hs ha]
      have hboth : next step failed stop refusal s (as ++ bs) = stop t := by
        rw [next, latch_error hs hab]
      rw [hnext, hboth, next_failed (hstop t)]
      refine ⟨rfl, ?_⟩
      intro h
      rw [hstop] at h
      cases h
    · have ht : failed t = false := by
        have := feed_failed hkeep as hs
        rwa [ha] at this
      have hnext : next step failed stop refusal s as = t := by rw [next, latch_ok hs ha]
      have hout : produced step failed stop refusal s as = xs := by rw [produced, latch_ok hs ha]
      rw [hnext, hout]
      rcases hb : feed step t bs with ⟨u, e | ys⟩
      · have hab : feed step s (as ++ bs) = (u, .error e) := by rw [feed_append_ok ha, hb]; rfl
        have hboth : next step failed stop refusal s (as ++ bs) = stop u := by
          rw [next, latch_error hs hab]
        rw [hboth, next, latch_error ht hb]
        refine ⟨rfl, ?_⟩
        intro h
        rw [hstop] at h
        cases h
      · have hab := feed_append_eq ha hb
        rw [next, produced, latch_ok hs hab, next, produced, latch_ok ht hb]
        exact ⟨rfl, fun _ => rfl⟩

/-- The state after a stream does not depend on its cuts. -/
theorem run_next (s : σ) (chunks : List (List β)) :
    Runs.run (next step failed stop refusal) s chunks =
      next step failed stop refusal s chunks.flatten := by
  induction chunks generalizing s with
  | nil =>
    cases hs : failed s with
    | true => rw [next_failed hs]; rfl
    | false => rw [List.flatten_nil, next, latch_ok hs rfl]; rfl
  | cons c cs ih =>
    rw [Runs.run_cons, ih, List.flatten_cons, (latch_append hkeep hstop s c cs.flatten).1]

/-- Nor does what comes out of a stream that is read to its end. -/
theorem log_produced (s : σ) (chunks : List (List β))
    (h : failed (next step failed stop refusal s chunks.flatten) = false) :
    Runs.log (next step failed stop refusal) (produced step failed stop refusal) s chunks =
      produced step failed stop refusal s chunks.flatten := by
  induction chunks generalizing s with
  | nil =>
    cases hs : failed s with
    | true => rw [produced_failed hs]; rfl
    | false => rw [List.flatten_nil, produced, latch_ok hs rfl]; rfl
  | cons c cs ih =>
    obtain ⟨hnext, hout⟩ := @latch_append _ _ _ _ step failed stop refusal hkeep hstop s c cs.flatten
    rw [List.flatten_cons] at h ⊢
    rw [hout h, Runs.log, ih _ (by rw [← hnext]; exact h)]

end Cuts

end OpenSaab.Stream
