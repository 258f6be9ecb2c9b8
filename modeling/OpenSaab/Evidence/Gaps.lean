import OpenSaab.Evidence.BoundedCapture

/-!
# The beginning of a session

The activities that are recorded are the first ones as long as none that is too long is followed by one
that is not.
-/

namespace OpenSaab.Evidence

open Json Runs

variable {toVec : Value → Option (List UInt8)} {c : BoundedCapture} {o : Offer}

section Gaps

variable (toVec)

/-- The bytes of the lines. -/
def totalBytes (os : List Offer) : Nat := (os.flatMap fun o => line toVec o.activity).length

/-- The first of these activities whose line fits is written. -/
def Resumes (left : Nat) (os : List Offer) : Prop :=
  ∃ middle last rest, os = middle ++ last :: rest ∧ (∀ o ∈ middle, ¬ Fits toVec left o.activity) ∧
    Fits toVec left last.activity ∧ last.write = .done

/-- An activity that does not fit behind the first ones is followed by one that does. -/
def Gap (limit : Nat) (os : List Offer) : Prop :=
  ∃ first o rest, os = first ++ o :: rest ∧
    (∀ o ∈ first, (toVec o.activity).isSome ∧ o.write = .done) ∧ totalBytes toVec first ≤ limit ∧
    ¬ Fits toVec (limit - totalBytes toVec first) o.activity ∧
    Resumes toVec (limit - totalBytes toVec first) rest

end Gaps

theorem resumes_nil (left : Nat) : ¬ Resumes toVec left [] := by
  rintro ⟨middle, last, rest, heq, -⟩
  cases middle <;> cases heq

theorem resumes_cons {left : Nat} {os : List Offer} :
    Resumes toVec left (o :: os) ↔
      (Fits toVec left o.activity ∧ o.write = .done) ∨
        (¬ Fits toVec left o.activity ∧ Resumes toVec left os) := by
  constructor
  · rintro ⟨middle, last, rest, heq, hmiddle, hlast⟩
    cases middle with
    | nil =>
      obtain ⟨rfl, -⟩ := List.cons.inj heq
      exact .inl hlast
    | cons o' middle =>
      obtain ⟨rfl, rfl⟩ := List.cons.inj heq
      obtain ⟨hfirst, hmiddle⟩ := List.forall_mem_cons.mp hmiddle
      exact .inr ⟨hfirst, middle, last, rest, rfl, hmiddle, hlast⟩
  · rintro (hfits | ⟨hfits, middle, last, rest, rfl, hmiddle, hlast⟩)
    · exact ⟨[], o, os, rfl, by simp, hfits⟩
    · exact ⟨o :: middle, last, rest, rfl, List.forall_mem_cons.mpr ⟨hfits, hmiddle⟩, hlast⟩

theorem gap_nil (limit : Nat) : ¬ Gap toVec limit [] := by
  rintro ⟨first, o, rest, heq, -⟩
  cases first <;> cases heq

theorem gap_cons {limit : Nat} {os : List Offer} :
    Gap toVec limit (o :: os) ↔
      (¬ Fits toVec limit o.activity ∧ Resumes toVec limit os) ∨
        (Fits toVec limit o.activity ∧ o.write = .done ∧
          Gap toVec (limit - (line toVec o.activity).length) os) := by
  have htotal : ∀ first, totalBytes toVec (o :: first) =
      (line toVec o.activity).length + totalBytes toVec first := fun first => by
    unfold totalBytes
    rw [List.flatMap_cons, List.length_append]
  constructor
  · rintro ⟨first, o', rest, heq, hfirst, hlimit, hfits, hresumes⟩
    cases first with
    | nil =>
      obtain ⟨rfl, rfl⟩ := List.cons.inj heq
      exact .inl ⟨hfits, hresumes⟩
    | cons o'' first =>
      obtain ⟨rfl, rfl⟩ := List.cons.inj heq
      obtain ⟨⟨hsome, hdone⟩, hfirst⟩ := List.forall_mem_cons.mp hfirst
      rw [htotal] at hlimit hfits hresumes
      rw [← Nat.sub_sub] at hfits hresumes
      exact .inr ⟨⟨hsome, by omega⟩, hdone, first, o', rest, rfl, hfirst, by omega, hfits, hresumes⟩
  · rintro (⟨hfits, hresumes⟩ | ⟨⟨hsome, hlength⟩, hdone, first, o', rest, rfl, hfirst, hlimit, hfits,
      hresumes⟩)
    · exact ⟨[], o, os, rfl, by simp, Nat.zero_le _, hfits, hresumes⟩
    · rw [Nat.sub_sub, ← htotal] at hfits hresumes
      refine ⟨o :: first, o', rest, rfl, List.forall_mem_cons.mpr ⟨⟨hsome, hdone⟩, hfirst⟩, ?_, hfits,
        hresumes⟩
      rw [htotal]
      omega

/-! ## What is kept -/

/-- What is kept of these activities. -/
def keptOf (toVec : Value → Option (List UInt8)) (c : BoundedCapture) (os : List Offer) : List Value :=
  kept (log (BoundedCapture.record toVec) (fates toVec) c os)

theorem keptOf_cons (hidle : o.isIdle = false) (os : List Offer) :
    keptOf toVec c (o :: os) =
      (if recorded toVec c o then [o.activity] else []) ++ keptOf toVec (c.record toVec o) os := by
  unfold keptOf
  rw [log, kept_append, fates_busy hidle]
  congr 1
  unfold kept
  cases recorded toVec c o <;> rfl

theorem keptOf_omitted (hidle : o.isIdle = false)
    (h : ¬ (c.writeError = none ∧ Fits toVec c.left o.activity)) (os : List Offer) :
    keptOf toVec c (o :: os) = keptOf toVec c.leaveOut os := by
  rw [keptOf_cons hidle, recorded_omitted h, record_omitted hidle h]
  rfl

theorem keptOf_written (hidle : o.isIdle = false) (herror : c.writeError = none)
    (h : Fits toVec c.left o.activity) (hdone : o.write = .done) (os : List Offer) :
    ∃ c', c'.writeError = none ∧ c'.left = c.left - (line toVec o.activity).length ∧
      keptOf toVec c (o :: os) = o.activity :: keptOf toVec c' os := by
  obtain ⟨bytes, hline, hrecord⟩ := record_fits hidle herror h
  refine ⟨c.writeLine bytes .done, herror, ?_, ?_⟩
  · rw [hline, List.length_append]
    exact (Nat.sub_sub _ _ _).symm
  · rw [keptOf_cons hidle, recorded_fits herror h, hrecord, hdone]
    rfl

/-- After a failure nothing is kept. -/
theorem keptOf_failed {os : List Offer} (hidle : ∀ o ∈ os, o.isIdle = false)
    (h : c.writeError ≠ none) : keptOf toVec c os = [] := by
  induction os generalizing c with
  | nil => rfl
  | cons o os ih =>
    obtain ⟨ho, hos⟩ := List.forall_mem_cons.mp hidle
    rw [keptOf_omitted ho fun hnone => h hnone.1]
    exact ih hos h

theorem keptOf_broken (hidle : o.isIdle = false) (herror : c.writeError = none)
    (h : Fits toVec c.left o.activity) (hbroken : o.write ≠ .done) {os : List Offer}
    (hos : ∀ o ∈ os, o.isIdle = false) : keptOf toVec c (o :: os) = [] := by
  obtain ⟨bytes, -, hrecord⟩ := record_fits hidle herror h
  rw [keptOf_cons hidle, recorded_fits herror h, hrecord, beq_false_of_ne hbroken]
  cases hwrite : o.write with
  | done => exact absurd hwrite hbroken
  | broken n kind => exact keptOf_failed hos (Option.some_ne_none kind)

/-- What is kept behind an activity that does not fit begins with one that does. -/
theorem keptOf_after {os : List Offer} (hidle : ∀ o ∈ os, o.isIdle = false)
    (herror : c.writeError = none) :
    (keptOf toVec c os = [] ∧ ¬ Resumes toVec c.left os) ∨
      (∃ a as, keptOf toVec c os = a :: as ∧ Fits toVec c.left a) ∧ Resumes toVec c.left os := by
  induction os generalizing c with
  | nil => exact .inl ⟨rfl, resumes_nil _⟩
  | cons o os ih =>
    obtain ⟨ho, hos⟩ := List.forall_mem_cons.mp hidle
    rw [resumes_cons]
    by_cases hfits : Fits toVec c.left o.activity
    · by_cases hdone : o.write = .done
      · obtain ⟨c', -, -, hkept⟩ := keptOf_written ho herror hfits hdone os
        exact .inr ⟨⟨o.activity, keptOf toVec c' os, hkept, hfits⟩, .inl ⟨hfits, hdone⟩⟩
      · refine .inl ⟨keptOf_broken ho herror hfits hdone hos, ?_⟩
        rintro (⟨-, h⟩ | ⟨h, -⟩)
        · exact hdone h
        · exact h hfits
    · rw [keptOf_omitted ho fun h => hfits h.2]
      have hrest := ih (c := c.leaveOut) hos herror
      change (_ ∧ ¬ Resumes toVec c.left os) ∨ (∃ a as, _ ∧ Fits toVec c.left a) ∧
        Resumes toVec c.left os at hrest
      simpa only [hfits, false_and, false_or, not_false_eq_true, true_and] using hrest

theorem keptOf_initial {os : List Offer} (hidle : ∀ o ∈ os, o.isIdle = false)
    (herror : c.writeError = none) :
    keptOf toVec c os <+: os.map Offer.activity ↔ ¬ Gap toVec c.left os := by
  induction os generalizing c with
  | nil => exact iff_of_true (List.prefix_refl []) (gap_nil _)
  | cons o os ih =>
    obtain ⟨ho, hos⟩ := List.forall_mem_cons.mp hidle
    rw [gap_cons, List.map_cons]
    by_cases hfits : Fits toVec c.left o.activity
    · by_cases hdone : o.write = .done
      · obtain ⟨c', herror', hleft, hkept⟩ := keptOf_written ho herror hfits hdone os
        rw [hkept, List.cons_prefix_cons, ih hos herror', hleft]
        simp only [hfits, hdone, not_true_eq_false, false_and, false_or, true_and]
      · rw [keptOf_broken ho herror hfits hdone hos]
        simp only [hfits, hdone, not_true_eq_false, false_and, or_false, and_false, not_false_eq_true,
          List.nil_prefix]
    · rw [keptOf_omitted ho fun h => hfits h.2]
      rcases keptOf_after (c := c.leaveOut) hos herror with ⟨hnil, hnone⟩ | ⟨⟨a, as, hkept, ha⟩, hresumes⟩
      · have hnone : ¬ Resumes toVec c.left os := hnone
        rw [hnil]
        simp only [hfits, hnone, and_false, false_and, or_false, not_false_eq_true, List.nil_prefix]
      · have hresumes : Resumes toVec c.left os := hresumes
        rw [hkept, List.cons_prefix_cons]
        have hne : a ≠ o.activity := fun h => hfits (h ▸ ha)
        simp only [hfits, hne, hresumes, false_and, not_false_eq_true, and_self, or_false,
          not_true_eq_false]

/-! ## Recordings -/

/-- The activities that are not idle. -/
def offered (offers : List Offer) : List Offer := offers.filter fun o => !o.isIdle

theorem not_idle {offers : List Offer} : ∀ o ∈ offered offers, o.isIdle = false := by
  intro o ho
  obtain ⟨-, hidle⟩ := List.mem_filter.mp ho
  rwa [Bool.not_eq_true'] at hidle

theorem log_offered (offers : List Offer) :
    log (BoundedCapture.record toVec) (fates toVec) c (offered offers) =
      log (BoundedCapture.record toVec) (fates toVec) c offers :=
  log_filter (fun _ (o : Offer) (h : o.isIdle = true) => record_idle h)
    (fun _ (o : Offer) (h : o.isIdle = true) => fates_idle h) c offers

theorem length_fates {os : List Offer} (hidle : ∀ o ∈ os, o.isIdle = false) :
    (log (BoundedCapture.record toVec) (fates toVec) c os).length = os.length := by
  induction os generalizing c with
  | nil => rfl
  | cons o os ih =>
    obtain ⟨ho, hos⟩ := List.forall_mem_cons.mp hidle
    rw [log, List.length_append, fates_busy ho, ih hos, List.length_singleton, List.length_cons,
      Nat.add_comm]

/-- The recording is the beginning of the session, and the report is about all of it. -/
theorem initial_activity_iff (toVec : Value → Option (List UInt8)) (output : List UInt8)
    (limit : Nat) (offers : List Offer) :
    let start := BoundedCapture.new output limit
    let c := run (BoundedCapture.record toVec) start offers
    let written := kept (log (BoundedCapture.record toVec) (fates toVec) start offers)
    (written <+: (offered offers).map Offer.activity ∧
      c.report.get "omitted_records" = .u64 (UInt64.ofNat ((offered offers).length - written.length)) ∧
      c.report.get "bytes_written" = .nat (written.flatMap (line toVec)).length ∧
      (written.flatMap (line toVec)).length ≤ limit ∧
      (∃ rest, c.output = output ++ written.flatMap (line toVec) ++ rest ∧
        (c.writeError = none → rest = [])) ∧
      ∀ o : Offer, o.isIdle = true → c.record toVec o = c) ↔
      ¬ Gap toVec limit (offered offers) := by
  intro start c written
  have htally : Tally toVec output limit c (log (BoundedCapture.record toVec) (fates toVec) start offers) := by
    have hstart : Tally toVec output limit start [] := {
      budget := rfl
      written := rfl
      bound := Nat.zero_le _
      omitted := rfl
      lines := ⟨[], (by simp [kept, start, BoundedCapture.new]), fun _ => rfl⟩ }
    exact log_keeps (fun c o fs h => h.record o) offers hstart
  have hcount : (log (BoundedCapture.record toVec) (fates toVec) start offers).length =
      (offered offers).length := by
    rw [← log_offered, length_fates not_idle]
  have hinitial : written <+: (offered offers).map Offer.activity ↔
      ¬ Gap toVec limit (offered offers) := by
    have hkept : written = keptOf toVec start (offered offers) :=
      congrArg kept (log_offered offers).symm
    rw [hkept]
    exact keptOf_initial not_idle rfl
  rw [← hinitial]
  refine ⟨fun h => h.1, fun h => ⟨h, ?_, ?_, ?_, htally.lines, fun o => record_idle⟩⟩
  · rw [← hcount]
    exact congrArg Value.u64 htally.omitted
  · exact congrArg Value.nat htally.written
  · exact htally.written ▸ htally.bound

/-! ## A gap -/

def closing : Value := .object [("events", .array []), ("operations", .array [.string "close"])]

def closingTwice : Value :=
  .object [("events", .array []), ("operations", .array [.string "close", .string "close"])]

/-- The texts of these two activities. -/
def closingText (v : Value) : Option (List UInt8) :=
  if v.same closing then some "\x7b\"events\":[],\"operations\":[\"close\"]\x7d".toUTF8.toList
  else if v.same closingTwice then
    some "\x7b\"events\":[],\"operations\":[\"close\",\"close\"]\x7d".toUTF8.toList
  else none

/-- The second of these activities does not fit, the third one does. -/
def threeClosings : List Offer := [⟨closing, .done⟩, ⟨closingTwice, .done⟩, ⟨closing, .done⟩]

theorem recording_with_gap :
    ¬ kept (log (BoundedCapture.record closingText) (fates closingText) (BoundedCapture.new [] 80)
        threeClosings) <+: (offered threeClosings).map Offer.activity := by
  have hgap : Gap closingText 80 (offered threeClosings) := by
    refine ⟨[⟨closing, .done⟩], ⟨closingTwice, .done⟩, [⟨closing, .done⟩], rfl, ?_, ?_, ?_, ?_⟩
    · intro o ho
      rw [List.mem_singleton.mp ho]
      decide +kernel
    · decide +kernel
    · decide +kernel
    · exact ⟨[], ⟨closing, .done⟩, [], rfl, by simp, by decide +kernel, rfl⟩
  rw [← log_offered]
  exact fun h => (keptOf_initial not_idle rfl).mp h hgap

end OpenSaab.Evidence
