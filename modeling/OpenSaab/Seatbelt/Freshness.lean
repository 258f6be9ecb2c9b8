import OpenSaab.Seatbelt.Authority

/-!
# The age of a match

The key belongs to one challenge. The answer to a challenge is kept as a flag that is set once; here it is
followed through every further challenge and every further answer.
-/

namespace OpenSaab.Seatbelt

open Can Runs

/-! ## Challenges -/

/-- The last challenge that has passed, and its answer. -/
inductive Challenge where
  | none
  | asked
  | matched
  | differs
  deriving DecidableEq, Repr

def Challenge.next (seed : UInt16) (c : Challenge) : Record → Challenge
  | .passed d => if d = seedRequest then .asked else c
  | .seen d =>
    if isSeed d ∧ c ≠ .none then if Words.ofBig (value d) = seed.toNat then .matched else .differs
    else c

def challenge (seed : UInt16) (history : List Record) : Challenge :=
  history.foldl (Challenge.next seed) .none

/-- The key passes only while the last challenge stands answered with the authorised seed. -/
def Fresh (p : Policy) (history : List Record) : Prop :=
  ∀ controller tx, Policy.bcm controller tx → tx.frame.data = p.keyRequest →
    (p.before controller tx).2 = .ok () → challenge p.seed history = .matched

/-- A match is remembered and the key has not gone out. -/
structure Policy.Ready (p : Policy) : Prop where
  matched : p.matched = true
  unsent : p.keySent = false
  running : p.rejection = none

/-- What makes a match out of date: another challenge, or another answer. -/
def Outdates (seed : UInt16) : Event → Prop
  | .before controller tx => Policy.bcm controller tx ∧ tx.frame.data = seedRequest
  | .observe controller id d =>
    controller = 2 ∧ id = 0x642 ∧ isSeed d ∧ Words.ofBig (value d) ≠ seed.toNat

def Timely (p : Policy) (e : Event) : Prop := p.Ready → ¬ Outdates p.seed e

variable {p p' : Policy}

/-! ## Requests that pass -/

theorem keyRequest_passes_iff {controller : Nat} {tx : Transmission} (hbcm : Policy.bcm controller tx)
    (hdata : tx.frame.data = p.keyRequest) : (p.before controller tx).2 = .ok () ↔ p.Ready := by
  have hguard : 3 ≤ tx.frame.data.length ∧
      (tx.frame.data.getD 1 0 = 0x27 ∨ tx.frame.data.getD 1 0 = 0x3b) := by
    rw [hdata]
    exact (guarded_requests p).2.1
  have hallows : p.allows controller tx = true ↔ p.Ready := by
    constructor
    · intro h
      obtain ⟨hopen, ⟨hd, -⟩ | ⟨-, hmatched, hkey⟩ | ⟨hd, -⟩⟩ := allows_cases h
      · exact absurd (hd.symm.trans hdata) (seedRequest_ne p).1
      · exact ⟨hmatched, hkey, hopen⟩
      · exact absurd (hdata.symm.trans hd) (keyRequest_ne p).1
    · rintro ⟨hmatched, hunsent, hrunning⟩
      have hne : p.keyRequest ≠ seedRequest := (seedRequest_ne p).1.symm
      simp [Policy.allows, hrunning, hbcm, hdata, hne, hmatched, hunsent]
  rw [← hallows, Policy.before, if_neg (not_not.mpr hbcm)]
  dsimp only
  rw [if_pos hguard]
  cases p.allows controller tx with
  | false => simp
  | true => simp

/-- While a match is remembered, every further challenge passes. -/
theorem seedRequest_passes {controller : Nat} {tx : Transmission} (hready : p.Ready)
    (hbcm : Policy.bcm controller tx) (hdata : tx.frame.data = seedRequest) :
    p.step (.before controller tx) = { p with requested := true } ∧
      p.records (.before controller tx) = [.passed seedRequest] := by
  have hallows : p.allows controller tx = true := by
    simp [Policy.allows, hready.running, hbcm, hdata, hready.unsent]
  have hbefore : p.before controller tx = ({ p with requested := true }, .ok ()) := by
    rw [Policy.before, if_neg (not_not.mpr hbcm)]
    dsimp only
    rw [hdata, if_pos (by decide), hallows, Policy.mark_seedRequest]
    rfl
  rw [Policy.step, Policy.records, hbefore]
  dsimp only
  rw [if_pos ⟨hbcm, rfl⟩, hdata]
  exact ⟨rfl, rfl⟩

/-! ## The match and the last challenge -/

/-- The policy and what the records say of the challenge. -/
structure Watch where
  policy : Policy
  challenge : Challenge

namespace Watch

def step (w : Watch) (e : Event) : Watch :=
  ⟨w.policy.step e, (w.policy.records e).foldl (Challenge.next w.policy.seed) w.challenge⟩

/-- A challenge is on record exactly if the policy has noted one. -/
def Linked (w : Watch) : Prop := w.policy.requested = true ↔ w.challenge ≠ .none

def Withheld (w : Watch) : Prop := w.policy.Ready → w.challenge = .matched

end Watch

theorem step_of (p : Policy) (e : Event) : Step p (p.step e) (p.records e) := by
  cases e with
  | before controller tx => exact before_step p controller tx
  | observe controller id d => exact observe_step p controller id d

theorem next_passed {seed : UInt16} {c : Challenge} {d : List UInt8} (h : d ≠ seedRequest) :
    [Record.passed d].foldl (Challenge.next seed) c = c := if_neg h

theorem next_challenge {seed : UInt16} {c : Challenge} :
    [Record.passed seedRequest].foldl (Challenge.next seed) c = .asked := by
  rw [List.foldl_cons, List.foldl_nil, Challenge.next, if_pos rfl]

theorem next_seen_ne {seed : UInt16} {c : Challenge} {d : List UInt8} :
    [Record.seen d].foldl (Challenge.next seed) c ≠ .none ↔ c ≠ .none := by
  simp only [List.foldl_cons, List.foldl_nil, Challenge.next]
  by_cases h : isSeed d ∧ c ≠ .none
  · rw [if_pos h]
    refine iff_of_true ?_ h.2
    split_ifs <;> decide
  · rw [if_neg h]

theorem step_seed {rs : List Record} (h : Step p p' rs) : p'.seed = p.seed := by
  cases h <;> rfl

theorem linked_step (w : Watch) (e : Event) (h : w.Linked) : (w.step e).Linked := by
  have hstep := step_of w.policy e
  unfold Watch.Linked Watch.step
  dsimp only
  generalize w.policy.step e = p' at hstep
  generalize w.policy.records e = rs at hstep
  cases hstep with
  | same => exact h
  | seedRequested =>
    rw [next_challenge]
    exact iff_of_true rfl (by decide)
  | keySent => rw [next_passed (seedRequest_ne w.policy).1.symm]; exact h
  | written => rw [next_passed (seedRequest_ne w.policy).2.1.symm]; exact h
  | readAsked => rw [next_passed (seedRequest_ne w.policy).2.2.symm]; exact h
  | unguarded _ hd => rw [next_passed (unguarded_ne (p := w.policy) hd).1]; exact h
  | seedMatched => rw [next_seen_ne]; exact h
  | granted => rw [next_seen_ne]; exact h
  | answered => rw [next_seen_ne]; exact h
  | acknowledged => rw [next_seen_ne]; exact h
  | rejected => rw [next_seen_ne]; exact h
  | heard => rw [next_seen_ne]; exact h

/-- A match comes only with the answer to the last challenge. -/
theorem withheld_unready {w : Watch} (hlinked : w.Linked) (hready : ¬ w.policy.Ready) (e : Event) :
    (w.step e).Withheld := by
  have hstep := step_of w.policy e
  unfold Watch.Withheld Watch.step
  dsimp only
  generalize w.policy.step e = p' at hstep
  generalize w.policy.records e = rs at hstep
  rintro ⟨hmatched, hunsent, hrunning⟩
  cases hstep with
  | keySent => cases hunsent
  | rejected => cases hrunning
  | seedMatched hd hrequested hseed =>
    refine (if_pos ⟨hd, hlinked.mp hrequested⟩).trans ?_
    exact if_pos hseed
  | _ => exact absurd ⟨hmatched, hunsent, hrunning⟩ hready

theorem keeps_match {e : Event} (h : ¬ Outdates p.seed e) :
    (p.records e).foldl (Challenge.next p.seed) .matched = .matched := by
  cases e with
  | before controller tx =>
    unfold Policy.records
    dsimp only
    split_ifs with hpass
    · exact next_passed fun hd => h ⟨hpass.1, hd⟩
    · rfl
  | observe controller id d =>
    unfold Policy.records
    dsimp only
    split_ifs with hours
    · refine ite_eq_right_iff.mpr fun hseed => if_pos ?_
      exact not_not.mp fun hne => h ⟨hours.1, hours.2, hseed.1, hne⟩
    · rfl

/-- The flag outlives what it stands for. -/
theorem outdated {e : Event} (hready : p.Ready) (h : Outdates p.seed e) :
    (p.step e).Ready ∧ (p.records e).foldl (Challenge.next p.seed) .matched ≠ .matched := by
  cases e with
  | before controller tx =>
    obtain ⟨hstep, hrecords⟩ := seedRequest_passes hready h.1 h.2
    rw [hstep, hrecords, next_challenge]
    exact ⟨⟨hready.matched, hready.unsent, hready.running⟩, by decide⟩
  | observe controller id d =>
    obtain ⟨hcontroller, hid, hseed, hdiffers⟩ := h
    have hlen : ¬ d.length < 3 := by
      simp only [isSeed, Bool.and_eq_true, decide_eq_true_eq] at hseed
      omega
    have hstep : p.step (.observe controller id d) = p := by
      rw [Policy.step, Policy.observe, if_neg (by simp [hcontroller, hid, hlen]), if_pos hseed,
        if_pos (.inr hdiffers)]
    have hrecords : p.records (.observe controller id d) = [.seen d] := if_pos ⟨hcontroller, hid⟩
    rw [hstep, hrecords]
    refine ⟨hready, fun heq => ?_⟩
    have hnext : Challenge.next p.seed .matched (.seen d) = .differs :=
      (if_pos ⟨hseed, by decide⟩).trans (if_neg hdiffers)
    rw [List.foldl_cons, List.foldl_nil, hnext] at heq
    cases heq

theorem withheld_step_iff (w : Watch) (e : Event) (hlinked : w.Linked) (h : w.Withheld) :
    (w.step e).Withheld ↔ Timely w.policy e := by
  by_cases hready : w.policy.Ready
  · have hmatched := h hready
    constructor
    · intro hnext _ houtdates
      obtain ⟨hready', hne⟩ := outdated hready houtdates
      rw [← hmatched] at hne
      exact hne ((hnext hready').trans hmatched.symm)
    · intro htimely _
      have hkeeps := keeps_match (htimely hready)
      rw [← hmatched] at hkeeps
      exact hkeeps.trans hmatched
  · exact iff_of_true (withheld_unready hlinked hready e) fun h => absurd h hready

/-! ## Runs -/

theorem run_watch (w : Watch) (events : List Event) :
    run Watch.step w events = ⟨run Policy.step w.policy events,
        (w.policy.history events).foldl (Challenge.next w.policy.seed) w.challenge⟩ ∧
      (run Policy.step w.policy events).seed = w.policy.seed := by
  induction events generalizing w with
  | nil => exact ⟨rfl, rfl⟩
  | cons e events ih =>
    obtain ⟨hrun, hseed⟩ := ih (w.step e)
    have hkeep : (w.policy.step e).seed = w.policy.seed := step_seed (step_of w.policy e)
    refine ⟨?_, hseed.trans hkeep⟩
    have hhistory : w.policy.history (e :: events) =
        w.policy.records e ++ (w.policy.step e).history events := rfl
    rw [run_cons, hrun, hhistory, List.foldl_append]
    change Watch.mk _ (((w.policy.step e).history events).foldl
      (Challenge.next (w.policy.step e).seed) _) = _
    rw [hkeep]
    rfl

theorem each_watch {w : Watch} {events : List Event} :
    Each Watch.step (fun w e => Timely w.policy e) w events ↔ Each Policy.step Timely w.policy events := by
  induction events generalizing w with
  | nil => exact Iff.rfl
  | cons e events ih => exact and_congr_right fun _ => ih

/-- A frame with these bytes on the route of the body controller. -/
def bodyTransmission (data : List UInt8) : Transmission where
  ticket := 1
  frame := ⟨0x242, false, false, 8, data⟩
  btr0 := 0xdd
  btr1 := 0x36
  electrical := .singleWireGpio 3 0 3

/-- The route does not depend on the key. -/
theorem bcm_keyRequest (p : Policy) : Policy.bcm 2 (bodyTransmission p.keyRequest) = true := by
  rfl

theorem fresh_iff {p : Policy} {history : List Record} :
    Fresh p history ↔ (p.Ready → challenge p.seed history = .matched) := by
  constructor
  · intro h hready
    exact h 2 _ (bcm_keyRequest p) rfl ((keyRequest_passes_iff (bcm_keyRequest p) rfl).mpr hready)
  · intro h controller tx hbcm hdata hpass
    exact h ((keyRequest_passes_iff hbcm hdata).mp hpass)

/-- In every state of a run the key passes only for the last challenge, answered with the authorised
seed, exactly if no challenge and no other answer comes while an earlier match is still remembered. -/
theorem key_fresh_iff (desired : UInt8) (seed key : UInt16) (events : List Event) :
    (∀ earlier later, events = earlier ++ later →
        Fresh (run Policy.step (.start desired seed key) earlier)
          ((Policy.start desired seed key).history earlier)) ↔
      Each Policy.step Timely (.start desired seed key) events := by
  have halways : Always Watch.step Watch.Withheld ⟨.start desired seed key, .none⟩ events ↔
      Each Watch.step (fun w e => Timely w.policy e) ⟨.start desired seed key, .none⟩ events :=
    always_iff_each linked_step withheld_step_iff
      (iff_of_false Bool.false_ne_true fun h => h rfl) fun h => nomatch h.matched
  rw [each_watch, always_iff_take] at halways
  rw [← halways]
  refine forall_congr' fun earlier => forall_congr' fun later => imp_congr_right fun _ => ?_
  obtain ⟨hrun, hseed⟩ := run_watch ⟨.start desired seed key, .none⟩ earlier
  rw [fresh_iff, hrun, hseed]
  exact Iff.rfl

/-- The seed is asked for again after the match, and the key still passes. -/
def askedAgain : List Event :=
  [.before 2 (bodyTransmission seedRequest), .observe 2 0x642 [4, 0x67, 1, 0x12, 0x34],
    .before 2 (bodyTransmission seedRequest)]

theorem key_stale : ¬ ∀ (desired : UInt8) (seed key : UInt16) (events : List Event),
    ∀ earlier later, events = earlier ++ later →
      Fresh (run Policy.step (.start desired seed key) earlier)
        ((Policy.start desired seed key).history earlier) := by
  intro h
  have hfresh := h 0 0x1234 0x5678 askedAgain askedAgain [] (List.append_nil _).symm 2
    (bodyTransmission [4, 0x27, 2, 0x56, 0x78, 0, 0, 0]) (by decide +kernel) (by decide +kernel)
    (by decide +kernel)
  exact absurd hfresh (by decide +kernel)

end OpenSaab.Seatbelt
