import OpenSaab.Library.Runs
import OpenSaab.Menu.Navigator

/-!
# When a key is sent

A key is sent only for a screen that has been there for a while, never twice for one screen, and not
after the operator has taken over, after the end or after a stage has taken too long.
-/

namespace OpenSaab.Menu

open Text Runs

/-! ## One screen -/

namespace Navigator

/-- The screens that it remembers. -/
structure Remembers (n : Navigator) (candidate sent : Chars) : Prop where
  candidate : n.candidate = candidate
  sent : n.sent = sent

/-- What a selection does: it leaves the navigator as it is, or ends it without a key. -/
inductive Selected (n : Navigator) : Navigator × Option (UInt8 × Stage) → Prop where
  | stays (key : Option (UInt8 × Stage)) : Selected n (n, key)
  | ends {m : Navigator} (hdone : m.stage = .done) (h : m.Remembers n.candidate n.sent) :
      Selected n (m, none)

theorem selectYear_spec (n : Navigator) (text : Chars) : n.Selected (n.selectYear text) := by
  unfold selectYear
  split
  · exact .stays none
  · split
    · exact .stays _
    · split
      · exact .ends rfl ⟨rfl, rfl⟩
      · exact .stays _

theorem selectEngineMenu_spec (n : Navigator) (text : Chars) :
    n.Selected (n.selectEngineMenu text) := by
  unfold selectEngineMenu
  split
  · exact .stays none
  · split
    · exact .stays _
    · split
      · exact .ends rfl ⟨rfl, rfl⟩
      · split
        · exact .stays _
        · exact .stays none

theorem select_spec (n : Navigator) (text : Chars) : n.Selected (n.select text) := by
  unfold select
  split
  case h_2 =>
    split
    · exact n.selectYear_spec text
    · exact .stays none
  case h_8 => exact n.selectEngineMenu_spec text
  all_goals exact .stays _

/-- What a stable screen does: the navigator may have joined a menu before. -/
inductive Stable (n : Navigator) : Navigator × Option (UInt8 × Stage) → Prop where
  | chooses (join : Bool) (stage : Stage) (key : Option (UInt8 × Stage)) :
      Stable n ({ n with join, stage }, key)
  | ends {m : Navigator} (hdone : m.stage = .done) (h : m.Remembers n.candidate n.sent) :
      Stable n (m, none)

theorem Stable.of_selected {n : Navigator} {join : Bool} {stage : Stage}
    {r : Navigator × Option (UInt8 × Stage)} (h : Selected { n with join, stage } r) :
    n.Stable r := by
  cases h with
  | stays key => exact .chooses join stage key
  | ends hdone h => exact .ends hdone h

theorem proposeStable_spec (n : Navigator) (text : Chars) : n.Stable (n.proposeStable text) := by
  unfold proposeStable
  split
  · exact .chooses false n.stage _
  · split
    · split
      · exact .ends rfl ⟨rfl, rfl⟩
      · exact .of_selected (select_spec _ text)
    · have hselected : Selected { n with join := n.join, stage := n.stage } (n.select text) :=
        n.select_spec text
      exact .of_selected hselected

/-- What an observation does. -/
inductive Outcome (n : Navigator) (text : Chars) (now : UInt64) :
    Navigator × Option (UInt8 × Stage) → Prop where
  | waits (h : n.stage = .done ∨ n.stageAt = none ∧ text = []) : Outcome n text now (n, none)
  | ends {m : Navigator} (hdone : m.stage = .done) (h : m.Remembers n.candidate n.sent) :
      Outcome n text now (m, none)
  | shows (hlive : n.stage ≠ .done) (hstart : n.stageAt = none → text ≠ []) :
      Outcome n text now
        ({ n with stageAt := some (n.stageAt.getD now), candidate := text, stableAt := now }, none)
  | rests (join : Bool) (stage : Stage) (hlive : n.stage ≠ .done)
      (hstart : n.stageAt = none → text ≠ []) (hsame : n.candidate = text) :
      Outcome n text now ({ n with stageAt := some (n.stageAt.getD now), join, stage }, none)
  | sends (join : Bool) (stage : Stage) (key : UInt8) (proposed : Stage) (hlive : n.stage ≠ .done)
      (hsame : n.candidate = text) (hshown : text ≠ []) (hfresh : text ≠ n.sent)
      (hstable : n.stableAt.toNat + stableMs.toNat ≤ now.toNat)
      (htimely : now.toNat ≤ (n.stageAt.getD now).toNat + stageMs.toNat) :
      Outcome n text now
        ({ n with stageAt := some (n.stageAt.getD now), join, stage }, some (key, proposed))

theorem toNat_saturatingSub (a b : UInt64) : (saturatingSub a b).toNat = a.toNat - b.toNat := by
  unfold saturatingSub
  split
  · next h => exact UInt64.toNat_sub_of_le a b h
  · next h =>
    have hlt : a.toNat < b.toNat := UInt64.lt_iff_toNat_lt.mp (UInt64.not_le.mp h)
    exact (Nat.sub_eq_zero_of_le (Nat.le_of_lt hlt)).symm

theorem propose_spec (n : Navigator) (screen : Chars) (now : UInt64) :
    n.Outcome (trim screen) now (n.propose screen now) := by
  unfold propose
  dsimp only
  split
  · next h => exact .waits h
  · next hwaits =>
    obtain ⟨hlive, hstart⟩ := not_or.mp hwaits
    have hstart : n.stageAt = none → trim screen ≠ [] := fun h htext => hstart ⟨h, htext⟩
    split
    · exact .ends rfl ⟨rfl, rfl⟩
    · next htimely =>
      split
      · exact .shows hlive hstart
      · next hsame =>
        rw [not_not] at hsame
        split
        · exact .rests n.join n.stage hlive hstart hsame
        · next hsend =>
          simp only [not_or] at hsend
          obtain ⟨hshown, hfresh, hstable⟩ := hsend
          rw [UInt64.lt_iff_toNat_lt, toNat_saturatingSub] at htimely hstable
          have hspec := proposeStable_spec { n with stageAt := some (n.stageAt.getD now) } (trim screen)
          generalize proposeStable _ _ = r at hspec
          cases hspec with
          | ends hdone h => exact .ends hdone h
          | chooses join stage key =>
            cases key with
            | none => exact .rests join stage hlive hstart hsame
            | some key =>
              have hpos : stableMs.toNat = 50 := rfl
              exact .sends join stage key.1 key.2 hlive hsame hshown hfresh (by omega) (by omega)

@[simp] theorem commit_candidate (n : Navigator) (proposed : Stage) (now : UInt64) :
    (n.commit proposed now).candidate = n.candidate := by
  unfold commit
  split <;> rfl

@[simp] theorem commit_sent (n : Navigator) (proposed : Stage) (now : UInt64) :
    (n.commit proposed now).sent = n.candidate := by
  unfold commit
  split <;> rfl

@[simp] theorem commit_stableAt (n : Navigator) (proposed : Stage) (now : UInt64) :
    (n.commit proposed now).stableAt = n.stableAt := by
  unfold commit
  split <;> rfl

theorem commit_stageAt (n : Navigator) (proposed : Stage) (now : UInt64) :
    (n.commit proposed now).stageAt = if proposed ≠ n.stage then some now else n.stageAt := by
  unfold commit
  split <;> rfl

end Navigator

/-! ## Histories -/

inductive Event where
  | observe (screen : Chars) (now : UInt64)
  | cancel
  | reload
  deriving DecidableEq, Repr

/-- The trimmed screen of an observation and its time. -/
def Event.shown : Event → Option (Chars × UInt64)
  | .observe screen now => some (trim screen, now)
  | _ => none

/-- The screen is one that is kept whole. -/
def Event.Short (e : Event) : Prop :=
  ∀ screen now, e = .observe screen now → screen.length ≤ screenLimit

namespace Navigator

/-- A state that could not be read back would be kept as it is. -/
def apply (n : Navigator) : Event → Navigator
  | .observe screen now => (n.step screen now).1
  | .cancel => n.cancel
  | .reload => (fromJson n.toJson).getD n

def keyFor (n : Navigator) : Event → Option UInt8
  | .observe screen now => (n.step screen now).2
  | _ => none

/-- A key is sent that leads to another stage than the one that it is chosen in. -/
def leads (n : Navigator) : Event → Bool
  | .observe screen now =>
    match n.propose screen now with
    | (m, some (_, proposed)) => proposed ≠ m.stage
    | _ => false
  | _ => false

end Navigator

/-- An event, the stage before it, the key that is sent for it and whether the key changes the stage. -/
structure Entry where
  event : Event
  stage : Stage
  key : Option UInt8
  changed : Bool
  deriving DecidableEq, Repr

def record (n : Navigator) (e : Event) : Entry := ⟨e, n.stage, n.keyFor e, n.leads e⟩

/-- A time for the stage runs from the first screen that is not empty, and again from each key that
changes the stage. -/
def Starts (before : List Entry) (x : Entry) (since : UInt64) : Prop :=
  ∃ text, x.event.shown = some (text, since) ∧
    (x.changed = true ∨ text ≠ [] ∧ ∀ y ∈ before, ∀ o ∈ y.event.shown, o.1 = [])

/-- What must be so for a key to be sent in a stage, for this screen at this time. -/
structure Allowed (before : List Entry) (stage : Stage) (text : Chars) (now : UInt64) : Prop where
  shown : text ≠ []
  /-- The screen has been the same for a while. -/
  stable : Since
    (fun _ x => ∃ since, x.event.shown = some (text, since) ∧ since.toNat + 50 ≤ now.toNat)
    (fun y => ∀ o ∈ y.event.shown, o.1 = text) before
  /-- The last key was for another screen. -/
  fresh : ¬ Since (fun _ x => x.key.isSome ∧ ∃ since, x.event.shown = some (text, since))
    (fun y => y.key = none) before
  going : stage ≠ .done ∧ ∀ x ∈ before, x.event ≠ .cancel ∧ x.stage ≠ .done
  timely : Since (fun b x => ∃ since, Starts b x since ∧ now.toNat ≤ since.toNat + 90000)
    (fun y => y.changed = false) before

def Disciplined (before : List Entry) (x : Entry) : Prop :=
  ∀ key, x.key = some key →
    ∃ text now, x.event.shown = some (text, now) ∧ Allowed before x.stage text now

/-- What a navigator that has not ended knows of the past. -/
structure Live (before : List Entry) (n : Navigator) : Prop where
  going : ∀ x ∈ before, x.event ≠ .cancel ∧ x.stage ≠ .done
  waiting : n.stageAt = none →
    n.candidate = [] ∧ ∀ x ∈ before, ∀ o ∈ x.event.shown, o.1 = []
  stable : n.candidate ≠ [] →
    Since (fun _ x => x.event.shown = some (n.candidate, n.stableAt))
      (fun y => ∀ o ∈ y.event.shown, o.1 = n.candidate) before
  fresh : ∀ text, Since (fun _ x => x.key.isSome ∧ ∃ since, x.event.shown = some (text, since))
    (fun y => y.key = none) before → text = n.sent
  timely : ∀ since ∈ n.stageAt, Since (fun b x => Starts b x since) (fun y => y.changed = false) before

structure Tracks (before : List Entry) (n : Navigator) : Prop where
  candidate : n.candidate.length ≤ screenLimit
  sent : n.sent.length ≤ screenLimit
  live : n.stage ≠ .done → Live before n

theorem Tracks.fromJson {before : List Entry} {n : Navigator} (h : Tracks before n) :
    Navigator.fromJson n.toJson = some n := n.fromJson_toJson h.candidate h.sent

theorem Tracks.ended {before : List Entry} {n m : Navigator} (h : Tracks before n)
    (hdone : m.stage = .done) (hm : m.Remembers n.candidate n.sent) (x : Entry) :
    Tracks (before ++ [x]) m where
  candidate := hm.candidate ▸ h.candidate
  sent := hm.sent ▸ h.sent
  live hlive := absurd hdone hlive

section Step

variable {before : List Entry} {n : Navigator} {x : Entry}

theorem Live.going_snoc (h : Live before n) (hcancel : x.event ≠ .cancel) (hstage : x.stage ≠ .done) :
    ∀ y ∈ before ++ [x], y.event ≠ .cancel ∧ y.stage ≠ .done := by
  intro y hy
  rcases List.mem_append.mp hy with hy | hy
  · exact h.going y hy
  · obtain rfl := List.mem_singleton.mp hy
    exact ⟨hcancel, hstage⟩

/-- An event without a key leaves the last key as it was. -/
theorem Live.fresh_snoc (h : Live before n) (hkey : x.key = none) (text : Chars)
    (hsince : Since (fun _ x => x.key.isSome ∧ ∃ since, x.event.shown = some (text, since))
      (fun y => y.key = none) (before ++ [x])) : text = n.sent := by
  rcases since_snoc.mp hsince with ⟨hsome, -⟩ | ⟨hbefore, -⟩
  · rw [hkey] at hsome
    cases hsome
  · exact h.fresh text hbefore

/-- The time of the stage runs on, or it starts with this event. -/
theorem Live.timely_snoc (h : Live before n) {text : Chars} {now : UInt64}
    (hx : x.event.shown = some (text, now)) (hchanged : x.changed = false)
    (hstart : n.stageAt = none → text ≠ []) :
    Since (fun b x => Starts b x (n.stageAt.getD now)) (fun y => y.changed = false)
      (before ++ [x]) := by
  rw [since_snoc]
  cases hat : n.stageAt with
  | none => exact .inl ⟨text, hx, .inr ⟨hstart hat, (h.waiting hat).2⟩⟩
  | some since => exact .inr ⟨h.timely since hat, hchanged⟩

/-- An event without a key that shows nothing new. -/
theorem Live.unchanged (h : Live before n) (hlive : n.stage ≠ .done) (hcancel : x.event ≠ .cancel)
    (hstage : x.stage = n.stage) (hkey : x.key = none) (hchanged : x.changed = false)
    (hshown : ∀ o ∈ x.event.shown, o.1 = n.candidate) : Live (before ++ [x]) n where
  going := h.going_snoc hcancel (hstage ▸ hlive)
  waiting hat := by
    obtain ⟨hcandidate, hempty⟩ := h.waiting hat
    refine ⟨hcandidate, fun y hy o ho => ?_⟩
    rcases List.mem_append.mp hy with hy | hy
    · exact hempty y hy o ho
    · obtain rfl := List.mem_singleton.mp hy
      exact (hshown o ho).trans hcandidate
  stable hne := since_snoc.mpr (.inr ⟨h.stable hne, hshown⟩)
  fresh := h.fresh_snoc hkey
  timely since hat := since_snoc.mpr (.inr ⟨h.timely since hat, hchanged⟩)

end Step

theorem length_trim_le (s : Chars) : (trim s).length ≤ s.length := by
  unfold trim
  rw [List.length_reverse]
  refine Nat.le_trans (List.length_dropWhile_le _ _) ?_
  rw [List.length_reverse]
  exact List.length_dropWhile_le _ _

section Observe

variable {before : List Entry} {n : Navigator} {screen : Chars} {now : UInt64}

theorem record_observe_none {m : Navigator} (h : n.propose screen now = (m, none)) :
    record n (.observe screen now) = ⟨.observe screen now, n.stage, none, false⟩ ∧
      n.apply (.observe screen now) = m := by
  unfold record Navigator.apply Navigator.keyFor Navigator.leads Navigator.step
  dsimp only
  rw [h]
  exact ⟨rfl, rfl⟩

theorem record_observe_some {m : Navigator} {key : UInt8} {proposed : Stage}
    (h : n.propose screen now = (m, some (key, proposed))) :
    record n (.observe screen now) =
        ⟨.observe screen now, n.stage, some key, proposed ≠ m.stage⟩ ∧
      n.apply (.observe screen now) = m.commit proposed now := by
  unfold record Navigator.apply Navigator.keyFor Navigator.leads Navigator.step
  dsimp only
  rw [h]
  exact ⟨rfl, rfl⟩

theorem Disciplined.quiet {x : Entry} (h : x.key = none) : Disciplined before x := by
  intro key hkey
  rw [h] at hkey
  cases hkey

/-- A key is allowed by what the navigator knows. -/
theorem Live.allowed (h : Live before n) (hlive : n.stage ≠ .done) {text : Chars}
    (hsame : n.candidate = text) (hshown : text ≠ []) (hfresh : text ≠ n.sent)
    (hstable : n.stableAt.toNat + stableMs.toNat ≤ now.toNat)
    (htimely : now.toNat ≤ (n.stageAt.getD now).toNat + stageMs.toNat) :
    Allowed before n.stage text now where
  shown := hshown
  stable := by
    have hne : n.candidate ≠ [] := hsame ▸ hshown
    exact hsame ▸ (h.stable hne).mono fun _ _ hx => ⟨n.stableAt, hx, hstable⟩
  fresh hsince := hfresh (h.fresh text hsince)
  going := ⟨hlive, h.going⟩
  timely := by
    cases hat : n.stageAt with
    | none => exact absurd (h.waiting hat).1 (hsame ▸ hshown)
    | some since =>
      rw [hat] at htimely
      exact (h.timely since hat).mono fun _ _ hx => ⟨since, hx, htimely⟩

/-- The navigator after a key. -/
theorem Live.committed (h : Live before n) (hlive : n.stage ≠ .done) (key : UInt8)
    (join : Bool) (stage proposed : Stage) (hsame : n.candidate = trim screen)
    (hshown : trim screen ≠ []) :
    Live (before ++ [⟨.observe screen now, n.stage, some key, proposed ≠ stage⟩])
      (Navigator.commit { n with stageAt := some (n.stageAt.getD now), join, stage } proposed now) := by
  refine ⟨h.going_snoc nofun hlive, ?_, ?_, ?_, ?_⟩
  · intro hat
    rw [Navigator.commit_stageAt] at hat
    split at hat <;> cases hat
  · rw [Navigator.commit_candidate, Navigator.commit_stableAt]
    intro hne
    refine since_snoc.mpr (.inr ⟨h.stable hne, ?_⟩)
    rintro o ⟨⟩
    exact hsame.symm
  · intro text hsince
    rw [Navigator.commit_sent]
    rcases since_snoc.mp hsince with ⟨-, since, hx⟩ | ⟨-, hkey⟩
    · cases hx
      exact hsame.symm
    · cases hkey
  · intro since hat
    rw [Navigator.commit_stageAt] at hat
    by_cases hchanged : proposed ≠ stage
    · rw [if_pos hchanged] at hat
      cases hat
      exact since_snoc.mpr (.inl ⟨trim screen, rfl, .inl (decide_eq_true hchanged)⟩)
    · rw [if_neg hchanged] at hat
      cases hat
      exact h.timely_snoc rfl (decide_eq_false hchanged) fun _ => hshown

theorem observe_tracks (h : Tracks before n) (hshort : screen.length ≤ screenLimit) :
    Disciplined before (record n (.observe screen now)) ∧
      Tracks (before ++ [record n (.observe screen now)]) (n.apply (.observe screen now)) := by
  have htext : (trim screen).length ≤ screenLimit := Nat.le_trans (length_trim_le screen) hshort
  have hspec := n.propose_spec screen now
  generalize hr : n.propose screen now = r at hspec
  cases hspec with
  | waits hwaits =>
    obtain ⟨hrecord, happly⟩ := record_observe_none hr
    rw [hrecord, happly]
    refine ⟨.quiet rfl, h.candidate, h.sent, fun hlive => ?_⟩
    obtain ⟨hat, hempty⟩ := hwaits.resolve_left hlive
    refine (h.live hlive).unchanged hlive nofun rfl rfl rfl ?_
    rintro o ⟨⟩
    exact hempty.trans ((h.live hlive).waiting hat).1.symm
  | ends hdone hm =>
    obtain ⟨hrecord, happly⟩ := record_observe_none hr
    rw [hrecord, happly]
    exact ⟨.quiet rfl, h.ended hdone hm _⟩
  | shows hlive hstart =>
    obtain ⟨hrecord, happly⟩ := record_observe_none hr
    have hn := h.live hlive
    rw [hrecord, happly]
    refine ⟨.quiet rfl, htext, h.sent, fun _ => ?_⟩
    refine ⟨hn.going_snoc nofun hlive, nofun, fun _ => ?_, hn.fresh_snoc rfl, ?_⟩
    · exact since_snoc.mpr (.inl rfl)
    · rintro since ⟨⟩
      exact hn.timely_snoc rfl rfl hstart
  | rests join stage hlive hstart hsame =>
    obtain ⟨hrecord, happly⟩ := record_observe_none hr
    have hn := h.live hlive
    rw [hrecord, happly]
    refine ⟨.quiet rfl, h.candidate, h.sent, fun _ => ?_⟩
    refine ⟨hn.going_snoc nofun hlive, nofun, fun hne => ?_, hn.fresh_snoc rfl, ?_⟩
    · refine since_snoc.mpr (.inr ⟨hn.stable hne, ?_⟩)
      rintro o ⟨⟩
      exact hsame.symm
    · rintro since ⟨⟩
      exact hn.timely_snoc rfl rfl hstart
  | sends join stage key proposed hlive hsame hshown hfresh hstable htimely =>
    obtain ⟨hrecord, happly⟩ := record_observe_some hr
    have hn := h.live hlive
    rw [hrecord, happly]
    refine ⟨fun _ _ => ⟨_, _, rfl, hn.allowed hlive hsame hshown hfresh hstable htimely⟩, ?_, ?_, ?_⟩
    · rw [Navigator.commit_candidate]
      exact h.candidate
    · rw [Navigator.commit_sent]
      exact h.candidate
    · exact fun _ => hn.committed hlive key join stage proposed hsame hshown

end Observe

theorem step_tracks {before : List Entry} {n : Navigator} (h : Tracks before n) {e : Event}
    (he : e.Short) :
    Disciplined before (record n e) ∧ Tracks (before ++ [record n e]) (n.apply e) := by
  cases e with
  | observe screen now => exact observe_tracks h (he screen now rfl)
  | cancel => exact ⟨.quiet rfl, h.ended (m := n.cancel) rfl ⟨rfl, rfl⟩ _⟩
  | reload =>
    have happly : n.apply .reload = n := by
      unfold Navigator.apply
      rw [h.fromJson]
      rfl
    rw [happly]
    refine ⟨.quiet rfl, h.candidate, h.sent, fun hlive => ?_⟩
    exact (h.live hlive).unchanged hlive nofun rfl rfl rfl nofun

theorem run_tracks {before : List Entry} {n : Navigator} (h : Tracks before n)
    (hbefore : Justified Disciplined before) {events : List Event}
    (hshort : ∀ e ∈ events, e.Short) :
    Tracks (before ++ log Navigator.apply (fun n e => [record n e]) n events)
        (run Navigator.apply n events) ∧
      Justified Disciplined
        (before ++ log Navigator.apply (fun n e => [record n e]) n events) := by
  refine log_keeps_of_each (P := fun _ e => e.Short)
    (R := fun n before => Tracks before n ∧ Justified Disciplined before) ?_
    (each_of_forall hshort) ⟨h, hbefore⟩
  rintro n e before he ⟨h, hbefore⟩
  obtain ⟨hallowed, h'⟩ := step_tracks h he
  exact ⟨h', hbefore.snoc hallowed⟩

theorem new_tracks (target : Target) (vin : Chars) (join : Bool) :
    Tracks [] (Navigator.new target vin join) := by
  have hlive : ∀ n : Navigator, n.candidate = [] → n.sent = [] → n.stageAt = none → Tracks [] n := by
    intro n hcandidate hsent hat
    refine ⟨by simp [hcandidate], by simp [hsent], fun _ => ⟨nofun, fun _ => ⟨hcandidate, nofun⟩, ?_, ?_, ?_⟩⟩
    · exact fun hne => absurd hcandidate hne
    · exact fun _ hsince => absurd hsince since_nil
    · rw [hat]
      exact nofun
  unfold Navigator.new
  split <;> exact hlive _ rfl rfl rfl

/-- Whatever is observed, and wherever the operator takes over or the state is kept as JSON: each key
is allowed by what came before it, and what is read back is the navigator that was kept. -/
theorem key_discipline (target : Target) (vin : Chars) (join : Bool) (events : List Event)
    (hshort : ∀ e ∈ events, e.Short) :
    Justified Disciplined
        (log Navigator.apply (fun n e => [record n e]) (Navigator.new target vin join) events) ∧
      ∀ before after, events = before ++ after →
        Navigator.fromJson (run Navigator.apply (Navigator.new target vin join) before).toJson =
          some (run Navigator.apply (Navigator.new target vin join) before) := by
  have hstart := new_tracks target vin join
  refine ⟨(run_tracks hstart .nil hshort).2, ?_⟩
  rintro before after rfl
  have hbefore : ∀ e ∈ before, e.Short := fun e he => hshort e (List.mem_append_left _ he)
  exact (run_tracks hstart .nil hbefore).1.fromJson

/-- The splash screen of a supported vehicle, kept as JSON between two looks at it. -/
theorem key_discipline_of_splash :
    let splash := "Software Version 1\nPress [ENTER]".toList
    let events : List Event := [.observe splash 0, .reload, .observe splash 50]
    let n := Navigator.new .security "YS3FD49YX41000001".toList false
    (run Navigator.apply n events).sent = splash ∧
      Justified Disciplined (log Navigator.apply (fun n e => [record n e]) n events) := by
  refine ⟨by decide +kernel, ?_⟩
  refine (key_discipline .security _ false _ ?_).1
  refine List.forall_mem_cons.mpr ⟨?_, List.forall_mem_cons.mpr ⟨nofun, ?_⟩⟩
  · rintro _ _ ⟨⟩
    decide
  · rintro e he _ _ rfl
    obtain ⟨rfl, -⟩ := Event.observe.inj (List.mem_singleton.mp he)
    decide

end OpenSaab.Menu
