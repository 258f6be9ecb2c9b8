import OpenSaab.Controls.KeyState

/-!
# Checkpoints before selections

A checkpoint is taken before a poll if a selection seems to be pending. Which selections a poll
delivers follows from the looks that it takes at the keys.
-/

namespace OpenSaab.Controls

open KeyState

/-- Keys that select the same. -/
inductive Group
  | enter
  | digit (d : Fin 10)
  | function (i : Fin 5)
  deriving DecidableEq, Repr

def Group.keys : Group → List Key
  | .enter => [.enter, .numPadEnter, .space, .right]
  | .digit d => [.digit d, .numPad d]
  | .function i => [.function i]

/-- A key of the group is held. -/
def Group.down (group : Group) (held : Held) : Bool :=
  match group with
  | .enter => enterKeys held
  | .digit d => digitKeys held d
  | .function i => functionKeys held i

/-- The group was held at the last look. -/
def KeyState.latch (s : KeyState) : Group → Bool
  | .enter => s.enterDown
  | .digit d => s.digitDown d
  | .function i => s.fDown i

def Delivery.isSelection : Delivery → Bool
  | .select _ | .selectDigit _ => true
  | _ => false

/-- The keys are not looked at while a shortcut is held. -/
def defers (g : Surroundings) (held : Held) : Bool := modifier held || recovers g held

/-- A shortcut that ends the replay. -/
def stops (g : Surroundings) (held : Held) : Bool :=
  if modifier held then held .q else recovers g held

/-- The keys that are held at each look of a replay, those under a shortcut left out. -/
def looks (g : Surroundings) (stopped : Bool) : List (Key × Bool) → Held → List Held
  | [], held => if defers g held then [] else [held]
  | (key, down) :: rest, held =>
    if isPage key then looks g stopped rest held
    else if held key = down then looks g stopped rest held
    else
      let held := hold held key down
      (if defers g held then [] else [held]) ++
        if stopped || stops g held then [] else looks g stopped rest held

/-- After a low value, the first one included, there is a high one. -/
def Rises (first : Bool) (rest : List Bool) : Prop :=
  ∃ before after, rest = before ++ true :: after ∧ (first = false ∨ false ∈ before)

theorem not_rises_nil (first : Bool) : ¬ Rises first [] := by
  rintro ⟨before, after, heq, -⟩
  cases before <;> cases heq

theorem rises_cons {first second : Bool} {rest : List Bool} :
    Rises first (second :: rest) ↔ (second = true ∧ first = false) ∨ Rises second rest := by
  constructor
  · rintro ⟨before, after, heq, hlow⟩
    cases before with
    | nil =>
      obtain ⟨rfl, rfl⟩ := List.cons.inj heq
      exact .inl ⟨rfl, hlow.resolve_right List.not_mem_nil⟩
    | cons x before =>
      obtain ⟨rfl, rfl⟩ := List.cons.inj heq
      cases second with
      | false => exact .inr ⟨before, after, rfl, .inl rfl⟩
      | true =>
        rcases hlow with hlow | hlow
        · exact .inl ⟨rfl, hlow⟩
        · refine .inr ⟨before, after, rfl, .inr ?_⟩
          exact (List.mem_cons.mp hlow).resolve_left Bool.false_ne_true
  · rintro (⟨rfl, rfl⟩ | ⟨before, after, rfl, hlow⟩)
    · exact ⟨[], rest, rfl, .inl rfl⟩
    · refine ⟨second :: before, after, rfl, .inr ?_⟩
      rcases hlow with rfl | hlow
      · exact List.mem_cons_self
      · exact List.mem_cons_of_mem _ hlow

/-! ## One look -/

section

variable {g : Surroundings} {s : KeyState}

theorem pollSnapshot_deferred (now : Nat) (h : defers g s.heldKeys = true) :
    (s.pollSnapshot g now).2 = [] ∧ (s.pollSnapshot g now).1.latch = s.latch := by
  unfold pollSnapshot
  dsimp only
  by_cases hmodifier : modifier s.heldKeys = true
  · rw [if_pos hmodifier]
    exact ⟨rfl, funext fun group => by cases group <;> rfl⟩
  · have hrecovers : recovers g s.heldKeys = true := by
      unfold defers at h
      rw [eq_false_of_ne_true hmodifier, Bool.false_or] at h
      exact h
    rw [if_neg hmodifier, if_pos hrecovers]
    exact ⟨rfl, funext fun group => by cases group <;> rfl⟩

theorem update_selects {r : Repeater} {down : Bool} {now : Nat} :
    ∀ d ∈ (r.update down now).2, d.isSelection = false := by
  unfold Repeater.update
  split
  · exact nofun
  · split
    · intro d hd
      rw [List.mem_singleton.mp hd]
      rfl
    · split
      · split
        · intro d hd
          rw [List.mem_singleton.mp hd]
          rfl
        · exact nofun
      · exact nofun

/-- A look delivers the selections of the groups that are newly held. -/
theorem pollSnapshot_looked (now : Nat) (h : defers g s.heldKeys = false) :
    ((∃ d ∈ (s.pollSnapshot g now).2, d.isSelection = true) ↔
      ∃ group : Group, group.down s.heldKeys = true ∧ s.latch group = false) ∧
    (s.pollSnapshot g now).1.latch = fun group => group.down s.heldKeys := by
  obtain ⟨hmodifier, hrecovers⟩ := Bool.or_eq_false_iff.mp h
  unfold pollSnapshot
  dsimp only
  rw [hmodifier, if_neg Bool.false_ne_true, hrecovers, if_neg Bool.false_ne_true]
  refine ⟨?_, funext fun group => by cases group <;> rfl⟩
  simp only [List.mem_append]
  constructor
  · rintro ⟨d, ((((hd | hd) | hd) | hd) | hd) | hd, hselection⟩
    · split at hd
      · next hedge =>
        obtain ⟨hdown, hlatch⟩ := Bool.and_eq_true_iff.mp hedge
        exact ⟨.enter, hdown, (Bool.not_eq_true' _).mp hlatch⟩
      · exact absurd hd List.not_mem_nil
    · split at hd
      · rw [List.mem_singleton.mp hd] at hselection
        cases hselection
      · exact absurd hd List.not_mem_nil
    · rw [update_selects d hd] at hselection
      cases hselection
    · rw [update_selects d hd] at hselection
      cases hselection
    · obtain ⟨i, hi, rfl⟩ := List.mem_map.mp hd
      obtain ⟨hdown, hlatch⟩ := Bool.and_eq_true_iff.mp (List.mem_filter.mp hi).2
      exact ⟨.digit i, hdown, (Bool.not_eq_true' _).mp hlatch⟩
    · obtain ⟨i, hi, rfl⟩ := List.mem_map.mp hd
      obtain ⟨hdown, hlatch⟩ := Bool.and_eq_true_iff.mp (List.mem_filter.mp hi).2
      exact ⟨.function i, hdown, (Bool.not_eq_true' _).mp hlatch⟩
  · rintro ⟨group, hdown, hlatch⟩
    cases group with
    | enter =>
      have hedge : (enterKeys s.heldKeys && !s.enterDown) = true :=
        Bool.and_eq_true_iff.mpr ⟨hdown, (Bool.not_eq_true' _).mpr hlatch⟩
      rw [if_pos hedge]
      exact ⟨_, .inl (.inl (.inl (.inl (.inl (List.mem_singleton_self _))))), rfl⟩
    | digit i =>
      have hedge : (digitKeys s.heldKeys i && !s.digitDown i) = true :=
        Bool.and_eq_true_iff.mpr ⟨hdown, (Bool.not_eq_true' _).mpr hlatch⟩
      refine ⟨.selectDigit i, .inl (.inr (List.mem_map.mpr ⟨i, ?_, rfl⟩)), rfl⟩
      exact List.mem_filter.mpr ⟨List.mem_finRange i, hedge⟩
    | function i =>
      have hedge : (functionKeys s.heldKeys i && !s.fDown i) = true :=
        Bool.and_eq_true_iff.mpr ⟨hdown, (Bool.not_eq_true' _).mpr hlatch⟩
      refine ⟨.selectDigit i, .inr (List.mem_map.mpr ⟨i, ?_, rfl⟩), rfl⟩
      exact List.mem_filter.mpr ⟨List.mem_finRange i, hedge⟩

theorem pollSnapshot_stops (now : Nat) : ((s.pollSnapshot g now).1.recoveryRequested ||
    (s.pollSnapshot g now).1.quitRequested) =
      ((s.recoveryRequested || s.quitRequested) || stops g s.heldKeys) := by
  unfold pollSnapshot stops
  dsimp only
  split
  · rw [Bool.or_assoc]
  · split
    · next hrecovers =>
      rw [hrecovers, Bool.true_or, Bool.or_true]
    · next hrecovers =>
      rw [eq_false_of_ne_true hrecovers, Bool.or_false]

end

/-! ## A replay -/

section

variable {g : Surroundings}

theorem latch_congr {s s' : KeyState} (henter : s'.enterDown = s.enterDown)
    (hdigit : s'.digitDown = s.digitDown) (hf : s'.fDown = s.fDown) : s'.latch = s.latch := by
  funext group
  cases group with
  | enter => exact henter
  | digit d => exact congrFun hdigit d
  | function i => exact congrFun hf i

theorem scroll_keeps (s : KeyState) (key : Key) (down : Bool) : (s.scroll key down).latch = s.latch ∧
    (s.scroll key down).heldKeys = s.heldKeys ∧
    ((s.scroll key down).recoveryRequested || (s.scroll key down).quitRequested) =
      (s.recoveryRequested || s.quitRequested) := by
  unfold scroll
  split
  · exact ⟨rfl, rfl, rfl⟩
  · split <;> exact ⟨latch_congr rfl rfl rfl, rfl, rfl⟩

theorem pollSnapshot_held (s : KeyState) (now : Nat) : (s.pollSnapshot g now).1.heldKeys = s.heldKeys := by
  unfold pollSnapshot
  dsimp only
  split
  · rfl
  · split <;> rfl

/-- The groups that rise over the looks, from what they were at the last look before. -/
def Rising (s : KeyState) (held : List Held) : Prop :=
  ∃ group : Group, Rises (s.latch group) (held.map group.down)

/-- A look, or the lack of one, before the looks that follow. -/
theorem rising_look (s : KeyState) (now : Nat) (rest : List Held) :
    Rising s ((if defers g s.heldKeys then [] else [s.heldKeys]) ++ rest) ↔
      (∃ d ∈ (s.pollSnapshot g now).2, d.isSelection = true) ∨
        Rising (s.pollSnapshot g now).1 rest := by
  unfold Rising
  cases hdefers : defers g s.heldKeys with
  | true =>
    obtain ⟨hout, hlatch⟩ := pollSnapshot_deferred now hdefers
    rw [if_pos rfl, List.nil_append, hout, hlatch]
    refine ⟨.inr, fun h => h.resolve_left ?_⟩
    rintro ⟨d, hd, -⟩
    cases hd
  | false =>
    obtain ⟨hout, hlatch⟩ := pollSnapshot_looked now hdefers
    rw [if_neg Bool.false_ne_true, hout, hlatch, List.singleton_append, ← exists_or]
    refine exists_congr fun group => ?_
    rw [List.map_cons]
    exact rises_cons

theorem replay_delivers (events : List (Key × Bool)) (s : KeyState) :
    (∃ d ∈ (replay g events s).2, d.isSelection = true) ↔
      Rising s (looks g (s.recoveryRequested || s.quitRequested) events s.heldKeys) := by
  induction events generalizing s with
  | nil =>
    have hlook := rising_look (g := g) s (g.now 0) []
    rw [List.append_nil] at hlook
    unfold replay looks
    rw [hlook]
    refine ⟨.inl, fun h => h.resolve_right ?_⟩
    rintro ⟨group, hrises⟩
    exact not_rises_nil _ hrises
  | cons event events ih =>
    obtain ⟨key, down⟩ := event
    unfold replay looks
    split
    · obtain ⟨hlatch, hheld, hstopped⟩ := scroll_keeps s key down
      rw [ih, hheld, hstopped]
      unfold Rising
      rw [hlatch]
    · split
      · exact ih s
      · -- The look after the change, and the rest of the replay if it goes on.
        have hsame : ∀ held, Rising (s.setHeld key down) held ↔ Rising s held := fun held => by
          unfold Rising
          rw [show (s.setHeld key down).latch = s.latch from latch_congr rfl rfl rfl]
        have hlook := rising_look (g := g) (s.setHeld key down) (g.now (events.length + 1))
        have hstops := pollSnapshot_stops (g := g) (s := s.setHeld key down) (g.now (events.length + 1))
        have hheld := pollSnapshot_held (g := g) (s.setHeld key down) (g.now (events.length + 1))
        generalize (s.setHeld key down).pollSnapshot g (g.now (events.length + 1)) = looked at *
        obtain ⟨t, out⟩ := looked
        change ((t.recoveryRequested || t.quitRequested) =
          ((s.recoveryRequested || s.quitRequested) || stops g (hold s.heldKeys key down))) at hstops
        change t.heldKeys = hold s.heldKeys key down at hheld
        dsimp only
        rw [hstops, ← hsame, show hold s.heldKeys key down = (s.setHeld key down).heldKeys from rfl,
          hlook]
        split
        · refine ⟨.inl, fun h => h.resolve_right ?_⟩
          rintro ⟨group, hrises⟩
          exact not_rises_nil _ hrises
        · next hgoes =>
          have hgoes : ((s.recoveryRequested || s.quitRequested) ||
              stops g (hold s.heldKeys key down)) = false := eq_false_of_ne_true hgoes
          have hrest := ih t
          rw [hstops, hgoes, hheld] at hrest
          rw [(Bool.or_eq_false_iff.mp hgoes).1, show (s.setHeld key down).heldKeys =
            hold s.heldKeys key down from rfl, ← hrest]
          simp only [List.mem_append, or_and_right, exists_or]

/-- A poll delivers the selections of the groups that rise over its looks. -/
theorem poll_delivers (s : KeyState) : (∃ d ∈ (s.poll g).2, d.isSelection = true) ↔
    Rising s (looks g (s.recoveryRequested || s.quitRequested) s.events s.heldKeys) := by
  unfold poll
  rw [replay_delivers]
  unfold Rising
  rw [show KeyState.latch { s with events := [] } = s.latch from latch_congr rfl rfl rfl]

end

/-! ## Keys that were held before -/

theorem down_iff {group : Group} {held : Held} :
    group.down held = true ↔ ∃ key ∈ group.keys, held key = true := by
  cases group with
  | enter => simp [Group.down, Group.keys, enterKeys, or_assoc]
  | digit d => simp [Group.down, Group.keys, digitKeys]
  | function i => simp [Group.down, Group.keys, functionKeys]

theorem selects_of_mem {group : Group} {key : Key} (h : key ∈ group.keys) : selects key = true := by
  cases group <;> simp only [Group.keys, List.mem_cons, List.not_mem_nil, or_false] at h
  · rcases h with rfl | rfl | rfl | rfl <;> rfl
  · rcases h with rfl | rfl <;> rfl
  · rw [h]
    rfl

/-- Where no selection is pending, the keys that select and are held at a look were held before. -/
theorem held_of_look {g : Surroundings} {stopped : Bool} {events : List (Key × Bool)}
    {before held look : Held}
    (hevents : ∀ key, (key, true) ∈ events → selects key = true → before key = true)
    (hheld : ∀ key, selects key = true → held key = true → before key = true)
    (hlook : look ∈ looks g stopped events held) :
    ∀ key, selects key = true → look key = true → before key = true := by
  have hhere : ∀ {held look : Held}, (∀ key, selects key = true → held key = true → before key = true) →
      look ∈ (if defers g held then [] else [held]) →
      ∀ key, selects key = true → look key = true → before key = true := by
    intro held look hheld hlook
    split at hlook
    · cases hlook
    · obtain rfl := List.mem_singleton.mp hlook
      exact hheld
  induction events generalizing held with
  | nil => exact hhere hheld hlook
  | cons event events ih =>
    obtain ⟨key, down⟩ := event
    have hrest : ∀ key, (key, true) ∈ events → selects key = true → before key = true :=
      fun key hkey => hevents key (List.mem_cons_of_mem _ hkey)
    unfold looks at hlook
    split at hlook
    · exact ih hrest hheld hlook
    · split at hlook
      · exact ih hrest hheld hlook
      · have hnext : ∀ k, selects k = true → hold held key down k = true → before k = true := by
          intro k hk hdown
          unfold hold at hdown
          split at hdown
          · next heq =>
            subst heq hdown
            exact hevents k List.mem_cons_self hk
          · exact hheld k hk hdown
        rcases List.mem_append.mp hlook with hlook | hlook
        · exact hhere hnext hlook
        · split at hlook
          · cases hlook
          · exact ih hrest hnext hlook

/-- Where no selection is pending, only groups that are held when the poll starts can rise. -/
theorem held_of_rising {g : Surroundings} {s : KeyState} (h : s.hasPendingSelection = false)
    {group : Group} {stopped : Bool}
    (hrises : Rises (s.latch group) ((looks g stopped s.events s.heldKeys).map group.down)) :
    group.down s.heldKeys = true := by
  obtain ⟨before, after, heq, -⟩ := hrises
  have hmem : true ∈ (looks g stopped s.events s.heldKeys).map group.down := by
    rw [heq]
    exact List.mem_append_right _ List.mem_cons_self
  obtain ⟨look, hlook, hdown⟩ := List.mem_map.mp hmem
  obtain ⟨key, hkey, hheld⟩ := down_iff.mp hdown
  have hevents : ∀ key, (key, true) ∈ s.events → selects key = true → s.heldKeys key = true := by
    intro key hevent hselects
    by_contra hnot
    have hpending : s.hasPendingSelection = true := by
      refine List.any_eq_true.mpr ⟨(key, true), hevent, ?_⟩
      dsimp only
      rw [eq_false_of_ne_true hnot, hselects]
      rfl
    rw [h] at hpending
    cases hpending
  refine down_iff.mpr ⟨key, hkey, ?_⟩
  exact held_of_look hevents (fun _ _ hheld => hheld) hlook key (selects_of_mem hkey) hheld

/-! ## Histories -/

/-- The groups that are held when the poll starts are latched, if a look finds them held, and no look
before that finds them released. -/
def Steady (g : Surroundings) (s : KeyState) : Prop :=
  ∀ group : Group, group.down s.heldKeys = true → ∀ before look after,
    looks g (s.recoveryRequested || s.quitRequested) s.events s.heldKeys = before ++ look :: after →
      group.down look = true →
        s.latch group = true ∧ ∀ earlier ∈ before, group.down earlier = true

theorem poll_guarded_iff (g : Surroundings) (s : KeyState) :
    ((∃ d ∈ (s.poll g).2, d.isSelection = true) → s.hasPendingSelection = true) ↔
      s.hasPendingSelection = true ∨ Steady g s := by
  rw [poll_delivers]
  constructor
  · intro h
    by_cases hpending : s.hasPendingSelection = true
    · exact .inl hpending
    · right
      intro group _ before look after heq hdown
      by_contra hnot
      refine hpending (h ⟨group, before.map group.down, after.map group.down, ?_, ?_⟩)
      · rw [heq, List.map_append, List.map_cons, hdown]
      · rcases not_and_or.mp hnot with hlatch | hearlier
        · exact .inl (eq_false_of_ne_true hlatch)
        · push Not at hearlier
          obtain ⟨earlier, hmem, hup⟩ := hearlier
          exact .inr (List.mem_map.mpr ⟨earlier, hmem, eq_false_of_ne_true hup⟩)
  · rintro (hpending | h) ⟨group, hrises⟩
    · exact hpending
    · by_contra hnot
      have hheld := held_of_rising (eq_false_of_ne_true hnot) hrises
      obtain ⟨low, high, heq, hlow⟩ := hrises
      obtain ⟨before, rest, hlooks, rfl, hrest⟩ := List.map_eq_append_iff.mp heq
      obtain ⟨look, after, rfl, hdown, rfl⟩ := List.map_eq_cons_iff.mp hrest
      obtain ⟨hlatch, hearlier⟩ := h group hheld before look after hlooks hdown
      rcases hlow with hlow | hlow
      · rw [hlatch] at hlow
        cases hlow
      · obtain ⟨earlier, hmem, hup⟩ := List.mem_map.mp hlow
        rw [hearlier earlier hmem] at hup
        cases hup

/-- Every selection of a history is preceded by a checkpoint decision exactly where every poll that no
selection is pending for finds the keys as they were latched. -/
theorem guarded_history_iff (enterCode : UInt8) (ops : List Op) :
    Runs.Each step (fun s op => ∀ g, op = .poll g →
      (∃ d ∈ (s.poll g).2, d.isSelection = true) → s.hasPendingSelection = true) (new enterCode) ops ↔
    Runs.Each step (fun s op => ∀ g, op = .poll g → s.hasPendingSelection = true ∨ Steady g s)
      (new enterCode) ops := by
  refine Runs.each_congr fun s op => forall_congr' fun g => imp_congr_right fun _ => ?_
  exact poll_guarded_iff g s

/-- Enter is held over a poll, and before the next one released and pressed again. -/
def pressedAgain (g : Surroundings) : List Op :=
  [.key .enter true, .poll g, .key .enter false, .key .enter true, .poll g]

theorem press_again_unguarded : ¬ Runs.Each step (fun s op => ∀ g, op = .poll g →
    (∃ d ∈ (s.poll g).2, d.isSelection = true) → s.hasPendingSelection = true) (new 0x10)
      (pressedAgain ⟨true, false, id⟩) := by
  rintro ⟨-, -, -, -, h, -⟩
  have hpending := h ⟨true, false, id⟩ rfl ⟨.select 0x10, by decide, rfl⟩
  exact absurd hpending (by decide)

end OpenSaab.Controls
