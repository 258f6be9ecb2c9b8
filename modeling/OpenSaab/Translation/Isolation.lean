import OpenSaab.Translation.Deadlines

/-!
# Isolation of a host transaction

Traffic of another bus, identifier, address width or session passes a session by.
-/

namespace OpenSaab.Translation

open Runs IsoTp

/-! ## Foreign traffic -/

namespace Packet

def bus : Packet → Bus
  | .raw frame => frame.bus
  | .isoTpPayload bus _ _ _ => bus

def id : Packet → UInt32
  | .raw frame => frame.id
  | .isoTpPayload _ id _ _ => id

def extended : Packet → Bool
  | .raw frame => frame.extended
  | .isoTpPayload _ _ extended _ => extended

/-- A raw frame is one that classical CAN knows. -/
def WellFormed : Packet → Prop
  | .raw frame => frame.validate = .ok ()
  | .isoTpPayload _ _ _ _ => True

end Packet

/-- An observation of another bus, identifier, address width or session. -/
def Config.Foreign (config : Config) (o : Observation) : Prop :=
  o.sessionId ≠ config.sessionId ∨ o.packet.bus ≠ config.profile.bus ∨
    o.packet.extended ≠ config.extended ∨
      o.packet.id ≠ config.replyId ∧ config.protocol ≠ .gmA9Report o.packet.id

instance (config : Config) (o : Observation) : Decidable (config.Foreign o) :=
  inferInstanceAs (Decidable (_ ∨ _ ∨ _ ∨ _ ∧ _))

namespace Session

variable {s s₁ : Session} {o : Observation}

theorem selected_iff (s : Session) (bus : Bus) (id : UInt32) (extended : Bool) :
    s.selected bus id extended = true ↔ bus = s.config.profile.bus ∧ extended = s.config.extended ∧
      (id = s.config.replyId ∨ s.config.protocol = .gmA9Report id) := by
  simp [selected, and_assoc]

/-- A packet that was addressed to somebody else is ignored. -/
theorem consume_foreign {packet : Packet} (hvalid : packet.WellFormed)
    (h : s.selected packet.bus packet.id packet.extended = false) :
    s.consume packet = (.ok .ignored, s) := by
  cases packet with
  | raw frame =>
    change frame.validate = .ok () at hvalid
    change s.selected frame.bus frame.id frame.extended = false at h
    show s.consumeRaw frame = _
    unfold consumeRaw
    rw [hvalid]
    simp [h]
  | isoTpPayload bus id extended data =>
    change s.selected bus id extended = false at h
    show (s.consumePayload bus id extended data, s) = _
    unfold consumePayload
    simp [h]

/-- Foreign traffic moves the clock alone. -/
theorem feed_foreign (h : s.state = .active) (hclock : s.lastUs ≤ o.atUs)
    (htime : s.InTime o.atUs) (hforeign : s.config.Foreign o)
    (hvalid : o.sessionId = s.config.sessionId → o.packet.WellFormed) :
    s.feed o = (.ok .ignored, { s with lastUs := o.atUs }) := by
  rw [feed_eq h hclock htime]
  by_cases hsession : o.sessionId = s.config.sessionId
  · have hother := hforeign.resolve_left (not_not_intro hsession)
    have hselected : ¬ s.selected o.packet.bus o.packet.id o.packet.extended = true := by
      rw [selected_iff]
      tauto
    rw [if_neg (not_not_intro hsession)]
    rw [@consume_foreign { s with lastUs := o.atUs } _ (hvalid hsession)
      (Bool.eq_false_iff.mpr hselected)]
    rfl
  · rw [if_pos hsession]

/-! ## Two runs -/

/-- The session after an observation. -/
def observe (s : Session) (o : Observation) : Session := (s.feed o).2

/-- What comes out of the observations that are not foreign. -/
def ownResults (config : Config) (s : Session) (o : Observation) : List (Except String Action) :=
  if config.Foreign o then [] else [(s.feed o).1]

/-- Foreign traffic comes before a deadline is over, and in frames that classical CAN knows. -/
def Bystander (config : Config) (s : Session) (o : Observation) : Prop :=
  config.Foreign o → (s.state = .active → s.InTime o.atUs) ∧
    (o.sessionId = config.sessionId → o.packet.WellFormed)

instance (config : Config) (s : Session) (o : Observation) : Decidable (Bystander config s o) := by
  unfold Bystander Packet.WellFormed
  cases o.packet <;> infer_instance

/-- The sessions differ in their clocks at most. -/
def Same (s s₁ : Session) : Prop := ∃ t, s₁ = { s with lastUs := t }

/-- The clock goes on over all the observations. -/
def Monotone (s : Session) (os : List Observation) : Prop :=
  (s.lastUs :: os.map (·.atUs)).Pairwise (· ≤ ·)

instance (s : Session) (os : List Observation) : Decidable (s.Monotone os) :=
  inferInstanceAs (Decidable (List.Pairwise _ _))

theorem Monotone.head {os : List Observation} (h : s.Monotone (o :: os)) : s.lastUs ≤ o.atUs :=
  (List.pairwise_cons.mp h).1 _ (by simp)

theorem Monotone.tail {os : List Observation} (h : s.Monotone (o :: os))
    (hlast : s₁.lastUs ≤ o.atUs) : s₁.Monotone os := by
  obtain ⟨hfirst, hrest⟩ := List.pairwise_cons.mp (List.pairwise_cons.mp h).2
  exact List.pairwise_cons.mpr ⟨fun t ht => UInt64.le_trans hlast (hfirst t ht), hrest⟩

/-- An observation leads two sessions that differ in their clocks to the same result. -/
theorem feed_same (h : Same s s₁) (hclock : s.lastUs ≤ o.atUs) (hle : s₁.lastUs ≤ s.lastUs) :
    (s.feed o).1 = (s₁.feed o).1 ∧ Same (s.feed o).2 (s₁.feed o).2 ∧
      (s₁.feed o).2.lastUs ≤ (s.feed o).2.lastUs := by
  obtain ⟨t, rfl⟩ := h
  change t ≤ s.lastUs at hle
  by_cases hactive : s.state = .active
  · have heq : s.feed o = { s with lastUs := t }.feed o := by
      unfold feed tick
      simp only [hactive, ne_eq, not_true_eq_false, if_false,
        if_neg (UInt64.not_lt.mpr hclock), if_neg (UInt64.not_lt.mpr (UInt64.le_trans hle hclock))]
    rw [← heq]
    exact ⟨rfl, ⟨_, rfl⟩, UInt64.le_refl _⟩
  · rw [feed_terminal hactive, @feed_terminal { s with lastUs := t } hactive]
    exact ⟨rfl, ⟨_, rfl⟩, hle⟩

/-- A run without the foreign traffic leads to the same results. -/
theorem run_own {config : Config} {os : List Observation} (hconfig : s.config = config)
    (h : Same s s₁) (hle : s₁.lastUs ≤ s.lastUs) (hclock : s.Monotone os)
    (hforeign : Each observe (Bystander config) s os) :
    log observe (ownResults config) s os =
        log observe (ownResults config) s₁ (os.filter fun o => ¬ config.Foreign o) ∧
      Same (run observe s os) (run observe s₁ (os.filter fun o => ¬ config.Foreign o)) := by
  induction os generalizing s s₁ with
  | nil => exact ⟨rfl, h⟩
  | cons o os ih =>
    have hlast := hclock.tail (feed_lastUs hclock.head)
    have hconfig' := (feed_config s o).trans hconfig
    by_cases hother : config.Foreign o
    · have hnext : Same (s.feed o).2 s₁ ∧ s₁.lastUs ≤ (s.feed o).2.lastUs := by
        by_cases hactive : s.state = .active
        · obtain ⟨htime, hvalid⟩ := hforeign.1 hother
          subst hconfig
          rw [feed_foreign hactive hclock.head (htime hactive) hother hvalid]
          exact ⟨h, UInt64.le_trans hle hclock.head⟩
        · rw [feed_terminal hactive]
          exact ⟨h, hle⟩
      rw [List.filter_cons_of_neg (by simpa using hother)]
      simp only [log, ownResults, if_pos hother, List.nil_append, run_cons]
      exact ih hconfig' hnext.1 hnext.2 hlast hforeign.2
    · obtain ⟨hresult, hnext, hle'⟩ := feed_same h hclock.head hle
      obtain ⟨hlog, hrun⟩ := ih hconfig' hnext hle' hlast hforeign.2
      rw [List.filter_cons_of_pos (by simpa using hother)]
      simp only [log, ownResults, if_neg hother, run_cons]
      exact ⟨by rw [hresult]; exact congrArg _ hlog, hrun⟩

/-- What foreign traffic is told. -/
theorem run_foreign {config : Config} {os : List Observation} (hconfig : s.config = config)
    (hclock : s.Monotone os) (hforeign : Each observe (Bystander config) s os) :
    Each observe
      (fun s o => config.Foreign o →
        (s.feed o).1 = if s.state = .active then .ok .ignored
          else .error "Host transaction is terminal") s os := by
  induction os generalizing s with
  | nil => trivial
  | cons o os ih =>
    refine ⟨fun hother => ?_, ih ((feed_config s o).trans hconfig)
      (hclock.tail (feed_lastUs hclock.head)) hforeign.2⟩
    split
    · next hactive =>
      obtain ⟨htime, hvalid⟩ := hforeign.1 hother
      subst hconfig
      rw [feed_foreign hactive hclock.head (htime hactive) hother hvalid]
    · next hactive => rw [feed_terminal hactive]

/-- Two sequences that agree but for foreign traffic, whose clocks go on and whose foreign traffic
comes in time and well formed, lead a session to the same results and to the same end. The foreign
traffic itself is ignored for as long as the session is active. -/
theorem sessions_isolated (s : Session) (os os' : List Observation)
    (hown : (os.filter fun o => ¬ s.config.Foreign o) = os'.filter fun o => ¬ s.config.Foreign o)
    (hclock : s.Monotone os) (hclock' : s.Monotone os')
    (hforeign : Each observe (Bystander s.config) s os)
    (hforeign' : Each observe (Bystander s.config) s os') :
    log observe (ownResults s.config) s os = log observe (ownResults s.config) s os' ∧
      { run observe s os with lastUs := 0 } = { run observe s os' with lastUs := 0 } ∧
        Each observe
          (fun s' o => s.config.Foreign o →
            (s'.feed o).1 = if s'.state = .active then .ok .ignored
              else .error "Host transaction is terminal") s os' := by
  obtain ⟨hlog, t, hrun⟩ := run_own rfl ⟨s.lastUs, rfl⟩ (UInt64.le_refl _) hclock hforeign
  obtain ⟨hlog', t', hrun'⟩ := run_own rfl ⟨s.lastUs, rfl⟩ (UInt64.le_refl _) hclock' hforeign'
  refine ⟨?_, ?_, run_foreign rfl hclock' hforeign'⟩
  · rw [hlog, hlog', hown]
  · have hends := hrun.symm.trans ((congrArg (run observe s) hown).trans hrun')
    have hclocks := congrArg (fun s : Session => { s with lastUs := 0 }) hends
    exact hclocks

/-- A reply to the request of the contract tests, and a frame of another bus. -/
def replyAt (at_ : UInt64) : Observation where
  sessionId := 1
  atUs := at_
  packet := .raw ⟨.hsCan, 0x7e8, false, false, 2, [1, 0x5a]⟩

def foreignAt (at_ : UInt64) (dlc : UInt8) : Observation where
  sessionId := 1
  atUs := at_
  packet := .raw ⟨.swCan, 0x7e8, false, false, dlc, [1, 0x5a]⟩

theorem reply_isolated :
    log observe (ownResults isoTpConfig) isoTpSession [replyAt 2] =
      log observe (ownResults isoTpConfig) isoTpSession [foreignAt 1 2, replyAt 2, foreignAt 3 2] :=
  (sessions_isolated isoTpSession [replyAt 2] [foreignAt 1 2, replyAt 2, foreignAt 3 2]
    (by decide) (by decide) (by decide) (by decide) (by decide)).1

/-- Frames are validated before they are selected: what is malformed on another bus fails the
session. -/
theorem malformed_foreign_frame_fails :
    ¬ ∀ (s : Session) (os os' : List Observation),
      ((os.filter fun o => ¬ s.config.Foreign o) = os'.filter fun o => ¬ s.config.Foreign o) →
        s.Monotone os → s.Monotone os' →
          Each observe (fun s o => s.config.Foreign o → s.state = .active → s.InTime o.atUs) s os →
            Each observe (fun s o => s.config.Foreign o → s.state = .active → s.InTime o.atUs) s os' →
              log observe (ownResults s.config) s os = log observe (ownResults s.config) s os' := by
  intro h
  have hsame := h isoTpSession [replyAt 2] [foreignAt 1 9, replyAt 2] (by decide) (by decide)
    (by decide) ⟨fun _ _ => by decide, trivial⟩
    ⟨fun _ _ => by decide, fun _ _ => by decide, trivial⟩
  exact absurd hsame (by decide)

end Session

end OpenSaab.Translation
