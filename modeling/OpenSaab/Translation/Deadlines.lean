import OpenSaab.Translation.Session
import Mathlib.Data.List.Chain

/-!
# Deadlines and finality of a host transaction

What a session does with an observation is said once, in `feed_cases`. Its clock and its deadlines
follow from that alone.
-/

namespace OpenSaab.Translation

open Runs IsoTp

namespace Session

variable {s s' : Session}

/-! ## What an observation can do -/

/-- Nothing but the progress of the reply differs. -/
def Kept (s s' : Session) : Prop :=
  ∃ iso gm blockCount, s' = { s with iso, gm, blockCount }

theorem Kept.refl (s : Session) : Kept s s := ⟨_, _, _, rfl⟩

theorem Kept.trans {s'' : Session} (h : Kept s s') (h' : Kept s' s'') : Kept s s'' := by
  obtain ⟨iso, gm, count, rfl⟩ := h
  obtain ⟨iso', gm', count', rfl⟩ := h'
  exact ⟨iso', gm', count', rfl⟩

theorem Kept.config (h : Kept s s') : s'.config = s.config := by
  obtain ⟨iso, gm, count, rfl⟩ := h
  rfl

theorem Kept.lastUs (h : Kept s s') : s'.lastUs = s.lastUs := by
  obtain ⟨iso, gm, count, rfl⟩ := h
  rfl

theorem consumeGm_kept (s : Session) (reportId : UInt32) (frame : RawFrame) :
    Kept s (s.consumeGm reportId frame).2 := by
  unfold consumeGm
  split
  · exact .refl s
  · split
    · exact .refl s
    · split
      · exact ⟨_, _, _, rfl⟩
      · split
        · exact ⟨_, _, _, rfl⟩
        · split <;> exact ⟨_, _, _, rfl⟩

theorem received_kept (s : Session) (positivePrefix : List UInt8) (step : Step) :
    Kept s (s.received positivePrefix step).2 := by
  unfold received
  split
  · dsimp only
    split <;> exact ⟨_, _, _, rfl⟩
  · split
    · dsimp only
      split <;> exact ⟨_, _, _, rfl⟩
    · exact .refl s
  · exact .refl s

theorem consumeIsoTp_kept (s : Session) (service : UInt8) (positivePrefix : List UInt8)
    (frame : RawFrame) : Kept s (s.consumeIsoTp service positivePrefix frame).2 := by
  unfold consumeIsoTp
  split
  · split
    · exact .refl s
    · split <;> exact .refl s
  · split
    · exact ⟨_, _, _, rfl⟩
    · exact Kept.trans ⟨_, _, _, rfl⟩ (received_kept _ positivePrefix _)

theorem consume_kept (s : Session) (packet : Packet) : Kept s (s.consume packet).2 := by
  cases packet with
  | raw frame =>
    show Kept s (s.consumeRaw frame).2
    unfold consumeRaw
    split
    · exact .refl s
    · split
      · exact .refl s
      · split
        · exact .refl s
        · split
          · exact .refl s
          · split
            · exact consumeGm_kept s _ frame
            · exact consumeIsoTp_kept s _ _ frame
  | isoTpPayload bus id extended data => exact .refl s

theorem finish_report_ne (report : Report) :
    (report.finish.map fun records => Action.complete (.gmReport records)) ≠ .ok .ignored := by
  cases report.finish <;> simp [Except.map]

theorem consumeGm_ne (s : Session) (reportId : UInt32) (frame : RawFrame) :
    (s.consumeGm reportId frame).1 ≠ .ok .ignored := by
  unfold consumeGm
  split
  · simp
  · split
    · simp
    · split
      · simp
      · split
        · exact finish_report_ne _
        · split <;> simp

theorem finish_ne (positivePrefix data : List UInt8) :
    finish positivePrefix data ≠ .ok .ignored := by
  unfold finish
  split <;> simp

theorem received_ne (s : Session) (positivePrefix : List UInt8) (step : Step) :
    (s.received positivePrefix step).1 ≠ .ok .ignored := by
  unfold received
  split
  · dsimp only
    split <;> simp [flowControl]
  · split
    · dsimp only
      split <;> simp [flowControl]
    · simp
  · exact finish_ne _ _

theorem consumeIsoTp_ne (s : Session) (service : UInt8) (positivePrefix : List UInt8)
    (frame : RawFrame) : (s.consumeIsoTp service positivePrefix frame).1 ≠ .ok .ignored := by
  unfold consumeIsoTp
  split
  · split
    · simp
    · split <;> simp
  · split
    · simp
    · exact received_ne _ _ _

/-- What is ignored leaves nothing behind. -/
theorem consume_ignored {packet : Packet} (h : (s.consume packet).1 = .ok .ignored) :
    (s.consume packet).2 = s := by
  cases packet with
  | raw frame =>
    change (s.consumeRaw frame).1 = _ at h
    show (s.consumeRaw frame).2 = s
    unfold consumeRaw at h ⊢
    split
    · rfl
    · next hvalid =>
      simp only [hvalid] at h
      split at h
      · next hselected => rw [if_pos hselected]
      · split at h
        · cases h
        · split at h
          · cases h
          · split at h
            · exact absurd h (consumeGm_ne s _ frame)
            · exact absurd h (consumeIsoTp_ne s _ _ frame)
  | isoTpPayload bus id extended data => rfl

/-- Both deadlines are ahead. -/
def InTime (s : Session) (now : UInt64) : Prop :=
  now - s.startUs < s.config.limits.totalUs ∧ now - s.progressUs < s.config.limits.idleUs

instance (s : Session) (now : UInt64) : Decidable (s.InTime now) :=
  inferInstanceAs (Decidable (_ ∧ _))

/-- All that `tick` can do. -/
inductive Ticked (s : Session) (now : UInt64) : Except String Unit × Session → Prop where
  | terminal (h : s.state ≠ .active) : Ticked s now (.error "Host transaction is terminal", s)
  | backwards (h : s.state = .active) (hclock : now < s.lastUs) :
      Ticked s now (.error "Session clock moved backwards", { s with state := .failed })
  | expired (h : s.state = .active) (hclock : s.lastUs ≤ now) (hlate : ¬ s.InTime now) :
      Ticked s now
        (.error "Incomplete transaction: bounded deadline expired",
          { s with lastUs := now, state := .failed, gm := none })
  | ok (h : s.state = .active) (hclock : s.lastUs ≤ now) (htime : s.InTime now) :
      Ticked s now (.ok (), { s with lastUs := now })

theorem tick_cases (s : Session) (now : UInt64) : Ticked s now (s.tick now) := by
  unfold tick
  split
  · next h => exact .terminal h
  · next h =>
    rw [not_not] at h
    split
    · next hclock => exact .backwards h hclock
    · next hclock =>
      have hclock' : s.lastUs ≤ now := UInt64.not_lt.mp hclock
      dsimp only
      split
      · next hlate =>
        refine .expired h hclock' fun htime => ?_
        rcases hlate with hlate | hlate
        · exact UInt64.not_le.mpr htime.1 hlate
        · exact UInt64.not_le.mpr htime.2 hlate
      · next htime =>
        rw [not_or, UInt64.not_le, UInt64.not_le] at htime
        exact .ok h hclock' htime

/-- All that an observation can do: an error ends the session, what is ignored moves the clock
alone, and anything else is progress. -/
inductive Fed (s : Session) (o : Observation) : Except String Action × Session → Prop where
  | terminal (h : s.state ≠ .active) : Fed s o (.error "Host transaction is terminal", s)
  | backwards (h : s.state = .active) (hclock : o.atUs < s.lastUs) :
      Fed s o (.error "Session clock moved backwards", { s with state := .failed })
  | failed {e : String} {s' : Session} (h : s.state = .active) (hclock : s.lastUs ≤ o.atUs)
      (hstate : s'.state = .failed) (hconfig : s'.config = s.config)
      (hlast : s'.lastUs = o.atUs) : Fed s o (.error e, s')
  | ignored (h : s.state = .active) (hclock : s.lastUs ≤ o.atUs) (htime : s.InTime o.atUs) :
      Fed s o (.ok .ignored, { s with lastUs := o.atUs })
  | progress {action : Action} {s' : Session} (h : s.state = .active)
      (hclock : s.lastUs ≤ o.atUs) (htime : s.InTime o.atUs)
      (hkept : Kept { s with lastUs := o.atUs } s')
      (haction : action ≠ .ignored) (hresult : ∀ result, action ≠ .complete result) :
      Fed s o (.ok action, { s' with progressUs := o.atUs })
  | complete {result : ResultData} {s' : Session} (h : s.state = .active)
      (hclock : s.lastUs ≤ o.atUs) (htime : s.InTime o.atUs)
      (hkept : Kept { s with lastUs := o.atUs } s') :
      Fed s o (.ok (.complete result), { s' with progressUs := o.atUs, state := .complete })

theorem feed_cases (s : Session) (o : Observation) : Fed s o (s.feed o) := by
  have htick := tick_cases s o.atUs
  unfold feed
  generalize s.tick o.atUs = t at htick
  cases htick with
  | terminal h => exact .terminal h
  | backwards h hclock => exact .backwards h hclock
  | expired h hclock hlate => exact .failed h hclock rfl rfl rfl
  | ok h hclock htime =>
    dsimp only
    split
    · exact .ignored h hclock htime
    · have hkept := consume_kept { s with lastUs := o.atUs } o.packet
      have hignored := @consume_ignored { s with lastUs := o.atUs }
      generalize hr : Session.consume { s with lastUs := o.atUs } o.packet = r at hkept
      obtain ⟨result, s'⟩ := r
      cases result with
      | error e => exact .failed h hclock rfl hkept.config hkept.lastUs
      | ok action =>
        cases action with
        | ignored =>
          have hs := hignored (congrArg Prod.fst hr)
          rw [hr] at hs
          dsimp only at hs
          rw [hs]
          exact .ignored h hclock htime
        | complete result => exact @Fed.complete s o result _ h hclock htime hkept
        | pending => exact @Fed.progress s o _ _ h hclock htime hkept (by simp) (by simp)
        | progress => exact @Fed.progress s o _ _ h hclock htime hkept (by simp) (by simp)
        | sendFlowControl frame =>
          exact @Fed.progress s o _ _ h hclock htime hkept (by simp) (by simp)

/-- No observation changes the configuration. -/
theorem feed_config (s : Session) (o : Observation) : (s.feed o).2.config = s.config := by
  have hfed := feed_cases s o
  generalize s.feed o = r at hfed
  cases hfed with
  | failed _ _ _ hconfig => exact hconfig
  | progress _ _ _ hkept => exact hkept.config
  | complete _ _ _ hkept => exact hkept.config
  | _ => rfl

theorem feed_lastUs {o : Observation} (hclock : s.lastUs ≤ o.atUs) :
    (s.feed o).2.lastUs ≤ o.atUs := by
  have hfed := feed_cases s o
  generalize s.feed o = r at hfed
  cases hfed with
  | terminal => exact hclock
  | backwards => exact hclock
  | failed _ _ _ _ hlast => exact UInt64.le_of_eq hlast
  | ignored => exact UInt64.le_refl _
  | progress _ _ _ hkept => exact UInt64.le_of_eq hkept.lastUs
  | complete _ _ _ hkept => exact UInt64.le_of_eq hkept.lastUs

/-- A terminal session takes nothing. -/
theorem feed_terminal (h : s.state ≠ .active) (o : Observation) :
    s.feed o = (.error "Host transaction is terminal", s) := by
  have hfed := feed_cases s o
  generalize s.feed o = r at hfed
  cases hfed with
  | terminal => rfl
  | _ hstate => exact absurd hstate h

/-- An observation in time is consumed. -/
theorem feed_eq {o : Observation} (h : s.state = .active) (hclock : s.lastUs ≤ o.atUs)
    (htime : s.InTime o.atUs) :
    s.feed o =
      if o.sessionId ≠ s.config.sessionId then (.ok .ignored, { s with lastUs := o.atUs })
      else record o.atUs (Session.consume { s with lastUs := o.atUs } o.packet) := by
  have hticked := tick_cases s o.atUs
  unfold feed
  generalize s.tick o.atUs = r at hticked
  cases hticked with
  | terminal hstate => exact absurd h hstate
  | backwards _ hback => exact absurd hclock (UInt64.not_le.mpr hback)
  | expired _ _ hlate => exact absurd htime hlate
  | ok => rfl

/-! ## Runs -/

/-- The time of a reply, if it is progress. -/
def accepted (atUs : UInt64) : Except String Action → List UInt64
  | .ok .ignored | .error _ => []
  | .ok _ => [atUs]

/-- When an event makes progress. -/
def progressAt (s : Session) : Event → List UInt64
  | .observe o => accepted o.atUs (s.feed o).1
  | _ => []

/-- The time since the last progress. -/
def Gap (idle a b : UInt64) : Prop := a ≤ b ∧ b.toNat < a.toNat + idle.toNat

/-- What an active session knows of its history: its latest clock and its latest progress. -/
structure Clocked (config : Config) (start : UInt64) (clock progress : List UInt64) (s : Session) :
    Prop where
  sameConfig : s.config = config
  sameStart : s.startUs = start
  noLater : ∀ t ∈ start :: clock, t ≤ s.lastUs
  latest : (start :: progress).getLast? = some s.progressUs
  behind : s.progressUs ≤ s.lastUs
  chain : (start :: progress).IsChain (Gap config.limits.idleUs)

variable {config : Config} {start : UInt64} {clock progress : List UInt64}

theorem Clocked.start_le (h : Clocked config start clock progress s) : start ≤ s.lastUs :=
  h.noLater start List.mem_cons_self

/-- The deadlines in the numbers of the clock. -/
theorem Clocked.inTime_toNat (h : Clocked config start clock progress s) {now : UInt64}
    (hclock : s.lastUs ≤ now) (htime : s.InTime now) :
    now.toNat < start.toNat + config.limits.totalUs.toNat ∧
      Gap config.limits.idleUs s.progressUs now := by
  obtain ⟨htotal, hidle⟩ := htime
  have hstart : s.startUs ≤ now := h.sameStart ▸ UInt64.le_trans h.start_le hclock
  have hprogress : s.progressUs ≤ now := UInt64.le_trans h.behind hclock
  have htotal' := UInt64.lt_iff_toNat_lt.mp htotal
  have hidle' := UInt64.lt_iff_toNat_lt.mp hidle
  rw [UInt64.toNat_sub_of_le _ _ hstart, h.sameStart, h.sameConfig] at htotal'
  rw [UInt64.toNat_sub_of_le _ _ hprogress, h.sameConfig] at hidle'
  exact ⟨by omega, hprogress, by omega⟩

/-- The clock goes on without progress. -/
theorem Clocked.later (h : Clocked config start clock progress s) {now : UInt64}
    (hclock : s.lastUs ≤ now) :
    Clocked config start (clock ++ [now]) progress { s with lastUs := now } where
  sameConfig := h.sameConfig
  sameStart := h.sameStart
  noLater t ht := by
    rw [← List.cons_append, List.mem_append, List.mem_singleton] at ht
    rcases ht with ht | rfl
    · exact UInt64.le_trans (h.noLater t ht) hclock
    · exact UInt64.le_refl _
  latest := h.latest
  behind := UInt64.le_trans h.behind hclock
  chain := h.chain

/-- The chain of progress with one more. -/
theorem Clocked.chain_append (h : Clocked config start clock progress s) {now : UInt64}
    (hgap : Gap config.limits.idleUs s.progressUs now) :
    (start :: (progress ++ [now])).IsChain (Gap config.limits.idleUs) := by
  rw [← List.cons_append, List.isChain_append]
  refine ⟨h.chain, List.isChain_singleton _, fun x hx y hy => ?_⟩
  obtain rfl : s.progressUs = x := by simpa [h.latest] using hx
  obtain rfl : now = y := by simpa using hy
  exact hgap

/-- The clock goes on with progress. -/
theorem Clocked.advance {s' : Session} (h : Clocked config start clock progress s) {now : UInt64}
    (hclock : s.lastUs ≤ now) (htime : s.InTime now)
    (hkept : Kept { s with lastUs := now } s') :
    Clocked config start (clock ++ [now]) (progress ++ [now]) { s' with progressUs := now } := by
  obtain ⟨iso, gm, blockCount, rfl⟩ := hkept
  have hlater := h.later hclock
  refine ⟨h.sameConfig, h.sameStart, hlater.noLater, ?_, UInt64.le_refl _, ?_⟩
  · rw [← List.cons_append, List.getLast?_append]
    rfl
  · exact h.chain_append (h.inTime_toNat hclock htime).2

end Session

/-- The clock that an event brings. -/
def Event.time : Event → Option UInt64
  | .observe o => some o.atUs
  | .tick now => some now
  | .cancel => none

namespace Session

def times (_ : Session) (e : Event) : List UInt64 := e.time.toList

variable {s : Session} {config : Config} {start : UInt64} {clock progress : List UInt64}

theorem step_clocked
    (h : s.state = .active → Clocked config start clock progress s) (e : Event) :
    (s.step e).state = .active →
      Clocked config start (clock ++ s.times e) (progress ++ s.progressAt e) (s.step e) := by
  intro hactive
  cases e with
  | observe o =>
    have hfed := feed_cases s o
    change (s.feed o).2.state = .active at hactive
    show Clocked config start (clock ++ [o.atUs]) (progress ++ accepted o.atUs (s.feed o).1)
      (s.feed o).2
    generalize s.feed o = r at hfed hactive
    cases hfed with
    | terminal hstate => exact absurd hactive hstate
    | backwards hstate hclock => simp at hactive
    | failed hstate hclock hfailed => simp [hfailed] at hactive
    | ignored hstate hclock htime =>
      show Clocked config start (clock ++ [o.atUs]) (progress ++ []) { s with lastUs := o.atUs }
      rw [List.append_nil]
      exact (h hstate).later hclock
    | @progress action s' hstate hclock htime hkept haction hresult =>
      have hadvance := (h hstate).advance hclock htime hkept
      cases action with
      | ignored => exact absurd rfl haction
      | _ => exact hadvance
    | complete hstate hclock htime hkept => simp at hactive
  | tick now =>
    have hticked := tick_cases s now
    change (s.tick now).2.state = .active at hactive
    show Clocked config start (clock ++ [now]) (progress ++ []) (s.tick now).2
    generalize s.tick now = r at hticked hactive
    rw [List.append_nil]
    cases hticked with
    | terminal hstate => exact absurd hactive hstate
    | backwards hstate hclock => simp at hactive
    | expired hstate hclock hlate => simp at hactive
    | ok hstate hclock htime => exact (h hstate).later hclock
  | cancel =>
    unfold step cancel at hactive
    dsimp only at hactive
    split at hactive
    · simp at hactive
    · next hstate => exact absurd hactive hstate

theorem run_clocked (h : s.state = .active → Clocked config start clock progress s)
    (events : List Event) :
    (run step s events).state = .active →
      Clocked config start (clock ++ log step times s events)
        (progress ++ log step progressAt s events) (run step s events) := by
  induction events generalizing s clock progress with
  | nil => simpa [log] using h
  | cons e events ih =>
    have hstep := ih (step_clocked h e)
    simpa [log] using hstep

/-- A terminal session does not change. -/
theorem run_terminal (h : s.state ≠ .active) (events : List Event) : run step s events = s := by
  induction events with
  | nil => rfl
  | cons e events ih =>
    have hsame : s.step e = s := by
      cases e with
      | observe o => exact congrArg Prod.snd (feed_terminal h o)
      | tick now => exact congrArg Prod.snd (if_pos h)
      | cancel => exact if_neg h
    rwa [run_cons, hsame]

/-- What a new session has checked, and what it starts with. -/
theorem new_spec {caps : Capabilities} (h : Session.new config caps start = .ok s) :
    ∃ iso gm, caps.validate config.profile = .ok () ∧
      config.replyId ≤ (if config.extended then 0x1fffffff else 0x7ff) ∧
      Receiver.new config.limits.payloadBytes = .ok iso ∧
      newReport config (if config.extended then 0x1fffffff else 0x7ff) = .ok gm ∧
        s = config.session iso gm start := by
  unfold Session.new at h
  simp only [bind, Except.bind, throw, throwThe, MonadExceptOf.throw, pure, Except.pure] at h
  generalize (if config.extended then (0x1fffffff : UInt32) else 0x7ff) = maxId at h ⊢
  split at h
  · cases h
  · next hcaps =>
    repeat' split at h
    all_goals try cases h
    next hid _ _ _ _ _ _ =>
      exact ⟨_, _, hcaps, UInt32.not_lt.mp (not_or.mp hid).2, ‹_›, ‹_›, rfl⟩

theorem new_clocked {caps : Capabilities} (h : Session.new config caps start = .ok s) :
    Clocked config start [] [] s := by
  obtain ⟨iso, gm, -, -, -, -, rfl⟩ := new_spec h
  refine ⟨rfl, rfl, fun t ht => ?_, rfl, UInt64.le_refl _, List.isChain_singleton _⟩
  rw [List.mem_singleton.mp ht]
  exact UInt64.le_refl _

/-- An error or a result ends the session. -/
theorem feed_ends {o : Observation}
    (h : (∃ e, (s.feed o).1 = .error e) ∨ ∃ result, (s.feed o).1 = .ok (.complete result)) :
    (s.feed o).2.state ≠ .active := by
  have hfed := feed_cases s o
  generalize s.feed o = r at hfed h
  cases hfed with
  | terminal hstate => exact hstate
  | backwards => simp
  | failed _ _ hstate => simp [hstate]
  | ignored => simp at h
  | progress _ _ _ _ _ hresult => simp [hresult] at h
  | complete => simp

/-- Whatever a session has seen: it completes only with both deadlines ahead, what it ignores moves
its clock alone, a clock that goes back makes it fail, and once it has ended it stays as it is. -/
theorem deadlines_and_finality (config : Config) (caps : Capabilities) (start : UInt64)
    (s0 : Session) (h : Session.new config caps start = .ok s0) (events : List Event)
    (o : Observation) :
    let s := run step s0 events
    (∀ result, (s.feed o).1 = .ok (.complete result) →
        o.atUs.toNat < start.toNat + config.limits.totalUs.toNat ∧
          (start :: (log step progressAt s0 events ++ [o.atUs])).IsChain
            (Gap config.limits.idleUs)) ∧
      ((s.feed o).1 = .ok .ignored → (s.feed o).2 = { s with lastUs := o.atUs }) ∧
        (s.state = .active → ∀ t ∈ start :: log step times s0 events,
          (o.atUs < t → (s.feed o).1 = .error "Session clock moved backwards" ∧
            (s.feed o).2.state = .failed) ∧
          ∀ now < t, (s.tick now).1 = .error "Session clock moved backwards" ∧
            (s.tick now).2.state = .failed) ∧
          ((∃ e, (s.feed o).1 = .error e) ∨ (∃ result, (s.feed o).1 = .ok (.complete result)) →
            ∀ later next, run step (s.feed o).2 later = (s.feed o).2 ∧
              ((run step (s.feed o).2 later).feed next).1 =
                .error "Host transaction is terminal") := by
  intro s
  have hrun : s.state = .active → Clocked config start (log step times s0 events)
      (log step progressAt s0 events) s := by
    simpa using run_clocked (fun _ => new_clocked h) events
  have hfed := feed_cases s o
  refine ⟨fun result hresult => ?_, fun hignored => ?_, fun hactive t ht => ⟨fun hback => ?_, ?_⟩,
    fun hends later next => ?_⟩
  · generalize s.feed o = r at hfed hresult
    cases hfed with
    | progress _ _ _ _ _ hnot => exact absurd (Except.ok.inj hresult) (hnot result)
    | complete hstate hclock htime hkept =>
      obtain ⟨htotal, hgap⟩ := (hrun hstate).inTime_toNat hclock htime
      exact ⟨htotal, (hrun hstate).chain_append hgap⟩
    | _ => cases hresult
  · generalize s.feed o = r at hfed hignored
    cases hfed with
    | ignored => rfl
    | progress _ _ _ _ haction => exact absurd (Except.ok.inj hignored) haction
    | _ => cases hignored
  · have hlate : o.atUs < s.lastUs := UInt64.lt_of_lt_of_le hback ((hrun hactive).noLater t ht)
    generalize s.feed o = r at hfed
    cases hfed with
    | terminal hstate => exact absurd hactive hstate
    | backwards => exact ⟨rfl, rfl⟩
    | _ _ hclock => exact absurd hclock (UInt64.not_le.mpr hlate)
  · intro now hback
    have hlate : now < s.lastUs := UInt64.lt_of_lt_of_le hback ((hrun hactive).noLater t ht)
    have hticked := tick_cases s now
    generalize s.tick now = r at hticked
    cases hticked with
    | terminal hstate => exact absurd hactive hstate
    | backwards => exact ⟨rfl, rfl⟩
    | _ _ hclock => exact absurd hclock (UInt64.not_le.mpr hlate)
  · have hended := feed_ends hends
    have hsame := run_terminal hended later
    refine ⟨hsame, ?_⟩
    rw [hsame]
    exact congrArg Prod.fst (feed_terminal hended next)

theorem reply_in_time :
    Session.new isoTpConfig allCapabilities 0 =
        .ok isoTpSession ∧
      ∀ events o,
        ((run step isoTpSession events).feed o).1 =
            .ok (.complete (.payload [0x5a])) → o.atUs.toNat < 10000000 := by
  refine ⟨rfl, fun events o hcomplete => ?_⟩
  have hdeadline := (deadlines_and_finality isoTpConfig allCapabilities 0 _ rfl events o).1
    (.payload [0x5a]) hcomplete
  simpa [isoTpConfig] using hdeadline.1

end Session

end OpenSaab.Translation
