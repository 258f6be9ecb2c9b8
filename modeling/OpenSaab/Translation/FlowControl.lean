import OpenSaab.Translation.Ownership

/-!
# Flow control

When a session answers a frame with flow control: after the first frame, and after every block of
the frames that follow it.
-/

namespace OpenSaab.Translation

open Runs

/-! ## A message that is not complete -/

namespace IsoTp

open Receiver

variable {r : Receiver} {limit : Nat}

/-- The frames that the receiver has taken are the first ones of a message, and whatever carries the
rest of it completes it. -/
structure Partway (r : Receiver) (limit : Nat) (frames : List (List UInt8)) (length : Nat) :
    Prop where
  receiving : (run after r frames).Receiving length
  bounded : length ≤ limit
  begun : frames ≠ []
  completes : ∀ rest later, (run after r frames).bytes.length + rest.length = length →
    Consecutive (run after r frames).next rest later →
      Segmentation ((run after r frames).bytes ++ rest) (frames ++ later)

theorem after_terminal (h : r.Terminal) (data : List UInt8) : after r data = r :=
  congrArg Prod.snd (push_terminal h data)

theorem run_snoc (r : Receiver) (frames : List (List UInt8)) (data : List UInt8) :
    run after r (frames ++ [data]) = after (run after r frames) data :=
  run_append r frames [data]

theorem not_terminal_of_snoc {frames : List (List UInt8)} {data : List UInt8}
    (h : ¬ (run after r (frames ++ [data])).Terminal) : ¬ (run after r frames).Terminal := by
  intro hdone
  rw [run_snoc, after_terminal hdone] at h
  exact h hdone

/-- The first frame of a message. -/
theorem fresh_partway (h : r.Fresh limit) {data : List UInt8}
    (hopen : ¬ (after r data).Terminal) :
    reply r data = .ok .firstFrame ∧ ∃ length, Partway r limit [data] length := by
  rcases consume_fresh h data with
    ⟨p, padding, hp, hfit, hlimit, rfl⟩ | ⟨part, length, hpart, hmin, hlimit, rfl⟩ | ⟨e, he⟩
  · exact absurd (push_single h hp hfit hlimit).2 hopen
  · obtain ⟨r', hpush, hreceiving, hbytes, hnext⟩ := push_first h hpart hmin hlimit
    refine ⟨congrArg Prod.fst hpush, length, ?_⟩
    have hrun : run after r [UInt8.ofNat (0x10 + length / 256) :: UInt8.ofNat (length % 256) ::
        part] = r' := congrArg Prod.snd hpush
    refine ⟨hrun ▸ hreceiving, hlimit, List.cons_ne_nil _ _, ?_⟩
    intro rest later hrest hlater
    rw [hrun, hbytes] at hrest
    rw [hrun, hnext] at hlater
    rw [hrun, hbytes]
    have hbound := h.bound
    exact .multi hpart (by rw [List.length_append, hrest]) hmin (by omega) hlater
  · exact absurd (push_error he).2 hopen

/-- The frames between the first and the last one. -/
theorem Partway.next {frames : List (List UInt8)} {length : Nat} (h : Partway r limit frames length)
    {data : List UInt8} (hopen : ¬ (after (run after r frames) data).Terminal) :
    reply (run after r frames) data = .ok .consecutiveFrame ∧
      Partway r limit (frames ++ [data]) length := by
  rcases consume_receiving h.receiving data with
    ⟨rest, padding, hrest, hfit, rfl⟩ | ⟨part, hpart, hmore, rfl⟩ | ⟨e, he⟩
  · exact absurd (push_last h.receiving hrest hfit).2 hopen
  · obtain ⟨r', hpush, hreceiving, hbytes, hnext⟩ := push_more h.receiving hpart hmore
    refine ⟨congrArg Prod.fst hpush, ?_⟩
    have hrun : run after r (frames ++ [(0x20 + (run after r frames).next) :: part]) = r' := by
      rw [run_snoc]
      exact congrArg Prod.snd hpush
    refine ⟨hrun ▸ hreceiving, h.bounded, by simp, ?_⟩
    intro rest later hrest hlater
    have hshort := hreceiving.short
    rw [hrun] at hrest hlater ⊢
    rw [hbytes] at hrest hshort ⊢
    rw [hnext] at hlater
    have hne : rest ≠ [] := by
      rintro rfl
      rw [List.length_nil] at hrest
      omega
    rw [List.append_assoc, List.append_assoc]
    refine h.completes _ _ ?_ (.more hpart hne hlater)
    rw [List.length_append] at hrest ⊢
    omega
  · exact absurd (push_error he).2 hopen

/-- Whatever a receiver has taken without an end is the beginning of a message. -/
theorem partway_of_open (h : r.Fresh limit) {frames : List (List UInt8)} (hbegun : frames ≠ [])
    (hopen : ¬ (run after r frames).Terminal) : ∃ length, Partway r limit frames length := by
  induction frames using List.reverseRecOn with
  | nil => exact absurd rfl hbegun
  | append_singleton frames data ih =>
    have hbefore := not_terminal_of_snoc hopen
    rw [run_snoc] at hopen
    cases frames with
    | nil => exact (fresh_partway h hopen).2
    | cons f frames =>
      obtain ⟨length, hpartway⟩ := ih (List.cons_ne_nil _ _) hbefore
      exact ⟨length, (hpartway.next hopen).2⟩

/-- One more frame of a message that goes on behind it. -/
def GoesOn (limit : Nat) (frames : List (List UInt8)) (data : List UInt8) : Prop :=
  ∃ p later, later ≠ [] ∧ Segmentation p (frames ++ data :: later) ∧ p.length ≤ limit

theorem Partway.goesOn {frames : List (List UInt8)} {data : List UInt8} {length : Nat}
    (h : Partway r limit (frames ++ [data]) length) : GoesOn limit frames data := by
  have hshort := h.receiving.short
  generalize hr : run after r (frames ++ [data]) = r' at hshort
  have hcompletes := h.completes
  rw [hr] at hcompletes
  let rest : List UInt8 := List.replicate (length - r'.bytes.length) 0
  have hlength : r'.bytes.length + rest.length = length := by
    rw [List.length_replicate]
    omega
  have hne : rest ≠ [] := by
    rw [← List.length_pos_iff]
    omega
  have hframes := consecutiveFrames_spec 0 r'.next hne
  refine ⟨r'.bytes ++ rest, consecutiveFrames 0 r'.next rest, ?_, ?_, ?_⟩
  · intro hnil
    rw [hnil] at hframes
    exact consecutive_ne_nil hframes
  · have hseg := hcompletes rest _ hlength hframes
    rwa [List.append_assoc, List.singleton_append] at hseg
  · rw [List.length_append, hlength]
    exact h.bounded

/-- What a receiver says to a frame that does not end the message: the first frame or a later one. -/
theorem reply_of_open (h : r.Fresh limit) {frames : List (List UInt8)} {data : List UInt8}
    (hopen : ¬ (run after r (frames ++ [data])).Terminal) :
    reply (run after r frames) data = .ok (if frames = [] then .firstFrame else .consecutiveFrame) ∧
      GoesOn limit frames data := by
  have hbefore := not_terminal_of_snoc hopen
  have hafter : ¬ (after (run after r frames) data).Terminal := run_snoc r frames data ▸ hopen
  cases frames with
  | nil =>
    obtain ⟨hreply, length, hpartway⟩ := fresh_partway h hafter
    exact ⟨hreply, hpartway.goesOn⟩
  | cons f frames =>
    obtain ⟨length, hpartway⟩ := partway_of_open h (List.cons_ne_nil f frames) hbefore
    obtain ⟨hreply, hnext⟩ := hpartway.next hafter
    exact ⟨hreply, hnext.goesOn⟩

/-- A message that goes on has not ended. -/
theorem GoesOn.unended (h : r.Fresh limit) {frames : List (List UInt8)} {data : List UInt8}
    (hon : GoesOn limit frames data) : ¬ (run after r (frames ++ [data])).Terminal := by
  obtain ⟨p, later, hlater, hseg, hlimit⟩ := hon
  intro hdone
  have hall : frames ++ data :: later =
      (frames ++ [data] ++ later.dropLast) ++ [later.getLast hlater] := by
    rw [List.append_assoc (frames ++ [data]), List.dropLast_append_getLast, List.append_assoc]
    rfl
  rw [hall] at hseg
  have hreply := (fresh_complete h _ _ p).mpr ⟨hseg, hlimit⟩
  rw [run_append, run_terminal hdone] at hreply
  cases hreply

/-- Only an error and a whole payload end a message. -/
theorem push_going {data : List UInt8} {step : Step} (hopen : ¬ r.Terminal)
    (h : reply r data = .ok step) (hstep : ∀ p, step ≠ .complete p) :
    ¬ (after r data).Terminal := by
  unfold reply push at h
  unfold after push
  have hlive : ¬(r.failed = true ∨ r.complete = true) := hopen
  rw [if_neg hlive] at h ⊢
  cases hconsume : r.consume data with
  | error e =>
    rw [hconsume] at h
    cases h
  | ok result =>
    obtain ⟨step', r'⟩ := result
    rw [hconsume] at h
    obtain rfl : step' = step := Except.ok.inj h
    have hsame : r'.failed = r.failed ∧ r'.complete = r.complete := by
      unfold consume at hconsume
      split at hconsume
      · cases hconsume
      · dsimp only at hconsume
        split at hconsume
        · split at hconsume
          · unfold single at hconsume
            dsimp only at hconsume
            split at hconsume
            · cases hconsume
            · cases hconsume
              exact absurd rfl (hstep _)
          · split at hconsume
            · unfold first at hconsume
              dsimp only at hconsume
              split at hconsume
              · cases hconsume
              · split at hconsume
                · cases hconsume
                · cases hconsume
                  exact ⟨rfl, rfl⟩
            · cases hconsume
        · split at hconsume
          · unfold consecutive at hconsume
            dsimp only at hconsume
            split at hconsume
            · cases hconsume
            · split at hconsume
              · cases hconsume
                exact absurd rfl (hstep _)
              · cases hconsume
                exact ⟨rfl, rfl⟩
          · cases hconsume
    unfold Terminal
    dsimp only
    rw [hsame.1, hsame.2]
    exact hlive

/-- All that a receiver says to a frame: it goes on, or the message is at its end. -/
inductive Heard (limit : Nat) (frames : List (List UInt8)) (data : List UInt8) :
    Except String Step × Receiver → Prop where
  | goesOn {r' : Receiver} (h : GoesOn limit frames data) (hopen : ¬ r'.Terminal) :
      Heard limit frames data (.ok (if frames = [] then .firstFrame else .consecutiveFrame), r')
  | failed {r' : Receiver} (e : String) (h : ¬ GoesOn limit frames data) :
      Heard limit frames data (.error e, r')
  | complete {r' : Receiver} (p : List UInt8) (h : ¬ GoesOn limit frames data) :
      Heard limit frames data (.ok (.complete p), r')

theorem heard (h : r.Fresh limit) {frames : List (List UInt8)}
    (hopen : ¬ (run after r frames).Terminal) (data : List UInt8) :
    Heard limit frames data ((run after r frames).push data) := by
  have hrun := run_snoc r frames data
  have hpush : (run after r frames).push data =
      (reply (run after r frames) data, after (run after r frames) data) := rfl
  rw [hpush]
  by_cases hafter : (after (run after r frames) data).Terminal
  · have hend : ¬ GoesOn limit frames data := by
      intro hon
      exact GoesOn.unended h hon (hrun ▸ hafter)
    cases hreply : reply (run after r frames) data with
    | error e => exact .failed e hend
    | ok step =>
      cases step with
      | complete p => exact .complete p hend
      | firstFrame => exact absurd hafter (push_going hopen hreply (by simp))
      | consecutiveFrame => exact absurd hafter (push_going hopen hreply (by simp))
  · obtain ⟨hreply, hon⟩ := reply_of_open h (hrun ▸ hafter)
    rw [hreply]
    exact .goesOn hon hafter

end IsoTp

/-! ## The session -/

open IsoTp IsoTp.Receiver

/-- The only flow control that a session sends. -/
def Config.flowFrame (config : Config) : RawFrame where
  bus := config.profile.bus
  id := config.requestId
  extended := config.extended
  rtr := false
  dlc := 8
  data := [0x30, config.hostFlowControl.blockSize, config.hostFlowControl.stMin, 0, 0, 0, 0, 0]

namespace Session

variable {s : Session} {o : Observation} {data : List UInt8}

/-- The data that a session hands to its receiver: a frame of the reply, in time. -/
def handed (s : Session) (o : Observation) : Option (List UInt8) :=
  match o.packet, s.config.protocol with
  | .raw frame, .isoTp _ _ =>
    if s.state = .active ∧ s.lastUs ≤ o.atUs ∧ s.InTime o.atUs ∧ o.sessionId = s.config.sessionId ∧
        frame.validate = .ok () ∧ s.selected frame.bus frame.id frame.extended ∧
        frame.rtr = false ∧ s.config.profile.representation = .rawCan ∧
        ¬ [3, 0x7f].isPrefixOf frame.data then
      some frame.data
    else none
  | _, _ => none

/-- What a session does with a frame that it hands to its receiver. -/
def answered (s : Session) (positivePrefix data : List UInt8) : Except String Action × Session :=
  match s.iso.push data with
  | (.error e, iso) => (.error e, { s with iso })
  | (.ok step, iso) => received { s with iso } positivePrefix step

theorem feed_handed (h : s.handed o = some data) : s.state = .active ∧ ∃ positivePrefix,
    s.feed o = record o.atUs (answered { s with lastUs := o.atUs } positivePrefix data) := by
  unfold handed at h
  split at h
  · next frame service positivePrefix hpacket hprotocol =>
    split at h
    · next hall =>
      obtain ⟨hactive, hclock, htime, hsession, hvalid, hselected, hrtr, hraw, hpositive⟩ := hall
      obtain rfl := Option.some.inj h
      refine ⟨hactive, positivePrefix, ?_⟩
      have hselected' : selected { s with lastUs := o.atUs } frame.bus frame.id frame.extended =
        true := hselected
      rw [feed_eq hactive hclock htime, if_neg (not_not_intro hsession), hpacket]
      change record o.atUs (consumeRaw { s with lastUs := o.atUs } frame) = _
      unfold consumeRaw
      simp only [hvalid, hselected', hrtr, hraw, hprotocol, not_true_eq_false, Bool.false_eq_true,
        ne_eq, if_false]
      unfold consumeIsoTp
      rw [if_neg hpositive]
      rfl
    · cases h
  · cases h

/-- The receiver and its count are left alone, and no flow control is sent. -/
structure Quiet (s : Session) (r : Except String Action × Session) : Prop where
  iso : r.2.iso = s.iso
  blockCount : r.2.blockCount = s.blockCount
  silent : ∀ f, r.1 ≠ .ok (.sendFlowControl f)

theorem Quiet.record {r : Except String Action × Session} (h : Quiet s r) (atUs : UInt64) :
    Quiet s (record atUs r) := by
  obtain ⟨result, s'⟩ := r
  cases result with
  | error e => exact ⟨h.iso, h.blockCount, h.silent⟩
  | ok action => cases action <;> exact ⟨h.iso, h.blockCount, h.silent⟩

theorem consumeGm_quiet (s : Session) (reportId : UInt32) (frame : RawFrame) :
    Quiet s (s.consumeGm reportId frame) := by
  unfold consumeGm
  split
  · exact ⟨rfl, rfl, by simp⟩
  · split
    · exact ⟨rfl, rfl, by simp⟩
    · split
      · exact ⟨rfl, rfl, by simp⟩
      · next report _ =>
        split
        · refine ⟨rfl, rfl, fun f => ?_⟩
          dsimp only
          cases report.finish <;> simp [Except.map]
        · split <;> exact ⟨rfl, rfl, by simp⟩

theorem consumePayload_silent (s : Session) (bus : Bus) (id : UInt32) (extended : Bool)
    (data : List UInt8) (f : RawFrame) :
    s.consumePayload bus id extended data ≠ .ok (.sendFlowControl f) := by
  unfold consumePayload finish
  split
  · simp
  · split
    · split
      · simp
      · split
        · split
          · simp
          · split <;> simp
        · split <;> simp
    · simp

/-- A frame that is not handed on. -/
theorem feed_unhanded (h : s.handed o = none) : Quiet s (s.feed o) := by
  have hticked := tick_cases s o.atUs
  unfold feed
  generalize s.tick o.atUs = r at hticked
  cases hticked with
  | terminal => exact ⟨rfl, rfl, by simp⟩
  | backwards => exact ⟨rfl, rfl, by simp⟩
  | expired => exact ⟨rfl, rfl, by simp⟩
  | ok hactive hclock htime =>
    dsimp only
    split
    · exact ⟨rfl, rfl, by simp⟩
    · next hsession =>
      rw [not_not] at hsession
      refine Quiet.record ?_ o.atUs
      unfold handed at h
      cases hpacket : o.packet with
      | isoTpPayload bus id extended data =>
        exact ⟨rfl, rfl, consumePayload_silent _ bus id extended data⟩
      | raw frame =>
        change Quiet s (consumeRaw { s with lastUs := o.atUs } frame)
        unfold consumeRaw
        split
        · exact ⟨rfl, rfl, by simp⟩
        · next hvalid =>
          split
          · exact ⟨rfl, rfl, by simp⟩
          · next hselected =>
            split
            · exact ⟨rfl, rfl, by simp⟩
            · next hrtr =>
              split
              · exact ⟨rfl, rfl, by simp⟩
              · next hraw =>
                split
                · next reportId _ =>
                  have hquiet := consumeGm_quiet { s with lastUs := o.atUs } reportId frame
                  exact ⟨hquiet.iso, hquiet.blockCount, hquiet.silent⟩
                · next service positivePrefix hprotocol =>
                  unfold consumeIsoTp
                  split
                  · split
                    · exact ⟨rfl, rfl, by simp⟩
                    · split <;> exact ⟨rfl, rfl, by simp⟩
                  · next hpositive =>
                    have hprotocol' : s.config.protocol = .isoTp service positivePrefix := hprotocol
                    rw [hpacket, hprotocol'] at h
                    dsimp only at h
                    rw [if_pos] at h
                    · cases h
                    · exact ⟨hactive, hclock, htime, hsession, hvalid, not_not.mp hselected,
                        Bool.eq_false_iff.mpr hrtr, not_not.mp hraw, hpositive⟩

end Session

/-! ## When flow control is due -/

namespace Config

/-- The host answers in blocks. -/
def Blocks (config : Config) : Prop :=
  config.profile.flowControl = .host ∧ config.hostFlowControl.blockSize ≠ 0

instance (config : Config) : Decidable config.Blocks := inferInstanceAs (Decidable (_ ∧ _))

/-- After the first frame, and after each block of those that follow it. Before this frame were
`frames`, and the first of them counts for no block. -/
def Due (config : Config) (frames : List (List UInt8)) : Prop :=
  config.profile.flowControl = .host ∧
    (frames = [] ∨ config.hostFlowControl.blockSize ≠ 0 ∧
      config.hostFlowControl.blockSize.toNat ∣ frames.length)

instance (config : Config) (frames : List (List UInt8)) : Decidable (config.Due frames) :=
  inferInstanceAs (Decidable (_ ∧ _))

/-- The answer to a frame of a message that goes on. -/
def answer (config : Config) (frames : List (List UInt8)) : Action :=
  if config.Due frames then .sendFlowControl config.flowFrame else .progress

end Config

theorem succ_mod {n b : Nat} (hb : 0 < b) :
    (n + 1) % b = if n % b + 1 = b then 0 else n % b + 1 := by
  have hlt := Nat.mod_lt n hb
  rw [← Nat.mod_add_mod]
  split
  · next heq => rw [heq, Nat.mod_self]
  · next hne => exact Nat.mod_eq_of_lt (by omega)

namespace Session

variable {s : Session} {o : Observation} {data : List UInt8} {config : Config} {r : Receiver}
  {frames : List (List UInt8)}

theorem received_first (positivePrefix : List UInt8) :
    s.received positivePrefix .firstFrame =
      (.ok (s.config.answer []), { s with blockCount := 0 }) := by
  unfold received Config.answer
  by_cases hhost : s.config.profile.flowControl = .host
  · have hdue : s.config.Due [] := ⟨hhost, .inl rfl⟩
    simp only [hhost, hdue, if_true]
    rfl
  · have hdue : ¬ s.config.Due [] := fun h => hhost h.1
    simp only [hhost, hdue, if_false]

theorem received_consecutive (positivePrefix : List UInt8) (hbegun : frames ≠ [])
    (hcount : s.config.Blocks → s.blockCount.toNat =
      (frames.length - 1) % s.config.hostFlowControl.blockSize.toNat) :
    ∃ c : UInt8, s.received positivePrefix .consecutiveFrame =
        (.ok (s.config.answer frames), { s with blockCount := c }) ∧
      (s.config.Blocks → c.toNat = frames.length % s.config.hostFlowControl.blockSize.toNat) ∧
        (¬ s.config.Blocks → c = s.blockCount) := by
  unfold received Config.answer
  by_cases hblocks : s.config.Blocks
  · have hcount := hcount hblocks
    have hpos : 0 < s.config.hostFlowControl.blockSize.toNat := by
      rw [Nat.pos_iff_ne_zero]
      exact fun h => hblocks.2 (UInt8.toNat_inj.mp h)
    have hlt := Nat.mod_lt (frames.length - 1) hpos
    have hsize := s.config.hostFlowControl.blockSize.toNat_lt
    have hlength := List.length_pos_iff.mpr hbegun
    have hmod := @succ_mod (frames.length - 1) _ hpos
    rw [Nat.sub_add_cancel hlength, ← hcount] at hmod
    have hsucc : (s.blockCount + 1).toNat = s.blockCount.toNat + 1 := by
      rw [UInt8.toNat_add]
      exact Nat.mod_eq_of_lt (by change s.blockCount.toNat + 1 < 256; omega)
    have hdue : s.config.Due frames ↔
        s.blockCount + 1 = s.config.hostFlowControl.blockSize := by
      unfold Config.Due
      rw [← UInt8.toNat_inj, hsucc, Nat.dvd_iff_mod_eq_zero, hmod]
      constructor
      · rintro ⟨-, hnil | ⟨-, hzero⟩⟩
        · exact absurd hnil hbegun
        · by_contra hne
          rw [if_neg hne] at hzero
          omega
      · intro heq
        exact ⟨hblocks.1, .inr ⟨hblocks.2, if_pos heq⟩⟩
    have hboth : s.config.profile.flowControl = .host ∧
        s.config.hostFlowControl.blockSize ≠ 0 := hblocks
    simp only [if_pos hboth, hdue]
    split
    · next heq =>
      refine ⟨0, rfl, fun _ => ?_, fun hnot => absurd hblocks hnot⟩
      rw [hmod, if_pos (by rw [← hsucc, heq])]
      rfl
    · next hne =>
      refine ⟨s.blockCount + 1, rfl, fun _ => ?_, fun hnot => absurd hblocks hnot⟩
      rw [hmod, if_neg (fun heq => hne (UInt8.toNat_inj.mp (hsucc.trans heq))), hsucc]
  · have hdue : ¬ s.config.Due frames := by
      rintro ⟨hhost, hnil | hblock⟩
      · exact hbegun hnil
      · exact hblocks ⟨hhost, hblock.1⟩
    have hboth : ¬ (s.config.profile.flowControl = .host ∧
        s.config.hostFlowControl.blockSize ≠ 0) := hblocks
    simp only [if_neg hboth, if_neg hdue]
    exact ⟨s.blockCount, rfl, fun h => absurd h hblocks, fun _ => rfl⟩

theorem record_answer (config : Config) (frames : List (List UInt8)) (atUs : UInt64)
    (s : Session) : record atUs (.ok (config.answer frames), s) =
      (.ok (config.answer frames), { s with progressUs := atUs }) := by
  unfold Config.answer
  split <;> rfl

/-! ## Runs -/

/-- What the session hands to its receiver with an event. -/
def framesOf (s : Session) : Event → List (List UInt8)
  | .observe o => (s.handed o).toList
  | _ => []

/-- A session against the frames that its receiver was handed. -/
structure Counting (config : Config) (r : Receiver) (s : Session) (frames : List (List UInt8)) :
    Prop where
  sameConfig : s.config = config
  iso : s.iso = run after r frames
  unended : s.state = .active → ¬ (run after r frames).Terminal
  count : s.state = .active → config.Blocks →
    s.blockCount.toNat = (frames.length - 1) % config.hostFlowControl.blockSize.toNat
  small : s.blockCount.toNat < 255

namespace Counting

/-- What a session does with a frame that is handed to its receiver. -/
theorem feed_handed (hfresh : r.Fresh config.limits.payloadBytes)
    (h : Counting config r s frames) (hhanded : s.handed o = some data) :
    Counting config r (s.feed o).2 (frames ++ [data]) ∧
      (GoesOn config.limits.payloadBytes frames data →
        (s.feed o).1 = .ok (config.answer frames)) ∧
      (¬ GoesOn config.limits.payloadBytes frames data →
        ∀ f, (s.feed o).1 ≠ .ok (.sendFlowControl f)) := by
  obtain ⟨hactive, positivePrefix, hfeed⟩ := Session.feed_handed hhanded
  have hopen := h.unended hactive
  have hheard := heard hfresh hopen data
  have hrun : run after r (frames ++ [data]) = ((run after r frames).push data).2 := run_snoc r _ _
  rw [hfeed]
  unfold answered
  dsimp only
  rw [h.iso]
  generalize (run after r frames).push data = pushed at hheard hrun
  cases hheard with
  | failed e hend =>
    refine ⟨⟨h.sameConfig, hrun.symm, ?_, ?_, h.small⟩, fun hon => absurd hon hend, by simp [record]⟩
    · exact fun hfailed => absurd hfailed (by simp [record])
    · exact fun hfailed => absurd hfailed (by simp [record])
  | complete p hend =>
    refine ⟨?_, fun hon => absurd hon hend, ?_⟩
    · unfold received finish
      dsimp only
      split
      · exact ⟨h.sameConfig, hrun.symm, by simp [record], by simp [record], h.small⟩
      · exact ⟨h.sameConfig, hrun.symm, by simp [record], by simp [record], h.small⟩
    · unfold received finish
      dsimp only
      split <;> simp [record]
  | @goesOn r' hon hgoing =>
    have hconfig := h.sameConfig
    by_cases hbegun : frames = []
    · subst hbegun
      rw [if_pos rfl]
      dsimp only
      rw [received_first]
      dsimp only
      rw [hconfig, record_answer]
      have hsmall : (0 : UInt8).toNat < 255 := by decide
      refine ⟨⟨rfl, hrun.symm, fun _ => hrun ▸ hgoing, fun _ _ => ?_, hsmall⟩,
        fun _ => rfl, fun hend => absurd hon hend⟩
      exact (Nat.zero_mod _).symm
    · have hcount : ({ s with lastUs := o.atUs, iso := r' } : Session).config.Blocks →
          s.blockCount.toNat =
            (frames.length - 1) % s.config.hostFlowControl.blockSize.toNat := by
        intro hblocks
        rw [hconfig] at hblocks ⊢
        exact h.count hactive hblocks
      obtain ⟨c, hreceived, hblock, hfree⟩ := received_consecutive positivePrefix hbegun hcount
      rw [if_neg hbegun]
      dsimp only
      rw [hreceived]
      dsimp only at hblock hfree ⊢
      rw [hconfig] at hblock hfree ⊢
      rw [record_answer]
      have hsnoc : (frames ++ [data]).length - 1 = frames.length := by simp
      refine ⟨⟨rfl, hrun.symm, fun _ => hrun ▸ hgoing, fun _ hblocks => ?_, ?_⟩,
        fun _ => rfl, fun hend => absurd hon hend⟩
      · rw [hsnoc]
        exact hblock hblocks
      · by_cases hblocks : config.Blocks
        · have hsize := config.hostFlowControl.blockSize.toNat_lt
          have hpos : 0 < config.hostFlowControl.blockSize.toNat := by
            rw [Nat.pos_iff_ne_zero]
            exact fun hzero => hblocks.2 (UInt8.toNat_inj.mp hzero)
          have hlt := Nat.mod_lt frames.length hpos
          change c.toNat < 255
          rw [hblock hblocks]
          omega
        · change c.toNat < 255
          rw [hfree hblocks]
          exact h.small

/-- What is not handed to the receiver changes nothing in the count. -/
theorem quiet {s' : Session} (h : Counting config r s frames) (hconfig : s'.config = s.config)
    (hiso : s'.iso = s.iso) (hcount : s'.blockCount = s.blockCount)
    (hactive : s'.state = .active → s.state = .active) : Counting config r s' frames where
  sameConfig := hconfig.trans h.sameConfig
  iso := hiso.trans h.iso
  unended hnow := h.unended (hactive hnow)
  count hnow hblocks := hcount ▸ h.count (hactive hnow) hblocks
  small := hcount ▸ h.small

theorem tick (h : Counting config r s frames) (now : UInt64) :
    Counting config r (s.tick now).2 frames := by
  have hticked := tick_cases s now
  generalize s.tick now = result at hticked
  cases hticked with
  | terminal hstate => exact h
  | backwards hstate => exact h.quiet rfl rfl rfl fun _ => hstate
  | expired hstate => exact h.quiet rfl rfl rfl fun _ => hstate
  | ok hstate => exact h.quiet rfl rfl rfl fun _ => hstate

theorem feed_unhanded (h : Counting config r s frames) (hnone : s.handed o = none) :
    Counting config r (s.feed o).2 frames := by
  have hquiet := Session.feed_unhanded hnone
  refine h.quiet (feed_config s o) hquiet.iso hquiet.blockCount fun hactive => ?_
  by_contra hterminal
  rw [feed_terminal hterminal] at hactive
  exact hterminal hactive

/-- Every event keeps the count. -/
theorem step (hfresh : r.Fresh config.limits.payloadBytes) (h : Counting config r s frames)
    (e : Event) : Counting config r (s.step e) (frames ++ s.framesOf e) := by
  cases e with
  | observe o =>
    change Counting config r (s.feed o).2 (frames ++ (s.handed o).toList)
    cases hhanded : s.handed o with
    | none =>
      rw [Option.toList_none, List.append_nil]
      exact h.feed_unhanded hhanded
    | some data => exact (h.feed_handed hfresh hhanded).1
  | tick now =>
    change Counting config r (s.tick now).2 (frames ++ [])
    rw [List.append_nil]
    exact h.tick now
  | cancel =>
    change Counting config r s.cancel (frames ++ [])
    rw [List.append_nil]
    unfold cancel
    split
    · next hactive => exact h.quiet rfl rfl rfl fun _ => hactive
    · exact h

theorem run (hfresh : r.Fresh config.limits.payloadBytes) (h : Counting config r s [])
    (events : List Event) :
    Counting config r (Runs.run Session.step s events) (log Session.step framesOf s events) := by
  have hrun := log_keeps (R := fun s frames => Counting config r s frames)
    (fun s e frames hs => hs.step hfresh e) events h
  rwa [List.nil_append] at hrun

end Counting

/-- A new session has taken no frame. -/
theorem new_counting {caps : Capabilities} {start : UInt64}
    (h : Session.new config caps start = .ok s) :
    ∃ r : Receiver, r.Fresh config.limits.payloadBytes ∧ Counting config r s [] := by
  obtain ⟨iso, gm, -, -, hiso, -, rfl⟩ := new_spec h
  have hfresh := fresh_of_new hiso
  have hsmall : (0 : UInt8).toNat < 255 := by decide
  refine ⟨iso, hfresh, rfl, rfl, fun _ => ?_, fun _ _ => (Nat.zero_mod _).symm, hsmall⟩
  change ¬ iso.Terminal
  rw [hfresh.eq]
  simp [Receiver.Terminal]

/-- Whether a frame of the run is answered with flow control depends on its place alone. -/
theorem flow_control_exact (config : Config) (caps : Capabilities) (start : UInt64) (s : Session)
    (h : Session.new config caps start = .ok s) (before : List Event) (o : Observation) :
    let now := run step s before
    let frames := log step framesOf s before
    (∀ f, (now.feed o).1 = .ok (.sendFlowControl f) ↔
        f = config.flowFrame ∧ ∃ data, now.handed o = some data ∧
          GoesOn config.limits.payloadBytes frames data ∧ config.Due frames) ∧
      (∀ data, now.handed o = some data → GoesOn config.limits.payloadBytes frames data →
        (now.feed o).1 = .ok (config.answer frames)) ∧
      (config.profile.flowControl ≠ .host → ∀ f, (now.feed o).1 ≠ .ok (.sendFlowControl f)) ∧
      now.blockCount.toNat < 255 := by
  intro now frames
  obtain ⟨r, hfresh, hstart⟩ := new_counting h
  have hnow : Counting config r now frames := hstart.run hfresh before
  have hsent : ∀ f, (now.feed o).1 = .ok (.sendFlowControl f) ↔
      f = config.flowFrame ∧ ∃ data, now.handed o = some data ∧
        GoesOn config.limits.payloadBytes frames data ∧ config.Due frames := by
    intro f
    cases hhanded : now.handed o with
    | none =>
      have hsilent := (feed_unhanded hhanded).silent f
      simp [hsilent]
    | some data =>
      obtain ⟨-, hon, hend⟩ := hnow.feed_handed hfresh hhanded
      by_cases hgoing : GoesOn config.limits.payloadBytes frames data
      · rw [hon hgoing]
        unfold Config.answer
        by_cases hdue : config.Due frames
        · simp [hdue, hgoing, eq_comm]
        · simp [hdue]
      · have hsilent := hend hgoing f
        simp [hsilent, hgoing]
  refine ⟨hsent, ?_, ?_, hnow.small⟩
  · intro data hhanded hgoing
    exact (hnow.feed_handed hfresh hhanded).2.1 hgoing
  · intro hadapter f hflow
    obtain ⟨-, data, -, -, hdue⟩ := (hsent f).mp hflow
    exact hadapter hdue.1

/-- The request of the contract tests, with blocks of two frames. -/
def blockConfig : Config := { isoTpConfig with hostFlowControl := ⟨2, 0x10⟩ }

def blockSession : Session := blockConfig.session ⟨512, none, [], 1, false, false⟩ none 0

theorem block_of_two :
    ((run step blockSession
        [.observe (replyFrame 1 [0x10, 27, 0x5a, 0x90, 1, 2, 3, 4]),
          .observe (replyFrame 2 [0x21, 5, 6, 7, 8, 9, 10, 11])]).feed
      (replyFrame 3 [0x22, 12, 13, 14, 15, 16, 17, 18])).1 =
        .ok (.sendFlowControl blockConfig.flowFrame) := by
  have hexact := flow_control_exact blockConfig allCapabilities 0 blockSession rfl
    [.observe (replyFrame 1 [0x10, 27, 0x5a, 0x90, 1, 2, 3, 4]),
      .observe (replyFrame 2 [0x21, 5, 6, 7, 8, 9, 10, 11])]
    (replyFrame 3 [0x22, 12, 13, 14, 15, 16, 17, 18])
  have hlater : Consecutive 1 ([5, 6, 7, 8, 9, 10, 11] ++ ([12, 13, 14, 15, 16, 17, 18] ++
      [19, 20, 21, 22, 23, 24, 25])) [[0x21, 5, 6, 7, 8, 9, 10, 11],
        [0x22, 12, 13, 14, 15, 16, 17, 18], [0x23, 19, 20, 21, 22, 23, 24, 25]] :=
    .more rfl (by decide) (.more rfl (by decide)
      (@Consecutive.last 3 [19, 20, 21, 22, 23, 24, 25] [] (by decide) (by decide)))
  have hseg := @Segmentation.multi [0x5a, 0x90, 1, 2, 3, 4] _ _ 27 rfl rfl (by decide) (by decide)
    hlater
  refine (hexact.1 _).mpr ⟨rfl, [0x22, 12, 13, 14, 15, 16, 17, 18], by decide, ?_, by decide⟩
  refine ⟨_, [[0x23, 19, 20, 21, 22, 23, 24, 25]], by decide, hseg, ?_⟩
  decide

end Session

end OpenSaab.Translation
