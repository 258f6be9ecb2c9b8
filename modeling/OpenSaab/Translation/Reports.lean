import OpenSaab.Translation.Isolation

/-!
# Reports of a host transaction

The traffic that makes up a report, and what a session reads from it.
-/

namespace OpenSaab.Translation

open Runs IsoTp Text

/-! ## The traffic of a report -/

inductive Kind where
  | foreign
  | pending
  | record (a b failureType status : UInt8)
  | ending
  deriving DecidableEq, Repr

/-- The record that a frame adds to the report. -/
def Kind.dtc : Kind → List Dtc
  | .record a b failureType status => [{ code := dtcCode a b, failureType, status }]
  | _ => []

/-- A data frame of the session's own bus and address width. -/
structure Config.Carries (config : Config) (o : Observation) (id : UInt32) (data : List UInt8) :
    Prop where
  session : o.sessionId = config.sessionId
  packet : o.packet =
    .raw ⟨config.profile.bus, id, config.extended, false, UInt8.ofNat data.length, data⟩
  size : data.length ≤ 8

/-- What an observation is to a session that waits for a report. -/
inductive Config.Reads (config : Config) (reportId : UInt32) : Observation → Kind → Prop where
  | foreign {o : Observation} (h : config.Foreign o)
      (hvalid : o.sessionId = config.sessionId → o.packet.WellFormed) :
      Reads config reportId o .foreign
  | pending {o : Observation} {rest : List UInt8}
      (h : config.Carries o config.replyId ([3, 0x7f, 0xa9, 0x78] ++ rest)) :
      Reads config reportId o .pending
  | record {o : Observation} {a b failureType status : UInt8} {rest : List UInt8}
      (h : config.Carries o reportId ([0x81, a, b, failureType, status] ++ rest))
      (hmore : ¬ (a = 0 ∧ b = 0 ∧ failureType = 0)) :
      Reads config reportId o (.record a b failureType status)
  | ending {o : Observation} {status : UInt8} {rest : List UInt8}
      (h : config.Carries o reportId ([0x81, 0, 0, 0, status] ++ rest))
      (hstatus : status = 0xff ∨ reportId = 0x541 ∧ status = 0x17) :
      Reads config reportId o .ending

/-- A configuration that asks for a report. -/
structure Config.Asks (config : Config) (reportId : UInt32) : Prop where
  protocol : config.protocol = .gmA9Report reportId
  raw : config.profile.representation = .rawCan
  reply : config.replyId ≤ if config.extended then 0x1fffffff else 0x7ff
  report : reportId ≤ if config.extended then 0x1fffffff else 0x7ff
  apart : reportId ≠ config.replyId

theorem validEnd_iff (reportId : UInt32) (status : UInt8) :
    Report.validEnd reportId status = true ↔
      status = 0xff ∨ reportId = 0x541 ∧ status = 0x17 := by
  unfold Report.validEnd
  split
  · next h => simp [h]
  · next h => simp [h]

/-- A record frame says by its bytes what it is. -/
theorem Report.consumeRecord_eq (r : Report) (reportId : UInt32)
    (a b failureType status : UInt8) {rest : List UInt8} (hsize : rest.length ≤ 3) :
    r.consumeRecord reportId (0x81 :: a :: b :: failureType :: status :: rest) =
      if a = 0 ∧ b = 0 ∧ failureType = 0 then
        if Report.validEnd reportId status then .ok { r with complete := true }
        else .error "Invalid DTC report end marker"
      else if r.limit ≤ r.records.length then
        .error ("DTC report exceeds " ++ toString r.limit ++ " records")
      else .ok { r with records := r.records ++ [⟨dtcCode a b, failureType, status⟩] } := by
  unfold Report.consumeRecord
  rw [if_neg (by simp; omega)]
  simp

theorem Report.consume_of_receive {r : Report} {id reply reportId : UInt32} {data : List UInt8}
    (h : (r.receiveForIds id data reply reportId).1 = .ok ()) :
    ∃ r', r.consume id data reply reportId = .ok r' := by
  unfold Report.receiveForIds at h
  split at h
  · cases h
  · cases hconsume : r.consume id data reply reportId with
    | error e => simp [hconsume] at h
    | ok r' => exact ⟨r', rfl⟩

/-- Only a pending reply is taken. -/
theorem Report.pending_of_consumeReply {r r' : Report} {rest : List UInt8}
    (h : r.consumeReply (Report.refusal ++ rest) = .ok r') : ∃ rest', rest = 0x78 :: rest' := by
  unfold Report.consumeReply at h
  cases rest with
  | nil => cases h
  | cons nrc rest =>
    simp only [Report.refusal, List.cons_append, List.nil_append, List.getElem?_cons_succ,
      List.getElem?_cons_zero] at h
    split at h
    · next hnrc => exact ⟨rest, by rw [hnrc]⟩
    · cases h

namespace Session

variable {s : Session} {config : Config} {reportId : UInt32} {o : Observation} {records : List Dtc}

/-- The session waits for more of a report. -/
structure Reporting (config : Config) (records : List Dtc) (s : Session) : Prop where
  active : s.state = .active
  sameConfig : s.config = config
  report : s.gm = some ⟨records, false, false, config.limits.reportRecords⟩
  bounded : records.length ≤ config.limits.reportRecords

/-- An active session has not got to its deadlines. -/
def Timely (s : Session) (o : Observation) : Prop :=
  s.state = .active → s.lastUs ≤ o.atUs ∧ s.InTime o.atUs

instance (s : Session) (o : Observation) : Decidable (s.Timely o) :=
  inferInstanceAs (Decidable (_ → _ ∧ _))

theorem dataFrame_valid {bus : Bus} {id : UInt32} {extended : Bool} {data : List UInt8}
    (hid : id ≤ if extended then 0x1fffffff else 0x7ff) (hsize : data.length ≤ 8) :
    RawFrame.validate ⟨bus, id, extended, false, UInt8.ofNat data.length, data⟩ = .ok () := by
  have hlength : (UInt8.ofNat data.length).toNat = data.length :=
    UInt8.toNat_ofNat_of_lt' (by simp [UInt8.size]; omega)
  rw [RawFrame.validate_iff]
  simp [hlength, hid, UInt8.le_iff_toNat_le, hsize]

/-- A frame on one of its identifiers is given to the report. -/
theorem feed_carries (hasks : config.Asks reportId) (h : s.Reporting config records)
    (htimely : s.Timely o) {id : UInt32} {data : List UInt8} (hcarries : config.Carries o id data)
    (hid : id = config.replyId ∨ id = reportId) :
    s.feed o = record o.atUs
      (consumeGm { s with lastUs := o.atUs } reportId
        ⟨config.profile.bus, id, config.extended, false, UInt8.ofNat data.length, data⟩) := by
  obtain ⟨hclock, htime⟩ := htimely h.active
  obtain ⟨hsession, hpacket, hsize⟩ := hcarries
  have hconfig := h.sameConfig
  subst hconfig
  have hbound : id ≤ if s.config.extended then 0x1fffffff else 0x7ff := by
    rcases hid with rfl | rfl
    · exact hasks.reply
    · exact hasks.report
  have hselected : s.selected s.config.profile.bus id s.config.extended = true := by
    rw [selected_iff, hasks.protocol]
    rcases hid with rfl | rfl <;> simp
  rw [feed_eq h.active hclock htime, if_neg (not_not_intro hsession), hpacket]
  show record o.atUs (consumeRaw { s with lastUs := o.atUs } _) = _
  unfold consumeRaw
  rw [dataFrame_valid hbound hsize]
  simp only [hasks.protocol, hasks.raw]
  change selected { s with lastUs := o.atUs } _ _ _ = true at hselected
  simp [hselected]

/-- A record of five bytes leaves at most three bytes of padding. -/
theorem record_rest {m a b failureType status : UInt8} {rest : List UInt8}
    (h : (m :: a :: b :: failureType :: status :: rest).length ≤ 8) : rest.length ≤ 3 := by
  simp only [List.length_cons] at h
  omega

/-- Traffic that is not the end is taken, as long as its record fits. -/
theorem feed_more (hasks : config.Asks reportId) (h : s.Reporting config records)
    (htimely : s.Timely o) {kind : Kind} (hreads : config.Reads reportId o kind)
    (hkind : kind ≠ .ending)
    (hfits : (records ++ kind.dtc).length ≤ config.limits.reportRecords) :
    ∃ action s', s.feed o = (.ok action, s') ∧ (∀ result, action ≠ .complete result) ∧
      s'.Reporting config (records ++ kind.dtc) := by
  obtain ⟨hclock, htime⟩ := htimely h.active
  have hreport := h.report
  have hconfig := h.sameConfig
  have hapart := hasks.apart
  cases hreads with
  | foreign hforeign hvalid =>
    subst hconfig
    refine ⟨_, _, feed_foreign h.active hclock htime hforeign hvalid, by simp, ?_⟩
    exact ⟨h.active, rfl, by simpa [Kind.dtc] using hreport, hfits⟩
  | @pending rest hcarries =>
    rw [feed_carries hasks h htimely hcarries (Or.inl rfl)]
    refine ⟨.pending, { s with lastUs := o.atUs, progressUs := o.atUs }, ?_, by simp,
      h.active, hconfig, by simpa [Kind.dtc] using hreport, hfits⟩
    unfold consumeGm Report.receiveForIds Report.consume
    simp [hreport, hconfig, hapart.symm, Report.refusal, List.isPrefixOf, Report.consumeReply,
      Report.isComplete, record]
  | @record a b failureType status rest hcarries hmore =>
    have hroom : ¬ config.limits.reportRecords ≤ records.length := by
      simp [Kind.dtc] at hfits
      omega
    have hsize : rest.length ≤ 3 := record_rest hcarries.size
    rw [feed_carries hasks h htimely hcarries (Or.inr rfl)]
    refine ⟨.progress, { s with
      lastUs := o.atUs
      progressUs := o.atUs
      gm := some ⟨records ++ [⟨dtcCode a b, failureType, status⟩], false, false,
        config.limits.reportRecords⟩ }, ?_, by simp, h.active, hconfig, rfl, hfits⟩
    unfold consumeGm Report.receiveForIds Report.consume
    simp [hreport, hconfig, hapart, Report.consumeRecord_eq _ _ _ _ _ _ hsize, hmore, hroom,
      Report.isComplete, record]
  | ending => exact absurd rfl hkind

/-- A record beyond the limit is refused. -/
theorem feed_full (hasks : config.Asks reportId) (h : s.Reporting config records)
    (htimely : s.Timely o) {kind : Kind} (hreads : config.Reads reportId o kind)
    (hfull : config.limits.reportRecords < (records ++ kind.dtc).length) :
    ∃ e, (s.feed o).1 = .error e := by
  have hbounded := h.bounded
  cases hreads with
  | @record a b failureType status rest hcarries hmore =>
    have hroom : config.limits.reportRecords ≤ records.length := by
      simp [Kind.dtc] at hfull
      omega
    have hsize : rest.length ≤ 3 := record_rest hcarries.size
    rw [feed_carries hasks h htimely hcarries (Or.inr rfl)]
    unfold consumeGm Report.receiveForIds Report.consume
    simp [h.report, h.sameConfig, hasks.apart, Report.consumeRecord_eq _ _ _ _ _ _ hsize, hmore,
      hroom, Session.record]
  | _ =>
    simp [Kind.dtc] at hfull
    omega

/-- The end marker completes the report. -/
theorem feed_ending (hasks : config.Asks reportId) (h : s.Reporting config records)
    (htimely : s.Timely o) (hreads : config.Reads reportId o .ending) :
    (s.feed o).1 = .ok (.complete (.gmReport records)) := by
  cases hreads with
  | @ending status rest hcarries hstatus =>
    have hsize : rest.length ≤ 3 := record_rest hcarries.size
    rw [feed_carries hasks h htimely hcarries (Or.inr rfl)]
    unfold consumeGm Report.receiveForIds Report.consume
    simp [h.report, h.sameConfig, hasks.apart, Report.consumeRecord_eq _ _ _ _ _ _ hsize,
      (validEnd_iff reportId status).mpr hstatus, Report.isComplete, Report.finish, Except.map,
      Session.record]

theorem record_fst (atUs : UInt64) (r : Except String Action × Session) :
    (record atUs r).1 = r.1 := by
  obtain ⟨result, s⟩ := r
  rcases result with e | action
  · rfl
  · cases action <;> rfl

/-- What the checks of a frame leave. -/
theorem carries_of_selected {frame : RawFrame} (hsession : o.sessionId = s.config.sessionId)
    (hpacket : o.packet = .raw frame) (hvalid : frame.validate = .ok ())
    (hselected : s.selected frame.bus frame.id frame.extended = true) (hrtr : frame.rtr = false) :
    s.config.Carries o frame.id frame.data := by
  obtain ⟨bus, id, extended, rtr, dlc, data⟩ := frame
  obtain ⟨hbus, hextended, -⟩ := (s.selected_iff bus id extended).mp hselected
  dsimp only at hbus hextended hrtr
  subst hbus hextended hrtr
  obtain ⟨-, hdlc, hlength⟩ := (RawFrame.validate_iff _).mp hvalid
  simp only [Bool.false_eq_true, if_false] at hdlc hlength
  have hsize : data.length ≤ 8 := by
    rw [hlength]
    exact UInt8.le_iff_toNat_le.mp hdlc
  refine ⟨hsession, ?_, hsize⟩
  rw [hpacket, hlength, UInt8.ofNat_toNat]

/-- What the report takes has the form of a reply or of a record. -/
theorem consume_of_consumeGm {frame : RawFrame} {action : Action}
    (h : (s.consumeGm reportId frame).1 = .ok action) :
    (frame.id = reportId → frame.data.head? = some 0x81) ∧
      (frame.id = s.config.replyId → Report.refusal.isPrefixOf frame.data = true) ∧
        ∃ (report : Report) (report' : Report),
          report.consume frame.id frame.data s.config.replyId reportId = .ok report' := by
  unfold consumeGm at h
  split at h
  · cases h
  · next hcontrol =>
    simp only [not_or, not_and, not_not] at hcontrol
    refine ⟨hcontrol.1, hcontrol.2, ?_⟩
    split at h
    · cases h
    · next report _ =>
      cases hreceive : report.receiveForIds frame.id frame.data s.config.replyId reportId with
      | mk result report' =>
        rw [hreceive] at h
        cases result with
        | error e => cases h
        | ok => exact ⟨report, Report.consume_of_receive (by rw [hreceive])⟩

/-- What the report takes. -/
theorem kind_of_consumeGm (hasks : s.config.Asks reportId) {frame : RawFrame}
    (hcarries : s.config.Carries o frame.id frame.data)
    (hid : frame.id = s.config.replyId ∨ frame.id = reportId) {action : Action}
    (h : (s.consumeGm reportId frame).1 = .ok action) :
    ∃ kind, s.config.Reads reportId o kind := by
  have hapart := hasks.apart
  obtain ⟨hrecord, hreply, report, report', hconsume⟩ := consume_of_consumeGm h
  obtain ⟨bus, id, extended, rtr, dlc, data⟩ := frame
  dsimp only at hcarries hid hrecord hreply hconsume
  unfold Report.consume at hconsume
  rcases hid with rfl | rfl
  · have hrefusal := hreply rfl
    rw [if_pos ⟨rfl, hrefusal⟩] at hconsume
    obtain ⟨rest, rfl⟩ := List.isPrefixOf_iff_prefix.mp hrefusal
    obtain ⟨rest, rfl⟩ := Report.pending_of_consumeReply hconsume
    exact ⟨_, .pending hcarries⟩
  · have hhead := hrecord rfl
    rw [if_neg (by simp [hapart]), if_neg (by simp [hhead])] at hconsume
    obtain ⟨tail, rfl⟩ := List.head?_eq_some_iff.mp hhead
    match tail with
    | [] | [_] | [_, _] | [_, _, _] => cases hconsume
    | a :: b :: failureType :: status :: rest =>
      rw [Report.consumeRecord_eq _ _ _ _ _ _ (record_rest hcarries.size)] at hconsume
      split at hconsume
      · next hzero =>
        obtain ⟨rfl, rfl, rfl⟩ := hzero
        split at hconsume
        · next hend => exact ⟨_, .ending hcarries ((validEnd_iff _ _).mp hend)⟩
        · cases hconsume
      · next hmore => exact ⟨_, .record hcarries hmore⟩

/-- Whatever does not fail the session is traffic of a report. -/
theorem kind_of_feed (hasks : config.Asks reportId) (h : s.Reporting config records)
    (htimely : s.Timely o) {action : Action} (hok : (s.feed o).1 = .ok action) :
    ∃ kind, config.Reads reportId o kind := by
  obtain ⟨hclock, htime⟩ := htimely h.active
  have hconfig := h.sameConfig
  subst hconfig
  rw [feed_eq h.active hclock htime] at hok
  split at hok
  · next hsession => exact ⟨_, .foreign (Or.inl hsession) fun hsame => absurd hsame hsession⟩
  · next hsession =>
    rw [not_not] at hsession
    rw [record_fst] at hok
    cases hpacket : o.packet with
    | raw frame =>
      rw [hpacket] at hok
      change (consumeRaw { s with lastUs := o.atUs } frame).1 = _ at hok
      unfold consumeRaw at hok
      split at hok
      · cases hok
      · next hvalid =>
        split at hok
        · next hother =>
          change ¬ s.selected frame.bus frame.id frame.extended = true at hother
          rw [selected_iff] at hother
          refine ⟨_, .foreign (Or.inr ?_) fun _ => hpacket ▸ hvalid⟩
          rw [hpacket]
          simp only [Packet.bus, Packet.id, Packet.extended]
          tauto
        · next hselected =>
          rw [not_not] at hselected
          change s.selected frame.bus frame.id frame.extended = true at hselected
          split at hok
          · cases hok
          · next hrtr =>
            simp only [hasks.raw, hasks.protocol, ne_eq, not_true_eq_false, if_false] at hok
            have hid := ((s.selected_iff _ _ _).mp hselected).2.2
            rw [hasks.protocol, Protocol.gmA9Report.injEq, eq_comm (a := reportId)] at hid
            refine @kind_of_consumeGm { s with lastUs := o.atUs } _ _ hasks _ ?_ hid _ hok
            exact carries_of_selected hsession hpacket hvalid hselected (by simpa using hrtr)
    | isoTpPayload bus id extended data =>
      rw [hpacket] at hok
      change consumePayload { s with lastUs := o.atUs } bus id extended data = _ at hok
      unfold consumePayload at hok
      split at hok
      · next hother =>
        change ¬ s.selected bus id extended = true at hother
        rw [selected_iff] at hother
        refine ⟨_, .foreign (Or.inr ?_) fun _ => hpacket ▸ trivial⟩
        rw [hpacket]
        simp only [Packet.bus, Packet.id, Packet.extended]
        tauto
      · simp only [hasks.raw] at hok
        cases hok

/-- A new session waits for its report. -/
theorem new_reporting {caps : Capabilities} {start : UInt64}
    (hprotocol : config.protocol = .gmA9Report reportId)
    (h : Session.new config caps start = .ok s) :
    config.Asks reportId ∧ s.Reporting config [] := by
  obtain ⟨iso, gm, hcaps, hreply, -, hreport, rfl⟩ := new_spec h
  generalize hmax : (if config.extended then (0x1fffffff : UInt32) else 0x7ff) = maxId
    at hreply hreport
  unfold newReport at hreport
  simp only [hprotocol] at hreport
  split at hreport
  · cases hreport
  · next hids =>
    simp only [not_or, ne_eq, not_not, UInt32.not_lt] at hids
    obtain ⟨hmode, hid, hapart⟩ := hids
    have hraw : config.profile.representation = .rawCan := by
      unfold Capabilities.validate Capabilities.validateMode at hcaps
      simp only [hmode] at hcaps
      repeat' split at hcaps
      all_goals try cases hcaps
      next hprofile => exact not_not.mp (not_or.mp hprofile).1
    unfold Report.new at hreport
    split at hreport
    · cases hreport
    · cases hreport
      exact ⟨⟨hprotocol, hraw, hmax ▸ hreply, hmax ▸ hid, hapart⟩, rfl, rfl, rfl, Nat.zero_le _⟩

/-- An ended session completes nothing. -/
theorem run_observe_terminal (h : s.state ≠ .active) (os : List Observation) :
    run observe s os = s := by
  induction os with
  | nil => rfl
  | cons o os ih => rwa [run_cons, observe, feed_terminal h]

/-- An observation completes a report exactly if it is the end of one that fits. -/
theorem feed_completes (hasks : config.Asks reportId) (h : s.Reporting config records)
    (htimely : s.Timely o) (result : ResultData) :
    (s.feed o).1 = .ok (.complete result) ↔
      config.Reads reportId o .ending ∧ result = .gmReport records := by
  constructor
  · intro hcomplete
    obtain ⟨kind, hreads⟩ := kind_of_feed hasks h htimely hcomplete
    by_cases hkind : kind = .ending
    · subst hkind
      have hending := (feed_ending hasks h htimely hreads).symm.trans hcomplete
      simp only [Except.ok.injEq, Action.complete.injEq] at hending
      exact ⟨hreads, hending.symm⟩
    · by_cases hfits : (records ++ kind.dtc).length ≤ config.limits.reportRecords
      · obtain ⟨action, s', hfeed, hnot, -⟩ := feed_more hasks h htimely hreads hkind hfits
        rw [hfeed] at hcomplete
        exact absurd (Except.ok.inj hcomplete) (hnot result)
      · obtain ⟨e, he⟩ := feed_full hasks h htimely hreads (Nat.lt_of_not_le hfits)
        exact absurd (he.symm.trans hcomplete) (by simp)
  · rintro ⟨hreads, rfl⟩
    exact feed_ending hasks h htimely hreads

/-- A session that goes on has taken traffic that is not the end, and whose records fit. -/
theorem kind_of_active (hasks : config.Asks reportId) (h : s.Reporting config records)
    (htimely : s.Timely o) (hactive : (s.feed o).2.state = .active) :
    ∃ kind, config.Reads reportId o kind ∧ kind ≠ .ending ∧
      (records ++ kind.dtc).length ≤ config.limits.reportRecords := by
  obtain ⟨action, haction⟩ : ∃ action, (s.feed o).1 = .ok action := by
    cases haction : (s.feed o).1 with
    | error e => exact absurd hactive (feed_ends (Or.inl ⟨e, haction⟩))
    | ok action => exact ⟨action, rfl⟩
  obtain ⟨kind, hreads⟩ := kind_of_feed hasks h htimely haction
  refine ⟨kind, hreads, ?_, ?_⟩
  · rintro rfl
    exact absurd hactive (feed_ends (Or.inr ⟨_, feed_ending hasks h htimely hreads⟩))
  · by_contra hfull
    obtain ⟨e, he⟩ := feed_full hasks h htimely hreads (Nat.lt_of_not_le hfull)
    exact absurd hactive (feed_ends (Or.inl ⟨e, he⟩))

/-- What a session reads from the traffic that it sees. -/
theorem run_report (hasks : config.Asks reportId) (h : s.Reporting config records)
    {os : List Observation} (htimely : Each observe Timely s (os ++ [o])) (result : ResultData) :
    ((run observe s os).feed o).1 = .ok (.complete result) ↔
      ∃ kinds, List.Forall₂ (config.Reads reportId) os kinds ∧ Kind.ending ∉ kinds ∧
        config.Reads reportId o .ending ∧
          result = .gmReport (records ++ kinds.flatMap Kind.dtc) ∧
            (records ++ kinds.flatMap Kind.dtc).length ≤ config.limits.reportRecords := by
  induction os generalizing s records with
  | nil =>
    rw [run_nil, feed_completes hasks h htimely.1]
    constructor
    · rintro ⟨hreads, rfl⟩
      exact ⟨[], .nil, by simp, hreads, by simp, by simpa using h.bounded⟩
    · rintro ⟨kinds, hkinds, -, hreads, hresult, -⟩
      cases hkinds
      exact ⟨hreads, by simpa using hresult⟩
  | cons o' os ih =>
    have hnext : ∀ kind, config.Reads reportId o' kind → kind ≠ .ending →
        (records ++ kind.dtc).length ≤ config.limits.reportRecords →
          (((run observe s (o' :: os)).feed o).1 = .ok (.complete result) ↔
            ∃ kinds, List.Forall₂ (config.Reads reportId) os kinds ∧ Kind.ending ∉ kinds ∧
              config.Reads reportId o .ending ∧
                result = .gmReport (records ++ (kind :: kinds).flatMap Kind.dtc) ∧
                  (records ++ (kind :: kinds).flatMap Kind.dtc).length ≤
                    config.limits.reportRecords) := by
      intro kind hreads hkind hfits
      obtain ⟨action, s', hfeed, -, hreporting⟩ := feed_more hasks h htimely.1 hreads hkind hfits
      have hobserve : s.observe o' = s' := congrArg Prod.snd hfeed
      rw [run_cons, hobserve, ih hreporting (hobserve ▸ htimely.2)]
      simp only [List.flatMap_cons, List.append_assoc]
    constructor
    · intro hcomplete
      have hactive : (s.feed o').2.state = .active := by
        by_contra hended
        rw [run_cons, @run_observe_terminal (s.observe o') hended, observe,
          feed_terminal hended] at hcomplete
        cases hcomplete
      obtain ⟨kind, hreads, hkind, hfits⟩ := kind_of_active hasks h htimely.1 hactive
      obtain ⟨kinds, hkinds, hnot, hrest⟩ := (hnext kind hreads hkind hfits).mp hcomplete
      exact ⟨kind :: kinds, .cons hreads hkinds, by simp [hnot, hkind.symm], hrest⟩
    · rintro ⟨kinds, hkinds, hnot, hends, hresult, hlength⟩
      cases hkinds with
      | @cons _ kind _ kinds hreads hkinds =>
        rw [List.mem_cons, not_or] at hnot
        have hfits : (records ++ kind.dtc).length ≤ config.limits.reportRecords := by
          simp only [List.flatMap_cons, List.length_append] at hlength ⊢
          omega
        exact (hnext kind hreads (Ne.symm hnot.1) hfits).mpr
          ⟨kinds, hkinds, hnot.2, hends, hresult, hlength⟩

/-- A session completes a report exactly at the first end marker of traffic that is made of records
and pending answers but for what is foreign, within the limit of records. The report is the records
in their order, and a record shows the four bytes that it was made from. -/
theorem report_exact (config : Config) (reportId : UInt32) (caps : Capabilities) (start : UInt64)
    (s : Session) (hprotocol : config.protocol = .gmA9Report reportId)
    (h : Session.new config caps start = .ok s) :
    (∀ os o result, Each observe Timely s (os ++ [o]) →
      (((run observe s os).feed o).1 = .ok (.complete result) ↔
        ∃ kinds, List.Forall₂ (config.Reads reportId) os kinds ∧ Kind.ending ∉ kinds ∧
          config.Reads reportId o .ending ∧ result = .gmReport (kinds.flatMap Kind.dtc) ∧
            (kinds.flatMap Kind.dtc).length ≤ config.limits.reportRecords)) ∧
      ∀ a b failureType status a' b' failureType' status',
        (Kind.record a b failureType status).dtc = (Kind.record a' b' failureType' status').dtc →
          [a, b, failureType, status] = [a', b', failureType', status'] := by
  obtain ⟨hasks, hreporting⟩ := new_reporting hprotocol h
  refine ⟨fun os o result htimely => ?_, ?_⟩
  · simpa using run_report hasks hreporting htimely result
  · intro a b failureType status a' b' failureType' status' hdtc
    simp only [Kind.dtc, List.cons.injEq, Dtc.mk.injEq, and_true] at hdtc
    obtain ⟨hcode, rfl, rfl⟩ := hdtc
    obtain ⟨rfl, rfl⟩ := dtcCode_inj hcode
    rfl

/-- A frame of the report of the contract tests. -/
def reportFrame (at_ : UInt64) (data : List UInt8) : Observation where
  sessionId := 1
  atUs := at_
  packet := .raw ⟨.swCan, 0x542, false, false, UInt8.ofNat data.length, data⟩

theorem one_record_read :
    Each observe Timely gmSession
        ([reportFrame 1 [0x81, 0xe1, 3, 0, 0x6f, 0, 0, 0]] ++ [reportFrame 2 [0x81, 0, 0, 0, 0xff]]) ∧
      ∃ kinds, List.Forall₂ (gmConfig.Reads 0x542)
          [reportFrame 1 [0x81, 0xe1, 3, 0, 0x6f, 0, 0, 0]] kinds ∧
        ResultData.gmReport [⟨"U2103", 0, 0x6f⟩] = .gmReport (kinds.flatMap Kind.dtc) := by
  have htimely : Each observe Timely gmSession
      ([reportFrame 1 [0x81, 0xe1, 3, 0, 0x6f, 0, 0, 0]] ++ [reportFrame 2 [0x81, 0, 0, 0, 0xff]]) := by
    decide
  obtain ⟨kinds, hkinds, -, -, hresult, -⟩ :=
    ((report_exact gmConfig 0x542 allCapabilities 0 gmSession rfl rfl).1 _ _
      (.gmReport [⟨"U2103", 0, 0x6f⟩]) htimely).mp (by decide +kernel)
  exact ⟨htimely, kinds, hkinds, hresult⟩

/-- No frame opens a report, a pending answer may come between its records, and the padding of a
record is not kept. -/
theorem report_without_start :
    Session.new gmConfig allCapabilities 0 = .ok gmSession ∧
      (gmSession.feed (reportFrame 1 [0x81, 0, 0, 0, 0xff])).1 = .ok (.complete (.gmReport [])) ∧
        ((run observe gmSession
            [reportFrame 1 [0x81, 0xe1, 3, 0, 0x6f],
              { reportFrame 2 [] with
                packet := .raw ⟨.swCan, 0x642, false, false, 4, [3, 0x7f, 0xa9, 0x78]⟩ },
              reportFrame 3 [0x81, 0xe1, 3, 0, 0x6f, 1, 2, 3]]).feed
          (reportFrame 4 [0x81, 0, 0, 0, 0xff])).1 =
            .ok (.complete (.gmReport [⟨"U2103", 0, 0x6f⟩, ⟨"U2103", 0, 0x6f⟩])) :=
  ⟨rfl, by decide, by decide +kernel⟩

end Session

end OpenSaab.Translation
