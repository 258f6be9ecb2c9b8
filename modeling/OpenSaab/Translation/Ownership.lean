import OpenSaab.Translation.Reports

/-!
# Who reassembles a reply

A host that puts a payload together from its frames ends as a host does that is given the payload
by its adapter.
-/

namespace OpenSaab.Translation

open Runs IsoTp Text

/-! ## Frames on an address -/

/-- Where traffic comes from, with an identifier that classical CAN knows. -/
structure Address where
  sessionId : UInt64
  bus : Bus
  id : UInt32
  extended : Bool
  valid : id ≤ if extended then 0x1fffffff else 0x7ff

namespace Address

/-- The observation is a data frame. -/
def Frame (a : Address) (data : List UInt8) (o : Observation) : Prop :=
  o.sessionId = a.sessionId ∧
    o.packet = .raw ⟨a.bus, a.id, a.extended, false, UInt8.ofNat data.length, data⟩

/-- The observation is an assembled payload. -/
def Payload (a : Address) (p : List UInt8) (o : Observation) : Prop :=
  o.sessionId = a.sessionId ∧ o.packet = .isoTpPayload a.bus a.id a.extended p

end Address

/-- The address of the replies to a request. -/
def Config.Owns (config : Config) (a : Address) : Prop :=
  a.sessionId = config.sessionId ∧ a.bus = config.profile.bus ∧ a.extended = config.extended ∧
    a.id = config.replyId

instance (config : Config) (a : Address) : Decidable (config.Owns a) :=
  inferInstanceAs (Decidable (_ ∧ _ ∧ _ ∧ _))

namespace Config

/-- The host reassembles, and answers the first frame. -/
def hostOwned (config : Config) : Config :=
  { config with profile := { config.profile with representation := .rawCan, flowControl := .host } }

/-- The adapter reassembles. -/
def adapterOwned (config : Config) : Config :=
  { config with
    profile := { config.profile with representation := .isoTpPayload, flowControl := .adapter } }

end Config

namespace Session

variable {s : Session} {config : Config} {service : UInt8} {positivePrefix : List UInt8}
  {a : Address} {o : Observation} {os : List Observation}

/-! ## How traffic ends -/

/-- The session is active until the last observation, which has the result. -/
def Ends (s : Session) (os : List Observation) (result : Except String Action) : Prop :=
  ∃ init last, os = init ++ [last] ∧ (run observe s init).state = .active ∧
    ((run observe s init).feed last).1 = result

theorem Ends.single {result : Except String Action} (h : s.state = .active)
    (hresult : (s.feed o).1 = result) : s.Ends [o] result :=
  ⟨[], o, rfl, h, hresult⟩

theorem Ends.cons {result : Except String Action} (h : (s.observe o).Ends os result) :
    s.Ends (o :: os) result := by
  obtain ⟨init, last, rfl, hactive, hresult⟩ := h
  exact ⟨o :: init, last, rfl, hactive, hresult⟩

/-- The state that a result leaves. -/
def stateAfter : Except String Action → SessionState
  | .error _ => .failed
  | .ok (.complete _) => .complete
  | .ok _ => .active

theorem feed_state (h : s.state = .active) : (s.feed o).2.state = stateAfter (s.feed o).1 := by
  have hfed := feed_cases s o
  generalize s.feed o = r at hfed
  cases hfed with
  | terminal hstate => exact absurd h hstate
  | backwards => rfl
  | failed _ _ hstate => exact hstate
  | ignored => exact h
  | @progress action s' _ _ _ hkept haction hresult =>
    obtain ⟨iso, gm, blockCount, rfl⟩ := hkept
    cases action with
    | complete result => exact absurd rfl (hresult result)
    | _ => exact h
  | complete => rfl

theorem Ends.state {result : Except String Action} (h : s.Ends os result) :
    (run observe s os).state = stateAfter result := by
  obtain ⟨init, last, rfl, hactive, rfl⟩ := h
  rw [run_append]
  exact feed_state hactive

/-! ## Frames of the reply -/

/-- A frame of the reply is given to the receiver. -/
theorem feed_frame (h : s.state = .active) (hconfig : s.config = config.hostOwned)
    (hprotocol : config.protocol = .isoTp service positivePrefix) (howns : config.Owns a)
    (htimely : s.Timely o) {data : List UInt8} (hdata : data.length ≤ 8) (hframe : a.Frame data o) :
    s.feed o = record o.atUs
      (consumeIsoTp { s with lastUs := o.atUs } service positivePrefix
        ⟨a.bus, a.id, a.extended, false, UInt8.ofNat data.length, data⟩) := by
  obtain ⟨hclock, htime⟩ := htimely h
  obtain ⟨hsession, hpacket⟩ := hframe
  obtain ⟨hown, hbus, hextended, hid⟩ := howns
  have hvalid : RawFrame.validate
      ⟨a.bus, a.id, a.extended, false, UInt8.ofNat data.length, data⟩ = .ok () :=
    dataFrame_valid a.valid hdata
  have hselected : selected { s with lastUs := o.atUs } a.bus a.id a.extended = true := by
    rw [selected_iff]
    simp [hconfig, Config.hostOwned, hbus, hextended, hid]
  rw [feed_eq h hclock htime, if_neg, hpacket]
  · show record o.atUs (consumeRaw { s with lastUs := o.atUs } _) = _
    have hraw : s.config.profile.representation = .rawCan := by rw [hconfig]; rfl
    have hiso : s.config.protocol = .isoTp service positivePrefix := by
      rw [hconfig]
      exact hprotocol
    unfold consumeRaw
    rw [hvalid]
    simp only [hselected, hraw, hiso, ne_eq, not_true_eq_false, Bool.false_eq_true, if_false]
  · rw [hsession, hown, hconfig]
    exact not_not_intro rfl

/-- The receiver wants more after this frame, and the session stays as it is but for that. -/
theorem observe_more (h : s.state = .active) (hconfig : s.config = config.hostOwned)
    (hprotocol : config.protocol = .isoTp service positivePrefix) (howns : config.Owns a)
    (htimely : s.Timely o) {data : List UInt8} (hdata : data.length ≤ 8) (hframe : a.Frame data o)
    (hpositive : [3, 0x7f].isPrefixOf data = false) {step : Step} {r : Receiver}
    (hpush : s.iso.push data = (.ok step, r)) (hstep : ∀ p, step ≠ .complete p) :
    (s.observe o).state = .active ∧ (s.observe o).config = config.hostOwned ∧
      (s.observe o).iso = r := by
  refine and_left_comm.mp ⟨(feed_config s o).trans hconfig, ?_⟩
  unfold observe
  rw [feed_frame h hconfig hprotocol howns htimely hdata hframe]
  unfold consumeIsoTp
  simp only [hpositive, Bool.false_eq_true, if_false, hpush]
  cases step with
  | complete p => exact absurd rfl (hstep p)
  | firstFrame =>
    unfold received flowControl
    dsimp only
    split <;> exact ⟨h, rfl⟩
  | consecutiveFrame =>
    unfold received flowControl
    dsimp only
    split
    · split <;> exact ⟨h, rfl⟩
    · exact ⟨h, rfl⟩

/-- The receiver completes a payload with this frame. -/
theorem feed_last (h : s.state = .active) (hconfig : s.config = config.hostOwned)
    (hprotocol : config.protocol = .isoTp service positivePrefix) (howns : config.Owns a)
    (htimely : s.Timely o) {data : List UInt8} (hdata : data.length ≤ 8) (hframe : a.Frame data o)
    (hpositive : [3, 0x7f].isPrefixOf data = false) {p : List UInt8}
    (hpush : (s.iso.push data).1 = .ok (.complete p)) : (s.feed o).1 = finish positivePrefix p := by
  rw [feed_frame h hconfig hprotocol howns htimely hdata hframe, record_fst]
  unfold consumeIsoTp
  simp only [hpositive, Bool.false_eq_true, if_false]
  generalize s.iso.push data = result at hpush
  obtain ⟨step, r⟩ := result
  dsimp only at hpush
  subst hpush
  rfl

/-- A frame that is no single frame carries no negative reply. -/
theorem positive_of_high {pci : UInt8} (h : pci >>> 4 ≠ 0) (tail : List UInt8) :
    [3, 0x7f].isPrefixOf (pci :: tail) = false := by
  have hne : (3 : UInt8) ≠ pci := by
    rintro rfl
    exact h (by decide)
  simp [List.isPrefixOf, hne]

theorem consecutive_positive {n : UInt8} (hn : n.toNat < 16) (tail : List UInt8) :
    [3, 0x7f].isPrefixOf ((0x20 + n) :: tail) = false := by
  refine positive_of_high ?_ tail
  rw [((consecutive_pci (0x20 + n) hn).mpr rfl).1]
  decide

/-- The rest of a payload, frame by frame. -/
theorem ends_consecutive (hprotocol : config.protocol = .isoTp service positivePrefix)
    (howns : config.Owns a) {n : UInt8} {rest : List UInt8} {frames : List (List UInt8)}
    (hseg : Consecutive n rest frames) (h : s.state = .active)
    (hconfig : s.config = config.hostOwned) {length : Nat} (hreceiving : s.iso.Receiving length)
    (hnext : s.iso.next = n) (hlength : s.iso.bytes.length + rest.length = length)
    (hos : List.Forall₂ a.Frame frames os) (htimely : Each observe Timely s os) :
    s.Ends os (finish positivePrefix (s.iso.bytes ++ rest)) := by
  induction hseg generalizing s os with
  | @last n rest padding hrest hfit =>
    subst hnext
    cases hos with
    | @cons _ o _ _ hframe hnil =>
      cases hnil
      have hdata : ((0x20 + s.iso.next) :: (rest ++ padding)).length ≤ 8 := by
        simp only [List.length_cons, List.length_append]
        omega
      exact .single h (feed_last h hconfig hprotocol howns htimely.1 hdata hframe
        (consecutive_positive hreceiving.next _) (Receiver.push_last hreceiving hlength hfit).1)
  | @more n part rest frames hpart hrest hseg ih =>
    subst hnext
    cases hos with
    | @cons _ o _ os hframe hos =>
      have hpos := List.length_pos_iff.mpr hrest
      simp only [List.length_append] at hlength
      obtain ⟨r, hpush, hreceiving', hbytes, hnext⟩ :=
        Receiver.push_more hreceiving hpart (by omega)
      obtain ⟨hactive, hconfig', hiso⟩ := observe_more h hconfig hprotocol howns htimely.1
        (by rw [List.length_cons]; omega) hframe (consecutive_positive hreceiving.next _) hpush
        (by simp)
      have hrun := ih hactive hconfig' (hiso ▸ hreceiving') (hiso ▸ hnext)
        (by rw [hiso, hbytes, List.length_append]; omega) hos htimely.2
      rw [hiso, hbytes, List.append_assoc] at hrun
      exact hrun.cons

/-- What a host tells of a payload that it has put together. -/
def hostAnswer (service : UInt8) (positivePrefix p : List UInt8) : Except String Action :=
  if p.length = 3 ∧ p.head? = some 0x7f then
    if p.getD 1 0 ≠ service then .error "Negative reply does not match active service"
    else if p.getD 2 0 = 0x78 then .ok .pending
    else .error ("ECU rejected active service: NRC " ++ hexUpper (p.getD 2 0))
  else finish positivePrefix p

/-- A negative reply is read from its single frame. -/
theorem feed_negative (h : s.state = .active) (hconfig : s.config = config.hostOwned)
    (hprotocol : config.protocol = .isoTp service positivePrefix) (howns : config.Owns a)
    (htimely : s.Timely o) (hstarted : s.iso.started = false) {x y : UInt8} {padding : List UInt8}
    (hfit : padding.length ≤ 4) (hframe : a.Frame (3 :: 0x7f :: x :: y :: padding) o) :
    (s.feed o).1 = hostAnswer service positivePrefix [0x7f, x, y] := by
  have hsize : (3 :: 0x7f :: x :: y :: padding).length ≤ 8 := by
    simp only [List.length_cons]
    omega
  rw [feed_frame h hconfig hprotocol howns htimely hsize hframe, record_fst]
  unfold consumeIsoTp hostAnswer
  simp only [List.isPrefixOf, beq_self_eq_true, Bool.and_self, if_true, List.length_cons,
    List.getD_cons_succ, List.getD_cons_zero, hstarted, Bool.false_eq_true, not_false_eq_true,
    and_true, List.length_nil, List.head?_cons, and_self]
  have hlong : ¬ padding.length + 1 + 1 + 1 + 1 < 4 := by omega
  by_cases hservice : x = service
  · by_cases hpending : y = 0x78 <;> simp [hservice, hpending, hlong]
  · simp [hservice]

/-- The frames of a payload end as the payload does. -/
theorem ends_segmentation (hprotocol : config.protocol = .isoTp service positivePrefix)
    (howns : config.Owns a) (h : s.state = .active) (hconfig : s.config = config.hostOwned)
    {limit : Nat} (hfresh : s.iso.Fresh limit) {p : List UInt8} {frames : List (List UInt8)}
    (hseg : Segmentation p frames) (hlimit : p.length ≤ limit)
    (hos : List.Forall₂ a.Frame frames os) (htimely : Each observe Timely s os) :
    s.Ends os (hostAnswer service positivePrefix p) := by
  cases hseg with
  | @single _ padding hp hfit =>
    cases hos with
    | @cons _ o _ _ hframe hnil =>
      cases hnil
      refine .single h ?_
      by_cases hnegative : p.length = 3 ∧ p.head? = some 0x7f
      · obtain ⟨hlength, hhead⟩ := hnegative
        obtain ⟨tail, rfl⟩ := List.head?_eq_some_iff.mp hhead
        match tail, hlength with
        | [x, y], _ =>
          have hframe' : a.Frame (3 :: 0x7f :: x :: y :: padding) o := hframe
          refine feed_negative h hconfig hprotocol howns htimely.1 ?_ ?_ hframe'
          · rw [hfresh.eq]
            rfl
          · simp only [List.length_cons, List.length_nil] at hfit
            omega
      · have hpositive : [3, 0x7f].isPrefixOf (UInt8.ofNat p.length :: (p ++ padding)) = false := by
          rw [← Bool.not_eq_true, List.isPrefixOf_iff_prefix]
          rintro ⟨rest, heq⟩
          obtain ⟨hpci, htail⟩ := List.cons.inj heq
          refine hnegative ⟨?_, ?_⟩
          · have hlow := (single_pci (n := p.length) (by omega)).2
            rw [← hpci] at hlow
            exact hlow.symm
          · cases p with
            | nil => exact absurd rfl hp
            | cons b tail =>
              obtain ⟨rfl, -⟩ := List.cons.inj htail
              rfl
        unfold hostAnswer
        rw [if_neg hnegative]
        exact feed_last h hconfig hprotocol howns htimely.1
          (by simp only [List.length_cons, List.length_append]; omega) hframe hpositive
          (Receiver.push_single hfresh hp hfit hlimit).1
  | @multi part rest frames length hpart hlength hmin hmax hseg =>
    cases hos with
    | @cons _ o _ os hframe hos =>
      obtain ⟨r, hpush, hreceiving, hbytes, hnext⟩ :=
        Receiver.push_first hfresh hpart hmin (hlength ▸ hlimit)
      have hhigh : UInt8.ofNat (0x10 + length / 256) >>> 4 ≠ 0 := by
        rw [(first_pci hmax).1]
        decide
      obtain ⟨hactive, hconfig', hiso⟩ := observe_more h hconfig hprotocol howns htimely.1
        (by simp only [List.length_cons]; omega) hframe (positive_of_high hhigh _) hpush (by simp)
      have hrun := ends_consecutive hprotocol howns hseg hactive hconfig' (hiso ▸ hreceiving)
        (hiso ▸ hnext) (by rw [hiso, hbytes, hlength, List.length_append]) hos htimely.2
      rw [hiso, hbytes] at hrun
      unfold hostAnswer
      rw [if_neg (by omega)]
      exact hrun.cons

/-! ## The payload itself -/

/-- What a host tells of a payload that its adapter has put together. -/
def adapterAnswer (service : UInt8) (positivePrefix p : List UInt8) : Except String Action :=
  if p.head? = some 0x7f then
    if p.length ≠ 3 ∨ p.getD 1 0 ≠ service then
      .error "Invalid negative payload for active service"
    else if p.getD 2 0 = 0x78 then .ok .pending
    else .error ("ECU rejected active service: NRC " ++ hexUpper (p.getD 2 0))
  else finish positivePrefix p

theorem feed_payload (h : s.state = .active) (hconfig : s.config = config.adapterOwned)
    (hprotocol : config.protocol = .isoTp service positivePrefix) (howns : config.Owns a)
    (htimely : s.Timely o) {p : List UInt8} (hp : p ≠ [])
    (hlimit : p.length ≤ config.limits.payloadBytes) (hpayload : a.Payload p o) :
    (s.feed o).1 = adapterAnswer service positivePrefix p := by
  obtain ⟨hclock, htime⟩ := htimely h
  obtain ⟨hsession, hpacket⟩ := hpayload
  obtain ⟨hown, hbus, hextended, hid⟩ := howns
  have hselected : selected { s with lastUs := o.atUs } a.bus a.id a.extended = true := by
    rw [selected_iff]
    simp [hconfig, Config.adapterOwned, hbus, hextended, hid]
  have hassembled : s.config.profile.representation = .isoTpPayload := by rw [hconfig]; rfl
  have hiso : s.config.protocol = .isoTp service positivePrefix := by
    rw [hconfig]
    exact hprotocol
  have hlength : ¬ (p = [] ∨ s.config.limits.payloadBytes < p.length) := by
    rw [hconfig]
    exact not_or.mpr ⟨hp, Nat.not_lt.mpr hlimit⟩
  rw [feed_eq h hclock htime, if_neg, record_fst, hpacket]
  · show consumePayload { s with lastUs := o.atUs } _ _ _ _ = _
    unfold consumePayload adapterAnswer
    simp only [hselected, hassembled, hiso, not_true_eq_false, if_false, hlength]
  · rw [hsession, hown, hconfig]
    exact not_not_intro rfl

/-- A negative reply that names no code of the active service. -/
def Mismatched (service : UInt8) (p : List UInt8) : Prop :=
  p.head? = some 0x7f ∧ ¬ (p.length = 3 ∧ p.getD 1 0 = service)

instance (service : UInt8) (p : List UInt8) : Decidable (Mismatched service p) :=
  inferInstanceAs (Decidable (_ ∧ _))

theorem answers_agree {p : List UInt8} (h : ¬ Mismatched service p) :
    hostAnswer service positivePrefix p = adapterAnswer service positivePrefix p := by
  unfold Mismatched at h
  unfold hostAnswer adapterAnswer
  by_cases hhead : p.head? = some 0x7f
  · have hmatch : p.length = 3 ∧ p.getD 1 0 = service := by
      by_contra hother
      exact h ⟨hhead, hother⟩
    have hvalid : ¬ (p.length ≠ 3 ∨ p.getD 1 0 ≠ service) :=
      not_or.mpr ⟨not_not_intro hmatch.1, not_not_intro hmatch.2⟩
    rw [if_pos ⟨hmatch.1, hhead⟩, if_neg (not_not_intro hmatch.2), if_pos hhead, if_neg hvalid]
  · rw [if_neg (fun hboth => hhead hboth.2), if_neg hhead]

/-- The refusals of a mismatched reply. -/
def hostRefusal (p : List UInt8) : String :=
  if p.length = 3 then "Negative reply does not match active service"
  else "Completed payload does not match active request"

theorem answers_mismatched {p : List UInt8} (h : Mismatched service p) (hnil : positivePrefix ≠ [])
    (hpositive : positivePrefix.head? ≠ some 0x7f) :
    hostAnswer service positivePrefix p = .error (hostRefusal p) ∧
      adapterAnswer service positivePrefix p =
        .error "Invalid negative payload for active service" := by
  obtain ⟨hhead, hnot⟩ := h
  constructor
  · unfold hostAnswer hostRefusal
    by_cases hlength : p.length = 3
    · rw [if_pos ⟨hlength, hhead⟩, if_pos fun hservice => hnot ⟨hlength, hservice⟩, if_pos hlength]
    · rw [if_neg (fun hboth => hlength hboth.1), if_neg hlength]
      refine if_neg fun hpre => ?_
      obtain ⟨rest, rfl⟩ := List.isPrefixOf_iff_prefix.mp hpre
      cases positivePrefix with
      | nil => exact hnil rfl
      | cons b tail => exact hpositive hhead
  · unfold adapterAnswer
    rw [if_pos hhead, if_pos]
    by_cases hlength : p.length = 3
    · exact Or.inr fun hservice => hnot ⟨hlength, hservice⟩
    · exact Or.inl hlength

/-! ## Traffic of others -/

theorem ends_ignored (h : s.state = .active) (hos : os ≠ [])
    (hforeign : ∀ o ∈ os, s.config.Foreign o ∧ o.packet.WellFormed)
    (htimely : Each observe Timely s os) : s.Ends os (.ok .ignored) := by
  induction os generalizing s with
  | nil => exact absurd rfl hos
  | cons o os ih =>
    obtain ⟨hclock, htime⟩ := htimely.1 h
    obtain ⟨hother, hvalid⟩ := hforeign o List.mem_cons_self
    have hfeed := feed_foreign h hclock htime hother fun _ => hvalid
    cases os with
    | nil => exact .single h (congrArg Prod.fst hfeed)
    | cons o' os =>
      have hobserve : s.observe o = { s with lastUs := o.atUs } := congrArg Prod.snd hfeed
      refine Ends.cons (ih ?_ (by simp) ?_ htimely.2)
      · rw [hobserve]
        exact h
      · rw [hobserve]
        exact fun o' ho' => hforeign o' (List.mem_cons_of_mem _ ho')

/-- Traffic from another address is foreign. -/
theorem foreign_of_not_owns (howns : ¬ config.Owns a)
    (hprotocol : config.protocol = .isoTp service positivePrefix)
    (hsession : o.sessionId = a.sessionId) (hbus : o.packet.bus = a.bus)
    (hid : o.packet.id = a.id) (hextended : o.packet.extended = a.extended) :
    config.Foreign o := by
  unfold Config.Owns at howns
  unfold Config.Foreign
  rw [hsession, hbus, hid, hextended, hprotocol]
  simp only [ne_eq, reduceCtorEq, not_false_eq_true, and_true]
  tauto

theorem frames_foreign (howns : ¬ config.Owns a)
    (hprotocol : config.protocol = .isoTp service positivePrefix) {frames : List (List UInt8)}
    (hsize : ∀ data ∈ frames, data.length ≤ 8) (hos : List.Forall₂ a.Frame frames os) :
    ∀ o ∈ os, config.Foreign o ∧ o.packet.WellFormed := by
  induction hos with
  | nil => simp
  | @cons data o frames os hframe _ ih =>
    rw [List.forall_mem_cons] at hsize ⊢
    obtain ⟨hsession, hpacket⟩ := hframe
    refine ⟨⟨?_, ?_⟩, ih hsize.2⟩
    · exact foreign_of_not_owns howns hprotocol hsession (by rw [hpacket]; rfl)
        (by rw [hpacket]; rfl) (by rw [hpacket]; rfl)
    · rw [hpacket]
      exact dataFrame_valid a.valid hsize.1

/-- What a new ISO-TP session has checked, and what it starts with. -/
theorem new_isoTp {caps : Capabilities} {start : UInt64}
    (hprotocol : config.protocol = .isoTp service positivePrefix)
    (h : Session.new config caps start = .ok s) :
    s.state = .active ∧ s.config = config ∧ s.iso.Fresh config.limits.payloadBytes ∧
      positivePrefix ≠ [] := by
  obtain ⟨iso, gm, -, -, hiso, hreport, rfl⟩ := new_spec h
  refine ⟨rfl, rfl, Receiver.fresh_of_new hiso, ?_⟩
  rintro rfl
  unfold newReport at hreport
  simp [hprotocol] at hreport

/-- A host that reassembles the frames of a payload, and one like it that is given the payload, end
with the same result and in the same state. Only a negative reply that names no code of the active
service is refused by each in its own words. -/
theorem ownership_agrees (config : Config) (service : UInt8) (positivePrefix : List UInt8)
    (caps : Capabilities) (start : UInt64) (host adapter : Session)
    (hprotocol : config.protocol = .isoTp service positivePrefix)
    (hpositive : positivePrefix.head? ≠ some 0x7f)
    (hhost : Session.new config.hostOwned caps start = .ok host)
    (hadapter : Session.new config.adapterOwned caps start = .ok adapter)
    (a : Address) (p : List UInt8) (hlimit : p.length ≤ config.limits.payloadBytes)
    (frames : List (List UInt8)) (hseg : Segmentation p frames) (os : List Observation)
    (hos : List.Forall₂ a.Frame frames os) (htimely : Each observe Timely host os)
    (o : Observation) (ho : a.Payload p o) (htimely' : adapter.Timely o) :
    (¬ (config.Owns a ∧ Mismatched service p) → host.Ends os (adapter.feed o).1) ∧
      (config.Owns a ∧ Mismatched service p → host.Ends os (.error (hostRefusal p)) ∧
        (adapter.feed o).1 = .error "Invalid negative payload for active service") ∧
      (run observe host os).state = (adapter.observe o).state := by
  obtain ⟨hactive, hconfig, hfresh, hne⟩ :=
    @new_isoTp host config.hostOwned _ _ _ _ hprotocol hhost
  obtain ⟨hactive', hconfig', -, -⟩ := @new_isoTp adapter config.adapterOwned _ _ _ _ hprotocol hadapter
  have hends : ∃ result, host.Ends os result ∧
      (¬ (config.Owns a ∧ Mismatched service p) → result = (adapter.feed o).1) ∧
        (config.Owns a ∧ Mismatched service p → result = .error (hostRefusal p) ∧
          (adapter.feed o).1 = .error "Invalid negative payload for active service") := by
    by_cases howns : config.Owns a
    · have hp : p ≠ [] := List.length_pos_iff.mp hseg.length_pos
      have hfeed := feed_payload hactive' hconfig' hprotocol howns htimely' hp hlimit ho
      refine ⟨_, ends_segmentation hprotocol howns hactive hconfig hfresh hseg hlimit hos htimely,
        fun hagree => ?_, fun hmismatch => ?_⟩
      · rw [hfeed]
        exact answers_agree fun hmismatch => hagree ⟨howns, hmismatch⟩
      · rw [hfeed]
        exact answers_mismatched hmismatch.2 hne hpositive
    · have hframes : os ≠ [] := by
        rintro rfl
        exact hseg.ne_nil (List.forall₂_nil_right_iff.mp hos)
      have hforeign : ∀ o ∈ os, host.config.Foreign o ∧ o.packet.WellFormed := by
        rw [hconfig]
        exact @frames_foreign config.hostOwned _ _ _ _ howns hprotocol _ hseg.size hos
      obtain ⟨hclock, htime⟩ := htimely' hactive'
      have hother : adapter.config.Foreign o := by
        rw [hconfig']
        exact @foreign_of_not_owns config.adapterOwned _ _ _ _ howns hprotocol ho.1
          (by rw [ho.2]; rfl) (by rw [ho.2]; rfl) (by rw [ho.2]; rfl)
      have hfeed := feed_foreign hactive' hclock htime hother
        (fun _ => by rw [ho.2]; trivial)
      refine ⟨_, ends_ignored hactive hframes hforeign htimely, fun _ => ?_,
        fun hmismatch => absurd hmismatch.1 howns⟩
      rw [hfeed]
  obtain ⟨result, hends, hagree, hmismatch⟩ := hends
  refine ⟨fun h => hagree h ▸ hends, fun h => ⟨(hmismatch h).1 ▸ hends, (hmismatch h).2⟩, ?_⟩
  rw [hends.state, observe, feed_state hactive']
  by_cases h : config.Owns a ∧ Mismatched service p
  · rw [(hmismatch h).1, (hmismatch h).2]
    rfl
  · rw [hagree h]

/-- The replies to the request of the contract tests, as frames and as payloads. -/
def replyAddress : Address := ⟨1, .hsCan, 0x7e8, false, by decide⟩

def replyFrame (at_ : UInt64) (data : List UInt8) : Observation where
  sessionId := 1
  atUs := at_
  packet := .raw ⟨.hsCan, 0x7e8, false, false, UInt8.ofNat data.length, data⟩

def replyPayload (at_ : UInt64) (p : List UInt8) : Observation where
  sessionId := 1
  atUs := at_
  packet := .isoTpPayload .hsCan 0x7e8 false p

/-- The session of the contract tests, whoever reassembles. -/
def hostSession : Session := isoTpConfig.hostOwned.session ⟨512, none, [], 1, false, false⟩ none 0

def adapterSession : Session :=
  isoTpConfig.adapterOwned.session ⟨512, none, [], 1, false, false⟩ none 0

theorem reply_agrees :
    hostSession.Ends
        [replyFrame 1 [0x10, 8, 0x5a, 0x90, 1, 2, 3, 4], replyFrame 2 [0x21, 9, 10, 0, 0, 0, 0, 0]]
        (adapterSession.feed (replyPayload 1 [0x5a, 0x90, 1, 2, 3, 4, 9, 10])).1 ∧
      (adapterSession.feed (replyPayload 1 [0x5a, 0x90, 1, 2, 3, 4, 9, 10])).1 =
        .ok (.complete (.payload [0x5a, 0x90, 1, 2, 3, 4, 9, 10])) := by
  have hseg : Segmentation [0x5a, 0x90, 1, 2, 3, 4, 9, 10]
      [[0x10, 8, 0x5a, 0x90, 1, 2, 3, 4], [0x21, 9, 10, 0, 0, 0, 0, 0]] :=
    @Segmentation.multi [0x5a, 0x90, 1, 2, 3, 4] [9, 10] _ 8 rfl rfl (by decide) (by decide)
      (@Consecutive.last 1 [9, 10] [0, 0, 0, 0, 0] (by decide) (by decide))
  refine ⟨(ownership_agrees isoTpConfig 0x1a [0x5a] allCapabilities 0 hostSession adapterSession rfl
    (by decide) rfl rfl replyAddress _ (by decide) _ hseg _
    (.cons ⟨rfl, rfl⟩ (.cons ⟨rfl, rfl⟩ .nil)) (by decide) (replyPayload 1 _) ⟨rfl, rfl⟩
    (by decide)).1 (by decide), by decide⟩

/-- A negative reply of another service is refused in two ways. -/
theorem mismatched_reply_differs :
    Session.new isoTpConfig.hostOwned allCapabilities 0 = .ok hostSession ∧
      Session.new isoTpConfig.adapterOwned allCapabilities 0 = .ok adapterSession ∧
        segment 0 [0x7f, 0x22, 0x31] = [[3, 0x7f, 0x22, 0x31, 0, 0, 0, 0]] ∧
          (hostSession.feed (replyFrame 1 [3, 0x7f, 0x22, 0x31, 0, 0, 0, 0])).1 =
            .error "Negative reply does not match active service" ∧
          (adapterSession.feed (replyPayload 1 [0x7f, 0x22, 0x31])).1 =
            .error "Invalid negative payload for active service" :=
  ⟨rfl, rfl, by decide, by decide, by decide⟩

end Session

end OpenSaab.Translation
