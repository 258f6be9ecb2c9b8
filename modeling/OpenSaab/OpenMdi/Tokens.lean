import OpenSaab.Library.Runs
import OpenSaab.OpenMdi.RawPair

/-!
# Which frame a token stands for

A token is taken by one call, and its indication is reported at most once, as the frame of that call.
-/

namespace OpenSaab.OpenMdi

open Json Program Std

namespace RawPair

/-! ## What the session leaves alone -/

/-- All but the session stays as it is. -/
def outer : Allowed RawPair where
  rel p p' := p' = { p with inner := p'.inner }
  refl _ := rfl
  trans h h' := by rw [h', h]

theorem inside_keeps {α : Type} (x : Action α) : Keeps outer (inside x) := fun _ => rfl

theorem stage_keeps (link : UInt32) (wake : Bool) : Keeps outer (stage link wake) := by
  unfold stage
  cases wake with
  | true => exact (inside_keeps _).bind fun _ => inside_keeps _
  | false => exact inside_keeps _

theorem exists_inner {α : Type} {x : PairAction α} (hx : Keeps outer x) {p p' : RawPair}
    {r : Except String α} (h : x p = (r, p')) : ∃ inner, p' = { p with inner } := by
  have hkeeps := hx p
  rw [h] at hkeeps
  exact ⟨p'.inner, hkeeps⟩

/-! ## Sending -/

/-- What a call can do to the tokens and the pending frames. -/
inductive Transmits (p : RawPair) (channel : Nat) (id : UInt32) (data : List UInt8) :
    Except String UInt32 → RawPair → Prop where
  | refused {e : String} {inner : Session} : Transmits p channel id data (.error e) { p with inner }
  | unsent {e : String} {inner : Session} (h : p.nextToken ≠ 0xffffffff) :
      Transmits p channel id data (.error e) { p with inner, nextToken := p.nextToken + 1 }
  | sent {result : Except String UInt32} {inner : Session} {deadline : Nat}
      (h : p.nextToken ≠ 0xffffffff) (hresult : ∀ t, result = .ok t → t = p.nextToken) :
      Transmits p channel id data result
        { p with inner, nextToken := p.nextToken + 1,
                 pending := p.pending.insert p.nextToken ⟨channel, id, data, deadline⟩ }

theorem transmit_cases (p : RawPair) (channel : Nat) (id : UInt32) (data : List UInt8) (wake : Bool) :
    Transmits p channel id data (p.transmit channel id data wake).1
      (p.transmit channel id data wake).2 := by
  unfold transmit
  rw [bind_read]
  split
  · exact @Transmits.refused p channel id data _ p.inner
  rw [bind_change, bind_read, bind_read]
  dsimp only
  generalize (p.channels[channel]?.map (·.select p.inner)).getD p.inner = inner
  cases hrequest : rawFrame inner.link p.nextToken id data wake with
  | error e =>
    rw [bind_error (lift_apply _)]
    exact .refused
  | ok request =>
    rw [bind_ok (lift_apply _)]
    split
    · exact .refused
    rename_i hmax
    rw [bind_change]
    refine bind_induct (Q := fun r => Transmits p channel id data r.1 r.2) ?_ ?_
    · intro e p₁ hstage
      obtain ⟨inner₁, rfl⟩ := exists_inner (stage_keeps inner.link wake) hstage
      exact .unsent hmax
    · intro _ p₁ hstage
      obtain ⟨inner₁, rfl⟩ := exists_inner (stage_keeps inner.link wake) hstage
      rw [bind_change]
      refine bind_induct (Q := fun r => Transmits p channel id data r.1 r.2) ?_ ?_
      · intro e p₂ hsend
        obtain ⟨inner₂, rfl⟩ := exists_inner (inside_keeps (Session.perform request 0x464)) hsend
        exact .sent hmax fun t ht => nomatch ht
      · intro _ p₂ hsend
        obtain ⟨inner₂, rfl⟩ := exists_inner (inside_keeps (Session.perform request 0x464)) hsend
        exact .sent hmax fun t ht => (Except.ok.inj ht).symm

end RawPair

/-! ## What the device indicates -/

/-- The events that are still to come on the notification socket. -/
def heard (s : Session) : List Value :=
  ((s.notification.map Socket.answers).getD []).flatMap fun a =>
    match a.result with
    | .ok (some record) => ((Session.itemsOf record).toOption).getD []
    | _ => []

/-- An event that says that a frame has been sent on a link. -/
structure Indicates (link : UInt32) (item : Value) (token id : UInt32) (data : List UInt8) : Prop where
  link : (item.get "link").isU32 link = true
  kind : ((item.get "data").get "kind").isStr "result" = true
  flags : ((item.get "data").get "rx_flags_hex").isStr "00000001" = true ∨
    ((item.get "data").get "rx_flags_hex").isStr "00010001" = true
  token : (item.get "token").isU32 token = true
  frame : ∃ text bytes, ((item.get "data").get "data_hex").asStr = some text ∧
    unhex text.toList = .ok bytes ∧ id = UInt32.ofNat (Words.ofBig (bytes.take 4)) ∧
    data = bytes.drop 4

theorem wordOf_ok {v : Value} {absent boundary : String} {n : UInt32}
    (h : wordOf v absent boundary = .ok n) : v.isU32 n = true := by
  unfold wordOf at h
  unfold Value.isU32
  split at h
  · cases h
  · rename_i m hm
    split_ifs at h with hlt
    obtain rfl := Except.ok.inj h
    rw [hm]
    have hback : m.toUInt32.toUInt64 = m := by
      apply UInt64.toNat_inj.mp
      rw [UInt32.toNat_toUInt64, UInt64.toNat_toUInt32, Nat.mod_eq_of_lt hlt]
    rw [hback]
    exact beq_self_eq_true _

theorem isStr_of_asStr {v : Value} {text : String} (h : v.asStr = some text) :
    v.isStr text = true := by
  rw [Value.isStr, h]
  exact beq_self_eq_true _

theorem frameEvent_transmitted {item : Value} {receiver : UInt32} {flags : String}
    {observedData : Bool} {id : UInt32} {data : List UInt8} {token id' : UInt32} {data' : List UInt8}
    (h : frameEvent item receiver flags observedData id data = .ok (.transmitted token id' data')) :
    flags ≠ "00000000" ∧ observedData = false ∧ (item.get "token").isU32 token = true ∧ id' = id ∧
      data' = data := by
  unfold frameEvent at h
  split_ifs at h with hreceived
  · obtain ⟨timestamp, -, h⟩ := except_bind_ok h
    cases Except.ok.inj h
  · obtain ⟨timestamp, -, h⟩ := except_bind_ok h
    cases Except.ok.inj h
  · obtain ⟨token', htoken, h⟩ := except_bind_ok h
    obtain ⟨rfl, rfl, rfl⟩ := RawEvent.transmitted.inj (Except.ok.inj h)
    rw [not_or] at hreceived
    exact ⟨hreceived.1, by simpa using hreceived.2, wordOf_ok htoken, rfl, rfl⟩

/-- Only an indication is reported as a frame that has been sent. -/
theorem transmitted_indicates {item : Value} {link receiver : UInt32} {observedMdi : Bool}
    {token id : UInt32} {data : List UInt8}
    (h : rawEventObservedMdi item link receiver observedMdi = .ok (some (.transmitted token id data))) :
    Indicates link item token id data := by
  unfold rawEventObservedMdi at h
  dsimp only at h
  split at h
  · cases h
  rename_i hscope
  simp only [Bool.or_eq_true, Bool.not_eq_true', not_or, Bool.not_eq_false] at hscope
  split at h
  · cases h
  rename_i flags hflags
  split at h
  · cases h
  rename_i hknown
  split at h
  · cases h
  rename_i text htext
  split at h
  · cases h
  obtain ⟨bytes, hbytes, h⟩ := except_bind_ok h
  split at h
  · cases h
  obtain ⟨event, hevent, h⟩ := except_bind_ok h
  obtain rfl := Option.some.inj (Except.ok.inj h)
  obtain ⟨hzero, hobserved, htoken, hid, hdata⟩ := frameEvent_transmitted hevent
  refine ⟨hscope.1, hscope.2, ?_, htoken, text, bytes, htext, hbytes, hid, hdata⟩
  have hflag : flags = "00000001" ∨ flags = "00010001" := by
    simp only [hobserved, Bool.not_false, Bool.true_and, List.mem_cons, List.not_mem_nil, or_false,
      Bool.not_eq_true', decide_eq_false_iff_not, not_not] at hknown
    exact hknown.resolve_left hzero
  rcases hflag with rfl | rfl
  · exact Or.inl (isStr_of_asStr hflags)
  · exact Or.inr (isStr_of_asStr hflags)

/-! ## Notifications -/

/-- What has been read is no longer to come. -/
theorem listen_heard (deadline : Nat) (s : Session) :
    ∃ H, heard s = H ++ heard (Session.listen deadline s).2 ∧
      ∀ record items, (Session.listen deadline s).1 = .ok (some record) →
        Session.itemsOf record = .ok items → items = H := by
  unfold Session.listen heard Socket.next
  cases hsocket : s.notification with
  | none => exact ⟨[], by simp [hsocket], fun _ _ h => nomatch h⟩
  | some socket =>
    cases hanswers : socket.answers with
    | nil => exact ⟨[], by simp [hanswers], by simp [hanswers, Answer.nothing]⟩
    | cons a answers =>
      simp only [Option.map_some, Option.getD_some, hanswers, List.flatMap_cons]
      refine ⟨_, rfl, ?_⟩
      intro record items hresult hitems
      rw [hresult]
      simp [hitems, Except.toOption]

/-- The events of a notification are those that have been read. -/
theorem notifications_heard (deadline : Nat) (s : Session) :
    ∃ H, heard s = H ++ heard (Session.notifications deadline s).2 ∧
      ∀ items, (Session.notifications deadline s).1 = .ok items → items ⊆ H := by
  obtain ⟨H, hrest, hitems⟩ := listen_heard deadline s
  refine ⟨H, ?_⟩
  unfold Session.notifications
  refine bind_induct
    (Q := fun r => heard s = H ++ heard r.2 ∧ ∀ items, r.1 = .ok items → items ⊆ H) ?_ ?_
  · intro e s' h
    rw [h] at hrest
    exact ⟨hrest, fun _ h => nomatch h⟩
  · intro answer s' h
    rw [h] at hrest hitems
    cases answer with
    | none =>
      refine ⟨hrest, ?_⟩
      intro items hok
      rw [← Except.ok.inj hok]
      exact List.nil_subset _
    | some record =>
      dsimp only
      cases hrecord : Session.itemsOf record with
      | error e =>
        rw [bind_error (lift_apply _)]
        exact ⟨hrest, fun _ h => nomatch h⟩
      | ok items =>
        rw [bind_ok (lift_apply _), bind_change, bind_read]
        split
        · exact ⟨hrest, fun _ h => nomatch h⟩
        · refine ⟨hrest, ?_⟩
          intro items' hok
          rw [← Except.ok.inj hok, hitems record items rfl hrecord]
          exact List.Subset.refl _

/-- The notification socket is left alone. -/
def silent : Allowed Session where
  rel s s' := s'.notification = s.notification
  refl _ := rfl
  trans h h' := h'.trans h

theorem rpc_silent (request : Record) (expected : UInt32) :
    Keeps silent (Session.rpc request expected) := by
  intro s
  unfold Session.rpc
  dsimp only
  split
  · rfl
  · split <;> rfl

theorem heartbeat_silent : Keeps silent Session.heartbeat := by
  refine (Keeps.read _).bind ?_
  intro due
  cases due with
  | false => exact Keeps.pure ()
  | true =>
    refine (rpc_silent _ _).bind fun reply => ?_
    exact (Keeps.lift _).bind fun _ _ => rfl

namespace RawPair

/-! ## Polling -/

/-- The token of an event that says that a frame has been sent. -/
def tokenOf (event : Nat × RawEvent) : Option UInt32 :=
  match event.2 with
  | .transmitted token _ _ => some token
  | _ => none

/-- What polling does to the pending frames, and which events it reports, when `H` is what the device
has said. -/
structure Reports (H : List Value) (p p' : RawPair) (events : List (Nat × RawEvent)) : Prop where
  channels : p'.channels = p.channels
  nextToken : p'.nextToken = p.nextToken
  pending : ∀ t, p'.pending[t]? = p.pending[t]? ∨
    ∃ w c item, p.pending[t]? = some w ∧ p'.pending[t]? = none ∧
      p.channels[w.channel]? = some c ∧ item ∈ H ∧ Indicates c.link item t w.id w.data
  completed : ∀ c t id data, (c, .transmitted t id data) ∈ events →
    ∃ deadline, p.pending[t]? = some ⟨c, id, data, deadline⟩ ∧ p'.pending[t]? = none
  once : (events.filterMap tokenOf).Nodup

variable {H : List Value}

/-- A step that leaves the pending frames alone. -/
theorem Reports.of_same {p p' : RawPair} (hchannels : p'.channels = p.channels)
    (htoken : p'.nextToken = p.nextToken) (hpending : p'.pending = p.pending) :
    Reports H p p' [] :=
  ⟨hchannels, htoken, fun _ => Or.inl (by rw [hpending]),
    fun _ _ _ _ h => absurd h List.not_mem_nil, List.nodup_nil⟩

theorem Reports.refl (p : RawPair) : Reports H p p [] := .of_same rfl rfl rfl

/-- A failure takes the events with it. -/
theorem Reports.drop {p p' : RawPair} {events : List (Nat × RawEvent)} (h : Reports H p p' events) :
    Reports H p p' [] :=
  ⟨h.channels, h.nextToken, h.pending, fun _ _ _ _ h => absurd h List.not_mem_nil, List.nodup_nil⟩

theorem Reports.mono {H' : List Value} {p p' : RawPair} {events : List (Nat × RawEvent)}
    (h : Reports H p p' events) (hsub : H ⊆ H') : Reports H' p p' events := by
  refine ⟨h.channels, h.nextToken, ?_, h.completed, h.once⟩
  intro t
  rcases h.pending t with hsame | ⟨w, c, item, hw, hnone, hc, hitem, hindicates⟩
  · exact Or.inl hsame
  · exact Or.inr ⟨w, c, item, hw, hnone, hc, hsub hitem, hindicates⟩

theorem mem_tokens {events : List (Nat × RawEvent)} {t : UInt32}
    (h : t ∈ events.filterMap tokenOf) : ∃ c id data, (c, .transmitted t id data) ∈ events := by
  obtain ⟨⟨c, event⟩, hmem, htoken⟩ := List.mem_filterMap.mp h
  cases event with
  | transmitted token id data =>
    obtain rfl := Option.some.inj htoken
    exact ⟨c, id, data, hmem⟩
  | received => cases htoken
  | observedMdiData => cases htoken
  | metadata => cases htoken

theorem Reports.append {p p₁ p₂ : RawPair} {xs ys : List (Nat × RawEvent)} (h : Reports H p p₁ xs)
    (h' : Reports H p₁ p₂ ys) : Reports H p p₂ (xs ++ ys) where
  channels := h'.channels.trans h.channels
  nextToken := h'.nextToken.trans h.nextToken
  pending t := by
    rcases h'.pending t with hsame | ⟨w, c, item, hw, hnone, hc, hitem, hindicates⟩
    · rw [hsame]
      exact h.pending t
    · right
      rcases h.pending t with hsame | ⟨_, _, _, _, hgone, _⟩
      · exact ⟨w, c, item, hsame ▸ hw, hnone, h.channels ▸ hc, hitem, hindicates⟩
      · rw [hgone] at hw
        cases hw
  completed c t id data hmem := by
    rcases List.mem_append.mp hmem with hmem | hmem
    · obtain ⟨deadline, hsome, hnone⟩ := h.completed c t id data hmem
      refine ⟨deadline, hsome, ?_⟩
      rcases h'.pending t with hsame | ⟨_, _, _, _, hgone, _⟩
      · rw [hsame, hnone]
      · exact hgone
    · obtain ⟨deadline, hsome, hnone⟩ := h'.completed c t id data hmem
      refine ⟨deadline, ?_, hnone⟩
      rcases h.pending t with hsame | ⟨_, _, _, _, hgone, _⟩
      · rw [← hsome, hsame]
      · rw [hgone] at hsome
        cases hsome
  once := by
    rw [List.filterMap_append, List.nodup_append]
    refine ⟨h.once, h'.once, ?_⟩
    rintro t ht t' ht' rfl
    obtain ⟨c, id, data, hmem⟩ := mem_tokens ht
    obtain ⟨c', id', data', hmem'⟩ := mem_tokens ht'
    obtain ⟨_, _, hnone⟩ := h.completed c t id data hmem
    obtain ⟨_, hsome, _⟩ := h'.completed c' t id' data' hmem'
    rw [hnone] at hsome
    cases hsome

/-- The events of a result. -/
def eventsOf (r : Except String (List (Nat × RawEvent))) : List (Nat × RawEvent) :=
  match r with
  | .ok events => events
  | .error _ => []

theorem complete_cases (p : RawPair) (channel : Nat) (token id : UInt32) (data : List UInt8) :
    (∃ e, complete channel token id data p = (.error e, p)) ∨
      ∃ deadline, p.pending[token]? = some ⟨channel, id, data, deadline⟩ ∧
        complete channel token id data p = (.ok (), { p with pending := p.pending.erase token }) := by
  unfold complete
  rw [bind_read]
  cases hwanted : p.pending[token]? with
  | none => exact Or.inl ⟨_, rfl⟩
  | some wanted =>
    dsimp only
    split_ifs with hother
    · exact Or.inl ⟨_, rfl⟩
    · simp only [not_or, ne_eq, not_not] at hother
      obtain ⟨rfl, rfl, rfl⟩ := hother
      exact Or.inr ⟨wanted.deadline, rfl, rfl⟩

theorem report_reports {p : RawPair} {channel : Nat} {c : LinkState} {item : Value} {event : RawEvent}
    (hc : p.channels[channel]? = some c) (hitem : item ∈ H)
    (hevent : rawEventObservedMdi item c.link c.receiver true = .ok (some event)) :
    Reports H p (report channel event p).2 (eventsOf (report channel event p).1) := by
  cases event with
  | received | observedMdiData | metadata =>
    exact ⟨rfl, rfl, fun _ => Or.inl rfl, by simp [eventsOf, report], List.nodup_nil⟩
  | transmitted token id data =>
    unfold report
    dsimp only
    rcases complete_cases p channel token id data with ⟨e, he⟩ | ⟨deadline, hpending, hok⟩
    · rw [bind_error he]
      exact .refl p
    · rw [bind_ok hok]
      refine ⟨rfl, rfl, ?_, ?_, List.pairwise_singleton _ _⟩
      · intro t
        by_cases ht : t = token
        · right
          subst ht
          refine ⟨_, c, item, hpending, ?_, hc, hitem, transmitted_indicates hevent⟩
          rw [pure_apply, Table.get_erase, if_pos rfl]
        · left
          rw [pure_apply, Table.get_erase, if_neg ht]
      · intro c' t id' data' hmem
        obtain ⟨rfl, rfl, rfl, rfl⟩ : c' = channel ∧ t = token ∧ id' = id ∧ data' = data := by
          simpa [eventsOf] using hmem
        refine ⟨deadline, hpending, ?_⟩
        rw [pure_apply, Table.get_erase, if_pos rfl]

theorem pollItem_reports (p : RawPair) {item : Value} (hitem : item ∈ H) :
    Reports H p (pollItem item p).2 (eventsOf (pollItem item p).1) := by
  have hcounted : Reports H p { p with count := p.count + 1 } [] := .of_same rfl rfl rfl
  unfold pollItem
  rw [bind_change, bind_read]
  dsimp only
  split_ifs
  · exact hcounted
  rw [bind_read]
  dsimp only
  cases hfind : p.channels.zipIdx.find? fun c => (item.get "link").isU32 c.1.link with
  | none => exact hcounted
  | some found =>
    have hc := List.mem_zipIdx_iff_getElem?.mp (List.mem_of_find?_eq_some hfind)
    obtain ⟨c, channel⟩ := found
    dsimp only
    cases hevent : rawEventObservedMdi item c.link c.receiver true with
    | error e =>
      rw [bind_error (lift_apply _)]
      exact hcounted
    | ok event =>
      rw [bind_ok (lift_apply _)]
      cases event with
      | none => exact hcounted
      | some event => exact hcounted.append (report_reports hc hitem hevent)

/-- A program and the program for what it has reported. -/
theorem reports_bind {p : RawPair} {x : PairAction (List (Nat × RawEvent))}
    {f : List (Nat × RawEvent) → PairAction (List (Nat × RawEvent))}
    (hx : Reports H p (x p).2 (eventsOf (x p).1))
    (hf : ∀ events p', x p = (.ok events, p') → Reports H p p' events →
      Reports H p (f events p').2 (eventsOf (f events p').1)) :
    Reports H p ((x >>= f) p).2 (eventsOf ((x >>= f) p).1) := by
  refine bind_induct (Q := fun r => Reports H p r.2 (eventsOf r.1)) ?_ ?_
  · intro e p' h
    rw [h] at hx
    exact hx
  · intro events p' h
    rw [h] at hx
    exact hf events p' h hx

/-- What has been reported comes before what is reported next. -/
theorem reports_more {p p' : RawPair} {x : PairAction (List (Nat × RawEvent))}
    {events : List (Nat × RawEvent)} (h : Reports H p p' events)
    (hx : Reports H p' (x p').2 (eventsOf (x p').1)) :
    Reports H p ((x >>= fun more => pure (events ++ more)) p').2
      (eventsOf ((x >>= fun more => pure (events ++ more)) p').1) := by
  refine bind_induct (Q := fun r => Reports H p r.2 (eventsOf r.1)) ?_ ?_
  · intro e p'' hrun
    rw [hrun] at hx
    exact h.drop.append hx
  · intro more p'' hrun
    rw [hrun] at hx
    exact h.append hx

theorem pollItems_reports (p : RawPair) {items : List Value} (hitems : items ⊆ H) :
    Reports H p (pollItems items p).2 (eventsOf (pollItems items p).1) := by
  induction items generalizing p with
  | nil => exact .refl p
  | cons item items ih =>
    refine reports_bind (pollItem_reports p (hitems List.mem_cons_self)) ?_
    intro events p' _ hfirst
    exact reports_more hfirst (ih p' fun _ hx => hitems (List.mem_cons_of_mem item hx))

/-- The items of a notification change nothing but the count and the pending frames. -/
theorem pollItems_keeps {R : Allowed RawPair}
    (hR : ∀ p count pending, R.rel p { p with count, pending }) (items : List Value) :
    Keeps R (pollItems items) := by
  have hcomplete (channel : Nat) (token id : UInt32) (data : List UInt8) :
      Keeps R (complete channel token id data) := by
    intro p
    rcases complete_cases p channel token id data with ⟨e, he⟩ | ⟨deadline, -, hok⟩
    · rw [he]
      exact R.refl p
    · rw [hok]
      exact hR p p.count _
  have hreport (channel : Nat) (event : RawEvent) : Keeps R (report channel event) := by
    cases event with
    | transmitted token id data => exact (hcomplete channel token id data).bind fun _ => Keeps.pure _
    | received | observedMdiData | metadata => exact Keeps.pure _
  have hitem (item : Value) : Keeps R (pollItem item) := by
    refine Keeps.bind (fun p => hR p _ p.pending) fun _ => ?_
    refine (Keeps.read _).bind fun count => ?_
    split_ifs
    · exact Keeps.fail _
    refine (Keeps.read _).bind fun found => ?_
    cases found with
    | none => exact Keeps.pure _
    | some found =>
      refine (Keeps.lift _).bind fun event => ?_
      cases event with
      | none => exact Keeps.pure _
      | some event => exact hreport _ event
  induction items with
  | nil => exact Keeps.pure _
  | cons item items ih => exact (hitem item).bind fun _ => ih.bind fun _ => Keeps.pure _

/-- The session stays as it is. -/
def still : Allowed RawPair where
  rel p p' := p'.inner = p.inner
  refl _ := rfl
  trans h h' := h'.trans h

/-- What polling reads, it reports on. -/
def Polls (p : RawPair) (r : Except String (List (Nat × RawEvent)) × RawPair) : Prop :=
  ∃ H, heard p.inner = H ++ heard r.2.inner ∧ Reports H p r.2 (eventsOf r.1)

/-- A call of the session that reads, and what comes after it. -/
theorem polls_inside {α : Type} {p : RawPair} {x : Action α} {K : List Value}
    {f : α → PairAction (List (Nat × RawEvent))}
    (hx : heard p.inner = K ++ heard (x p.inner).2)
    (hf : ∀ a inner, x p.inner = (.ok a, inner) → ∃ H, heard inner = H ++ heard (f a { p with inner }).2.inner ∧
      Reports (K ++ H) { p with inner } (f a { p with inner }).2 (eventsOf (f a { p with inner }).1)) :
    Polls p ((inside x >>= f) p) := by
  refine bind_induct (Q := Polls p) ?_ ?_
  · intro e p' h
    obtain ⟨-, rfl⟩ := Prod.mk.inj h
    exact ⟨K, hx, .of_same rfl rfl rfl⟩
  · intro a p' h
    obtain ⟨hok, rfl⟩ := Prod.mk.inj h
    obtain ⟨H, hrest, hreports⟩ := hf a _ (Prod.ext hok rfl)
    have hinner : Reports (K ++ H) p { p with inner := (x p.inner).2 } [] := .of_same rfl rfl rfl
    refine ⟨K ++ H, ?_, hinner.append hreports⟩
    rw [hx, hrest, List.append_assoc]

theorem pollRounds_polls (deadline n : Nat) (p : RawPair) : Polls p (pollRounds deadline n p) := by
  induction n generalizing p with
  | zero => exact ⟨[], rfl, .refl p⟩
  | succ n ih =>
    obtain ⟨K, hrest, hitems⟩ := notifications_heard deadline p.inner
    refine polls_inside hrest ?_
    intro items inner hrun
    rw [hrun] at hrest hitems
    have hsame : ∃ H, heard inner = H ++ heard inner ∧
        Reports (K ++ H) { p with inner } { p with inner } [] := ⟨[], rfl, .refl _⟩
    cases hreject : Session.rejectAsyncError items with
    | error e =>
      rw [bind_error (lift_apply _)]
      exact hsame
    | ok _ =>
      rw [bind_ok (lift_apply _)]
      split_ifs
      · exact hsame
      have hreports := pollItems_reports { p with inner } (hitems items rfl)
      have hstill := pollItems_keeps (R := still) (fun _ _ _ => rfl) items { p with inner }
      refine bind_induct (Q := fun r => ∃ H, heard inner = H ++ heard r.2.inner ∧
        Reports (K ++ H) { p with inner } r.2 (eventsOf r.1)) ?_ ?_
      · intro e p' h
        rw [h] at hreports hstill
        have hinner : p'.inner = inner := hstill
        exact ⟨[], by rw [hinner]; rfl, by rwa [List.append_nil]⟩
      · intro events p' h
        rw [h] at hreports hstill
        have hinner : p'.inner = inner := hstill
        rw [bind_read]
        split_ifs
        · exact ⟨[], by rw [pure_apply, hinner]; rfl, by rwa [List.append_nil]⟩
        · obtain ⟨H, hmore, hnext⟩ := ih p'
          refine ⟨H, ?_, reports_more (hreports.mono (List.subset_append_left K H))
            (hnext.mono (List.subset_append_right K H))⟩
          rw [bind_pure_snd, ← hinner, hmore]

theorem poll_polls (p : RawPair) : Polls p (poll p) := by
  unfold poll
  rw [bind_read]
  split_ifs
  · exact ⟨[], rfl, .refl p⟩
  have hsilent : heard p.inner = heard (Session.heartbeat p.inner).2 := by
    rw [heard, ← heartbeat_silent p.inner, heard]
  refine polls_inside (K := []) hsilent ?_
  intro _ inner hrun
  rw [bind_read]
  obtain ⟨H, hrest, hreports⟩ := pollRounds_polls (inner.clock + 2) 128 { p with inner }
  refine ⟨H, ?_⟩
  refine bind_induct (Q := fun r => heard inner = H ++ heard r.2.inner ∧
    Reports ([] ++ H) { p with inner } r.2 (eventsOf r.1)) ?_ ?_
  · intro e p' h
    rw [h] at hrest hreports
    exact ⟨hrest, hreports⟩
  · intro events p' h
    rw [h] at hrest hreports
    rw [bind_read]
    split_ifs
    · exact ⟨hrest, hreports.drop⟩
    · exact ⟨hrest, hreports⟩

end RawPair

end OpenSaab.OpenMdi
