import OpenSaab.OpenMdi.RawPair

/-!
# Configuring a link

The session marks what it acquires before it asks for it. So what is marked is what was asked for,
whatever comes back.
-/

namespace OpenSaab.OpenMdi

open Program

/-- A request with this opcode that starts with these words has been made. -/
def Attempted (op : UInt32) (fields : List UInt32) (s : Session) : Prop :=
  ∃ e ∈ s.journal, e.request.opcode = op ∧ words fields <+: e.request.body

/-- What is marked has been asked for, and the other way round. -/
structure Marked (link receiver : UInt32) (s : Session) : Prop where
  created : s.created = true ↔ Attempted 0x44f [link] s
  connected : s.connected = true ↔ Attempted 0x45f [link] s
  receiving : s.receiving = true ↔ Attempted 0x463 [link, receiver] s

/-- What work on a link leaves alone; it makes requests of that link only. -/
structure Worked (link : UInt32) (s s' : Session) : Prop where
  sameLink : s'.link = s.link
  sameReceiver : s'.receiver = s.receiver
  sameSession : s'.session = s.session
  command : s.command.isSome → s'.command.isSome
  journal : ∃ new, s'.journal = s.journal ++ new ∧ ∀ e ∈ new, words [link] <+: e.request.body

theorem Worked.refl (link : UInt32) (s : Session) : Worked link s s :=
  ⟨rfl, rfl, rfl, id, [], (List.append_nil _).symm, fun _ h => absurd h List.not_mem_nil⟩

theorem Worked.trans {link : UInt32} {s t u : Session} (h : Worked link s t) (h' : Worked link t u) :
    Worked link s u := by
  obtain ⟨new, hnew, hlink⟩ := h.journal
  obtain ⟨new', hnew', hlink'⟩ := h'.journal
  refine ⟨h'.sameLink.trans h.sameLink, h'.sameReceiver.trans h.sameReceiver,
    h'.sameSession.trans h.sameSession, h'.command ∘ h.command, new ++ new', ?_, ?_⟩
  · rw [hnew', hnew, List.append_assoc]
  · intro e he
    rcases List.mem_append.mp he with he | he
    · exact hlink e he
    · exact hlink' e he

/-- Work on a link that keeps its marks right. -/
def works (link receiver : UInt32) : Allowed Session where
  rel s s' := Worked link s s' ∧ (Marked link receiver s → Marked link receiver s')
  refl s := ⟨.refl link s, id⟩
  trans h h' := ⟨h.1.trans h'.1, h'.2 ∘ h.2⟩

variable {link receiver : UInt32}

/-- A step that makes no request and changes no mark. -/
theorem works_silent {s s' : Session} (hlink : s'.link = s.link) (hreceiver : s'.receiver = s.receiver)
    (hsession : s'.session = s.session) (hcommand : s.command.isSome → s'.command.isSome)
    (hjournal : s'.journal = s.journal) (hcreated : s'.created = s.created)
    (hconnected : s'.connected = s.connected) (hreceiving : s'.receiving = s.receiving) :
    (works link receiver).rel s s' := by
  refine ⟨⟨hlink, hreceiver, hsession, hcommand, [], ?_, fun _ h => absurd h List.not_mem_nil⟩, ?_⟩
  · rw [hjournal, List.append_nil]
  · intro h
    have hattempted (op : UInt32) (fields : List UInt32) :
        Attempted op fields s' ↔ Attempted op fields s := by
      rw [Attempted, hjournal, Attempted]
    refine ⟨?_, ?_, ?_⟩
    · rw [hcreated, hattempted, h.created]
    · rw [hconnected, hattempted, h.connected]
    · rw [hreceiving, hattempted, h.receiving]

/-! ## Requests -/

/-- A request is journaled, whatever comes of it; only the command socket and the clock move. -/
theorem rpc_journal (request : Record) (expected : UInt32) (s : Session) :
    ∃ sent socket clock, (s.command.isSome → socket.isSome) ∧
      (Session.rpc request expected s).2 = { s with
        command := socket, clock
        journal := s.journal ++ [⟨request, sent, (Session.rpc request expected s).1⟩] } := by
  unfold Session.rpc
  dsimp only
  split
  · exact ⟨false, s.command, s.clock, id, rfl⟩
  · split
    · exact ⟨false, s.command, s.clock, id, rfl⟩
    · exact ⟨false, s.command, s.clock, id, rfl⟩
    · exact ⟨true, _, _, fun _ => rfl, rfl⟩

theorem attempted_snoc {op : UInt32} {fields : List UInt32} {s s' : Session} {e : Rpc}
    (h : s'.journal = s.journal ++ [e]) : Attempted op fields s' ↔
      Attempted op fields s ∨ e.request.opcode = op ∧ words fields <+: e.request.body := by
  unfold Attempted
  rw [h]
  simp only [List.mem_append, List.mem_singleton, or_and_right, exists_or, exists_eq_left]

/-- A request that acquires nothing. -/
structure Plain (link receiver : UInt32) (request : Record) : Prop where
  addressed : words [link] <+: request.body
  creates : request.opcode ≠ 0x44f
  connects : request.opcode ≠ 0x45f
  receives : request.opcode = 0x463 → ¬ words [link, receiver] <+: request.body

theorem Plain.of_opcode {request : Record} (op : UInt32)
    (haddressed : words [link] <+: request.body) (h : request.opcode = op) (hop : op ≠ 0x44f ∧ op ≠ 0x45f ∧ op ≠ 0x463) :
    Plain link receiver request :=
  ⟨haddressed, h ▸ hop.1, h ▸ hop.2.1, fun h' => absurd (h.symm.trans h') hop.2.2⟩

/-- The marks after one request more. -/
theorem Marked.snoc {s s' : Session} (h : Marked link receiver s) {e : Rpc}
    (hjournal : s'.journal = s.journal ++ [e])
    (hcreated : s'.created = true ↔
      s.created = true ∨ e.request.opcode = 0x44f ∧ words [link] <+: e.request.body)
    (hconnected : s'.connected = true ↔
      s.connected = true ∨ e.request.opcode = 0x45f ∧ words [link] <+: e.request.body)
    (hreceiving : s'.receiving = true ↔
      s.receiving = true ∨ e.request.opcode = 0x463 ∧ words [link, receiver] <+: e.request.body) :
    Marked link receiver s' where
  created := by rw [attempted_snoc hjournal, ← h.created, hcreated]
  connected := by rw [attempted_snoc hjournal, ← h.connected, hconnected]
  receiving := by rw [attempted_snoc hjournal, ← h.receiving, hreceiving]

theorem rpc_works {request : Record} (h : Plain link receiver request) (expected : UInt32) :
    Keeps (works link receiver) (Session.rpc request expected) := by
  intro s
  obtain ⟨sent, socket, clock, hsocket, hs'⟩ := rpc_journal request expected s
  rw [hs']
  refine ⟨⟨rfl, rfl, rfl, hsocket, _, rfl, ?_⟩, ?_⟩
  · intro e he
    rw [List.mem_singleton.mp he]
    exact h.addressed
  · intro hm
    refine hm.snoc rfl ?_ ?_ ?_
    · exact ⟨Or.inl, fun h' => h'.resolve_right fun h'' => h.creates h''.1⟩
    · exact ⟨Or.inl, fun h' => h'.resolve_right fun h'' => h.connects h''.1⟩
    · exact ⟨Or.inl, fun h' => h'.resolve_right fun h'' => h.receives h''.1 h''.2⟩

theorem perform_works {request : Record} (h : Plain link receiver request) (expected : UInt32) :
    Keeps (works link receiver) (Session.perform request expected) :=
  (rpc_works h expected).bind fun _ => Keeps.pure ()

theorem performChecked_works {request : Except String Record}
    (h : ∀ r, request = .ok r → Plain link receiver r) (expected : UInt32) :
    Keeps (works link receiver) (Session.performChecked request expected) := by
  intro s
  unfold Session.performChecked
  cases request with
  | error e =>
    rw [bind_error (lift_apply _)]
    exact (works link receiver).refl s
  | ok r =>
    rw [bind_ok (lift_apply _)]
    exact perform_works (h r rfl) expected s

theorem setParameter_works (p : Parameter) :
    Keeps (works link receiver) (Session.setParameter link p) := by
  refine perform_works (.of_opcode 0x459 ?_ rfl (by decide)) _
  simp only [setUnum32, words_cons, words_nil, List.append_assoc, List.append_nil]
  exact List.prefix_append _ _

theorem responseTable_works (entries : List (UInt32 × List Parameter)) :
    Keeps (works link receiver) (Session.performChecked (responseTable link entries) 0x45e) := by
  refine performChecked_works (fun r hr => ?_) _
  unfold responseTable at hr
  split_ifs at hr
  rw [← Except.ok.inj hr]
  refine .of_opcode 0x45d ?_ rfl (by decide)
  simp only [words_cons, words_nil, List.append_assoc, List.append_nil]
  exact List.prefix_append _ _

theorem runPrimitive_works {token kind : UInt32} (flags : List UInt8) (h : token ≠ receiver) :
    Keeps (works link receiver) (Session.runPrimitive link token kind flags) := by
  refine performChecked_works (fun r hr => ?_) _
  obtain ⟨rest, rfl⟩ := primitive_ok hr
  have hcreates : (0x463 : UInt32) ≠ 0x44f := by decide
  have hconnects : (0x463 : UInt32) ≠ 0x45f := by decide
  refine ⟨?_, hcreates, hconnects, fun _ hprefix => h (words_isPrefix hprefix).symm⟩
  simp only [words_cons, words_nil, List.append_assoc, List.append_nil]
  exact List.prefix_append _ _

/-! ## Acquisitions -/

theorem perform_snd (request : Record) (expected : UInt32) (s : Session) :
    (Session.perform request expected s).2 = (Session.rpc request expected s).2 := by
  refine bind_induct (Q := fun r => r.2 = (Session.rpc request expected s).2) ?_ ?_
  · intro e s' h
    rw [h]
  · intro reply s' h
    rw [h]
    rfl

/-- A request is made with a mark set before. -/
theorem marked_perform {s t : Session} (request : Record) (expected : UInt32)
    (haddressed : words [link] <+: request.body) (hjournal : t.journal = s.journal)
    (hworked : Worked link s t)
    (hmarked : ∀ s' e, Marked link receiver s → e.request = request →
      s'.journal = s.journal ++ [e] → s'.created = t.created → s'.connected = t.connected →
        s'.receiving = t.receiving → Marked link receiver s') :
    (works link receiver).rel s (Session.perform request expected t).2 := by
  obtain ⟨sent, socket, clock, hsocket, ht'⟩ := rpc_journal request expected t
  rw [perform_snd, ht']
  refine ⟨hworked.trans ⟨rfl, rfl, rfl, hsocket, _, rfl, ?_⟩, ?_⟩
  · intro e he
    rw [List.mem_singleton.mp he]
    exact haddressed
  · intro hm
    exact hmarked _ _ hm rfl (by rw [hjournal]) rfl rfl rfl

theorem createRequest_link (spa raw : Bool) (link : UInt32) :
    (Session.createRequest spa raw link).opcode = 0x44f ∧
      words [link] <+: (Session.createRequest spa raw link).body := by
  cases spa <;> cases raw <;> exact ⟨rfl, ⟨_, rfl⟩⟩

theorem acquireLink_works (spa raw : Bool) :
    Keeps (works link receiver) (Session.acquireLink spa raw link) := by
  intro s
  obtain ⟨hop, hbody⟩ := createRequest_link spa raw link
  refine marked_perform _ 0x450 hbody rfl ⟨rfl, rfl, rfl, id, [], by simp, by simp⟩ ?_
  intro s' e hm he hjournal hcreated hconnected hreceiving
  refine hm.snoc hjournal ?_ ?_ ?_
  · rw [he, hop, hcreated]
    exact iff_of_true rfl (Or.inr ⟨rfl, hbody⟩)
  · rw [he, hop, hconnected]
    exact (or_iff_left fun h => absurd h.1 (by decide)).symm
  · rw [he, hop, hreceiving]
    exact (or_iff_left fun h => absurd h.1 (by decide)).symm

theorem acquireBus_works : Keeps (works link receiver) (Session.acquireBus link) := by
  intro s
  have hcreates : (0x45f : UInt32) ≠ 0x44f := by decide
  have hreceives : (0x45f : UInt32) ≠ 0x463 := by decide
  have hbody : words [link] <+: words [link] := List.prefix_refl _
  refine marked_perform ⟨0x45f, words [link]⟩ 0x460 hbody rfl
    ⟨rfl, rfl, rfl, id, [], by simp, by simp⟩ ?_
  intro s' e hm he hjournal hcreated hconnected hreceiving
  refine hm.snoc hjournal ?_ ?_ ?_
  · rw [he, hcreated]
    exact (or_iff_left fun h => hcreates h.1).symm
  · rw [he, hconnected]
    exact iff_of_true rfl (Or.inr ⟨rfl, hbody⟩)
  · rw [he, hreceiving]
    exact (or_iff_left fun h => hreceives h.1).symm

theorem receiveRequest_ok (spa raw : Bool) (link receiver : UInt32) :
    ∃ rest, Session.receiveRequest spa raw link receiver =
      .ok ⟨0x463, words [link, receiver] ++ rest⟩ := by
  unfold Session.receiveRequest
  split
  · unfold receiveOnId
    rw [if_neg (by decide)]
    simp only [words_cons, words_nil, List.append_nil, List.append_assoc]
    exact ⟨_, rfl⟩
  · unfold primitive
    rw [if_neg (by decide)]
    simp only [words_cons, words_nil, List.append_nil, List.append_assoc]
    exact ⟨_, rfl⟩

theorem acquireReceiver_works (spa raw : Bool) :
    Keeps (works link receiver) (Session.acquireReceiver spa raw link receiver) := by
  intro s
  have hcreates : (0x463 : UInt32) ≠ 0x44f := by decide
  have hconnects : (0x463 : UInt32) ≠ 0x45f := by decide
  obtain ⟨rest, hrequest⟩ := receiveRequest_ok spa raw link receiver
  have hboth : words [link, receiver] <+: words [link, receiver] ++ rest := List.prefix_append _ _
  have hbody : words [link] <+: words [link, receiver] ++ rest := by
    simp only [words_cons, words_nil, List.append_nil, List.append_assoc]
    exact List.prefix_append _ _
  unfold Session.acquireReceiver
  rw [hrequest]
  refine marked_perform ⟨0x463, words [link, receiver] ++ rest⟩ 0x464 hbody rfl
    ⟨rfl, rfl, rfl, id, [], by simp, by simp⟩ ?_
  intro s' e hm he hjournal hcreated hconnected hreceiving
  refine hm.snoc hjournal ?_ ?_ ?_
  · rw [he, hcreated]
    exact (or_iff_left fun h => hcreates h.1).symm
  · rw [he, hconnected]
    exact (or_iff_left fun h => hconnects h.1).symm
  · rw [he, hreceiving]
    exact iff_of_true rfl (Or.inr ⟨rfl, hboth⟩)

/-! ## A whole configuration -/

theorem listen_works (deadline : Nat) : Keeps (works link receiver) (Session.listen deadline) := by
  intro s
  unfold Session.listen
  split
  · exact (works link receiver).refl s
  · exact works_silent rfl rfl rfl id rfl rfl rfl rfl

theorem notifications_works (deadline : Nat) :
    Keeps (works link receiver) (Session.notifications deadline) := by
  refine (listen_works deadline).bind ?_
  intro answer
  cases answer with
  | none => exact Keeps.pure _
  | some record =>
    refine (Keeps.lift _).bind fun items => ?_
    refine Keeps.bind (fun s => works_silent rfl rfl rfl id rfl rfl rfl rfl) fun _ => ?_
    refine (Keeps.read _).bind fun events => ?_
    split_ifs
    · exact Keeps.fail _
    · exact Keeps.pure _

theorem drain_works (raw : Bool) (drainDeadline : Nat) (left : List Answer) :
    Keeps (works link receiver) (Session.drain raw drainDeadline left) := by
  induction left with
  | nil =>
    refine (Keeps.read _).bind fun now => ?_
    exact (notifications_works _).bind fun _ => Keeps.pure ()
  | cons a left ih =>
    refine (Keeps.read _).bind fun now => ?_
    refine (notifications_works _).bind fun items => ?_
    split
    · exact Keeps.pure ()
    refine (Keeps.lift _).bind fun _ => ?_
    refine (Keeps.read _).bind fun late => ?_
    split
    · split
      · exact Keeps.pure ()
      · exact Keeps.fail _
    · exact ih

/-- Six tokens in a row. -/
def tokensFrom (t : UInt32) : List UInt32 := [t, t + 1, t + 2, t + 3, t + 4, t + 5]

theorem allocate_eq (tags : Tags) : Session.allocate tags =
    (tags.nextLink, tokensFrom tags.nextPrimitive, ⟨tags.nextLink + 1, tags.nextPrimitive + 6⟩) := by
  simp only [Session.allocate, Tags.link, Tags.primitive, UInt32.add_assoc]
  rfl

theorem setParameters_works (spa raw : Bool) :
    Keeps (works link receiver) (Session.setParameters spa raw link) := by
  refine (Keeps.each fun p _ => setParameter_works p).bind fun _ => ?_
  split
  · exact setParameter_works _
  · exact Keeps.pure ()

theorem setTables_works (spa raw : Bool) :
    Keeps (works link receiver) (Session.setTables spa raw link) := by
  unfold Session.setTables
  split
  · exact (responseTable_works _).bind fun _ => setParameter_works _
  · refine (Keeps.read _).bind fun requestId => ?_
    refine (responseTable_works _).bind fun _ => ?_
    split
    · exact responseTable_works _
    · exact Keeps.pure ()

theorem setUp_works (spa raw : Bool) (link t : UInt32) :
    Keeps (works link (t + 1)) (Session.setUp spa raw link (tokensFrom t)) := by
  have hother (k : UInt32) (hk : k ≠ 1) : t + k ≠ t + 1 :=
    fun h => hk ((UInt32.add_right_inj t).mp h)
  have hfirst : t ≠ t + 1 := by
    have := hother 0 (by decide)
    rwa [UInt32.add_zero] at this
  have hselect : Keeps (works link (t + 1)) (Session.selectRequestId spa) := by
    cases spa with
    | true => exact fun s => works_silent rfl rfl rfl id rfl rfl rfl rfl
    | false => exact Keeps.pure ()
  refine hselect.bind fun _ => ?_
  refine (acquireLink_works spa raw).bind fun _ => ?_
  refine (setParameters_works spa raw).bind fun _ => ?_
  refine acquireBus_works.bind fun _ => ?_
  refine (responseTable_works []).bind fun _ => ?_
  refine (runPrimitive_works [] hfirst).bind fun _ => ?_
  refine (acquireReceiver_works spa raw).bind fun _ => ?_
  refine (runPrimitive_works _ (hother 2 (by decide))).bind fun _ => ?_
  refine (runPrimitive_works [] (hother 3 (by decide))).bind fun _ => ?_
  refine (setTables_works spa raw).bind fun _ => ?_
  refine (runPrimitive_works [] (hother 4 (by decide))).bind fun _ => ?_
  refine (Keeps.read _).bind fun drainDeadline => ?_
  exact (Keeps.read _).bind fun left => drain_works raw drainDeadline left

/-- The session works on the link that it has been given, and its marks are right, whether or not the
configuration comes to an end. -/
theorem configureLink_works (spa raw : Bool) (tags : Tags) (s : Session) :
    (works tags.nextLink (tags.nextPrimitive + 1)).rel
        (s.startLink tags.nextLink (tokensFrom tags.nextPrimitive))
        (Session.configureLink spa raw tags s).2 ∧
      ∀ tags', (Session.configureLink spa raw tags s).1 = .ok tags' →
        tags' = ⟨tags.nextLink + 1, tags.nextPrimitive + 6⟩ := by
  unfold Session.configureLink
  rw [allocate_eq]
  dsimp only
  rw [bind_change]
  constructor
  · exact ((setUp_works spa raw tags.nextLink tags.nextPrimitive).bind fun _ => Keeps.pure _) _
  · intro tags' hok
    refine Returns.bind (Q := fun t => t = ⟨tags.nextLink + 1, tags.nextPrimitive + 6⟩)
      (fun _ => Returns.pure rfl) _ tags' _ (Prod.ext hok rfl)

/-- Requests of one link are not those of another. -/
theorem not_both {a b : UInt32} {fields : List UInt32} {body : List UInt8} (h : a ≠ b)
    (ha : words [a] <+: body) : ¬ words (b :: fields) <+: body := by
  intro hb
  rw [words_cons] at ha hb
  rw [words_nil, List.append_nil] at ha
  have hword : word b <+: body := (List.prefix_append _ _).trans hb
  have hle := List.prefix_of_prefix_length_le ha hword (by simp)
  exact h (word_injective (hle.eq_of_length (by simp)))

theorem attempted_other {a b : UInt32} (h : a ≠ b) {s s' : Session} {new : List Rpc}
    (hjournal : s'.journal = s.journal ++ new) (hnew : ∀ e ∈ new, words [a] <+: e.request.body)
    (op : UInt32) (fields : List UInt32) :
    Attempted op (b :: fields) s' ↔ Attempted op (b :: fields) s := by
  unfold Attempted
  rw [hjournal]
  constructor
  · rintro ⟨e, he, hop, hbody⟩
    rcases List.mem_append.mp he with he | he
    · exact ⟨e, he, hop, hbody⟩
    · exact absurd hbody (not_both h (hnew e he))
  · rintro ⟨e, he, hop, hbody⟩
    exact ⟨e, List.mem_append_left _ he, hop, hbody⟩

end OpenSaab.OpenMdi
