import OpenSaab.OpenMdi.Management

/-!
# Ownership of the device

Whatever the device answers, an attempt asks once, registers once, commands once and gives back what
it was granted.
-/

namespace OpenSaab.OpenMdi.Management

open Program

/-! ## What an exchange leaves -/

@[simp] theorem Attempt.operations_noted (s : Attempt) (o : Operation) :
    (s.noted o).operations = s.operations ++ [o] := rfl

@[simp] theorem Attempt.noted_amended (s : Attempt) (o : Operation) (f : Operation → Operation) :
    (s.noted o).amended f = s.noted (f o) := by
  simp [noted, amended]

/-- A request that is not encoded leaves nothing, one that is not answered is noted without a reply,
and one that is answered with it. -/
theorem exchange_triple {codec : Codec} {socket : Socket} {request : Record} {P : Attempt → Prop}
    {Q : Record × Socket → Attempt → Prop} {E : String → Attempt → Prop}
    (hrefused : ∀ e s, codec.encode request = .error e → P s → E e s)
    (hlost : ∀ e s sent, P s → E e (s.noted ⟨request, sent, none⟩))
    (hanswered : ∀ reply socket s, P s → Q (reply, socket) (s.noted ⟨request, true, some reply⟩)) :
    Triple P (exchange codec socket request) Q E := by
  refine Triple.bind (R := fun _ s => P s) (Triple.lift (fun _ _ s hs => hs) ?_) fun wire => ?_
  · intro e he s hs
    exact hrefused e s he hs
  refine Triple.bind (R := fun _ s => ∃ t, P t ∧ s = t.noted ⟨request, false, none⟩)
    (Triple.change fun s hs => ⟨s, hs, rfl⟩) fun _ => ?_
  have hunsent : ∀ (e : String) (s : Attempt),
      (∃ t, P t ∧ s = t.noted ⟨request, false, none⟩) → E e s := by
    rintro e s ⟨t, ht, rfl⟩
    exact hlost e t false ht
  refine Triple.bind (R := fun _ s => ∃ t, P t ∧ s = t.noted ⟨request, false, none⟩)
    (Triple.lift (fun _ _ s hs => hs) fun e _ => hunsent e) fun _ => ?_
  refine Triple.bind (R := fun _ s => ∃ t, P t ∧ s = t.noted ⟨request, false, none⟩)
    (Triple.lift (fun _ _ s hs => hs) fun e _ => hunsent e) fun _ => ?_
  refine Triple.bind (R := fun _ s => ∃ t, P t ∧ s = t.noted ⟨request, false, none⟩)
    (Triple.lift (fun _ _ s hs => hs) fun e _ => hunsent e) fun _ => ?_
  refine Triple.bind (R := fun _ s => ∃ t, P t ∧ s = t.noted ⟨request, true, none⟩)
    (Triple.change ?_) fun _ => ?_
  · rintro s ⟨t, ht, rfl⟩
    exact ⟨t, ht, Attempt.noted_amended t _ _⟩
  refine Triple.bind (R := fun _ s => ∃ t, P t ∧ s = t.noted ⟨request, true, none⟩)
    (Triple.lift (fun _ _ s hs => hs) ?_) fun reply => ?_
  · rintro e _ s ⟨t, ht, rfl⟩
    exact hlost e t true ht
  refine Triple.bind (R := fun _ s => ∃ t, P t ∧ s = t.noted ⟨request, true, some reply⟩)
    (Triple.change ?_) fun _ => Triple.pure ?_
  · rintro s ⟨t, ht, rfl⟩
    exact ⟨t, ht, Attempt.noted_amended t _ _⟩
  · rintro s ⟨t, ht, rfl⟩
    exact hanswered reply _ t ht

theorem dial_triple {port : Nat} {P : Attempt → Prop} {E : String → Attempt → Prop}
    (h : ∀ s dials, P s → P { s with dials := dials }) (herror : ∀ e s, P s → E e s) :
    Triple P (dial port) (fun _ => P) E := by
  intro s hs
  unfold dial
  cases hd : s.dials with
  | nil => exact herror _ s hs
  | cons d rest =>
    dsimp only
    split
    · next heq =>
      obtain ⟨_, rfl⟩ := Prod.mk.inj heq
      exact h s rest hs
    · next heq =>
      obtain ⟨_, rfl⟩ := Prod.mk.inj heq
      exact herror _ _ (h s rest hs)

/-! ## What is accepted -/

/-- A reply to a registration that gives a handle, whatever follows it. -/
def Grants (reply : Record) (handle : UInt32) : Prop :=
  reply.opcode = 0x835 ∧ handle ≠ 0 ∧
    ∃ version rest, reply.body = words [0, version, handle] ++ rest

/-- The application is there in the qualified version, and is not running before a start. -/
def Qualified (mode : String) (apps : List Application) : Prop :=
  ∃ pdu, apps.find? (·.name = "PDU") = some pdu ∧ pdu.version = "2.5.33.154" ∧
    pdu.kind = "application" ∧ (mode = "start" → pdu.running = "false")

/-- A request that was sent, with a reply. -/
structure Answered (o : Operation) (Q : Record → Prop) : Prop where
  sent : o.requestSent = true
  replied : ∃ reply, o.reply = some reply ∧ Q reply

structure Inventoried (o : Operation) (apps : List Application) : Prop where
  request : o.request = inventoryRequest
  answered : Answered o fun reply => inventoryReply reply = .ok apps

structure Registered (label : String) (o : Operation) (handle : UInt32) : Prop where
  request : registrationRequest label = .ok o.request
  answered : Answered o fun reply => registrationReply reply = .ok handle

structure Commanded (mode : String) (o : Operation) (handle : UInt32) : Prop where
  request : commandRequest mode handle = .ok o.request
  answered : Answered o fun reply => commandReply mode reply o.request = .ok ()

structure Released (o : Operation) (handle : UInt32) : Prop where
  request : o.request = releaseRequest handle
  answered : Answered o fun reply => simpleReply reply 0x837 = .ok ()

/-- The opcode of the command of a mode. -/
def commandOpcode (mode : String) : List UInt32 :=
  if mode = "start" then [0x830] else if mode = "reboot" then [0x85e] else []

theorem four_bytes (bytes : List UInt8) (h : 4 ≤ bytes.length) :
    bytes = word (ofWord (bytes.take 4)) ++ bytes.drop 4 := by
  rw [word_ofWord (by rw [List.length_take]; omega), List.take_append_drop]

theorem take_word (n : UInt32) (rest : List UInt8) : (word n ++ rest).take 4 = word n :=
  List.take_left' (length_word n)

theorem drop_word (n : UInt32) (rest : List UInt8) : (word n ++ rest).drop 4 = rest :=
  List.drop_left' (length_word n)

theorem granted_iff {reply : Record} {handle : UInt32} :
    granted reply = some handle ↔ Grants reply handle := by
  unfold granted Grants
  constructor
  · intro h
    split at h
    · next hreply =>
      obtain ⟨hopcode, hlength, hstatus⟩ := hreply
      dsimp only at h
      split at h
      · next htoken =>
        obtain rfl := Option.some.inj h
        refine ⟨hopcode, htoken, ofWord ((reply.body.drop 4).take 4), reply.body.drop 12, ?_⟩
        have hfirst := four_bytes reply.body (by omega)
        have hsecond := four_bytes (reply.body.drop 4) (by rw [List.length_drop]; omega)
        have hthird := four_bytes (reply.body.drop 8) (by rw [List.length_drop]; omega)
        rw [List.drop_drop] at hsecond hthird
        rw [hstatus, hsecond, hthird] at hfirst
        refine hfirst.trans ?_
        simp only [words_cons, words_nil, List.append_nil, List.append_assoc]
        rfl
      · cases h
    · cases h
  · rintro ⟨hopcode, hhandle, version, rest, hbody⟩
    have hthree : reply.body = word 0 ++ (word version ++ (word handle ++ rest)) := by
      simpa only [words_cons, words_nil, List.append_nil, List.append_assoc] using hbody
    have hdrop : reply.body.drop 8 = word handle ++ rest := by
      rw [← drop_word version (word handle ++ rest), ← drop_word 0 (word version ++ _), ← hthree,
        List.drop_drop]
    have hlength : 12 ≤ reply.body.length := by
      simp only [hthree, List.length_append, length_word]
      omega
    have hstatus : reply.body.take 4 = [0, 0, 0, 0] := by
      rw [hthree, take_word]
      rfl
    rw [if_pos ⟨hopcode, hlength, hstatus⟩, hdrop, take_word, ofWord_word]
    exact if_pos hhandle

theorem Field.word_ok {c c' : Reader.Cursor UInt8} {n : UInt32} (h : Field.word c = .ok (n, c')) :
    c.rest = OpenMdi.word n ++ c'.rest := by
  obtain ⟨bytes, d, htake, hpure⟩ := Reader.bind_ok h
  obtain ⟨rfl, rfl⟩ := Prod.mk.inj (Except.ok.inj hpure)
  obtain ⟨hlength, hrest⟩ := Reader.take_ok htake
  rw [word_ofWord hlength]
  exact hrest

theorem Field.expect_ok {c c' : Reader.Cursor UInt8} {n : UInt32} {u : Unit}
    (h : Field.expect n c = .ok (u, c')) : c.rest = OpenMdi.word n ++ c'.rest := by
  obtain ⟨value, d, hword, hcheck⟩ := Reader.bind_ok h
  split at hcheck
  · next heq =>
    obtain ⟨_, rfl⟩ := Prod.mk.inj (Except.ok.inj hcheck)
    exact heq ▸ Field.word_ok hword
  · cases hcheck

theorem status_opcode {r : Record} {opcode : UInt32} (h : status r opcode = .ok ()) :
    r.opcode = opcode := by
  obtain ⟨_, hreply, _⟩ := except_bind_ok h
  unfold Record.reply at hreply
  split at hreply
  · cases hreply
  · next hopcode => exact not_not.mp (not_or.mp hopcode).1

/-- A registration that is accepted in full has given its handle. -/
theorem registrationReply_grants {reply : Record} {handle : UInt32}
    (h : registrationReply reply = .ok handle) : Grants reply handle := by
  obtain ⟨_, hstatus, hparse⟩ := except_bind_ok h
  unfold Field.parse at hparse
  split at hparse
  · next hfields =>
    obtain rfl := Except.ok.inj hparse
    obtain ⟨_, c₁, hzero, hfields⟩ := Reader.bind_ok hfields
    obtain ⟨_, c₂, hsix, hfields⟩ := Reader.bind_ok hfields
    obtain ⟨token, c₃, hword, hfields⟩ := Reader.bind_ok hfields
    split at hfields
    · cases hfields
    · next htoken =>
      obtain ⟨_, c₄, _, hfields⟩ := Reader.bind_ok hfields
      obtain ⟨_, c₅, _, hfields⟩ := Reader.bind_ok hfields
      obtain ⟨_, c₆, _, hfields⟩ := Reader.bind_ok hfields
      obtain ⟨rfl, _⟩ := Prod.mk.inj (Except.ok.inj hfields)
      refine ⟨status_opcode hstatus, htoken, 6, c₃.rest, ?_⟩
      have hbody : reply.body = word 0 ++ c₁.rest := Field.expect_ok hzero
      rw [hbody, Field.expect_ok hsix, Field.word_ok hword]
      simp only [words_cons, words_nil, List.append_nil, List.append_assoc]
  · cases hparse

theorem proceed_cases {mode : String} {apps : List Application} {on : Bool}
    (h : proceed mode apps = .ok on) :
    on = false ∧ mode = "query" ∨ on = true ∧ mode ≠ "query" ∧ Qualified mode apps := by
  unfold proceed at h
  split at h
  · cases h
  next pdu hfind =>
  split at h
  · cases h
  next hprofile =>
  obtain ⟨hversion, hkind⟩ := not_or.mp hprofile
  split at h
  · next hmode => exact .inl ⟨(Except.ok.inj h).symm, hmode⟩
  next hmode =>
  split at h
  · cases h
  next hrunning =>
  refine .inr ⟨(Except.ok.inj h).symm, hmode, pdu, hfind, not_not.mp hversion, not_not.mp hkind, ?_⟩
  exact fun hstart => not_not.mp fun hbusy => hrunning ⟨hstart, hbusy⟩

theorem supported_ok {mode : String} {u : Unit} (h : supported mode = .ok u) :
    mode = "query" ∨ mode = "start" ∨ mode = "reboot" := by
  unfold supported at h
  split at h
  · assumption
  · cases h

theorem registrationRequest_opcode {label : String} {r : Record}
    (h : registrationRequest label = .ok r) : r.opcode = 0x834 := by
  unfold registrationRequest at h
  split at h
  · cases h
  · rw [← Except.ok.inj h]

theorem commandRequest_opcode {mode : String} {handle : UInt32} {r : Record}
    (hmode : mode = "start" ∨ mode = "reboot") (h : commandRequest mode handle = .ok r) :
    commandOpcode mode = [r.opcode] := by
  rcases hmode with rfl | rfl
  · change startRequest handle = .ok r at h
    unfold startRequest at h
    split at h
    · cases h
    · rw [← Except.ok.inj h]
      rfl
  · change rebootRequest handle = .ok r at h
    unfold rebootRequest at h
    split at h
    · cases h
    · rw [← Except.ok.inj h]
      rfl

/-! ## The course of an attempt -/

/-- The exchanges before the release, with the handle that was saved. -/
inductive Course (mode label : String) : List Operation → Option UInt32 → Prop
  | idle : Course mode label [] none
  | asked {o : Operation} (request : o.request = inventoryRequest) : Course mode label [o] none
  | registering {o p : Operation} {apps : List Application} (inventoried : Inventoried o apps)
      (qualified : Qualified mode apps) (request : registrationRequest label = .ok p.request) :
      Course mode label [o, p] (p.reply.bind granted)
  | commanding {o p c : Operation} {apps : List Application} {handle : UInt32}
      (inventoried : Inventoried o apps) (qualified : Qualified mode apps)
      (registered : Registered label p handle) (supported : mode = "start" ∨ mode = "reboot")
      (request : commandRequest mode handle = .ok c.request) :
      Course mode label [o, p, c] (p.reply.bind granted)

/-- The exchanges of an attempt that has gone well so far. -/
inductive Completed (mode label : String) : List Operation → Option UInt32 → Prop
  | queried {o : Operation} {apps : List Application} (query : mode = "query")
      (inventoried : Inventoried o apps) : Completed mode label [o] none
  | commanded {o p c : Operation} {apps : List Application} {handle : UInt32}
      (supported : mode = "start" ∨ mode = "reboot") (inventoried : Inventoried o apps)
      (qualified : Qualified mode apps) (registered : Registered label p handle)
      (commanded : Commanded mode c handle) : Completed mode label [o, p, c] (some handle)

variable {mode label : String} {ops : List Operation} {access : Option UInt32}

theorem Registered.saved {p : Operation} {handle : UInt32} (h : Registered label p handle) :
    p.reply.bind granted = some handle := by
  obtain ⟨_, _, reply, hreply, haccepted⟩ := h
  rw [hreply]
  exact granted_iff.mpr (registrationReply_grants haccepted)

theorem Completed.course (h : Completed mode label ops access) : Course mode label ops access := by
  cases h with
  | queried _ inventoried => exact .asked inventoried.request
  | commanded supported inventoried qualified registered commanded =>
    rw [← registered.saved]
    exact .commanding inventoried qualified registered supported commanded.request

theorem Course.opcodes (h : Course mode label ops access) :
    (ops.map (·.request.opcode)).Sublist ([0x82e, 0x834] ++ commandOpcode mode) := by
  cases h with
  | idle => exact List.nil_sublist _
  | asked request =>
    rw [List.map_singleton, request]
    exact (List.nil_sublist _).cons_cons _
  | registering inventoried _ request =>
    rw [List.map_cons, List.map_singleton, inventoried.request, registrationRequest_opcode request]
    exact ((List.nil_sublist _).cons_cons _).cons_cons _
  | commanding inventoried _ registered supported request =>
    rw [List.map_cons, List.map_cons, List.map_singleton, inventoried.request,
      registrationRequest_opcode registered.request, commandRequest_opcode supported request]
    exact List.Sublist.refl _

/-- The handle that was saved is the one that a reply to the registration gave. -/
theorem Course.saved_iff (h : Course mode label ops access) {handle : UInt32} :
    access = some handle ↔ ∃ p ∈ ops, p.request.opcode = 0x834 ∧
      ∃ reply, p.reply = some reply ∧ Grants reply handle := by
  have hreply : ∀ p : Operation, p.reply.bind granted = some handle ↔
      ∃ reply, p.reply = some reply ∧ Grants reply handle := fun p => by
    simp only [Option.bind_eq_some_iff, granted_iff]
  cases h with
  | idle => simp
  | asked request => simp [request, inventoryRequest]
  | registering inventoried _ request =>
    simp [hreply, inventoried.request, inventoryRequest, registrationRequest_opcode request]
  | commanding inventoried _ registered supported request =>
    have hopcode := commandRequest_opcode supported request
    have hother : ∀ c : UInt32, commandOpcode mode = [c] → c ≠ 0x834 := by
      rintro c hc rfl
      rcases supported with rfl | rfl <;> simp [commandOpcode] at hc
    simp [hreply, inventoried.request, inventoryRequest, hother _ hopcode,
      registrationRequest_opcode registered.request]

/-- A command follows the applications and the registration that were accepted. -/
theorem Course.justified (h : Course mode label ops access) {c : Operation} (hc : c ∈ ops)
    (hcommand : c.request.opcode ∈ commandOpcode mode) :
    ∃ o ∈ ops, ∃ p ∈ ops, ∃ apps handle, Inventoried o apps ∧ Qualified mode apps ∧
      Registered label p handle ∧ commandRequest mode handle = .ok c.request := by
  have hquery : ∀ o : Operation, o.request = inventoryRequest →
      o.request.opcode ∉ commandOpcode mode := by
    rintro o ho hmem
    rw [ho, commandOpcode] at hmem
    split_ifs at hmem <;> simp [inventoryRequest] at hmem
  have hregister : ∀ p : Operation, registrationRequest label = .ok p.request →
      p.request.opcode ∉ commandOpcode mode := by
    rintro p hp hmem
    rw [registrationRequest_opcode hp, commandOpcode] at hmem
    split_ifs at hmem <;> simp at hmem
  cases h with
  | idle => cases hc
  | asked request =>
    obtain rfl := List.mem_singleton.mp hc
    exact absurd hcommand (hquery _ request)
  | registering inventoried _ request =>
    rcases List.mem_pair.mp hc with rfl | rfl
    · exact absurd hcommand (hquery _ inventoried.request)
    · exact absurd hcommand (hregister _ request)
  | @commanding o p c' apps handle inventoried qualified registered _ request =>
    simp only [List.mem_cons, List.not_mem_nil, or_false] at hc
    rcases hc with rfl | rfl | rfl
    · exact absurd hcommand (hquery _ inventoried.request)
    · exact absurd hcommand (hregister _ registered.request)
    · exact ⟨o, by simp, p, by simp, apps, handle, inventoried, qualified, registered, request⟩

/-! ## The steps of the attempt -/

/-- The exchanges so far and the handle that is saved, with the socket that it was given on. -/
structure Stands (ops : List Operation) (access : Option UInt32) (s : Attempt) : Prop where
  operations : s.operations = ops
  saved : s.access = access
  owner : access.isSome → s.owner.isSome

theorem Stands.dials {s : Attempt} (dials : List Dial) (h : Stands ops access s) :
    Stands ops access { s with dials := dials } := ⟨h.operations, h.saved, h.owner⟩

theorem Stands.noted {s : Attempt} (h : Stands ops access s) (o : Operation) :
    Stands (ops ++ [o]) access (s.noted o) :=
  ⟨by rw [Attempt.operations_noted, h.operations], h.saved, h.owner⟩

/-- The attempt has come to an end on its course. -/
def Stopped (mode label : String) (s : Attempt) : Prop :=
  ∃ ops access, Course mode label ops access ∧ Stands ops access s

theorem inventory_triple (codec : Codec) :
    Triple (Stands [] none) (inventory codec)
      (fun apps s => ∃ o, Inventoried o apps ∧ Stands [o] none s)
      (fun _ => Stopped mode label) := by
  refine Triple.bind (R := fun _ => Stands [] none) (dial_triple ?_ ?_) fun query => ?_
  · exact fun s dials hs => hs.dials dials
  · exact fun e s hs => ⟨[], none, .idle, hs⟩
  refine Triple.bind (R := fun r => Stands [⟨inventoryRequest, true, some r.1⟩] none)
    (exchange_triple ?_ ?_ ?_) fun r => ?_
  · exact fun e s _ hs => ⟨[], none, .idle, hs⟩
  · exact fun e s sent hs => ⟨_, none, .asked rfl, hs.noted _⟩
  · exact fun reply socket s hs => hs.noted _
  refine Triple.bind (R := fun apps s => Stands [⟨inventoryRequest, true, some r.1⟩] none s ∧
    inventoryReply r.1 = .ok apps) (Triple.lift ?_ ?_) fun apps => ?_
  · exact fun apps happs s hs => ⟨hs, happs⟩
  · exact fun e _ s hs => ⟨_, none, .asked rfl, hs⟩
  refine Triple.bind (R := fun _ s => Stands [⟨inventoryRequest, true, some r.1⟩] none s ∧
    inventoryReply r.1 = .ok apps) (Triple.change ?_) fun _ => Triple.pure ?_
  · exact fun s hs => ⟨⟨hs.1.operations, hs.1.saved, hs.1.owner⟩, hs.2⟩
  · exact fun s hs => ⟨_, ⟨rfl, rfl, r.1, rfl, hs.2⟩, hs.1⟩

theorem acquire_triple (codec : Codec) {o : Operation} {apps : List Application}
    (ho : Inventoried o apps) (hq : Qualified mode apps) :
    Triple (Stands [o] none) (acquire codec label)
      (fun handle s => ∃ p, Registered label p handle ∧ Stands [o, p] (some handle) s)
      (fun _ => Stopped mode label) := by
  have hasked : ∀ s, Stands [o] none s → Stopped mode label s := fun s hs =>
    ⟨[o], none, .asked ho.request, hs⟩
  refine Triple.bind (R := fun _ => Stands [o] none)
    (dial_triple (fun s dials hs => hs.dials dials) fun _ => hasked) fun socket => ?_
  refine Triple.bind (R := fun request s => registrationRequest label = .ok request ∧
    Stands [o] none s) (Triple.lift (fun request hr s hs => ⟨hr, hs⟩) fun _ _ => hasked)
    fun request => ?_
  refine Triple.bind (R := fun r s => registrationRequest label = .ok request ∧
    Stands [o, ⟨request, true, some r.1⟩] none s) (exchange_triple ?_ ?_ ?_) fun r => ?_
  · exact fun e s _ hs => hasked s hs.2
  · intro e s sent hs
    exact ⟨[o, ⟨request, sent, none⟩], none, .registering ho hq hs.1, hs.2.noted _⟩
  · exact fun reply socket s hs => ⟨hs.1, hs.2.noted _⟩
  refine Triple.bind (R := fun _ s => registrationRequest label = .ok request ∧
    Stands [o, ⟨request, true, some r.1⟩] (granted r.1) s) (Triple.change ?_) fun _ => ?_
  · exact fun s hs => ⟨hs.1, hs.2.operations, rfl, fun _ => rfl⟩
  refine Triple.lift ?_ ?_
  · intro handle hhandle s hs
    have hregistered : Registered label ⟨request, true, some r.1⟩ handle :=
      ⟨hs.1, rfl, r.1, rfl, hhandle⟩
    have hsaved : granted r.1 = some handle := hregistered.saved
    exact ⟨_, hregistered, hsaved ▸ hs.2⟩
  · intro e _ s hs
    exact ⟨_, granted r.1, .registering ho hq hs.1, hs.2⟩

theorem command_triple (codec : Codec) {o p : Operation} {apps : List Application}
    {handle : UInt32} (ho : Inventoried o apps) (hq : Qualified mode apps)
    (hp : Registered label p handle) (hmode : mode = "start" ∨ mode = "reboot") :
    Triple (Stands [o, p] (some handle)) (command codec mode handle)
      (fun _ s => ∃ c, Commanded mode c handle ∧ Stands [o, p, c] (some handle) s)
      (fun _ => Stopped mode label) := by
  have hregistered : ∀ s, Stands [o, p] (some handle) s → Stopped mode label s := fun s hs =>
    ⟨[o, p], p.reply.bind granted, .registering ho hq hp.request, hp.saved ▸ hs⟩
  have hcommanded : ∀ c s, commandRequest mode handle = .ok c.request →
      Stands [o, p, c] (some handle) s → Stopped mode label s := fun c s hc hs =>
    ⟨[o, p, c], p.reply.bind granted, .commanding ho hq hp hmode hc, hp.saved ▸ hs⟩
  refine Triple.bind (R := fun request s => commandRequest mode handle = .ok request ∧
    Stands [o, p] (some handle) s)
    (Triple.lift (fun request hr s hs => ⟨hr, hs⟩) fun _ _ => hregistered) fun request => ?_
  refine Triple.bind (R := fun _ s => commandRequest mode handle = .ok request ∧
    Stands [o, p] (some handle) s)
    (dial_triple (fun s dials hs => ⟨hs.1, hs.2.dials dials⟩) fun _ s hs => hregistered s hs.2)
    fun socket => ?_
  refine Triple.bind (R := fun _ s => commandRequest mode handle = .ok request ∧
    Stands [o, p] (some handle) s) (Triple.change ?_) fun _ => ?_
  · intro s hs
    split
    · exact ⟨hs.1, hs.2.operations, hs.2.saved, hs.2.owner⟩
    · exact ⟨hs.1, hs.2.operations, hs.2.saved, hs.2.owner⟩
  refine Triple.bind (R := fun r s => commandRequest mode handle = .ok request ∧
    Stands [o, p, ⟨request, true, some r.1⟩] (some handle) s) (exchange_triple ?_ ?_ ?_) fun r => ?_
  · exact fun e s _ hs => hregistered s hs.2
  · exact fun e s sent hs => hcommanded ⟨request, sent, none⟩ _ hs.1 (hs.2.noted _)
  · exact fun reply socket s hs => ⟨hs.1, hs.2.noted _⟩
  refine Triple.bind (R := fun _ s => Commanded mode ⟨request, true, some r.1⟩ handle ∧
    Stands [o, p, ⟨request, true, some r.1⟩] (some handle) s) (Triple.lift ?_ ?_)
    fun _ => Triple.change ?_
  · exact fun _ hreply s hs => ⟨⟨hs.1, rfl, r.1, rfl, hreply⟩, hs.2⟩
  · exact fun e _ s hs => hcommanded _ s hs.1 hs.2
  · exact fun s hs => ⟨_, hs.1, hs.2.operations, hs.2.saved, hs.2.owner⟩

theorem pursue_triple (codec : Codec) (label : String)
    (hmode : mode = "query" ∨ mode = "start" ∨ mode = "reboot") :
    Triple (Stands [] none) (pursue codec mode label)
      (fun _ s => ∃ ops access, Completed mode label ops access ∧ Stands ops access s)
      (fun _ => Stopped mode label) := by
  refine Triple.bind (inventory_triple codec) fun apps => ?_
  refine Triple.bind (R := fun on s => proceed mode apps = .ok on ∧
    ∃ o, Inventoried o apps ∧ Stands [o] none s) (Triple.lift ?_ ?_) fun on => ?_
  · exact fun on hon s hs => ⟨hon, hs⟩
  · rintro e _ s ⟨o, ho, hs⟩
    exact ⟨[o], none, .asked ho.request, hs⟩
  rintro s ⟨hon, o, ho, hs⟩
  rcases proceed_cases hon with ⟨rfl, hquery⟩ | ⟨rfl, hquery, hq⟩
  · exact ⟨[o], none, .queried hquery ho, hs⟩
  have hcommand := hmode.resolve_left hquery
  have hrun : Triple (Stands [o] none)
      (acquire codec label >>= fun handle => command codec mode handle)
      (fun _ s => ∃ ops access, Completed mode label ops access ∧ Stands ops access s)
      (fun _ => Stopped mode label) := by
    refine (acquire_triple codec ho hq).bind fun handle => ?_
    rintro s ⟨p, hp, hs⟩
    have hend := command_triple codec ho hq hp hcommand s hs
    split at hend
    · obtain ⟨c, hc, hs⟩ := hend
      exact ⟨[o, p, c], some handle, .commanded hcommand ho hq hp hc, hs⟩
    · exact hend
  exact hrun s hs

theorem encode_release (codec : Codec) (handle : UInt32) :
    ∃ wire, codec.encode (releaseRequest handle) = .ok wire := by
  have hlength : (releaseRequest handle).body.length = 12 := by
    rw [releaseRequest, length_words]
    rfl
  have hopcode : (releaseRequest handle).opcode &&& 0x8000 = 0 := by
    change (0x836 : UInt32) &&& 0x8000 = 0
    decide
  unfold Codec.encode
  rw [if_neg (not_not.mpr hopcode), if_neg (by rw [hlength]; decide)]
  exact ⟨_, rfl⟩

/-- A release is always asked for. -/
theorem release_triple (codec : Codec) (socket : Socket) (handle : UInt32) :
    Triple (fun s => s.operations = ops) (release codec socket handle)
      (fun _ s => ∃ f, Released f handle ∧ s.operations = ops ++ [f])
      (fun _ s => ∃ f, f.request = releaseRequest handle ∧ s.operations = ops ++ [f]) := by
  refine Triple.bind
    (R := fun r s => s.operations = ops ++ [⟨releaseRequest handle, true, some r.1⟩])
    (exchange_triple ?_ ?_ ?_) fun r => Triple.lift ?_ ?_
  · intro e s he _
    obtain ⟨wire, hwire⟩ := encode_release codec handle
    rw [hwire] at he
    cases he
  · exact fun e s sent hs => ⟨⟨releaseRequest handle, sent, none⟩, rfl, by
      rw [Attempt.operations_noted, hs]⟩
  · exact fun reply socket s hs => by rw [Attempt.operations_noted, hs]
  · exact fun _ hreply s hs => ⟨_, ⟨rfl, rfl, r.1, rfl, hreply⟩, hs⟩
  · exact fun e _ s hs => ⟨_, rfl, hs⟩

/-! ## The whole attempt -/

/-- An attempt asks, registers, commands and releases at most once and in this order. Its command
follows the replies that allow it, its release the handle that was given. -/
structure Disciplined (mode label : String) (r : Report) : Prop where
  ordered : (r.operations.map (·.request.opcode)).Sublist
    ([0x82e, 0x834] ++ commandOpcode mode ++ [0x836])
  justified : ∀ c ∈ r.operations, c.request.opcode ∈ commandOpcode mode →
    ∃ o ∈ r.operations, ∃ p ∈ r.operations, ∃ apps handle, Inventoried o apps ∧
      Qualified mode apps ∧ Registered label p handle ∧ commandRequest mode handle = .ok c.request
  released : ∀ handle, (∃ f ∈ r.operations, f.request = releaseRequest handle) ↔
    ∃ p ∈ r.operations, p.request.opcode = 0x834 ∧
      ∃ reply, p.reply = some reply ∧ Grants reply handle
  carried : ∀ f ∈ r.operations, f.request.opcode = 0x836 →
    ∃ handle, f.request = releaseRequest handle
  succeeded : r.success = true → Completed mode label r.operations none ∨
    ∃ ops handle f, Completed mode label ops (some handle) ∧ Released f handle ∧
      r.operations = ops ++ [f] ∧ r.managementReleased = true

/-- What was exchanged at the end: the release too, where a handle is saved. -/
def closed (ops : List Operation) (access : Option UInt32) (final : List Operation) : Prop :=
  match access with
  | none => final = ops
  | some handle => ∃ f, f.request = releaseRequest handle ∧ final = ops ++ [f]

theorem not_release_of_course (h : Course mode label ops access) {f : Operation} (hf : f ∈ ops) :
    f.request.opcode ≠ 0x836 := by
  intro hopcode
  have hmem := h.opcodes.subset (List.mem_map_of_mem (f := (·.request.opcode)) hf)
  rw [hopcode] at hmem
  unfold commandOpcode at hmem
  split_ifs at hmem <;> simp at hmem

theorem releaseRequest_inj {h h' : UInt32} (heq : releaseRequest h = releaseRequest h') :
    h = h' := by
  have hbody : words [1, h, 0] = words [1, h', 0] := congrArg Record.body heq
  simp only [words_cons, words_nil, List.append_nil] at hbody
  have hword : word h = word h' :=
    (List.append_inj (List.append_cancel_left hbody) (by simp)).1
  rw [← ofWord_word h, hword, ofWord_word]

theorem disciplined_of_course {r : Report} (h : Course mode label ops access)
    (hclosed : closed ops access r.operations)
    (hsuccess : r.success = true → Completed mode label r.operations none ∨
      ∃ ops handle f, Completed mode label ops (some handle) ∧ Released f handle ∧
        r.operations = ops ++ [f] ∧ r.managementReleased = true) :
    Disciplined mode label r := by
  cases access with
  | none =>
    change r.operations = ops at hclosed
    refine ⟨?_, ?_, fun handle => ?_, ?_, hsuccess⟩ <;> rw [hclosed]
    · exact h.opcodes.trans (List.sublist_append_left _ _)
    · exact fun c hc => h.justified hc
    · rw [← h.saved_iff]
      constructor
      · rintro ⟨f, hf, hrequest⟩
        exact absurd (congrArg Record.opcode hrequest) (not_release_of_course h hf)
      · rintro ⟨⟩
    · exact fun f hf hopcode => absurd hopcode (not_release_of_course h hf)
  | some saved =>
    obtain ⟨f, hf, hfinal⟩ := hclosed
    have hfopcode : f.request.opcode = 0x836 := congrArg Record.opcode hf
    have hmem : ∀ o ∈ ops, o ∈ ops ++ [f] := fun o ho => List.mem_append_left _ ho
    refine ⟨?_, ?_, fun handle => ?_, ?_, hsuccess⟩ <;> rw [hfinal]
    · rw [List.map_append, List.map_singleton, hfopcode]
      exact h.opcodes.append (List.Sublist.refl _)
    · intro c hc hcommand
      rcases List.mem_append.mp hc with hc | hc
      · obtain ⟨o, ho, p, hp, rest⟩ := h.justified hc hcommand
        exact ⟨o, hmem o ho, p, hmem p hp, rest⟩
      · obtain rfl := List.mem_singleton.mp hc
        rw [hfopcode, commandOpcode] at hcommand
        split_ifs at hcommand <;> simp at hcommand
    · constructor
      · rintro ⟨g, hg, hrequest⟩
        rcases List.mem_append.mp hg with hg | hg
        · exact absurd (congrArg Record.opcode hrequest) (not_release_of_course h hg)
        · obtain rfl := List.mem_singleton.mp hg
          obtain rfl := releaseRequest_inj (hf.symm.trans hrequest)
          obtain ⟨p, hp, hgrants⟩ := h.saved_iff.mp rfl
          exact ⟨p, hmem p hp, hgrants⟩
      · rintro ⟨p, hp, hopcode, hgrants⟩
        rcases List.mem_append.mp hp with hp | hp
        · obtain rfl := Option.some.inj (h.saved_iff.mpr ⟨p, hp, hopcode, hgrants⟩)
          exact ⟨f, by simp, hf⟩
        · obtain rfl := List.mem_singleton.mp hp
          rw [hfopcode] at hopcode
          cases hopcode
    · intro g hg hopcode
      rcases List.mem_append.mp hg with hg | hg
      · exact absurd hopcode (not_release_of_course h hg)
      · obtain rfl := List.mem_singleton.mp hg
        exact ⟨saved, hf⟩

section

variable (cipher : Cipher) (serial : UInt32) (baseKey : List UInt8)

theorem errorsOf_eq_nil {result : Except String Unit} (h : errorsOf result = []) :
    result = .ok () := by
  cases result with
  | error e => cases h
  | ok u => rfl

/-- Nothing is exchanged without a codec. -/
theorem undertake_cases (mode label : String) (s : Attempt) :
    (∃ e, undertake cipher serial baseKey mode label s = (.error e, s)) ∨
      ∃ codec, (mode = "query" ∨ mode = "start" ∨ mode = "reboot") ∧
        Codec.new cipher baseKey serial = .ok codec ∧
        undertake cipher serial baseKey mode label s = pursue codec mode label s := by
  unfold undertake
  cases hmode : supported mode with
  | error e => exact .inl ⟨e, bind_error rfl⟩
  | ok u =>
    have hfirst : (lift (Except.ok u) : Action Unit) s = (.ok u, s) := rfl
    rw [bind_ok hfirst]
    cases hcodec : Codec.new cipher baseKey serial with
    | error e => exact .inl ⟨e, bind_error rfl⟩
    | ok codec => exact .inr ⟨codec, supported_ok hmode, rfl, bind_ok rfl⟩

/-- Whatever the connections do, an attempt is disciplined. -/
theorem attempt_disciplined (dials : List Dial) :
    Disciplined mode label (attempt cipher dials serial baseKey mode label) := by
  unfold attempt
  rcases undertake_cases cipher serial baseKey mode label (newAttempt dials) with
    ⟨e, hrun⟩ | ⟨codec, hmode, hcodec, hrun⟩
  · rw [hrun]
    exact disciplined_of_course .idle rfl fun hsuccess => by cases hsuccess
  rw [hrun, hcodec]
  have hend := pursue_triple codec label hmode (newAttempt dials) ⟨rfl, rfl, nofun⟩
  rcases hpursue : pursue codec mode label (newAttempt dials) with ⟨result, s⟩
  rw [hpursue] at hend
  have hcourse : ∃ ops access, Course mode label ops access ∧ Stands ops access s ∧
      (result = .ok () → Completed mode label ops access) := by
    cases result with
    | error e =>
      obtain ⟨ops, access, hcourse, hs⟩ := hend
      exact ⟨ops, access, hcourse, hs, nofun⟩
    | ok u =>
      obtain ⟨ops, access, hcompleted, hs⟩ := hend
      exact ⟨ops, access, hcompleted.course, hs, fun _ => hcompleted⟩
  obtain ⟨ops, access, hcourse, hs, hcompleted⟩ := hcourse
  dsimp only
  rw [hs.saved]
  cases access with
  | none =>
    have hreport : Disciplined mode label (reported mode s false (errorsOf result)) :=
      disciplined_of_course hcourse hs.operations fun hsuccess => by
        rw [show (reported mode s false (errorsOf result)).operations = ops from hs.operations]
        exact .inl (hcompleted (errorsOf_eq_nil (List.isEmpty_iff.mp hsuccess)))
    cases s.owner with
    | none => exact hreport
    | some socket => exact hreport
  | some handle =>
    obtain ⟨socket, howner⟩ := Option.isSome_iff_exists.mp (hs.owner rfl)
    rw [howner]
    dsimp only
    have hrelease := release_triple codec socket handle s hs.operations
    rcases hrun : release codec socket handle s with ⟨e | u, s'⟩
    · rw [hrun] at hrelease
      obtain ⟨f, hf, hoperations⟩ := hrelease
      refine disciplined_of_course hcourse ⟨f, hf, hoperations⟩ fun hsuccess => ?_
      have hnone := List.isEmpty_iff.mp hsuccess
      exact absurd (List.append_eq_nil_iff.mp hnone).2 (by simp)
    · rw [hrun] at hrelease
      obtain ⟨f, hf, hoperations⟩ := hrelease
      refine disciplined_of_course hcourse ⟨f, hf.request, hoperations⟩ fun hsuccess => ?_
      have hok := errorsOf_eq_nil (List.isEmpty_iff.mp hsuccess)
      exact .inr ⟨ops, handle, f, hcompleted hok, hf, hoperations, rfl⟩

end

end OpenSaab.OpenMdi.Management
