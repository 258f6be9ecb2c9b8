import OpenSaab.OpenMdi.Links

/-!
# Opening a pair of links

What is known of a pair that has been opened, or whose opening has failed on the way.
-/

namespace OpenSaab.OpenMdi

open Program

/-! ## Registration -/

/-- A session that has asked for nothing but its registration. -/
structure Registering (s : Session) : Prop where
  created : s.created = false
  connected : s.connected = false
  receiving : s.receiving = false
  journal : ∀ e ∈ s.journal, e.request.opcode = 0x884

/-- A registering session with its command socket. -/
def registering : Allowed Session := .invariant fun s => Registering s ∧ s.command.isSome

theorem register_registering : Keeps registering (Session.rpc (register 0) 0x885) := by
  rintro s ⟨h, hcommand⟩
  obtain ⟨sent, socket, clock, hsocket, hs'⟩ := rpc_journal (register 0) 0x885 s
  rw [hs']
  refine ⟨⟨h.created, h.connected, h.receiving, ?_⟩, hsocket hcommand⟩
  intro e he
  rcases List.mem_append.mp he with he | he
  · exact h.journal e he
  · rw [List.mem_singleton.mp he]
    rfl

theorem registerCallback_registering : Keeps registering Session.registerCallback := by
  refine (Keeps.read _).bind fun session => ?_
  refine (Keeps.read _).bind fun deadline => ?_
  refine Keeps.bind ?_ fun answer => ?_
  · rintro s ⟨h, hcommand⟩
    unfold Session.listen
    split
    · exact ⟨h, hcommand⟩
    · exact ⟨⟨h.created, h.connected, h.receiving, h.journal⟩, hcommand⟩
  · cases answer with
    | none => exact Keeps.fail _
    | some reply => exact (Keeps.lift _).bind fun _ => Keeps.pure _

theorem enroll_registering (callback : Dial) : Keeps registering (Session.enroll callback) := by
  have hsame {s s' : Session} (hs' : Registering s → Registering s')
      (hcommand : s'.command = s.command) : registering.rel s s' :=
    fun h => ⟨hs' h.1, hcommand ▸ h.2⟩
  refine register_registering.bind fun reply => ?_
  refine (Keeps.lift _).bind fun session => ?_
  refine Keeps.bind (fun s => hsame (fun h => ⟨h.created, h.connected, h.receiving, h.journal⟩) rfl)
    fun _ => ?_
  refine Keeps.bind (fun s => hsame (fun h => ⟨h.created, h.connected, h.receiving, h.journal⟩) rfl)
    fun socket => ?_
  refine Keeps.bind (fun s => hsame (fun h => ⟨h.created, h.connected, h.receiving, h.journal⟩) rfl)
    fun _ => ?_
  exact registerCallback_registering.bind fun _ => Keeps.pure ()

/-- The registration either fails before anything is sent, or goes on with a command socket. -/
theorem registerConnections_cases (peer : Peer) (start : Nat) :
    (∃ e clock, Session.registerConnections peer (newSession start) =
        (.error e, { newSession start with clock })) ∨
      Registering (Session.registerConnections peer (newSession start)).2 ∧
        (Session.registerConnections peer (newSession start)).2.command.isSome := by
  unfold Session.registerConnections
  cases hdial : peer.command.socket with
  | error e =>
    left
    exact ⟨e, start + peer.command.elapsed, bind_error (Prod.ext hdial rfl)⟩
  | ok socket =>
    right
    have hrun : Session.dial peer.command (newSession start) =
        (.ok socket, { newSession start with clock := start + peer.command.elapsed }) :=
      Prod.ext hdial rfl
    rw [bind_ok hrun, bind_change]
    exact enroll_registering peer.callback _
      ⟨⟨rfl, rfl, rfl, fun _ h => absurd h List.not_mem_nil⟩, rfl⟩

/-- The device has granted the session with this token. -/
def Granted (token : UInt32) (s : Session) : Prop :=
  ∃ e ∈ s.journal, e.request = register 0 ∧
    ∃ reply, e.result = .ok reply ∧ registrationReply reply none = .ok token

/-- The session is the one that has been granted. -/
structure Registered (s : Session) : Prop where
  granted : s.session ≠ 0 → Granted s.session s
  ungranted : s.session = 0 → ∀ token, ¬ Granted token s

theorem registrationReply_ne_zero {reply : Record} {expected : Option UInt32} {token : UInt32}
    (h : registrationReply reply expected = .ok token) : token ≠ 0 := by
  unfold registrationReply at h
  obtain ⟨tail, -, h⟩ := except_bind_ok h
  split at h
  · cases h
  dsimp only at h
  split at h
  · cases h
  rename_i hsame
  rw [← Except.ok.inj h]
  exact fun hzero => hsame (Or.inr (Or.inr (Or.inl hzero)))

/-- The journal and the session stay as they are. -/
def settled : Allowed Session where
  rel s s' := s'.session = s.session ∧ s'.journal = s.journal
  refl _ := ⟨rfl, rfl⟩
  trans h h' := ⟨h'.1.trans h.1, h'.2.trans h.2⟩

theorem registerCallback_settled : Keeps settled Session.registerCallback := by
  refine (Keeps.read _).bind fun session => ?_
  refine (Keeps.read _).bind fun deadline => ?_
  refine Keeps.bind ?_ fun answer => ?_
  · intro s
    unfold Session.listen
    split
    · exact ⟨rfl, rfl⟩
    · exact ⟨rfl, rfl⟩
  · cases answer with
    | none => exact Keeps.fail _
    | some reply => exact (Keeps.lift _).bind fun _ => Keeps.pure _

/-- A registration on the command socket is known to the session, and no other is. -/
theorem enroll_registered (callback : Dial) {s : Session} (hsession : s.session = 0)
    (hjournal : s.journal = []) :
    Registered (Session.enroll callback s).2 ∧
      ((Session.enroll callback s).1 = .ok () → (Session.enroll callback s).2.session ≠ 0) := by
  obtain ⟨sent, socket, clock, -, hs₁⟩ := rpc_journal (register 0) 0x885 s
  rw [hjournal, List.nil_append] at hs₁
  have hnone {r : Except String Record} {s₁ : Session} (hsession : s₁.session = 0)
      (hjournal : s₁.journal = [⟨register 0, sent, r⟩])
      (h : ∀ reply, r = .ok reply → ∀ token, registrationReply reply none ≠ .ok token) :
      Registered s₁ := by
    refine ⟨fun hne => absurd hsession hne, ?_⟩
    rintro - token ⟨e, he, -, reply, hreply, htoken⟩
    rw [hjournal, List.mem_singleton] at he
    rw [he] at hreply
    exact h reply hreply token htoken
  unfold Session.enroll
  refine bind_induct
    (Q := fun r => Registered r.2 ∧ (r.1 = .ok () → r.2.session ≠ 0)) ?_ ?_
  · intro e s₁ hrun
    rw [hrun] at hs₁
    dsimp only at hs₁
    subst hs₁
    exact ⟨hnone hsession rfl (fun _ h => nomatch h), nofun⟩
  · intro reply s₁ hrun
    rw [hrun] at hs₁
    dsimp only at hs₁
    subst hs₁
    cases htoken : registrationReply reply none with
    | error e =>
      rw [bind_error (lift_apply _)]
      refine ⟨hnone hsession rfl fun reply' h token => ?_, nofun⟩
      rw [← Except.ok.inj h, htoken]
      nofun
    | ok token =>
      rw [bind_ok (lift_apply _), bind_change]
      have hrest : Keeps settled (do
          let socket ← Session.dial callback
          change fun s => { s with notification := some socket }
          let _ ← Session.registerCallback
          pure ()) := by
        refine Keeps.bind (fun s => ⟨rfl, rfl⟩) fun socket => ?_
        refine Keeps.bind (fun s => ⟨rfl, rfl⟩) fun _ => ?_
        exact registerCallback_settled.bind fun _ => Keeps.pure ()
      have hkept := hrest { s with command := socket, clock, session := token,
                                   journal := [⟨register 0, sent, .ok reply⟩] }
      generalize (do
          let socket ← Session.dial callback
          change fun s => { s with notification := some socket }
          let _ ← Session.registerCallback
          pure ()) { s with command := socket, clock, session := token,
                            journal := [⟨register 0, sent, .ok reply⟩] } = r at hkept ⊢
      obtain ⟨hsame, hsameJournal⟩ := hkept
      have hne : r.2.session ≠ 0 := by
        rw [hsame]
        exact registrationReply_ne_zero htoken
      refine ⟨⟨fun _ => ?_, fun hzero => absurd hzero hne⟩, fun _ => hne⟩
      refine ⟨⟨register 0, sent, .ok reply⟩, ?_, rfl, reply, rfl, ?_⟩
      · rw [hsameJournal]
        exact List.mem_singleton_self _
      · rw [hsame]
        exact htoken

theorem registerConnections_registered (peer : Peer) (start : Nat) :
    Registered (Session.registerConnections peer (newSession start)).2 ∧
      ((Session.registerConnections peer (newSession start)).1 = .ok () →
        (Session.registerConnections peer (newSession start)).2.session ≠ 0) := by
  unfold Session.registerConnections
  refine bind_induct (Q := fun r => Registered r.2 ∧ (r.1 = .ok () → r.2.session ≠ 0)) ?_ ?_
  · intro e s hrun
    obtain ⟨-, rfl⟩ := Prod.mk.inj hrun
    refine ⟨⟨fun h => absurd rfl h, ?_⟩, nofun⟩
    rintro - token ⟨e, he, -⟩
    exact absurd he List.not_mem_nil
  · intro socket s hrun
    obtain ⟨-, rfl⟩ := Prod.mk.inj hrun
    rw [bind_change]
    exact enroll_registered peer.callback rfl rfl

/-! ## Links -/

/-- Whatever the device has been asked for is on record. -/
structure Accounted (p : RawPair) : Prop where
  marked : ∀ c ∈ p.channels, Marked c.link c.receiver (c.select p.inner)
  owned : ∀ e ∈ p.inner.journal, e.request.opcode = 0x884 ∨
    ∃ c ∈ p.channels, words [c.link] <+: e.request.body
  distinct : (p.channels.map LinkState.link).Nodup
  registered : Registered p.inner

/-- A pair that is being opened, or whose opening has failed. -/
structure Opened (p : RawPair) : Prop extends Accounted p where
  closed : p.closed = false
  pending : p.pending = ∅
  command : p.channels ≠ [] ∨ p.inner.session ≠ 0 → p.inner.command.isSome
  idle : p.channels = [] → p.inner.created = false ∧ p.inner.connected = false ∧
    p.inner.receiving = false

/-- Nothing has been asked for on a link. -/
def Untouched (link : UInt32) (s : Session) : Prop :=
  ∀ op fields, op ≠ 0x884 → ¬ Attempted op (link :: fields) s

/-- The next channel of a pair. -/
theorem acquireChannel_opened (sw : Bool) (tags : Tags) {p : RawPair} (h : Opened p)
    (hcommand : p.inner.command.isSome) (hsession : p.inner.session ≠ 0)
    (huntouched : Untouched tags.nextLink p.inner)
    (hother : ∀ c ∈ p.channels, c.link ≠ tags.nextLink) :
    Opened (RawPair.acquireChannel sw tags p).2 ∧
      (∃ c, (RawPair.acquireChannel sw tags p).2.channels = p.channels ++ [c] ∧
        c.link = tags.nextLink ∧ c.receiver = tags.nextPrimitive + 1) ∧
      Worked tags.nextLink (p.inner.startLink tags.nextLink (tokensFrom tags.nextPrimitive))
        (RawPair.acquireChannel sw tags p).2.inner ∧
      ∀ tags', (RawPair.acquireChannel sw tags p).1 = .ok tags' →
        tags' = ⟨tags.nextLink + 1, tags.nextPrimitive + 6⟩ := by
  obtain ⟨⟨hworked, hmarked⟩, hok⟩ := configureLink_works sw true tags p.inner
  unfold RawPair.acquireChannel
  generalize Session.configureLink sw true tags p.inner = run at hworked hmarked hok
  obtain ⟨result, inner⟩ := run
  dsimp only at hworked hmarked hok ⊢
  have hstart : Marked tags.nextLink (tags.nextPrimitive + 1)
      (p.inner.startLink tags.nextLink (tokensFrom tags.nextPrimitive)) :=
    ⟨iff_of_false nofun (huntouched _ _ (by decide)), iff_of_false nofun (huntouched _ _ (by decide)),
      iff_of_false nofun (huntouched _ _ (by decide))⟩
  have hlink : inner.link = tags.nextLink := hworked.sameLink
  have hreceiver : inner.receiver = tags.nextPrimitive + 1 := hworked.sameReceiver
  have hsame : inner.session = p.inner.session := hworked.sameSession
  obtain ⟨new, hjournal, hnew⟩ := hworked.journal
  have hold : inner.journal = p.inner.journal ++ new := hjournal
  refine ⟨⟨⟨?_, ?_, ?_, ?_⟩, h.closed, h.pending, fun _ => hworked.command hcommand,
    fun hnil => absurd hnil (by simp)⟩, ⟨_, rfl, hlink, hreceiver⟩, hworked, hok⟩
  · intro c hc
    rcases List.mem_append.mp hc with hc | hc
    · have hm := h.marked c hc
      have hsame := attempted_other (hother c hc).symm hjournal hnew
      exact ⟨hm.created.trans (hsame 0x44f []).symm, hm.connected.trans (hsame 0x45f []).symm,
        hm.receiving.trans (hsame 0x463 [c.receiver]).symm⟩
    · obtain rfl := List.mem_singleton.mp hc
      have := hmarked hstart
      rw [← hlink, ← hreceiver] at this
      exact this
  · intro e he
    dsimp only at he
    rw [hold] at he
    rcases List.mem_append.mp he with he | he
    · refine (h.owned e he).imp_right ?_
      rintro ⟨c, hc, hbody⟩
      exact ⟨c, List.mem_append_left _ hc, hbody⟩
    · refine Or.inr ⟨_, List.mem_append_right _ (List.mem_singleton_self _), ?_⟩
      rw [LinkState.capture, hlink]
      exact hnew e he
  · rw [List.map_append, List.nodup_append]
    refine ⟨h.distinct, List.pairwise_singleton _ _, ?_⟩
    intro l hl l' hl'
    obtain ⟨c, hc, rfl⟩ := List.mem_map.mp hl
    rw [List.map_singleton, List.mem_singleton] at hl'
    rw [hl']
    exact fun heq => hother c hc (heq.trans hlink)
  · refine ⟨fun _ => ?_, fun hzero => absurd (hsame.symm.trans hzero) hsession⟩
    obtain ⟨e, he, hrequest⟩ := h.registered.granted hsession
    refine ⟨e, ?_, ?_⟩
    · rw [hold]
      exact List.mem_append_left _ he
    · rw [hsame]
      exact hrequest

/-- What an open pair has been given. -/
structure Supplied (p : RawPair) : Prop where
  links : p.channels.map LinkState.link = [(Tags.forSession p.inner.session).nextLink,
    (Tags.forSession p.inner.session).nextLink + 1]
  receivers : p.channels.map LinkState.receiver =
    [(Tags.forSession p.inner.session).nextPrimitive + 1,
      (Tags.forSession p.inner.session).nextPrimitive + 7]
  nextToken : p.nextToken = (Tags.forSession p.inner.session).nextPrimitive + 12

theorem add_one_ne (a : UInt32) : a ≠ a + 1 := by
  intro h
  have hzero : a + 0 = a + 1 := by rwa [UInt32.add_zero]
  exact absurd ((UInt32.add_right_inj a).mp hzero) (by decide)

/-- The second channel, after the first. -/
theorem acquireSecond_opened (tags : Tags) {p : RawPair} (h : Opened p)
    (hcommand : p.inner.command.isSome) (hne : p.inner.session ≠ 0) (huntouched : Untouched (tags.nextLink + 1) p.inner)
    {hs : LinkState} (hchannels : p.channels = [hs]) (hlink : hs.link = tags.nextLink)
    (hreceiver : hs.receiver = tags.nextPrimitive + 1)
    (htags : tags = Tags.forSession p.inner.session) :
    Opened ((RawPair.acquireChannel true ⟨tags.nextLink + 1, tags.nextPrimitive + 6⟩ >>=
        RawPair.handOver) p).2 ∧
      (((RawPair.acquireChannel true ⟨tags.nextLink + 1, tags.nextPrimitive + 6⟩ >>=
        RawPair.handOver) p).1 = .ok () →
        Supplied ((RawPair.acquireChannel true ⟨tags.nextLink + 1, tags.nextPrimitive + 6⟩ >>=
          RawPair.handOver) p).2) := by
  have hother : ∀ c ∈ p.channels, c.link ≠ tags.nextLink + 1 := by
    intro c hc
    rw [hchannels, List.mem_singleton] at hc
    rw [hc, hlink]
    exact add_one_ne _
  obtain ⟨hopened, ⟨sw, hsw, hswLink, hswReceiver⟩, hworked, hok⟩ :=
    acquireChannel_opened true ⟨tags.nextLink + 1, tags.nextPrimitive + 6⟩ h hcommand hne huntouched
      hother
  refine bind_induct (Q := fun r => Opened r.2 ∧ (r.1 = .ok () → Supplied r.2)) ?_ ?_
  · intro e p' hrun
    rw [hrun] at hopened
    exact ⟨hopened, nofun⟩
  · intro tags' p' hrun
    rw [hrun] at hopened hsw hworked hok
    have hsession : p'.inner.session = p.inner.session := hworked.sameSession
    have hseven : tags.nextPrimitive + 6 + 1 = tags.nextPrimitive + 7 := UInt32.add_assoc _ _ _
    have htwelve : tags.nextPrimitive + 6 + 6 = tags.nextPrimitive + 12 := UInt32.add_assoc _ _ _
    have hnow : (RawPair.handOver tags' p').2.inner.session = p.inner.session := hsession
    have hchannels' : (RawPair.handOver tags' p').2.channels = [hs, sw] := by
      change p'.channels = [hs, sw]
      rw [hsw, hchannels]
      rfl
    refine ⟨⟨⟨?_, hopened.owned, hopened.distinct, ?_⟩, hopened.closed, hopened.pending, hopened.command,
      hopened.idle⟩, fun _ => ⟨?_, ?_, ?_⟩⟩
    · intro c hc
      have hm := hopened.marked c hc
      exact ⟨hm.created, hm.connected, hm.receiving⟩
    · exact ⟨hopened.registered.granted, hopened.registered.ungranted⟩
    · rw [hchannels', hnow, ← htags, List.map_cons, List.map_singleton, hlink, hswLink]
    · rw [hchannels', hnow, ← htags, List.map_cons, List.map_singleton, hreceiver, hswReceiver, hseven]
    · rw [hnow, ← htags, ← htwelve]
      change tags'.nextPrimitive = _
      rw [hok tags' rfl]

/-- Both channels, after the registration. -/
theorem acquireBoth_opened {p : RawPair} (h : Opened p) (hcommand : p.inner.command.isSome)
    (hne : p.inner.session ≠ 0) (huntouched : ∀ link, Untouched link p.inner) (hnone : p.channels = []) :
    Opened (RawPair.acquireChannels p).2 ∧
      ((RawPair.acquireChannels p).1 = .ok () → Supplied (RawPair.acquireChannels p).2) := by
  generalize htags : Tags.forSession p.inner.session = tags
  have hfirst := acquireChannel_opened false tags h hcommand hne (huntouched _)
    fun c hc => absurd hc (by rw [hnone]; exact List.not_mem_nil)
  unfold RawPair.acquireChannels
  rw [bind_read, htags]
  refine bind_induct (Q := fun r => Opened r.2 ∧ (r.1 = .ok () → Supplied r.2)) ?_ ?_
  · intro e p' hrun
    rw [hrun] at hfirst
    exact ⟨hfirst.1, nofun⟩
  · intro tags' p' hrun
    rw [hrun] at hfirst
    obtain ⟨hopened, ⟨hs, hchannels, hlink, hreceiver⟩, hworked, hok⟩ := hfirst
    rw [hnone] at hchannels
    obtain rfl := hok tags' rfl
    obtain ⟨new, hjournal, hnew⟩ := hworked.journal
    have hnext : Untouched (tags.nextLink + 1) p'.inner := fun op fields hop hattempted =>
      huntouched _ op fields hop
        ((attempted_other (add_one_ne tags.nextLink) hjournal hnew op fields).mp hattempted)
    have hsession : p'.inner.session = p.inner.session := hworked.sameSession
    exact acquireSecond_opened tags hopened (hworked.command hcommand) (hsession ▸ hne) hnext hchannels
      hlink hreceiver (hsession ▸ htags.symm)

/-- What is known of a pair after its opening, whatever came of it. -/
theorem acquire_opened (start : Nat) (peer : Peer) :
    Opened (RawPair.acquire peer (RawPair.fresh start)).2 ∧
      ((RawPair.acquire peer (RawPair.fresh start)).1 = .ok () →
        Supplied (RawPair.acquire peer (RawPair.fresh start)).2) := by
  obtain ⟨hregistered, hsession⟩ := registerConnections_registered peer start
  have hopened (s : Session) (h : Registering s) (hregistered : Registered s)
      (hcommand : s.session ≠ 0 → s.command.isSome) :
      Opened { RawPair.fresh start with inner := s } :=
    ⟨⟨fun _ hc => absurd hc List.not_mem_nil, fun e he => Or.inl (h.journal e he), List.nodup_nil,
      hregistered⟩, rfl, rfl, fun h => hcommand (h.resolve_left fun h' => h' rfl),
      fun _ => ⟨h.created, h.connected, h.receiving⟩⟩
  unfold RawPair.acquire
  refine bind_induct (Q := fun r => Opened r.2 ∧ (r.1 = .ok () → Supplied r.2)) ?_ ?_
  · intro e p hrun
    obtain ⟨-, rfl⟩ := Prod.mk.inj hrun
    refine ⟨?_, nofun⟩
    rcases registerConnections_cases peer start with ⟨e', clock, hfailed⟩ | ⟨hregistering, hcommand⟩
    · have hs : (Session.registerConnections peer (RawPair.fresh start).inner).2 =
          { newSession start with clock } := congrArg Prod.snd hfailed
      have hregistering : Registering { newSession start with clock } :=
        ⟨rfl, rfl, rfl, fun _ h => absurd h List.not_mem_nil⟩
      rw [hs]
      exact hopened _ hregistering (hs ▸ hregistered) fun h => absurd rfl h
    · exact hopened _ hregistering hregistered fun _ => hcommand
  · intro _ p hrun
    obtain ⟨hok, rfl⟩ := Prod.mk.inj hrun
    rcases registerConnections_cases peer start with ⟨e', clock, hfailed⟩ | ⟨hregistering, hcommand⟩
    · have : (Session.registerConnections peer (RawPair.fresh start).inner).1 = .error e' :=
        congrArg Prod.fst hfailed
      rw [this] at hok
      cases hok
    · have huntouched (link : UInt32) :
          Untouched link (Session.registerConnections peer (newSession start)).2 := by
        rintro op fields hop ⟨e, he, rfl, -⟩
        exact hop (hregistering.journal e he)
      exact acquireBoth_opened (hopened _ hregistering hregistered fun _ => hcommand) hcommand
        (hsession hok) huntouched rfl

end OpenSaab.OpenMdi
