import OpenSaab.OpenMdi.Opening
import OpenSaab.OpenMdi.Tokens

/-!
# Giving up what has been acquired

Closing makes its requests one after the other, whatever comes of each. The time that it is given is
long enough for all of them.
-/

namespace OpenSaab.OpenMdi

open Json Program

/-! ## One step of closing -/

/-- A part of closing: what it sends, what it hears and which keys of the report it writes. -/
structure Undoes (new : List Rpc) (H : List Value) (keys : List String) (s s' : Session) : Prop where
  frame : s' = { s with command := s'.command, notification := s'.notification, clock := s'.clock,
                        events := s'.events, cleanup := s'.cleanup, journal := s'.journal }
  command : s.command.isSome → s'.command.isSome
  journal : s'.journal = s.journal ++ new
  sent : ∀ e ∈ new, e.sent = true
  hears : heard s = H ++ heard s'
  object : s.cleanup.isObject = true → s'.cleanup.isObject = true
  others : ∀ key ∉ keys, s'.cleanup.get key = s.cleanup.get key

variable {new new' : List Rpc} {H H' : List Value} {keys keys' : List String} {s t u : Session}

theorem Undoes.trans (h : Undoes new H keys s t) (h' : Undoes new' H' keys' t u) :
    Undoes (new ++ new') (H ++ H') (keys ++ keys') s u where
  frame := by rw [h'.frame, h.frame]
  command := h'.command ∘ h.command
  journal := by rw [h'.journal, h.journal, List.append_assoc]
  sent e he := (List.mem_append.mp he).elim (h.sent e) (h'.sent e)
  hears := by rw [h.hears, h'.hears, List.append_assoc]
  object := h'.object ∘ h.object
  others key hkey := by
    rw [List.mem_append, not_or] at hkey
    rw [h'.others key hkey.2, h.others key hkey.1]

theorem Undoes.refl (s : Session) : Undoes [] [] [] s s :=
  ⟨rfl, id, (List.append_nil _).symm, fun _ h => absurd h List.not_mem_nil, rfl, id, fun _ _ => rfl⟩

theorem Undoes.mono (h : Undoes new H keys s t) (hkeys : keys ⊆ keys') : Undoes new H keys' s t :=
  { h with others := fun key hkey => h.others key fun hmem => hkey (hkeys hmem) }

/-- A report is written under one more key. -/
theorem Undoes.set (s : Session) (key : String) (value : Value) :
    Undoes [] [] [key] s { s with cleanup := s.cleanup.set key value } :=
  ⟨rfl, id, (List.append_nil _).symm, fun _ h => absurd h List.not_mem_nil, rfl,
    fun h => Value.isObject_set h _ _,
    fun k hk => Value.get_set_ne _ _ fun h : k = key => hk (by simp [h])⟩

/-- The request has been granted. -/
def Succeeded (e : Rpc) : Prop :=
  ∃ reply, e.result = .ok reply ∧ (e.request.opcode = 0x886 → sessionReleased reply = .ok ())

/-- A call that only reads notifications, and returns soon after the deadline. -/
def Reads (deadline : Nat) (s s' : Session) : Prop :=
  s' = { s with notification := s'.notification, clock := s'.clock, events := s'.events } ∧
    (s.clock ≤ deadline → s'.clock ≤ deadline + lagLimit)

/-- The requests that give up what a link has acquired. -/
def undo (c : LinkState) : List Record :=
  (if c.receiving then [cancel c.link c.receiver] else []) ++
    (if c.connected then [⟨0x461, words [c.link]⟩] else []) ++
    (if c.created then [⟨0x451, words [c.link]⟩] else [])

/-- The receivers that have to end. -/
def ends (c : LinkState) : List (UInt32 × UInt32) :=
  if c.receiving then [(c.link, c.receiver)] else []

/-- Closing makes the requests, and hears and is granted everything if it is `ok`. -/
structure Gives (requests : List Record) (ends : List (UInt32 × UInt32)) (ok : Prop)
    (s s' : Session) : Prop where
  session : s'.session = s.session
  command : s.command.isSome → s'.command.isSome
  run : ∃ new H, s'.journal = s.journal ++ new ∧ new.map Rpc.request = requests ∧
    (∀ e ∈ new, e.sent = true) ∧ heard s = H ++ heard s' ∧
    (ok → (∀ e ∈ new, Succeeded e) ∧
      ∀ r ∈ ends, ∃ item ∈ H, Session.isTerminal r.1 r.2 item = true)

variable {rs rs' : List Record} {es es' : List (UInt32 × UInt32)} {ok ok' : Prop}

theorem Gives.trans (h : Gives rs es ok s t) (h' : Gives rs' es' ok' t u) :
    Gives (rs ++ rs') (es ++ es') (ok ∧ ok') s u := by
  obtain ⟨new, H, hjournal, hrequests, hsent, hhears, hok⟩ := h.run
  obtain ⟨new', H', hjournal', hrequests', hsent', hhears', hok'⟩ := h'.run
  refine ⟨h'.session.trans h.session, h'.command ∘ h.command, new ++ new', H ++ H', ?_, ?_, ?_, ?_, ?_⟩
  · rw [hjournal', hjournal, List.append_assoc]
  · rw [List.map_append, hrequests, hrequests']
  · exact fun e he => (List.mem_append.mp he).elim (hsent e) (hsent' e)
  · rw [hhears, hhears', List.append_assoc]
  · rintro ⟨h, h'⟩
    refine ⟨fun e he => (List.mem_append.mp he).elim ((hok h).1 e) ((hok' h').1 e), fun r hr => ?_⟩
    rcases List.mem_append.mp hr with hr | hr
    · obtain ⟨item, hitem, hend⟩ := (hok h).2 r hr
      exact ⟨item, List.mem_append_left _ hitem, hend⟩
    · obtain ⟨item, hitem, hend⟩ := (hok' h').2 r hr
      exact ⟨item, List.mem_append_right _ hitem, hend⟩

theorem Gives.mono (h : Gives rs es ok s t) (hok : ok' → ok) : Gives rs es ok' s t := by
  obtain ⟨new, H, hjournal, hrequests, hsent, hhears, hall⟩ := h.run
  exact ⟨h.session, h.command, new, H, hjournal, hrequests, hsent, hhears, hall ∘ hok⟩

/-- A step that sends and hears nothing. -/
theorem Gives.of_same (hsession : t.session = s.session) (hcommand : t.command = s.command)
    (hnotification : t.notification = s.notification) (hjournal : t.journal = s.journal) :
    Gives [] [] True s t := by
  refine ⟨hsession, fun h => hcommand ▸ h, [], [], ?_, rfl, fun _ h => absurd h List.not_mem_nil, ?_,
    fun _ => ⟨fun _ h => absurd h List.not_mem_nil, fun _ h => absurd h List.not_mem_nil⟩⟩
  · rw [hjournal, List.append_nil]
  · rw [heard, heard, hnotification, List.nil_append]

/-- Nothing is acquired on the link that is selected. -/
def Idle (s : Session) : Prop := s.created = false ∧ s.connected = false ∧ s.receiving = false

/-- The session is given up, if there is one. -/
def release (session : UInt32) : List Record :=
  if session = 0 then [] else [releaseSession session]

/-- What closing a pair has to do, when it has these links and this session. -/
structure Releases (cs : List LinkState) (session : UInt32) (p : RawPair) (new : List Rpc) : Prop where
  journal : p.close.2.inner.journal = p.inner.journal ++ new
  requests : new.map Rpc.request = cs.reverse.flatMap undo ++ release session
  sent : ∀ e ∈ new, e.sent = true
  granted : (p.close.1.get "cleanup_ok").isTrue = true → (∀ e ∈ new, Succeeded e) ∧
    ∃ H, H <+: heard p.inner ∧ ∀ c ∈ cs, c.receiving = true →
      ∃ item ∈ H, Session.isTerminal c.link c.receiver item = true

end OpenSaab.OpenMdi
