import OpenSaab.J2534.Bridge
import OpenSaab.Library.Runs

/-!
# Where completions come from

For every order of calls and of lines: a completion has been accepted and echoed, a ticket completes
once, and every frame that is not an echo is reported as received.
-/

namespace OpenSaab.J2534

open Can

/-- A transmission that was let through, a line that was taken, or an event that was reported. -/
inductive Entry where
  | sent (c : Fin 3) (tx : Transmission)
  | line (l : List Char)
  | event (e : Event)

namespace Entry

/-- The line of an acceptance. -/
def Accepts (c : Fin 3) (t : UInt64) : Entry → Prop
  | .line l => lineRecord l = some (.ok (.accept c t))
  | _ => False

/-- The line of a frame. -/
def Receives (i : Indication) : Entry → Prop
  | .line l => lineRecord l = some (.ok (.receive i))
  | _ => False

end Entry

/-- The last transmission on a controller, accepted by one line and echoed by the last one. -/
def Confirmed (history : List Entry) (c : Fin 3) (t : UInt64) : Prop :=
  ∃ tx before middle after a e i,
    history = before ++ .sent c tx :: (middle ++ a :: (after ++ [e])) ∧ tx.ticket = t ∧
      Entry.Accepts c t a ∧ Entry.Receives i e ∧ i.controller = c ∧ i.echo = true ∧
      i.frame = tx.frame ∧ (∀ tx', .sent c tx' ∉ middle ++ after) ∧
      ∀ x ∈ before ++ middle ++ after, ¬ x.Accepts c t

/-- A pending transmission is the last on its controller, and is accepted as far as it says so. -/
def Waiting (history : List Entry) (c : Fin 3) (p : Pending) : Prop :=
  if p.accepted then
    ∃ before middle after a, history = before ++ .sent c p.tx :: (middle ++ a :: after) ∧
      Entry.Accepts c p.tx.ticket a ∧ (∀ tx', .sent c tx' ∉ middle ++ after) ∧
      ∀ x ∈ before ++ middle ++ after, ¬ x.Accepts c p.tx.ticket
  else
    ∃ before after, history = before ++ .sent c p.tx :: after ∧ (∀ tx', .sent c tx' ∉ after) ∧
      ∀ x ∈ history, ¬ x.Accepts c p.tx.ticket

/-- How an entry follows from the entries before it. -/
structure Justifies (earlier : List Entry) (e : Entry) : Prop where
  completed : ∀ c t source, e = .event (.completed c t source) →
    (∃ bus : Fin 3, bus.val = c ∧ Confirmed earlier bus t) ∧
      ∀ source', .event (.completed c t source') ∉ earlier
  sent : ∀ c tx tx', e = .sent c tx → .sent c tx' ∈ earlier → tx'.ticket < tx.ticket
  accepted : ∀ c t t', e.Accepts c t → ∀ x ∈ earlier, x.Accepts c t' → t' < t

structure Follows (history : List Entry) (b : Bridge) : Prop where
  justified : Runs.Justified Justifies history
  sent : ∀ c tx, .sent c tx ∈ history → tx.ticket ≤ b.lastTicket c
  accepted : ∀ c t, ∀ x ∈ history, x.Accepts c t → t ≤ b.lastTicket c
  completed : ∀ (c : Fin 3) t source, .event (.completed c t source) ∈ history →
    t ≤ b.lastTicket c ∧ ∀ p, b.pending c = some p → t < p.tx.ticket
  pending : ∀ c p, b.pending c = some p → p.tx.ticket = b.lastTicket c ∧ Waiting history c p

variable {history : List Entry} {b b' : Bridge}

theorem follows_default (now : Nat) : Follows [] (.default now) where
  justified := .nil
  sent := fun _ _ h => absurd h List.not_mem_nil
  accepted := fun _ _ _ h => absurd h List.not_mem_nil
  completed := fun _ _ _ h => absurd h List.not_mem_nil
  pending := fun _ _ h => nomatch h

/-- Only the pending transmissions and the last tickets matter. -/
theorem Follows.of_eq (h : Follows history b) (hpending : b'.pending = b.pending)
    (hlast : b'.lastTicket = b.lastTicket) : Follows history b' := by
  obtain ⟨hj, hs, ha, hc, hp⟩ := h
  rw [← hlast] at hs ha hc hp
  rw [← hpending] at hc hp
  exact ⟨hj, hs, ha, hc, hp⟩

/-- An entry that says nothing of a controller leaves what waits there. -/
theorem Waiting.snoc {c : Fin 3} {p : Pending} {e : Entry} (h : Waiting history c p)
    (hsent : ∀ tx, e ≠ .sent c tx) (haccept : ¬ e.Accepts c p.tx.ticket) :
    Waiting (history ++ [e]) c p := by
  unfold Waiting at *
  split_ifs at h ⊢ with hp
  · obtain ⟨before, middle, after, a, rfl, ha, hs, hx⟩ := h
    refine ⟨before, middle, after ++ [e], a, by simp, ha, fun tx' => ?_, fun x hx' => ?_⟩
    · have := hs tx'
      have := hsent tx'
      simp only [List.mem_append, List.mem_singleton, not_or] at *
      exact ⟨by tauto, by tauto, fun h => hsent tx' h.symm⟩
    · simp only [List.mem_append, List.mem_singleton] at hx'
      rcases hx' with (hx' | hx') | hx' | rfl
      · exact hx x (by simp [hx'])
      · exact hx x (by simp [hx'])
      · exact hx x (by simp [hx'])
      · exact haccept
  · obtain ⟨before, after, rfl, hs, hx⟩ := h
    refine ⟨before, after ++ [e], by simp, fun tx' => ?_, fun x hx' => ?_⟩
    · rw [List.mem_append, List.mem_singleton, not_or]
      exact ⟨hs tx', fun h => hsent tx' h.symm⟩
    · rcases List.mem_append.mp hx' with hx' | hx'
      · exact hx x hx'
      · rw [List.mem_singleton.mp hx']
        exact haccept

/-! ## What a transmission does -/

theorem send_frame (b : Bridge) (line : List Char) (logged : Bool) :
    (b.send line logged).1.pending = b.pending ∧
      (b.send line logged).1.lastTicket = b.lastTicket := by
  unfold Bridge.send
  split_ifs
  · exact ⟨rfl, rfl⟩
  · cases hinput : b.input with
    | none => exact ⟨rfl, rfl⟩
    | some q =>
      dsimp only
      cases q.trySend line <;> exact ⟨rfl, rfl⟩

theorem transmit_cases (b : Bridge) (controller : Nat) (tx : Transmission) (now : Nat)
    (logged : Bool) :
    (∃ c : Fin 3, c.val = controller ∧ (b.transmit controller tx now logged).2 = .ok () ∧
      b.pending c = none ∧ b.lastTicket c < tx.ticket ∧
      (b.transmit controller tx now logged).1.pending =
        Function.update b.pending c (some ⟨tx, false, now + 2 * Bridge.second⟩) ∧
      (b.transmit controller tx now logged).1.lastTicket =
        Function.update b.lastTicket c tx.ticket) ∨
    ∃ e, (b.transmit controller tx now logged).2 = .error e ∧
      (b.transmit controller tx now logged).1.pending = b.pending ∧
      (b.transmit controller tx now logged).1.lastTicket = b.lastTicket := by
  unfold Bridge.transmit
  cases encode controller tx with
  | error e => exact .inr ⟨e, rfl, rfl, rfl⟩
  | ok line =>
    dsimp only
    split_ifs with hc hrefused
    · exact .inr ⟨_, rfl, rfl, rfl⟩
    · obtain ⟨hpending, hlast⟩ := send_frame b line logged
      simp only [not_or] at hrefused
      obtain ⟨-, -, hfree, hticket⟩ := hrefused
      rcases hsend : b.send line logged with ⟨b', e | u⟩
      · rw [hsend] at hpending hlast
        exact .inr ⟨e, rfl, hpending, hlast⟩
      · rw [hsend] at hpending hlast
        dsimp only at hpending hlast ⊢
        rw [hpending, hlast]
        exact .inl ⟨⟨controller, hc⟩, rfl, rfl, by simpa using hfree,
          UInt64.not_le.mp hticket, rfl, rfl⟩
    · exact .inr ⟨_, rfl, rfl, rfl⟩

theorem Follows.sends (h : Follows history b) {c : Fin 3} {tx : Transmission} {deadline : Nat}
    (hfree : b.pending c = none) (hticket : b.lastTicket c < tx.ticket)
    (hpending : b'.pending = Function.update b.pending c (some ⟨tx, false, deadline⟩))
    (hlast : b'.lastTicket = Function.update b.lastTicket c tx.ticket) :
    Follows (history ++ [.sent c tx]) b' := by
  have hle : ∀ c' t, t ≤ b.lastTicket c' → t ≤ b'.lastTicket c' := by
    intro c' t ht
    rw [hlast]
    by_cases hc : c' = c
    · subst hc
      rw [Function.update_self]
      exact UInt64.le_trans ht (UInt64.le_of_lt hticket)
    · rwa [Function.update_of_ne hc]
  refine ⟨h.justified.snoc ⟨?_, ?_, ?_⟩, ?_, ?_, ?_, ?_⟩
  · exact fun c t source heq => by cases heq
  · rintro c' tx₁ tx' heq hmem
    cases heq
    exact UInt64.lt_of_le_of_lt (h.sent c tx' hmem) hticket
  · exact fun c t t' ha => ha.elim
  · intro c' tx' hmem
    rcases List.mem_append.mp hmem with hmem | hmem
    · exact hle c' _ (h.sent c' tx' hmem)
    · cases List.mem_singleton.mp hmem
      rw [hlast, Function.update_self]
      exact UInt64.le_refl _
  · intro c' t x hx hacc
    rcases List.mem_append.mp hx with hx | hx
    · exact hle c' t (h.accepted c' t x hx hacc)
    · cases List.mem_singleton.mp hx
      exact hacc.elim
  · intro c' t source hmem
    rcases List.mem_append.mp hmem with hmem | hmem
    · obtain ⟨ht, hp⟩ := h.completed c' t source hmem
      refine ⟨hle c' t ht, fun p hp' => ?_⟩
      rw [hpending] at hp'
      by_cases hc : c' = c
      · subst hc
        rw [Function.update_self] at hp'
        cases hp'
        exact UInt64.lt_of_le_of_lt ht hticket
      · rw [Function.update_of_ne hc] at hp'
        exact hp p hp'
    · cases List.mem_singleton.mp hmem
  · intro c' p hp
    rw [hpending] at hp
    by_cases hc : c' = c
    · subst hc
      rw [Function.update_self] at hp
      cases hp
      rw [hlast, Function.update_self]
      refine ⟨rfl, ?_⟩
      unfold Waiting
      rw [if_neg Bool.false_ne_true]
      refine ⟨history, [], rfl, fun tx' h => absurd h List.not_mem_nil, fun x hx hacc => ?_⟩
      rcases List.mem_append.mp hx with hx | hx
      · exact UInt64.not_le.mpr hticket (h.accepted c' _ x hx hacc)
      · cases List.mem_singleton.mp hx
        exact hacc.elim
    · rw [Function.update_of_ne hc] at hp
      obtain ⟨ht, hw⟩ := h.pending c' p hp
      rw [hlast, Function.update_of_ne hc]
      exact ⟨ht, hw.snoc (fun tx' heq => hc (by cases heq; rfl)) id⟩

/-! ## What a line does -/

theorem Entry.Accepts.unique {c c' : Fin 3} {t t' : UInt64} {e : Entry} (h : e.Accepts c t)
    (h' : e.Accepts c' t') : c' = c ∧ t' = t := by
  cases e with
  | line l =>
    have heq := h.symm.trans h'
    simp only [Option.some.injEq, Except.ok.injEq, Record.accept.injEq] at heq
    exact ⟨(Fin.ext heq.1).symm, heq.2.symm⟩
  | sent c tx => exact h.elim
  | event e => exact h.elim

theorem Entry.Receives.not_accepts {i : Indication} {c : Fin 3} {t : UInt64} {e : Entry}
    (h : e.Receives i) : ¬ e.Accepts c t := by
  intro h'
  cases e with
  | line l => exact absurd (h.symm.trans h') (by simp)
  | sent c tx => exact h
  | event e => exact h

theorem accept_cases {controller : Nat} {ticket : UInt64} (h : b.accept controller ticket = .ok b') :
    ∃ (c : Fin 3) (p : Pending), c.val = controller ∧ b.pending c = some p ∧ p.tx.ticket = ticket ∧
      p.accepted = false ∧
      b'.pending = Function.update b.pending c (some { p with accepted := true }) ∧
      b'.lastTicket = b.lastTicket := by
  unfold Bridge.accept at h
  split_ifs at h with hc
  dsimp only at h
  cases hp : b.pending ⟨controller, hc⟩ with
  | none => rw [hp] at h; cases h
  | some p =>
    rw [hp] at h
    dsimp only at h
    split_ifs at h with hrefused
    simp only [ne_eq, not_or, not_not, Bool.not_eq_true] at hrefused
    cases h
    exact ⟨⟨controller, hc⟩, p, rfl, hp, hrefused.1, hrefused.2, rfl, rfl⟩

/-- A line without an event accepts what waits, or says nothing of the transmissions. -/
theorem take_quiet {line : List Char} (h : b.take line = .ok (b', none)) :
    (∀ i, lineRecord line ≠ some (.ok (.receive i))) ∧
      (((∀ c t, ¬ Entry.Accepts c t (.line line)) ∧ b'.pending = b.pending ∧
          b'.lastTicket = b.lastTicket) ∨
        ∃ c p, Entry.Accepts c p.tx.ticket (.line line) ∧ b.pending c = some p ∧
          p.accepted = false ∧
          b'.pending = Function.update b.pending c (some { p with accepted := true }) ∧
          b'.lastTicket = b.lastTicket) := by
  unfold Bridge.take at h
  simp only [Entry.Accepts]
  cases hrecord : lineRecord line with
  | none => rw [hrecord] at h; cases h; simp
  | some r =>
    rw [hrecord] at h
    cases r with
    | error e => cases h
    | ok r =>
      cases r with
      | note => cases h; simp
      | ready =>
        dsimp only at h
        split_ifs at h
        cases h
        simp
      | accept c t =>
        refine ⟨fun i => by simp, .inr ?_⟩
        dsimp only at h
        cases haccept : b.accept c t with
        | error e => rw [haccept] at h; cases h
        | ok b₁ =>
          rw [haccept] at h
          cases h
          obtain ⟨c, p, rfl, hp, rfl, hfree, hpending, hlast⟩ := accept_cases haccept
          exact ⟨c, p, rfl, hp, hfree, hpending, hlast⟩
      | receive i =>
        dsimp only at h
        cases hreceive : b.receive i with
        | error e => rw [hreceive] at h; cases h
        | ok r => rw [hreceive] at h; cases h

/-- A line with an event is that of a frame. -/
theorem take_event {line : List Char} {e : Event} (h : b.take line = .ok (b', some e)) :
    ∃ i, lineRecord line = some (.ok (.receive i)) ∧ b.receive i = .ok (b', e) := by
  unfold Bridge.take at h
  cases hrecord : lineRecord line with
  | none => rw [hrecord] at h; cases h
  | some r =>
    rw [hrecord] at h
    cases r with
    | error e => cases h
    | ok r =>
      cases r with
      | note => cases h
      | ready => dsimp only at h; split_ifs at h; cases h
      | accept c t =>
        dsimp only at h
        cases haccept : b.accept c t with
        | error e => rw [haccept] at h; cases h
        | ok b₁ => rw [haccept] at h; cases h
      | receive i =>
        dsimp only at h
        refine ⟨i, rfl, ?_⟩
        cases hreceive : b.receive i with
        | error e => rw [hreceive] at h; cases h
        | ok r => rw [hreceive] at h; cases h; rfl

/-- A frame is reported, and an echo completes what it is the echo of. -/
theorem receive_cases {i : Indication} {e : Event} (h : b.receive i = .ok (b', e)) :
    (i.echo = false ∧ b' = b ∧ e = .received i.controller i.frame) ∨
      ∃ p, i.echo = true ∧ b.pending i.controller = some p ∧ p.accepted = true ∧
        i.frame = p.tx.frame ∧ e = .completed i.controller p.tx.ticket .j2534SoftwareLoopback ∧
        b'.pending = Function.update b.pending i.controller none ∧ b'.lastTicket = b.lastTicket := by
  unfold Bridge.receive at h
  split_ifs at h with hecho
  · cases h
    exact .inl ⟨by simpa using hecho, rfl, rfl⟩
  · unfold confirmedTicket at h
    cases hp : b.pending i.controller with
    | none => rw [hp] at h; cases h
    | some p =>
      rw [hp] at h
      dsimp only at h
      split_ifs at h with hrefused
      cases h
      simp only [Bool.or_eq_true, Bool.not_eq_true', bne_iff_ne, ne_eq, not_or, not_not,
        Bool.not_eq_false] at hrefused
      exact .inr ⟨p, by simpa using hecho, rfl, hrefused.1, hrefused.2.symm, rfl, rfl, rfl⟩

/-- An entry that says nothing of a transmission. -/
theorem Follows.other (h : Follows history b) {e : Entry} (hsent : ∀ c tx, e ≠ .sent c tx)
    (haccept : ∀ c t, ¬ e.Accepts c t) (hcompleted : ∀ c t source, e ≠ .event (.completed c t source)) :
    Follows (history ++ [e]) b where
  justified := h.justified.snoc
    ⟨fun c t source heq => absurd heq (hcompleted c t source),
      fun c tx _ heq => absurd heq (hsent c tx), fun c t _ ha => absurd ha (haccept c t)⟩
  sent := fun c tx hmem => (List.mem_append.mp hmem).elim (h.sent c tx)
    fun hmem => absurd (List.mem_singleton.mp hmem).symm (hsent c tx)
  accepted := fun c t x hx hacc => (List.mem_append.mp hx).elim (h.accepted c t x · hacc)
    fun hx => absurd (List.mem_singleton.mp hx ▸ hacc) (haccept c t)
  completed := fun c t source hmem => (List.mem_append.mp hmem).elim (h.completed c t source)
    fun hmem => absurd (List.mem_singleton.mp hmem).symm (hcompleted c t source)
  pending := fun c p hp =>
    ⟨(h.pending c p hp).1, (h.pending c p hp).2.snoc (fun tx => hsent c tx) (haccept c _)⟩

theorem Waiting.accepts {c : Fin 3} {p : Pending} {e : Entry} (h : Waiting history c p)
    (hfree : p.accepted = false) (ha : e.Accepts c p.tx.ticket) :
    Waiting (history ++ [e]) c { p with accepted := true } := by
  unfold Waiting at *
  rw [hfree, if_neg Bool.false_ne_true] at h
  obtain ⟨before, after, rfl, hs, hx⟩ := h
  rw [if_pos rfl]
  refine ⟨before, after, [], e, by simp, ha, by simpa using hs, fun x hmem => hx x ?_⟩
  simp only [List.append_nil, List.mem_append, List.mem_cons] at hmem ⊢
  tauto

theorem Follows.accepts (h : Follows history b) {line : List Char} {c : Fin 3} {p : Pending}
    (ha : Entry.Accepts c p.tx.ticket (.line line)) (hp : b.pending c = some p)
    (hfree : p.accepted = false)
    (hpending : b'.pending = Function.update b.pending c (some { p with accepted := true }))
    (hlast : b'.lastTicket = b.lastTicket) : Follows (history ++ [.line line]) b' := by
  obtain ⟨hticket, hwaiting⟩ := h.pending c p hp
  refine ⟨h.justified.snoc
    ⟨fun _ _ _ heq => (by cases heq), fun _ _ _ heq => (by cases heq), ?_⟩, ?_, ?_, ?_, ?_⟩
  · intro c' t t' ha' x hx hacc
    obtain ⟨rfl, rfl⟩ := ha.unique ha'
    refine UInt64.lt_of_le_of_ne (hticket ▸ h.accepted _ t' x hx hacc) ?_
    rintro rfl
    unfold Waiting at hwaiting
    rw [hfree, if_neg Bool.false_ne_true] at hwaiting
    obtain ⟨-, -, -, -, hnone⟩ := hwaiting
    exact hnone x hx hacc
  · intro c' tx hmem
    rw [hlast]
    rcases List.mem_append.mp hmem with hmem | hmem
    · exact h.sent c' tx hmem
    · cases List.mem_singleton.mp hmem
  · intro c' t x hx hacc
    rw [hlast]
    rcases List.mem_append.mp hx with hx | hx
    · exact h.accepted c' t x hx hacc
    · rw [List.mem_singleton.mp hx] at hacc
      obtain ⟨rfl, rfl⟩ := ha.unique hacc
      exact UInt64.le_of_eq hticket
  · intro c' t source hmem
    rw [hlast, hpending]
    rcases List.mem_append.mp hmem with hmem | hmem
    · obtain ⟨ht, hbelow⟩ := h.completed c' t source hmem
      refine ⟨ht, fun p' hp' => ?_⟩
      by_cases hc : c' = c
      · subst hc
        rw [Function.update_self] at hp'
        cases hp'
        exact hbelow p hp
      · rw [Function.update_of_ne hc] at hp'
        exact hbelow p' hp'
    · cases List.mem_singleton.mp hmem
  · intro c' p' hp'
    rw [hpending] at hp'
    rw [hlast]
    by_cases hc : c' = c
    · subst hc
      rw [Function.update_self] at hp'
      cases hp'
      exact ⟨hticket, hwaiting.accepts hfree ha⟩
    · rw [Function.update_of_ne hc] at hp'
      obtain ⟨ht, hw⟩ := h.pending c' p' hp'
      exact ⟨ht, hw.snoc (fun tx heq => by cases heq) fun hacc => hc (ha.unique hacc).1⟩

/-- What waits, accepted, and is echoed now is confirmed. -/
theorem Waiting.confirmed {c : Fin 3} {p : Pending} {e : Entry} {i : Indication}
    (h : Waiting history c p) (hacc : p.accepted = true) (hi : e.Receives i)
    (hc : i.controller = c) (hecho : i.echo = true) (hframe : i.frame = p.tx.frame) :
    Confirmed (history ++ [e]) c p.tx.ticket := by
  unfold Waiting at h
  rw [if_pos hacc] at h
  obtain ⟨before, middle, after, a, rfl, ha, hs, hx⟩ := h
  exact ⟨p.tx, before, middle, after, a, e, i, by simp, rfl, ha, hi, hc, hecho, hframe, hs, hx⟩

/-- A confirmed ticket above all that completed on its controller, where nothing waits any more. -/
theorem Follows.completes (h : Follows history b) {c : Fin 3} {t : UInt64}
    {source : CompletionSource} (hconfirmed : Confirmed history c t)
    (hlast : t = b.lastTicket c) (hnone : b.pending c = none)
    (hnew : ∀ source', .event (.completed c t source') ∉ history) :
    Follows (history ++ [.event (.completed c t source)]) b := by
  refine ⟨h.justified.snoc ⟨?_, fun _ _ _ heq => (by cases heq), fun _ _ _ ha => ha.elim⟩,
    ?_, ?_, ?_, ?_⟩
  · rintro c' t' source' heq
    cases heq
    exact ⟨⟨c, rfl, hconfirmed⟩, hnew⟩
  · intro c' tx hmem
    rcases List.mem_append.mp hmem with hmem | hmem
    · exact h.sent c' tx hmem
    · cases List.mem_singleton.mp hmem
  · intro c' t' x hx hacc
    rcases List.mem_append.mp hx with hx | hx
    · exact h.accepted c' t' x hx hacc
    · cases List.mem_singleton.mp hx
      exact hacc.elim
  · intro c' t' source' hmem
    rcases List.mem_append.mp hmem with hmem | hmem
    · exact h.completed c' t' source' hmem
    · have heq := List.mem_singleton.mp hmem
      simp only [Entry.event.injEq, Event.completed.injEq] at heq
      obtain ⟨hc, rfl, rfl⟩ := heq
      rw [Fin.ext hc, hlast, hnone]
      exact ⟨UInt64.le_refl _, fun p hp => nomatch hp⟩
  · intro c' p hp
    exact ⟨(h.pending c' p hp).1, (h.pending c' p hp).2.snoc (fun tx heq => by cases heq) id⟩

/-- What waited on a controller waits no more. -/
theorem Follows.clears (h : Follows history b) {c : Fin 3}
    (hpending : b'.pending = Function.update b.pending c none)
    (hlast : b'.lastTicket = b.lastTicket) : Follows history b' := by
  have hstill : ∀ c' p, b'.pending c' = some p → b.pending c' = some p := by
    intro c' p hp
    rw [hpending, Function.update_apply] at hp
    split_ifs at hp
    exact hp
  refine ⟨h.justified, ?_, ?_, ?_, ?_⟩
  · rw [hlast]
    exact h.sent
  · rw [hlast]
    exact h.accepted
  · intro c' t source hmem
    rw [hlast]
    exact ⟨(h.completed c' t source hmem).1,
      fun p hp => (h.completed c' t source hmem).2 p (hstill c' p hp)⟩
  · intro c' p hp
    rw [hlast]
    exact h.pending c' p (hstill c' p hp)

theorem Follows.takes_quiet (h : Follows history b) {line : List Char}
    (hok : b.take line = .ok (b', none)) : Follows (history ++ [.line line]) b' := by
  obtain ⟨-, ⟨hquiet, hpending, hlast⟩ | ⟨c, p, ha, hp, hfree, hpending, hlast⟩⟩ := take_quiet hok
  · exact (h.other (fun _ _ heq => by cases heq) hquiet fun _ _ _ heq => by cases heq).of_eq
      hpending hlast
  · exact h.accepts ha hp hfree hpending hlast

theorem Follows.takes_event (h : Follows history b) {line : List Char} {e : Event}
    (hok : b.take line = .ok (b', some e)) :
    Follows (history ++ [.line line]) b' ∧ Follows (history ++ [.line line] ++ [.event e]) b' := by
  obtain ⟨i, hrecord, hreceive⟩ := take_event hok
  have hi : Entry.Receives i (.line line) := hrecord
  have hline : Follows (history ++ [.line line]) b :=
    h.other (fun _ _ heq => by cases heq) (fun _ _ => hi.not_accepts) fun _ _ _ heq => by cases heq
  obtain ⟨-, rfl, rfl⟩ | ⟨p, hecho, hp, hacc, hframe, rfl, hpending, hlast⟩ := receive_cases hreceive
  · exact ⟨hline, hline.other (fun _ _ heq => by cases heq) (fun _ _ => id)
      fun _ _ _ heq => by cases heq⟩
  · have hcleared : Follows (history ++ [.line line]) b' := hline.clears hpending hlast
    obtain ⟨hticket, hwaiting⟩ := h.pending i.controller p hp
    refine ⟨hcleared, hcleared.completes (hwaiting.confirmed hacc hi rfl hecho hframe)
      (by rw [hlast, hticket]) (by rw [hpending, Function.update_self]) fun source' hmem => ?_⟩
    rcases List.mem_append.mp hmem with hmem | hmem
    · exact UInt64.lt_irrefl _ ((h.completed i.controller _ source' hmem).2 p hp)
    · cases List.mem_singleton.mp hmem

/-! ## What a poll does -/

theorem Follows.drains (h : Follows history b) (written : Nat → Bool) (n : Nat) :
    Follows (history ++ (b.drain written n).taken.map .line) (b.drain written n).bridge ∧
      ∀ events, (b.drain written n).result = .ok events →
        Follows (history ++ (b.drain written n).taken.map .line ++ events.map .event)
          (b.drain written n).bridge := by
  induction n generalizing b history with
  | zero => 
    refine ⟨by simpa [Bridge.drain] using h, fun events hok => ?_⟩
    cases hok
    simpa [Bridge.drain] using h
  | succ n ih =>
    unfold Bridge.drain
    cases houtput : b.output with
    | nil =>
      refine ⟨by simpa using h, fun events hok => ?_⟩
      dsimp only at hok
      split_ifs at hok
      cases hok
      simpa using h
    | cons line rest =>
      dsimp only
      have hrest : Follows history { b with output := rest } := h.of_eq rfl rfl
      split_ifs
      · exact ⟨by simpa using hrest, fun events hok => by cases hok⟩
      · rcases htake : Bridge.take { b with output := rest } line with e | ⟨b', _ | e⟩
        · exact ⟨by simpa using hrest, fun events hok => by cases hok⟩
        · simpa using ih (hrest.takes_quiet htake)
        · obtain ⟨hline, hevent⟩ := hrest.takes_event htake
          refine ⟨by simpa using hline, fun events hok => ?_⟩
          cases hok
          simpa using hevent

theorem settle_frame (b : Bridge) (s : Surroundings) (events : List Event) :
    (b.settle s events).1.pending = b.pending ∧ (b.settle s events).1.lastTicket = b.lastTicket := by
  have hsend := send_frame b "PING".toList s.logged
  unfold Bridge.settle
  split_ifs
  · exact ⟨rfl, rfl⟩
  · cases s.exited with
    | some e => exact ⟨rfl, rfl⟩
    | none =>
      rcases hping : b.send "PING".toList s.logged with ⟨b', e | u⟩
      · rw [hping] at hsend
        exact hsend
      · rw [hping] at hsend
        exact hsend
  · cases s.exited <;> exact ⟨rfl, rfl⟩

/-- A poll that ends well reports what its loop has made. -/
theorem settle_ok {s : Surroundings} {events events' : List Event}
    (h : (b.settle s events).2 = .ok events') : events' = events := by
  have hflush : ∀ b' : Bridge, (b', s.flushed.map fun _ => events).2 = .ok events' →
      events' = events := by
    intro _ h
    cases hf : s.flushed with
    | error e => rw [hf] at h; cases h
    | ok u => rw [hf] at h; cases h; rfl
  unfold Bridge.settle at h
  split_ifs at h
  · cases hexit : s.exited with
    | some e => rw [hexit] at h; cases h
    | none =>
      rw [hexit] at h
      rcases hping : b.send "PING".toList s.logged with ⟨b', e | u⟩
      · rw [hping] at h
        cases h
      · rw [hping] at h
        exact hflush _ h
  · cases hexit : s.exited with
    | some e => rw [hexit] at h; cases h
    | none =>
      rw [hexit] at h
      exact hflush _ h

theorem poll_frame (h : Follows history b) (s : Surroundings) :
    Follows (history ++ (b.taken s).map .line) (b.poll s).1 ∧
      ∀ events, (b.poll s).2 = .ok events →
        Follows (history ++ (b.taken s).map .line ++ events.map .event) (b.poll s).1 := by
  unfold Bridge.poll Bridge.taken
  split_ifs
  · exact ⟨by simpa using h, fun events hok => by cases hok⟩
  · have hdrain := h.drains s.written Bridge.pollLines
    rcases hd : b.drain s.written Bridge.pollLines with ⟨b', taken, e | events⟩
    · rw [hd] at hdrain
      exact ⟨hdrain.1, fun events hok => by cases hok⟩
    · rw [hd] at hdrain
      obtain ⟨hpending, hlast⟩ := settle_frame b' s events
      refine ⟨hdrain.1.of_eq hpending hlast, fun events' hok => ?_⟩
      rw [settle_ok hok]
      exact (hdrain.2 events rfl).of_eq hpending hlast

/-! ## The frames of the bus -/

def lineIndication (line : List Char) : Option Indication :=
  match lineRecord line with
  | some (.ok (.receive i)) => some i
  | _ => none

/-- The bus, and the frame that is received on it unless it is an echo. -/
def Indication.report (i : Indication) : Nat × Option Frame :=
  (i.controller, if i.echo then none else some i.frame)

/-- The bus, and the frame that is received on it unless a transmission completes. -/
def report : Event → Nat × Option Frame
  | .completed c _ _ => (c, none)
  | .received c f => (c, some f)

theorem receive_report {i : Indication} {e : Event} (h : b.receive i = .ok (b', e)) :
    report e = i.report := by
  rcases receive_cases h with ⟨hecho, -, rfl⟩ | ⟨p, hecho, -, -, -, rfl, -⟩
  · rw [Indication.report, hecho]
    rfl
  · rw [Indication.report, hecho]
    rfl

theorem drain_reports (b : Bridge) (written : Nat → Bool) (n : Nat) {events : List Event}
    (h : (b.drain written n).result = .ok events) :
    events.map report = ((b.drain written n).taken.filterMap lineIndication).map Indication.report := by
  induction n generalizing b with
  | zero =>
    cases h
    rfl
  | succ n ih =>
    unfold Bridge.drain at h ⊢
    cases houtput : b.output with
    | nil =>
      rw [houtput] at h
      dsimp only at h
      split_ifs at h
      cases h
      rfl
    | cons line rest =>
      rw [houtput] at h
      dsimp only at h ⊢
      split_ifs at h ⊢
      rcases htake : Bridge.take { b with output := rest } line with e | ⟨b', _ | e⟩
      · rw [htake] at h
        cases h
      · rw [htake] at h
        have hnone : lineIndication line = none := by
          unfold lineIndication
          split
          next i hi => exact absurd hi ((take_quiet htake).1 i)
          next => rfl
        simpa [hnone] using ih b' h
      · rw [htake] at h
        cases h
        obtain ⟨i, hrecord, hreceive⟩ := take_event htake
        have hsome : lineIndication line = some i := by
          unfold lineIndication
          rw [hrecord]
        simp [hsome, receive_report hreceive]

/-- Every frame of the bus that is no echo is received, once and in order. -/
theorem poll_reports (b : Bridge) (s : Surroundings) {events : List Event}
    (h : (b.poll s).2 = .ok events) :
    events.map report = ((b.taken s).filterMap lineIndication).map Indication.report := by
  unfold Bridge.poll at h
  unfold Bridge.taken
  split_ifs at h ⊢
  rcases hd : b.drain s.written Bridge.pollLines with ⟨b', taken, e | events'⟩
  · rw [hd] at h
    cases h
  · have hresult : (b.drain s.written Bridge.pollLines).result = .ok events' := by rw [hd]
    have hreports := drain_reports b s.written Bridge.pollLines hresult
    rw [hd] at h hreports
    rw [settle_ok h]
    exact hreports

/-! ## Whole runs -/

theorem drain_completes {written : Nat → Bool} {n : Nat} {events : List Event} {c : Nat}
    {t : UInt64} {source : CompletionSource} (h : (b.drain written n).result = .ok events)
    (hmem : .completed c t source ∈ events) :
    ∃ (bus : Fin 3) (p : Pending), bus.val = c ∧ b.pending bus = some p ∧ p.tx.ticket = t := by
  induction n generalizing b with
  | zero =>
    cases h
    cases hmem
  | succ n ih =>
    unfold Bridge.drain at h
    cases houtput : b.output with
    | nil =>
      rw [houtput] at h
      dsimp only at h
      split_ifs at h
      cases h
      cases hmem
    | cons line rest =>
      rw [houtput] at h
      dsimp only at h
      split_ifs at h
      rcases htake : Bridge.take { b with output := rest } line with e | ⟨b', _ | e⟩
      · rw [htake] at h
        cases h
      · rw [htake] at h
        obtain ⟨bus, p, rfl, hp, rfl⟩ := ih h
        obtain ⟨-, ⟨-, hpending, -⟩ | ⟨c, q, -, hq, -, hpending, -⟩⟩ := take_quiet htake
        · exact ⟨bus, p, rfl, by rw [← hp, hpending], rfl⟩
        · rw [hpending, Function.update_apply] at hp
          split_ifs at hp with hc
          · cases hp
            exact ⟨bus, q, rfl, by rw [hc]; exact hq, rfl⟩
          · exact ⟨bus, p, rfl, hp, rfl⟩
      · rw [htake] at h
        cases h
        cases List.mem_singleton.mp hmem
        obtain ⟨i, -, hreceive⟩ := take_event htake
        obtain ⟨-, -, heq⟩ | ⟨p, -, hp, -, -, heq, -⟩ := receive_cases hreceive
        · cases heq
        · cases heq
          exact ⟨i.controller, p, rfl, hp, rfl⟩

/-- What completes was pending. -/
theorem poll_completes {s : Surroundings} {events : List Event} {c : Nat} {t : UInt64}
    {source : CompletionSource} (h : (b.poll s).2 = .ok events)
    (hmem : .completed c t source ∈ events) :
    ∃ (bus : Fin 3) (p : Pending), bus.val = c ∧ b.pending bus = some p ∧ p.tx.ticket = t := by
  unfold Bridge.poll at h
  split_ifs at h
  rcases hd : b.drain s.written Bridge.pollLines with ⟨b', taken, e | events'⟩
  · rw [hd] at h
    cases h
  · rw [hd] at h
    rw [settle_ok h] at hmem
    exact drain_completes (by rw [hd]) hmem

namespace Bridge

/-- What a step adds to the history. -/
def out (b : Bridge) : Op → List Entry
  | .transmit controller tx now logged =>
    match (b.transmit controller tx now logged).2 with
    | .ok () => if hc : controller < 3 then [.sent ⟨controller, hc⟩ tx] else []
    | .error _ => []
  | .poll s =>
    (b.taken s).map .line ++
      match (b.poll s).2 with
      | .ok events => events.map .event
      | .error _ => []
  | _ => []

def entries (now : Nat) (ops : List Op) : List Entry := Runs.log step out (default now) ops

end Bridge

theorem follows_step (b : Bridge) (op : Bridge.Op) (history : List Entry) (h : Follows history b) :
    Follows (history ++ b.out op) (b.step op) := by
  have hkeep : ∀ b' : Bridge, b'.pending = b.pending → b'.lastTicket = b.lastTicket →
      Follows (history ++ []) b' := by
    intro b' hpending hlast
    rw [List.append_nil]
    exact h.of_eq hpending hlast
  cases op with
  | transmit controller tx now logged =>
    rcases transmit_cases b controller tx now logged with
      ⟨c, rfl, hok, hfree, hticket, hpending, hlast⟩ | ⟨e, he, hpending, hlast⟩
    · simp only [Bridge.out, hok, c.isLt, ↓reduceDIte]
      exact h.sends hfree hticket hpending hlast
    · simp only [Bridge.out, he, List.append_nil]
      exact h.of_eq hpending hlast
  | poll s =>
    obtain ⟨hlines, hevents⟩ := poll_frame h s
    cases hpoll : (b.poll s).2 with
    | error e => simpa only [Bridge.out, Bridge.step, hpoll, List.append_nil] using hlines
    | ok events =>
      simpa only [Bridge.out, Bridge.step, hpoll, List.append_assoc] using hevents events hpoll
  | connect logged =>
    obtain ⟨hpending, hlast⟩ := send_frame { b with input := some ⟨16, [], true⟩ } "PING".toList logged
    exact hkeep _ hpending hlast
  | _ => exact hkeep _ rfl rfl

/-- In every run, whatever the helper prints: what completes was pending, had been accepted by one
line and was echoed; the frames that are no echoes are received; and a transmission that fails
leaves no trace. -/
theorem completions_justified (now : Nat) (ops : List Bridge.Op) :
    Runs.Justified Justifies (Bridge.entries now ops) ∧
      (∀ (b : Bridge) (s : Surroundings) (events : List Event), (b.poll s).2 = .ok events →
        events.map report = ((b.taken s).filterMap lineIndication).map Indication.report ∧
          ∀ c t source, .completed c t source ∈ events →
            ∃ (bus : Fin 3) (p : Pending), bus.val = c ∧ b.pending bus = some p ∧ p.tx.ticket = t) ∧
      ∀ (b : Bridge) (controller : Nat) (tx : Transmission) (now : Nat) (logged : Bool) (e : String),
        (b.transmit controller tx now logged).2 = .error e →
          (b.transmit controller tx now logged).1.pending = b.pending ∧
            (b.transmit controller tx now logged).1.lastTicket = b.lastTicket := by
  refine ⟨?_, fun b s events h => ⟨poll_reports b s h, fun c t source => poll_completes h⟩,
    fun b controller tx now logged e he => ?_⟩
  · have h := Runs.log_keeps follows_step ops (follows_default now)
    rw [List.nil_append] at h
    exact h.justified
  · rcases transmit_cases b controller tx now logged with ⟨-, -, hok, -⟩ | ⟨-, -, h⟩
    · cases hok.symm.trans he
    · exact h

end OpenSaab.J2534
