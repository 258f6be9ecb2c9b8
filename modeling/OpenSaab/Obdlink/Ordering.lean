import OpenSaab.Obdlink.Watch

/-!
# The order on the link

For every answer of the surroundings: one command is open at a time, a request of the guest is sent
once and completed after its prompt, frames are reported as they come, and nothing but the end follows
an uncertain exchange.
-/

namespace OpenSaab.Obdlink

open Can Program

variable {t : List Entry} {e : Entry}

/-! ## The invariant -/

/-- The fields of the link are what its trace says. -/
structure Tells (queue : List (Nat × Transmission)) (trace : List Entry) (w : Watch)
    (receiving monitoring synchronized : Bool) (left : List (Nat × Transmission)) : Prop where
  legal : Runs.Justified Legally trace
  certain : synchronized = true → w.certain = true
  receiving : receiving = w.waiting.isSome
  monitoring : monitoring = decide (w.waiting = some "STM".toList)
  lag : (trace.flatMap Entry.reports).Sublist (trace.flatMap Entry.frames)
  queue : trace.flatMap Entry.takes ++ left = queue

def Told (queue : List (Nat × Transmission)) (s : Link) : Prop :=
  Tells queue s.trace (watch s.trace) s.receiving s.monitoring s.synchronized s.queue

/-- These frames are still to be reported, unless something has failed. -/
def Owes (rest : List (Nat × Frame)) (t : List Entry) : Prop :=
  (t.flatMap Entry.reports ++ rest).Sublist (t.flatMap Entry.frames) ∧
    (t.flatMap Entry.reports ++ rest = t.flatMap Entry.frames ∨
      ∃ message context, .failed message context ∈ t)

variable {queue : List (Nat × Transmission)} {s : Link} {K : Watch → Prop}

/-- The invariant where the link stands as `K` says and owes these frames. -/
def Owing (queue : List (Nat × Transmission)) (rest : List (Nat × Frame)) (K : Watch → Prop)
    (s : Link) : Prop :=
  Told queue s ∧ Owes rest s.trace ∧ K (watch s.trace)

abbrev Held (queue : List (Nat × Transmission)) (K : Watch → Prop) (s : Link) : Prop :=
  Owing queue [] K s

/-- What a failure leaves: a frame may be lost, but not where the run is only looked at no further. -/
def Ends (queue : List (Nat × Transmission)) (h : Halt) (s : Link) : Prop :=
  Told queue s ∧ (h = .exhausted → Owes [] s.trace)

theorem Owing.told {rest : List (Nat × Frame)} (h : Owing queue rest K s) : Told queue s := h.1

theorem Told.ends (h : Told queue s) (message : String) : Ends queue (.failed message) s :=
  ⟨h, fun heq => nomatch heq⟩

theorem Told.idle (h : Told queue s) (hreceiving : ¬ s.receiving = true) :
    (watch s.trace).waiting = none := by
  rw [h.receiving] at hreceiving
  exact Option.not_isSome_iff_eq_none.mp hreceiving

/-- An entry without frames leaves what is owed. -/
theorem Owes.snoc {rest : List (Nat × Frame)} (h : Owes rest t) (hframes : e.frames = [])
    (hreports : e.reports = []) : Owes rest (t ++ [e]) := by
  unfold Owes at *
  rw [flatMap_snoc, flatMap_snoc, hframes, hreports, List.append_nil, List.append_nil]
  refine ⟨h.1, h.2.imp_right ?_⟩
  rintro ⟨message, context, hmem⟩
  exact ⟨message, context, List.mem_append_left _ hmem⟩

theorem Owes.parsed {items : List Item} {reporting : Bool} {c : Nat} (h : Owes [] t)
    (he : e = .parsed reporting c items) : Owes e.frames (t ++ [e]) := by
  have hreports : e.reports = [] := by rw [he]; rfl
  unfold Owes at *
  rw [flatMap_snoc, flatMap_snoc, hreports, List.append_nil]
  rw [List.append_nil] at h
  refine ⟨h.1.append (List.Sublist.refl _), h.2.imp (fun heq => by rw [heq]) ?_⟩
  rintro ⟨message, context, hmem⟩
  exact ⟨message, context, List.mem_append_left _ hmem⟩

theorem Owes.report {rest : List (Nat × Frame)} {c : Nat} {f : Frame} (h : Owes ((c, f) :: rest) t) :
    Owes rest (t ++ [.report (.received c f)]) := by
  have hreports : Entry.reports (.report (.received c f)) = [(c, f)] := rfl
  have hframes : Entry.frames (.report (.received c f)) = [] := rfl
  unfold Owes at *
  rw [flatMap_snoc, flatMap_snoc, hreports, hframes, List.append_nil, List.append_assoc]
  refine ⟨h.1, h.2.imp_right ?_⟩
  rintro ⟨message, context, hmem⟩
  exact ⟨message, context, List.mem_append_left _ hmem⟩

theorem Tells.snoc {w w' : Watch} {receiving monitoring synchronized receiving' monitoring'
    synchronized' : Bool} {left : List (Nat × Transmission)}
    (h : Tells queue t w receiving monitoring synchronized left) (hreports : e.reports = [])
    (htakes : e.takes = []) (hlegal : Legally t e) (hcertain : synchronized' = true → w'.certain = true)
    (hreceiving : receiving' = w'.waiting.isSome)
    (hmonitoring : monitoring' = decide (w'.waiting = some "STM".toList)) :
    Tells queue (t ++ [e]) w' receiving' monitoring' synchronized' left where
  legal := h.legal.snoc hlegal
  certain := hcertain
  receiving := hreceiving
  monitoring := hmonitoring
  lag := by
    rw [flatMap_snoc, flatMap_snoc, hreports, List.append_nil]
    exact h.lag.trans (List.sublist_append_left ..)
  queue := by
    rw [flatMap_snoc, htakes, List.append_nil]
    exact h.queue

/-! ## Rules -/

section Rules

variable {W : World} {P : Link → Prop}

theorem refuse_triple {α : Type} {Q : α → Link → Prop} {message : String}
    (h : ∀ s, P s → Told queue s) : Triple P (Link.refuse message) Q (Ends queue) :=
  Triple.fail fun s hs => (h s hs).ends message

theorem given_triple {α : Type} {r : Except String α} (h : ∀ s, P s → Told queue s) :
    Triple P (Link.given r) (fun a s => P s ∧ r = .ok a) (Ends queue) := by
  refine Triple.lift (fun a ha s hs => ⟨hs, ?_⟩) fun e he s hs => ?_
  · cases r with
    | error e => cases ha
    | ok b => simpa [Except.mapError] using ha
  · cases r with
    | error e' =>
      cases he
      exact (h s hs).ends e'
    | ok b => cases he

/-- A predicate that does not look at the clock. -/
def Timeless (P : Link → Prop) : Prop := ∀ s n, P s → P { s with tick := n }

theorem ask_triple {α : Type} {f : Nat → α} (h : Timeless P) {E : Halt → Link → Prop} :
    Triple P (Link.ask f) (fun _ => P) E := fun s hs => h s _ hs

theorem record_triple (htime : Timeless P) (h : ∀ s, P s → Told queue s) :
    Triple P (Link.record W) (fun _ => P) (Ends queue) :=
  (ask_triple htime).bind fun _ => (given_triple h).mono fun _ _ hs => hs.1

theorem owing_timeless (rest : List (Nat × Frame)) : Timeless (Owing queue rest K) :=
  fun _ _ hs => hs

/-- An exchange in turn: a failure leaves the link out of step, a reply is looked at. -/
theorem socket_triple {c : Command} {R : List Char → Link → Prop} (h : ∀ s, P s → Told queue s)
    (hlegal : ∀ s, P s → s.synchronized = true → ∀ r, Legally s.trace (.exchange c r))
    (hok : ∀ s n text, P s → s.synchronized = true →
      R text { s with tick := n, trace := s.trace ++ [.exchange c (.ok text)] }) :
    Triple P (Link.socket W c) R (Ends queue) := by
  intro s hs
  by_cases hsync : s.synchronized = true
  · have hrun : Link.socket W c s = Link.settle (W.reply s.tick)
        { s with tick := s.tick + 1, trace := s.trace ++ [.exchange c (W.reply s.tick)] } := by
      unfold Link.socket
      rw [bind_read, if_pos hsync]
      rfl
    rw [hrun]
    have htold := h s hs
    cases hreply : W.reply s.tick with
    | ok text => exact hok s _ text hs hsync
    | error e =>
      have hwaiting : ((watch s.trace).note (.exchange c (.error e))).waiting =
          (watch s.trace).waiting := by
        cases c <;> simp [Watch.note, Watch.wrote, accepted]
      refine Told.ends (s := { s with
        tick := s.tick + 1
        synchronized := false
        trace := s.trace ++ [.exchange c (.error e)] }) ?_ e
      unfold Told
      rw [watch_snoc]
      exact Tells.snoc htold rfl rfl (hlegal s hs hsync _) (fun hfalse => by cases hfalse)
        (by rw [hwaiting]; exact htold.receiving) (by rw [hwaiting]; exact htold.monitoring)
  · have hrun : Link.socket W c s = (.error (.failed Link.uncertain), s) := by
      unfold Link.socket
      rw [bind_read, if_neg hsync]
      rfl
    rw [hrun]
    exact (h s hs).ends _

/-! ## Commands -/

theorem send_triple {cmd : List Char} {K' : Watch → Prop}
    (hrequest : ∀ w, K w → isRequest cmd = true →
      ∃ c tx, w.request = .taken c tx ∧ encode c tx = .ok cmd)
    (hK : ∀ w, K w → w.waiting = none → K' (w.wrote cmd (.ok "WRITTEN".toList))) :
    Triple (Held queue K) (Link.send W cmd) (fun _ => Held queue K') (Ends queue) := by
  unfold Link.send
  refine Triple.bind (R := fun r s => Held queue K s ∧ s.receiving = r)
    (Triple.read fun s hs => ⟨hs, rfl⟩) fun r => ?_
  cases r with
  | true => exact refuse_triple fun s hs => hs.1.told
  | false =>
    have hidle : ∀ s, Held queue K s ∧ s.receiving = false → (watch s.trace).waiting = none :=
      fun s hs => hs.1.told.idle (Bool.eq_false_iff.mp hs.2)
    refine (record_triple (fun s n hs => hs) fun s hs => hs.1.told).bind fun _ => ?_
    refine Triple.bind (R := fun text s => ∃ s₀ n, (Held queue K s₀ ∧ s₀.receiving = false) ∧
        s₀.synchronized = true ∧
        s = { s₀ with tick := n, trace := s₀.trace ++ [.exchange (.write cmd) (.ok text)] })
      (socket_triple (fun s hs => hs.1.told) (fun s hs hsync r => ?_)
        fun s n text hs hsync => ⟨s, n, hs, hsync, rfl⟩) fun text => ?_
    · exact ⟨hs.1.told.certain hsync, hidle s hs, hrequest _ hs.1.2.2⟩
    have hlegal : ∀ s₀ : Link, Held queue K s₀ ∧ s₀.receiving = false → s₀.synchronized = true →
        Legally s₀.trace (.exchange (.write cmd) (.ok text)) := fun s₀ hs hsync =>
      ⟨hs.1.told.certain hsync, hidle s₀ hs, hrequest _ hs.1.2.2⟩
    by_cases htext : text = "WRITTEN".toList
    · rw [if_neg (not_not.mpr htext)]
      refine Triple.change ?_
      rintro _ ⟨s, n, hs, hsync, rfl⟩
      have hnote : (watch s.trace).note (.exchange (.write cmd) (.ok text)) =
          (watch s.trace).wrote cmd (.ok "WRITTEN".toList) := by rw [htext]; rfl
      have hwaiting : ((watch s.trace).wrote cmd (.ok "WRITTEN".toList)).waiting = some cmd := rfl
      have hcertain : ((watch s.trace).wrote cmd (.ok "WRITTEN".toList)).certain =
          (watch s.trace).certain := Bool.and_true _
      refine ⟨?_, hs.1.2.1.snoc rfl rfl, ?_⟩
      · unfold Told
        dsimp only
        rw [watch_snoc, hnote]
        refine Tells.snoc hs.1.told rfl rfl (hlegal s hs hsync) (fun _ => ?_) ?_ ?_
        · rw [hcertain]
          exact hs.1.told.certain hsync
        · rw [hwaiting]
          rfl
        · rw [hwaiting]
          by_cases hcmd : cmd = "STM".toList
          · simp [hcmd]
          · rw [beq_false_of_ne hcmd, decide_eq_false (mt Option.some.inj hcmd)]
      · dsimp only
        rw [watch_snoc, hnote]
        exact hK _ hs.1.2.2 (hidle s hs)
    · rw [if_pos htext]
      refine refuse_triple ?_
      rintro _ ⟨s, n, hs, hsync, rfl⟩
      have hrefused : accepted (.ok text) = false := by simpa [accepted] using htext
      unfold Told
      dsimp only
      rw [watch_snoc]
      refine Tells.snoc hs.1.told rfl rfl (hlegal s hs hsync) (fun _ => ?_) ?_ ?_
      · simpa [Watch.note, Watch.wrote, Except.toBool] using hs.1.told.certain hsync
      · simpa [Watch.note, Watch.wrote, hrefused] using hs.1.told.receiving
      · simpa [Watch.note, Watch.wrote, hrefused] using hs.1.told.monitoring

/-! ## Packets -/

/-- An exchange that succeeds and writes nothing leaves all but the trace. -/
theorem Owing.exchange {rest : List (Nat × Frame)} {c : Command} {text : List Char} {n : Nat}
    (h : Owing queue rest K s) (hc : ∀ cmd, c ≠ .write cmd)
    (hlegal : Legally s.trace (.exchange c (.ok text))) :
    Owing queue rest K { s with tick := n, trace := s.trace ++ [.exchange c (.ok text)] } := by
  have hnote : (watch s.trace).note (.exchange c (.ok text)) = watch s.trace := note_certain hc
  refine ⟨?_, h.2.1.snoc rfl (by cases c <;> rfl), ?_⟩
  · unfold Told
    dsimp only
    rw [watch_snoc, hnote]
    exact Tells.snoc h.told (by cases c <;> rfl) rfl hlegal h.told.certain h.told.receiving
      h.told.monitoring
  · dsimp only
    rw [watch_snoc, hnote]
    exact h.2.2

theorem feed_triple {bytes : List UInt8} :
    Triple (Held queue K) (Link.feed bytes) (fun _ => Held queue K) (Ends queue) := by
  intro s hs
  unfold Link.feed
  rcases hfeed : s.parser.feed bytes with ⟨message | items, p⟩
  · exact Told.ends (s := { s with parser := p }) hs.told message
  · exact hs

/-- What the items of a packet leave, as soon as a prompt among them is noticed. -/
theorem noticePrompt_triple {items : List Item} {reporting : Bool} (hK : ∀ w, K w → K w.prompted)
    (hplain : ∀ w, K w → reporting = false → ∀ cmd ∈ w.waiting, Plain cmd) :
    Triple
      (fun s => ∃ s₀, Held queue K s₀ ∧
        s = { s₀ with trace := s₀.trace ++ [.parsed reporting s₀.controller items] })
      (Link.noticePrompt W items)
      (fun _ s => Owing queue (Entry.frames (.parsed reporting s.controller items)) K s)
      (Ends queue) := by
  unfold Link.noticePrompt
  by_cases hprompt : items.any Item.isPrompt = true
  · rw [if_pos hprompt]
    refine Triple.bind (R := fun _ s => ∃ s₀, Held queue K s₀ ∧ s = { s₀ with
        receiving := false
        trace := s₀.trace ++ [.parsed reporting s₀.controller items] })
      (Triple.change ?_) fun _ => ?_
    · rintro _ ⟨s, hs, rfl⟩
      exact ⟨s, hs, rfl⟩
    have howing : ∀ s : Link, Held queue K s →
        Tells queue (s.trace ++ [.parsed reporting s.controller items]) ((watch s.trace).prompted)
          false false s.synchronized s.queue ∧
        K (watch s.trace).prompted := fun s hs =>
      ⟨Tells.snoc hs.told rfl rfl (hplain _ hs.2.2) hs.told.certain rfl rfl, hK _ hs.2.2⟩
    have hnote : ∀ s : Link, watch (s.trace ++ [.parsed reporting s.controller items]) =
        (watch s.trace).prompted := fun s => by
      rw [watch_snoc]
      exact if_pos hprompt
    refine Triple.bind (R := fun r s => (∃ s₀, Held queue K s₀ ∧ s = { s₀ with
        receiving := false
        trace := s₀.trace ++ [.parsed reporting s₀.controller items] }) ∧ s.monitoring = r)
      (Triple.read fun s hs => ⟨hs, rfl⟩) fun r => ?_
    cases r with
    | true =>
      simp only [if_true]
      refine Triple.bind
        (R := fun _ s => Owing queue (Entry.frames (.parsed reporting s.controller items)) K s)
        (Triple.change ?_) fun _ => record_triple (fun s n hs => hs) fun s hs => hs.told
      rintro _ ⟨⟨s, hs, rfl⟩, -⟩
      refine ⟨?_, hs.2.1.parsed rfl, ?_⟩
      · unfold Told
        dsimp only
        rw [hnote]
        exact (howing s hs).1
      · dsimp only
        rw [hnote]
        exact (howing s hs).2
    | false =>
      refine Triple.pure ?_
      rintro _ ⟨⟨s, hs, rfl⟩, hmonitoring⟩
      dsimp only at hmonitoring
      refine ⟨?_, hs.2.1.parsed rfl, ?_⟩
      · unfold Told
        dsimp only
        rw [hnote, hmonitoring]
        exact (howing s hs).1
      · dsimp only
        rw [hnote]
        exact (howing s hs).2
  · rw [if_neg hprompt]
    refine Triple.pure ?_
    rintro _ ⟨s, hs, rfl⟩
    have hnote : (watch s.trace).note (.parsed reporting s.controller items) = watch s.trace :=
      if_neg hprompt
    refine ⟨?_, hs.2.1.parsed rfl, ?_⟩
    · unfold Told
      dsimp only
      rw [watch_snoc, hnote]
      exact Tells.snoc hs.told rfl rfl (hplain _ hs.2.2) hs.told.certain hs.told.receiving
        hs.told.monitoring
    · dsimp only
      rw [watch_snoc, hnote]
      exact hs.2.2

theorem packet_triple {reporting : Bool} (hK : ∀ w, K w → K w.prompted)
    (hplain : ∀ w, K w → reporting = false → ∀ cmd ∈ w.waiting, Plain cmd) :
    Triple (Held queue K) (Link.packet W reporting)
      (fun items s => Owing queue (Entry.frames (.parsed reporting s.controller items)) K s)
      (Ends queue) := by
  unfold Link.packet
  refine Triple.bind (R := fun _ => Held queue K)
    (socket_triple (fun s hs => hs.told) (fun s hs hsync r => hs.told.certain hsync)
      fun s n text hs hsync => hs.exchange (fun cmd h => nomatch h) (hs.told.certain hsync))
    fun text => ?_
  split
  · refine Triple.pure fun s hs => ?_
    have hnone : Entry.frames (.parsed reporting s.controller []) = [] := by
      cases reporting <;> rfl
    rw [hnone]
    exact hs
  unfold Link.items
  refine ((given_triple fun s hs => hs.told).mono fun _ _ hs => hs.1).bind fun bytes => ?_
  refine (record_triple (owing_timeless []) fun s hs => hs.told).bind fun _ => ?_
  refine feed_triple.bind fun items => ?_
  refine Triple.bind (R := fun c s => Held queue K s ∧ s.controller = c)
    (Triple.read fun s hs => ⟨hs, rfl⟩) fun c => ?_
  refine Triple.bind (Triple.change ?_) fun _ => (noticePrompt_triple hK hplain).bind fun _ =>
    Triple.pure fun s hs => hs
  rintro s ⟨hs, rfl⟩
  exact ⟨s, hs, rfl⟩

/-! ## Replies -/

/-- A reply to a command that its own sending leaves open. -/
theorem reply_triple {fuel : Nat} {cmd : List Char} {K : Request → Prop}
    (hsend : Triple P (Link.send W cmd)
      (fun _ => Held queue fun w => K w.request ∧ w.waiting = some cmd) (Ends queue))
    (h : ∀ s, P s → Told queue s) (hplain : Plain cmd) (hK : ∀ r, K r → K r.prompted) :
    Triple P (Link.reply W fuel cmd) (fun _ => Held queue fun w => K w.request ∧ w.waiting = none)
      (Ends queue) := by
  unfold Link.reply
  refine Triple.bind (R := fun _ => P) (Triple.read fun s hs => hs) fun r => ?_
  cases r with
  | true => exact refuse_triple h
  | false =>
    refine hsend.bind fun _ => ?_
    refine (Triple.loop (I := fun _ => Held queue fun w =>
        K w.request ∧ (w.waiting = some cmd ∨ w.waiting = none))
      (J := fun _ => Held queue fun w => K w.request ∧ (w.waiting = some cmd ∨ w.waiting = none))
      (fun lines => Triple.read fun s hs => ?_) (fun lines => ?_)
      (fun lines s hs => ⟨hs.told, fun _ => hs.2.1⟩) fuel []).weaken ?_
    · by_cases hreceiving : s.receiving = true
      · rw [if_pos hreceiving]
        exact hs
      · rw [if_neg hreceiving]
        exact ⟨hs.told, hs.2.1, hs.2.2.1, hs.told.idle hreceiving⟩
    · unfold Link.collect
      refine (ask_triple (owing_timeless [])).bind fun late => ?_
      cases late with
      | true => exact refuse_triple fun s hs => hs.told
      | false =>
        refine Triple.bind (packet_triple (fun w hw => ⟨hK _ hw.1, .inr rfl⟩) ?_) fun items =>
          Triple.pure fun s hs => hs
        rintro w ⟨-, hw⟩ - cmd' hcmd'
        rcases hw with hw | hw
        · rw [hw] at hcmd'
          exact Option.mem_some.mp hcmd' ▸ hplain
        · rw [hw] at hcmd'
          cases hcmd'
    · intro s hs
      exact ⟨hs.told, hs.2.1, hs.2.2.1, .inl hs.2.2.2⟩

/-- A command that is no request, where only the request matters. -/
theorem command_triple {fuel : Nat} {cmd : List Char} {K : Request → Prop}
    (hcmd : isRequest cmd = false) (hstm : cmd ≠ "STM".toList) (hK : ∀ r, K r → K r.prompted) :
    Triple (Held queue fun w => K w.request) (Link.reply W fuel cmd)
      (fun _ => Held queue fun w => K w.request) (Ends queue) := by
  refine (reply_triple (send_triple ?_ ?_) (fun s hs => hs.told) ⟨hstm, fun h => ?_⟩ hK).mono
    fun _ s hs => ⟨hs.told, hs.2.1, hs.2.2.1⟩
  · intro w _ h
    rw [hcmd] at h
    cases h
  · intro w hw _
    simpa [Watch.wrote, hcmd, accepted] using hw
  · rw [hcmd] at h
    cases h

theorem protocolAfter_owing {cmd : List Char} {rest : List (Nat × Frame)}
    (h : Owing queue rest K s) : Owing queue rest K (Link.protocolAfter cmd s) := by
  unfold Link.protocolAfter
  split
  · exact h
  · split
    · exact h
    · exact h

/-- A command word of the setup, which is neither a request nor the monitor. -/
def Setting (cmd : String) : Prop := isRequest cmd.toList = false ∧ cmd.toList ≠ "STM".toList

instance decidableSetting (cmd : String) : Decidable (Setting cmd) :=
  inferInstanceAs (Decidable (_ ∧ _))

section Quiet

variable {fuel : Nat} {K : Request → Prop}

theorem exact_triple {cmd expected : String} (hcmd : Setting cmd) (hK : ∀ r, K r → K r.prompted) :
    Triple (Held queue fun w => K w.request) (Link.exact W fuel cmd expected)
      (fun _ => Held queue fun w => K w.request) (Ends queue) := by
  unfold Link.exact
  refine (command_triple hcmd.1 hcmd.2 hK).bind fun lines => ?_
  split
  · exact refuse_triple fun s hs => hs.told
  · exact Triple.change fun s hs => protocolAfter_owing hs

theorem confirm_triple {cmd : String} (hcmd : Setting cmd) (hK : ∀ r, K r → K r.prompted) :
    Triple (Held queue fun w => K w.request) (Link.confirm W fuel cmd)
      (fun _ => Held queue fun w => K w.request) (Ends queue) :=
  exact_triple hcmd hK

theorem confirms_triple {cmds : List String} (hcmds : ∀ cmd ∈ cmds, Setting cmd)
    (hK : ∀ r, K r → K r.prompted) :
    Triple (Held queue fun w => K w.request) (each (Link.confirm W fuel) cmds)
      (fun _ => Held queue fun w => K w.request) (Ends queue) := by
  induction cmds with
  | nil => exact Triple.pure fun s hs => hs
  | cons cmd cmds ih =>
    exact (confirm_triple (hcmds cmd List.mem_cons_self) hK).bind fun _ =>
      ih fun c hc => hcmds c (List.mem_cons_of_mem cmd hc)

theorem switchBus_triple {controller : Nat} (hK : ∀ r, K r → K r.prompted) :
    Triple (Held queue fun w => K w.request) (Link.switchBus W fuel controller)
      (fun _ => Held queue fun w => K w.request) (Ends queue) := by
  unfold Link.switchBus
  refine (confirm_triple (by decide) hK).bind fun _ => ?_
  refine (confirm_triple (by split <;> decide) hK).bind fun _ => ?_
  refine (exact_triple (by decide) hK).bind fun _ => ?_
  refine (exact_triple (by decide) hK).bind fun _ => ?_
  refine (confirms_triple (by decide) hK).bind fun _ => ?_
  refine (confirm_triple (by split <;> decide) hK).bind fun _ => ?_
  refine (confirm_triple (by decide) hK).bind fun _ => ?_
  split
  · exact confirm_triple (by decide) hK
  · exact Triple.pure fun s hs => hs

theorem selectBus_triple {controller : Nat} (hK : ∀ r, K r → K r.prompted) :
    Triple (Held queue fun w => K w.request) (Link.selectBus W fuel controller)
      (fun _ => Held queue fun w => K w.request) (Ends queue) := by
  unfold Link.selectBus
  refine Triple.bind (R := fun _ => Held queue fun w => K w.request) (Triple.read fun s hs => hs)
    fun current => ?_
  split
  · exact Triple.pure fun s hs => hs
  split
  · exact refuse_triple fun s hs => hs.told
  refine (switchBus_triple hK).bind fun _ => ?_
  refine Triple.bind (R := fun _ => Held queue fun w => K w.request) (Triple.change fun s hs => hs)
    fun _ => ?_
  exact record_triple (owing_timeless []) fun s hs => hs.told

theorem prepare_triple {controller : Nat} {tx : Transmission} {route : ElectricalRoute}
    (hK : ∀ r, K r → K r.prompted) :
    Triple (Held queue fun w => K w.request) (Link.prepare W fuel controller tx route)
      (fun _ => Held queue fun w => K w.request) (Ends queue) := by
  have hheader : Setting ("ATSH" ++ Text.hexId tx.frame.id) := by
    unfold Setting isRequest
    rw [String.toList_append]
    exact ⟨rfl, fun h => nomatch h⟩
  unfold Link.prepare Link.ensureProtocolOpen
  refine ((exact_triple (by decide) hK).bind fun _ =>
    record_triple (owing_timeless []) fun s hs => hs.told).bind fun _ => ?_
  refine Triple.bind (R := fun _ => Held queue fun w => K w.request) ?_ fun _ =>
    confirm_triple hheader hK
  unfold Link.wireMode
  split
  · exact confirm_triple (by split <;> decide) hK
  · exact Triple.pure fun s hs => hs

end Quiet

/-- Nothing is said of the request. -/
abbrev Sound (queue : List (Nat × Transmission)) : Link → Prop := Held queue fun _ => True

theorem setup_triple {fuel : Nat} :
    Triple (Held queue fun w => w.waiting = none) (Link.setup W fuel) (fun _ => Sound queue)
      (Ends queue) := by
  have hK : ∀ r : Request, True → True := fun _ h => h
  have hexact {cmd expected : String} (hcmd : Setting cmd) : Triple (Sound queue)
      (Link.exact W fuel cmd expected) (fun _ => Sound queue) (Ends queue) :=
    exact_triple (K := fun _ => True) hcmd hK
  have hreply {cmd : List Char} (hcmd : isRequest cmd = false) (hstm : cmd ≠ "STM".toList) :
      Triple (Sound queue) (Link.reply W fuel cmd) (fun _ => Sound queue) (Ends queue) :=
    command_triple (K := fun _ => True) hcmd hstm hK
  have hrefuse {message : String} : Triple (Sound queue) (Link.refuse message)
      (fun _ : Unit => Sound queue) (Ends queue) := refuse_triple fun s hs => hs.told
  have hrecord : Triple (Sound queue) (Link.record W) (fun _ => Sound queue) (Ends queue) :=
    record_triple (owing_timeless []) fun s hs => hs.told
  unfold Link.setup
  refine Triple.bind (R := fun _ => Held queue fun w => w.waiting = none)
    (Triple.loop (I := fun _ => Held queue fun w => w.waiting = none)
      (J := fun _ => Held queue fun w => w.waiting = none) (fun _ => ?_) (fun _ => ?_)
      (fun _ s hs => ⟨hs.told, fun _ => hs.2.1⟩) fuel ()) fun _ => ?_
  · refine (ask_triple (owing_timeless [])).mono fun more s hs => ?_
    cases more with
    | true => exact hs
    | false => exact hs
  · unfold Link.drain
    refine (ask_triple (owing_timeless [])).bind fun late => ?_
    cases late with
    | true => exact refuse_triple fun s hs => hs.told
    | false =>
      refine (packet_triple (fun w hw => rfl) fun w hw _ cmd hcmd => ?_).bind fun items => ?_
      · rw [hw] at hcmd
        cases hcmd
      change Triple (Held queue fun w => w.waiting = none) _ _ _
      split
      · exact record_triple (owing_timeless []) fun s hs => hs.told
      · exact Triple.pure fun s hs => hs
  refine Triple.bind (R := fun _ => Sound queue) (Triple.change fun s hs => ?_) fun _ => ?_
  · refine ⟨?_, hs.2.1, trivial⟩
    have htold := hs.told
    exact ⟨htold.legal, htold.certain, by rw [hs.2.2]; rfl, htold.monitoring, htold.lag, htold.queue⟩
  refine Triple.bind (R := fun _ => Sound queue) ?_ fun _ => ?_
  · unfold Link.resetAdapter
    refine (hreply (by decide) (by decide)).bind fun reset => ?_
    split
    · split
      · exact Triple.pure fun s hs => hs
      · exact hrefuse
    · exact hrefuse
  refine (hexact (by decide)).bind fun _ => ?_
  refine (hexact (by decide)).bind fun _ => ?_
  refine (hexact (by decide)).bind fun _ => ?_
  refine (hexact (by decide)).bind fun _ => ?_
  refine Triple.bind (R := fun _ => Sound queue) ?_ fun _ => ?_
  · unfold Link.checkVoltage
    refine (hreply (by decide) (by decide)).bind fun volts => ?_
    split
    · exact hrecord
    · exact hrefuse
  refine (confirms_triple (by decide) hK).bind fun _ => ?_
  refine Triple.bind (R := fun _ => Sound queue) (Triple.change fun s hs => hs) fun _ => ?_
  refine (hexact (by decide)).bind fun _ => ?_
  refine (hexact (by decide)).bind fun _ => ?_
  exact (confirms_triple (by decide) hK).bind fun _ => hrecord

/-! ## Receiving -/

theorem reportFrame_triple {f : Frame} {rest : List Item} :
    Triple (fun s => Owing queue ((s.controller, f) :: framesOf s.controller rest) K s)
      (Link.reportFrame W f) (fun _ s => Owing queue (framesOf s.controller rest) K s)
      (Ends queue) := by
  unfold Link.reportFrame
  refine (record_triple (fun s n hs => hs) fun s hs => hs.told).bind fun _ => ?_
  refine Triple.bind (R := fun c s => Owing queue ((c, f) :: framesOf s.controller rest) K s)
    (Triple.read fun s hs => hs) fun c => ?_
  unfold Link.publish
  refine (ask_triple fun s n hs => hs).bind fun room => ?_
  cases room with
  | false => exact refuse_triple fun s hs => hs.told
  | true =>
    refine Triple.change fun s hs => ?_
    obtain ⟨htold, howes, hk⟩ := hs
    refine ⟨?_, howes.report, ?_⟩
    · unfold Told
      dsimp only
      rw [watch_snoc]
      refine ⟨htold.legal.snoc trivial, htold.certain, htold.receiving, htold.monitoring, ?_, ?_⟩
      · rw [flatMap_snoc, flatMap_snoc,
          show Entry.frames (.report (.received c f)) = [] from rfl, List.append_nil]
        exact (List.Sublist.append_left (List.singleton_sublist.mpr List.mem_cons_self) _).trans
          howes.1
      · rw [flatMap_snoc, show Entry.takes (.report (.received c f)) = [] from rfl, List.append_nil]
        exact htold.queue
    · dsimp only
      rw [watch_snoc]
      exact hk

theorem receiveItem_triple {monitoring : Bool} (item : Item) (rest : List Item) :
    Triple (fun s => Owing queue (framesOf s.controller (item :: rest)) K s)
      (Link.receiveItem W monitoring item) (fun _ s => Owing queue (framesOf s.controller rest) K s)
      (Ends queue) := by
  cases item with
  | prompt => exact Triple.pure fun s hs => hs
  | line l =>
    refine (given_triple fun s hs => hs.told).bind fun r => ?_
    cases r with
    | some f =>
      refine reportFrame_triple.weaken ?_
      rintro s ⟨hs, hframe⟩
      simpa [framesOf, hframe] using hs
    | none =>
      refine ((given_triple fun s hs => hs.1.told).mono ?_)
      rintro u s ⟨⟨hs, hframe⟩, -⟩
      simpa [framesOf, hframe] using hs

theorem receive_triple (hK : ∀ w, K w → K w.prompted) :
    Triple (Held queue K) (Link.receive W) (fun _ => Held queue K) (Ends queue) := by
  unfold Link.receive
  refine Triple.bind (R := fun _ => Held queue K) (Triple.read fun s hs => hs) fun monitoring => ?_
  refine Triple.bind (packet_triple hK ?_) fun items => ?_
  · intro w _ h
    cases h
  · exact Triple.each (I := fun items s => Owing queue (framesOf s.controller items) K s)
      receiveItem_triple items

/-- A loop that receives while the prompt is awaited. -/
theorem await_triple {fuel : Nat} {body : Act Unit} {K : Request → Prop}
    (hbody : Triple (Held queue fun w => K w.request) body (fun _ => Held queue fun w => K w.request)
      (Ends queue)) :
    Triple (Held queue fun w => K w.request)
      (loop .exhausted (read (·.receiving)) (fun _ => body) fuel ())
      (fun _ => Held queue fun w => K w.request ∧ w.waiting = none) (Ends queue) := by
  refine Triple.loop (I := fun _ => Held queue fun w => K w.request)
    (J := fun _ => Held queue fun w => K w.request) (fun _ => Triple.read fun s hs => ?_)
    (fun _ => hbody) (fun _ s hs => ⟨hs.told, fun _ => hs.2.1⟩) fuel ()
  by_cases hreceiving : s.receiving = true
  · rw [if_pos hreceiving]
    exact hs
  · rw [if_neg hreceiving]
    exact ⟨hs.told, hs.2.1, hs.2.2, hs.told.idle hreceiving⟩

section Waits

variable {fuel : Nat} {K : Request → Prop}

theorem finishRequest_triple (hK : ∀ r, K r → K r.prompted) :
    Triple (Held queue fun w => K w.request) (Link.finishRequest W fuel)
      (fun _ => Held queue fun w => K w.request ∧ w.waiting = none) (Ends queue) := by
  unfold Link.finishRequest
  refine Triple.bind (R := fun _ => Held queue fun w => K w.request) (Triple.read fun s hs => hs)
    fun monitoring => ?_
  cases monitoring with
  | true => exact refuse_triple fun s hs => hs.told
  | false =>
    refine await_triple ?_
    unfold Link.awaitRequest
    refine (ask_triple (owing_timeless [])).bind fun late => ?_
    cases late with
    | false => exact receive_triple fun w hw => hK _ hw
    | true =>
      refine Triple.bind (R := fun _ s => Told queue s ∧ s.synchronized = false)
        (Triple.change fun s hs => ⟨⟨hs.told.legal, (fun h => nomatch h), hs.told.receiving,
          hs.told.monitoring, hs.told.lag, hs.told.queue⟩, rfl⟩) fun _ => ?_
      refine Triple.bind (R := fun _ => Told queue) (Triple.change ?_) fun _ =>
        refuse_triple fun s hs => hs
      rintro s ⟨htold, hsync⟩
      unfold Told
      dsimp only
      rw [watch_snoc]
      refine Tells.snoc htold rfl rfl trivial (fun h => ?_) htold.receiving htold.monitoring
      rw [hsync] at h
      cases h

theorem interruptMonitor_triple (hK : ∀ r, K r → K r.prompted) :
    Triple (Held queue fun w => K w.request) (Link.interruptMonitor W fuel)
      (fun _ => Held queue fun w => K w.request) (Ends queue) := by
  unfold Link.interruptMonitor
  refine Triple.bind (R := fun _ => Held queue fun w => K w.request) (Triple.read fun s hs => hs)
    fun idle => ?_
  cases idle with
  | true => exact Triple.pure fun s hs => hs
  | false =>
    refine Triple.bind (R := fun r s => (Held queue fun w => K w.request) s ∧ (!s.monitoring) = r)
      (Triple.read fun s hs => ⟨hs, rfl⟩) fun ordinary => ?_
    cases ordinary with
    | true => exact refuse_triple fun s hs => hs.1.told
    | false =>
      unfold Link.interrupt
      refine (record_triple (fun s n hs => hs) fun s hs => hs.1.told).bind fun _ => ?_
      have hlegal : ∀ s : Link, (Held queue fun w => K w.request) s ∧ (!s.monitoring) = false →
          s.synchronized = true → ∀ r, Legally s.trace (.exchange .interrupt r) := by
        rintro s ⟨hs, hmonitoring⟩ hsync r
        have hstm := hs.told.monitoring
        rw [show s.monitoring = true by simpa using hmonitoring] at hstm
        exact ⟨hs.told.certain hsync, of_decide_eq_true hstm.symm⟩
      refine Triple.bind (R := fun _ => Held queue fun w => K w.request)
        (socket_triple (fun s hs => hs.1.told) hlegal fun s n text hs hsync =>
          hs.1.exchange (fun cmd h => nomatch h) (hlegal s hs hsync _)) fun text => ?_
      split
      · exact refuse_triple fun s hs => hs.told
      refine (await_triple ?_).mono fun _ s hs => ⟨hs.told, hs.2.1, hs.2.2.1⟩
      unfold Link.awaitInterrupt
      refine (ask_triple (owing_timeless [])).bind fun late => ?_
      cases late with
      | true => exact refuse_triple fun s hs => hs.told
      | false => exact receive_triple fun w hw => hK _ hw

end Waits

/-! ## Requests -/

theorem encode_request {c : Nat} {tx : Transmission} {command : List Char}
    (h : encode c tx = .ok command) : isRequest command = true := by
  unfold encode at h
  split at h
  · cases h
  · split at h
    · cases h
      decide
    · split at h
      · cases h
      · cases h
        rfl

theorem encode_wake {c : Nat} {tx : Transmission} {route : ElectricalRoute} {command : List Char}
    (h : encode c tx = .ok command) (hroute : electricalRoute c tx = .ok route)
    (hwake : route.mode = .singleWireWake) : command = wakeCommand := by
  unfold encode at h
  rw [hroute] at h
  dsimp only at h
  rw [if_pos hwake] at h
  exact (Except.ok.inj h).symm

/-- A request that has been sent: its prompt is the next one. -/
def Sent (c : Nat) (tx : Transmission) (r : Request) : Prop := r = .issued c tx ∨ r = .answered c tx

theorem sent_prompted {c : Nat} {tx : Transmission} (r : Request) (h : Sent c tx r) :
    Sent c tx r.prompted := by
  rcases h with rfl | rfl
  · exact .inr rfl
  · exact .inr rfl

theorem taken_prompted {c : Nat} {tx : Transmission} (r : Request) (h : r = .taken c tx) :
    r.prompted = .taken c tx := by
  rw [h]
  rfl

theorem answered_prompted {c : Nat} {tx : Transmission} (r : Request) (h : r = .answered c tx) :
    r.prompted = .answered c tx := by
  rw [h]
  rfl

/-- What has been sent and waits for nothing has been answered. -/
theorem answered_of_idle {c : Nat} {tx : Transmission}
    (h : Held queue (fun w => Sent c tx w.request ∧ w.waiting = none) s) :
    Held queue (fun w => w.request = .answered c tx) s := by
  refine ⟨h.told, h.2.1, h.2.2.1.resolve_left fun hissued => ?_⟩
  exact issued_waiting h.told.legal hissued h.2.2.2

section Requests

variable {fuel : Nat} {c : Nat} {tx : Transmission}

theorem sendRequest_triple {command : List Char} (hencode : encode c tx = .ok command) :
    Triple (Held queue fun w => w.request = .taken c tx) (Link.send W command)
      (fun _ => Held queue fun w => Sent c tx w.request ∧ w.waiting = some command) (Ends queue) := by
  refine send_triple (fun w hw _ => ⟨c, tx, hw, hencode⟩) fun w hw _ => ?_
  have hcommand := encode_request hencode
  refine ⟨.inl ?_, rfl⟩
  simp [Watch.wrote, hcommand, accepted, hw, Request.sent]

theorem wake_triple (hencode : encode c tx = .ok wakeCommand) :
    Triple (Held queue fun w => w.request = .taken c tx) (Link.wake W fuel wakeCommand)
      (fun _ => Held queue fun w => w.request = .answered c tx) (Ends queue) := by
  have hrecord : Triple (Held queue fun w => w.request = .answered c tx) (Link.record W)
      (fun _ => Held queue fun w => w.request = .answered c tx) (Ends queue) :=
    record_triple (owing_timeless []) fun s hs => hs.told
  unfold Link.wake
  refine ((reply_triple (sendRequest_triple hencode) (fun s hs => hs.told)
    ⟨by decide, fun _ => rfl⟩ sent_prompted).mono fun _ s hs => answered_of_idle hs).bind fun lines => ?_
  split
  · exact refuse_triple fun s hs => hs.told
  refine (confirm_triple (by decide) answered_prompted).bind fun _ => ?_
  refine (command_triple (by decide) (by decide) answered_prompted).bind fun _ => ?_
  exact hrecord.bind fun _ => hrecord.bind fun _ => hrecord

theorem ordinary_triple {command : List Char} (hencode : encode c tx = .ok command) :
    Triple (Held queue fun w => w.request = .taken c tx) (Link.ordinary W fuel command)
      (fun _ => Held queue fun w => w.request = .answered c tx) (Ends queue) := by
  unfold Link.ordinary
  refine Triple.bind (R := fun _ => Held queue fun w => Sent c tx w.request)
    ((sendRequest_triple hencode).mono fun _ s hs => ⟨hs.told, hs.2.1, hs.2.2.1⟩) fun _ => ?_
  refine ((finishRequest_triple sent_prompted).mono fun _ s hs => answered_of_idle hs).bind fun _ => ?_
  exact record_triple (owing_timeless []) fun s hs => hs.told

theorem serve_triple :
    Triple (Held queue fun w => w.request = .taken c tx) (Link.serve W fuel c tx)
      (fun _ => Sound queue) (Ends queue) := by
  unfold Link.serve
  refine (interruptMonitor_triple taken_prompted).bind fun _ => ?_
  refine Triple.bind (R := fun _ => Held queue fun w => w.request = .taken c tx)
    (Triple.change fun s hs => hs) fun _ => ?_
  refine (selectBus_triple taken_prompted).bind fun _ => ?_
  refine (given_triple fun s hs => hs.told).bind fun route => ?_
  by_cases hroute : electricalRoute c tx = .ok route
  swap
  · exact fun s hs => absurd hs.2 hroute
  refine Triple.weaken ?_ fun s hs => hs.1
  refine (prepare_triple taken_prompted).bind fun _ => ?_
  refine (given_triple fun s hs => hs.told).bind fun command => ?_
  by_cases hencode : encode c tx = .ok command
  swap
  · exact fun s hs => absurd hs.2 hencode
  refine Triple.weaken ?_ fun s hs => hs.1
  refine Triple.bind (R := fun _ => Held queue fun w => w.request = .answered c tx) ?_ fun _ => ?_
  · unfold Link.transmit
    refine (record_triple (owing_timeless []) fun s hs => hs.told).bind fun _ => ?_
    refine Triple.bind (R := fun _ => Held queue fun w => w.request = .taken c tx)
      (Triple.change fun s hs => hs) fun _ => ?_
    split
    · rename_i hwake
      obtain rfl := encode_wake hencode hroute hwake
      exact wake_triple hencode
    · exact ordinary_triple hencode
  refine Triple.bind (R := fun _ => Sound queue) ?_ fun _ => Triple.change fun s hs => hs
  unfold Link.publish
  refine (ask_triple (owing_timeless [])).bind fun room => ?_
  cases room with
  | false => exact refuse_triple fun s hs => hs.told
  | true =>
    refine Triple.change fun s hs => ?_
    refine ⟨?_, hs.2.1.snoc rfl rfl, trivial⟩
    unfold Told
    dsimp only
    rw [watch_snoc]
    exact Tells.snoc hs.told rfl rfl ⟨tx, hs.2.2, rfl⟩ hs.told.certain hs.told.receiving
      hs.told.monitoring

end Requests

/-! ## The whole session -/

theorem next_triple :
    Triple (Sound queue) (Link.next W)
      (fun r => match r with
        | none => Sound queue
        | some (c, tx) => Held queue fun w => w.request = .taken c tx) (Ends queue) := by
  unfold Link.next
  refine (ask_triple (owing_timeless [])).bind fun arrived => ?_
  cases arrived with
  | false => exact Triple.pure fun s hs => hs
  | true =>
    refine Triple.bind (R := fun q s => Sound queue s ∧ s.queue = q)
      (Triple.read fun s hs => ⟨hs, rfl⟩) fun q => ?_
    match q with
    | [] => exact Triple.pure fun s hs => hs.1
    | (c, tx) :: rest =>
      refine Triple.bind (R := fun _ s => ∃ s₀, Sound queue s₀ ∧ s₀.queue = (c, tx) :: rest ∧
        s = { s₀ with queue := rest }) (Triple.change fun s hs => ⟨s, hs.1, hs.2, rfl⟩) fun _ => ?_
      refine Triple.bind (Triple.change ?_) fun _ => Triple.pure fun s hs => hs
      rintro _ ⟨s, hs, hqueue, rfl⟩
      refine ⟨?_, hs.2.1.snoc rfl rfl, ?_⟩
      · have htold := hs.told
        unfold Told
        dsimp only
        rw [watch_snoc]
        refine ⟨htold.legal.snoc trivial, htold.certain, htold.receiving, htold.monitoring, ?_, ?_⟩
        · rw [flatMap_snoc, flatMap_snoc, show Entry.reports (.take c tx) = [] from rfl,
            show Entry.frames (.take c tx) = [] from rfl, List.append_nil, List.append_nil]
          exact htold.lag
        · have hall := htold.queue
          rw [hqueue] at hall
          rw [flatMap_snoc, show Entry.takes (.take c tx) = [(c, tx)] from rfl, List.append_assoc]
          exact hall
      · dsimp only
        rw [watch_snoc]
        rfl

theorem turn_triple {fuel : Nat} :
    Triple (Sound queue) (Link.turn W fuel) (fun _ => Sound queue) (Ends queue) := by
  unfold Link.turn
  refine (ask_triple (owing_timeless [])).bind fun expired => ?_
  cases expired with
  | true => exact refuse_triple fun s hs => hs.told
  | false =>
    refine next_triple.bind fun r => ?_
    match r with
    | some (c, tx) => exact serve_triple
    | none =>
      refine Triple.bind (R := fun _ => Sound queue) (Triple.read fun s hs => hs) fun idle => ?_
      cases idle with
      | true =>
        exact send_triple (fun w _ h => absurd h (by decide)) fun _ _ _ => trivial
      | false => exact receive_triple fun _ _ => trivial

theorem work_triple {fuel : Nat} :
    Triple (Held queue fun w => w.waiting = none) (Link.work W fuel) (fun _ => Sound queue)
      (Ends queue) := by
  refine setup_triple.bind fun _ => ?_
  refine Triple.loop (I := fun _ => Sound queue) (J := fun _ => Sound queue) (fun _ => ?_)
    (fun _ => turn_triple) (fun _ s hs => ⟨hs.told, fun _ => hs.2.1⟩) fuel ()
  refine (ask_triple (owing_timeless [])).mono fun more s hs => ?_
  cases more with
  | true => exact hs
  | false => exact hs

/-- What is left of the invariant when the socket has been closed. -/
structure Outcome (queue : List (Nat × Transmission)) (s : Link) : Prop where
  legal : Runs.Justified Legally s.trace
  lag : (s.trace.flatMap Entry.reports).Sublist (s.trace.flatMap Entry.frames)
  queue : s.trace.flatMap Entry.takes ++ s.queue = queue

theorem Told.outcome (h : Told queue s) : Outcome queue s := ⟨h.legal, h.lag, h.queue⟩

theorem Outcome.snoc (h : Outcome queue s) (hreports : e.reports = []) (htakes : e.takes = [])
    (hlegal : Legally s.trace e) {n : Nat} :
    Outcome queue { s with tick := n, trace := s.trace ++ [e] } where
  legal := h.legal.snoc hlegal
  lag := by
    rw [flatMap_snoc, flatMap_snoc, hreports, List.append_nil]
    exact h.lag.trans (List.sublist_append_left ..)
  queue := by
    rw [flatMap_snoc, htakes, List.append_nil]
    exact h.queue

/-- A failure that has been noted settles what is owed. -/
theorem noteFailure_triple {r : Except Halt Unit} {context : Link → Option FailureContext}
    {T : Link → Prop} (hlag : ∀ s, T s → Outcome queue s)
    (hT : ∀ s message context, T s →
      T { s with trace := s.trace ++ [.failed message context] }) :
    Triple (fun s => T s ∧ ((∀ message, r ≠ .error (.failed message)) → Owes [] s.trace))
      (Link.noteFailure r context) (fun _ s => T s ∧ Owes [] s.trace)
      (fun _ s => Outcome queue s ∧ Owes [] s.trace) := by
  rcases r with (message | _) | _
  · refine Triple.bind (R := fun _ => T) (Triple.read fun s hs => hs.1) fun context => ?_
    refine Triple.change fun s hs => ⟨hT s message context hs, ?_, .inr ⟨message, context, by simp⟩⟩
    rw [flatMap_snoc, flatMap_snoc, show Entry.reports (.failed message context) = [] from rfl,
      show Entry.frames (.failed message context) = [] from rfl]
    simpa using (hlag s hs).lag
  · exact Triple.fail fun s hs => ⟨hlag s hs.1, hs.2 fun message h => nomatch h⟩
  · exact Triple.pure fun s hs => ⟨hs.1, hs.2 fun message h => nomatch h⟩

theorem cleanup_triple {fuel : Nat} :
    Triple (Sound queue) (Link.cleanup W fuel) (fun _ s => Outcome queue s ∧ Owes [] s.trace)
      (fun _ s => Outcome queue s ∧ Owes [] s.trace) := by
  have hK : ∀ r : Request, True → True := fun _ h => h
  have hprotocol : Triple (Sound queue) (Link.countersAndClose W fuel) (fun _ => Sound queue)
      (Ends queue) := by
    unfold Link.countersAndClose
    refine Triple.bind (R := fun _ => Sound queue) ?_ fun _ => ?_
    · unfold Link.quiesce
      refine Triple.bind (R := fun _ => Sound queue) (Triple.read fun s hs => hs) fun monitoring => ?_
      split
      · exact interruptMonitor_triple (K := fun _ => True) hK
      · exact (finishRequest_triple (K := fun _ => True) hK).mono fun _ s hs =>
          ⟨hs.told, hs.2.1, trivial⟩
    refine (command_triple (K := fun _ => True) (by decide) (by decide) hK).bind fun _ => ?_
    refine (record_triple (owing_timeless []) fun s hs => hs.told).bind fun _ => ?_
    refine Triple.bind (R := fun _ => Sound queue) (Triple.read fun s hs => hs) fun configured => ?_
    split
    · exact confirm_triple (K := fun _ => True) (by decide) hK
    · exact Triple.pure fun s hs => hs
  have hfailed : ∀ s message context, Outcome queue s →
      Outcome queue { s with trace := s.trace ++ [.failed message context] } :=
    fun s message context hs => hs.snoc (e := .failed message context) rfl rfl trivial
  have hclose (protocol : Except Halt Unit) : Triple
      (fun s => Told queue s ∧ ((∀ message, protocol ≠ .error (.failed message)) → Owes [] s.trace))
      (Link.command W .close)
      (fun _ s => Outcome queue s ∧
        ((∀ message, protocol ≠ .error (.failed message)) → Owes [] s.trace))
      (fun _ s => Outcome queue s ∧ Owes [] s.trace) := fun s hs =>
    ⟨hs.1.outcome.snoc (e := .exchange .close (W.reply s.tick)) rfl rfl trivial,
      fun h => (hs.2 h).snoc rfl rfl⟩
  unfold Link.cleanup
  refine (hprotocol.attempt).bind fun protocol => ?_
  rcases protocol with (message | _) | _
  · refine (hclose (.error (.failed message))).weaken ?_ |>.bind fun native => ?_
    · exact fun s hs => ⟨hs.1, fun h => absurd rfl (h message)⟩
    · exact (noteFailure_triple (fun s hs => hs) hfailed).weaken fun s hs => hs
  · exact Triple.fail fun s hs => ⟨hs.1.outcome, hs.2 rfl⟩
  · refine (hclose (.ok ())).weaken ?_ |>.bind fun native => ?_
    · exact fun s hs => ⟨hs.told, fun _ => hs.2.1⟩
    · exact (noteFailure_triple (fun s hs => hs) hfailed).weaken fun s hs =>
        ⟨hs.1, fun _ => hs.2 fun message h => nomatch h⟩

theorem worker_triple {fuel : Nat} :
    Triple (Held queue fun w => w.waiting = none) (Link.worker W fuel)
      (fun _ s => Outcome queue s ∧ Owes [] s.trace)
      (fun _ s => Outcome queue s ∧ Owes [] s.trace) := by
  unfold Link.worker
  refine (work_triple.attempt).bind fun result => ?_
  refine Triple.bind (R := fun _ => Sound queue) ?_ fun _ => cleanup_triple
  refine ((noteFailure_triple (T := Told queue) (fun s hs => hs.outcome) ?_).weaken ?_).mono
    fun _ s hs => ⟨hs.1, hs.2, trivial⟩
  · intro s message context hs
    unfold Told
    dsimp only
    rw [watch_snoc]
    exact Tells.snoc hs rfl rfl trivial hs.certain hs.receiving hs.monitoring
  · intro s hs
    rcases result with (message | _) | _
    · exact ⟨hs.1, fun h => absurd rfl (h message)⟩
    · exact ⟨hs.1, fun _ => hs.2 rfl⟩
    · exact ⟨hs.told, fun _ => hs.2.1⟩

end Rules

theorem told_new (queue : List (Nat × Transmission)) : Told queue (.new queue) where
  legal := .nil
  certain := fun _ => rfl
  receiving := rfl
  monitoring := rfl
  lag := List.Sublist.refl []
  queue := rfl

/-- In every session: what happens is legal after what has happened, the commands of requests are those
of the queue in its order and each of them once, and every frame that is received is reported once, in
order and for its bus, unless something has failed. -/
theorem session_ordered (W : World) (fuel : Nat) (queue : List (Nat × Transmission)) :
    let t := (Link.session W fuel queue).trace
    Runs.Justified (fun earlier e => Legal (watch earlier) e) t ∧
      (∃ sent, sent.Sublist queue ∧
        List.Forall₂ (fun r cmd => encode r.1 r.2 = .ok cmd) sent (t.flatMap Entry.requests)) ∧
      (t.flatMap Entry.reports).Sublist (t.flatMap Entry.frames) ∧
      (t.flatMap Entry.reports = t.flatMap Entry.frames ∨
        ∃ message context, .failed message context ∈ t) := by
  have hend : Outcome queue (Link.session W fuel queue) ∧
      Owes [] (Link.session W fuel queue).trace :=
    worker_triple.always ⟨told_new queue, ⟨List.Sublist.refl [], .inl rfl⟩, rfl⟩
  intro t
  obtain ⟨sent, hsent, hrequests⟩ := requests_ordered hend.1.legal
  have htaken := List.sublist_append_left (t.flatMap Entry.takes) (Link.session W fuel queue).queue
  rw [hend.1.queue] at htaken
  exact ⟨hend.1.legal, ⟨sent, hsent.trans htaken, hrequests⟩, hend.1.lag, by simpa using hend.2.2⟩

end OpenSaab.Obdlink
