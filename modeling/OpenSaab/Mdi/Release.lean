import OpenSaab.Library.Runs
import OpenSaab.Mdi.Session

/-!
# What a session gives back

The calls of the driver tell what it has handed out and which addresses are polled. Closing gives back
exactly that, however the calls have ended.
-/

namespace OpenSaab.Mdi

open Can Policy Program

/-! ## What the calls say -/

inductive Resource where
  | filter (channel filter : UInt32)
  | channel (channel : UInt32)
  | device (device : UInt32)
  deriving DecidableEq

def Resource.release : Resource → Call
  | .filter ch f => .stopFilter ch f
  | .channel ch => .disconnect ch
  | .device d => .close d

def Call.releases : Call → Option Resource
  | .stopFilter ch f => some (.filter ch f)
  | .disconnect ch => some (.channel ch)
  | .close d => some (.device d)
  | _ => none

def Entry.acquires : Entry → Option Resource
  | ⟨.opens, .ok d⟩ => some (.device d)
  | ⟨.connect .., .ok ch⟩ => some (.channel ch)
  | ⟨.filter ch _, .ok f⟩ => some (.filter ch f)
  | _ => none

def acquired (calls : List Entry) : List Resource := calls.filterMap Entry.acquires

def released (calls : List Entry) : List Resource := calls.filterMap (·.call.releases)

/-- What a message on the single wire starts or stops. -/
def Message.action (m : Message) : Option Action :=
  if m.protocol = swProtocol ∧ m.txFlags = 0 ∧ m.dataSize = 12 then
    Polling.action (identifier m.data) ((m.data.take 12).drop 4)
  else none

def Call.action : Call → Option Action
  | .write _ m => m.action
  | _ => none

def Action.address : Action → Fin 4
  | .start i => i
  | .stop i => i

def Action.isStop : Action → Bool
  | .start _ => false
  | .stop _ => true

/-- The last thing that has been attempted with an address. -/
def lastAction (calls : List Entry) (i : Fin 4) : Option Action :=
  ((calls.filterMap (·.call.action)).filter (·.address = i)).getLast?

/-- The addresses with a start as the last attempt. -/
def polled (calls : List Entry) : List (Fin 4) :=
  (List.finRange 4).filter fun i => lastAction calls i = some (.start i)

/-- A release or, where polling is treated, a stop that has succeeded, or another call. -/
def Entry.clean (enabled : Bool) : Entry → Bool
  | ⟨.stopFilter .., r⟩ => r.toBool
  | ⟨.disconnect _, r⟩ => r.toBool
  | ⟨.close _, r⟩ => r.toBool
  | ⟨.write _ m, r⟩ => !(enabled && m.action.any Action.isStop) || Session.isOne r
  | _ => true

/-- A filter comes before its channel, and the device at the end. -/
def Ordered (resources : List Resource) : Prop :=
  ∃ (buses : List (UInt32 × Option UInt32)) (device : Option UInt32),
    resources = buses.flatMap (fun b => b.2.toList.map (.filter b.1) ++ [.channel b.1]) ++
      device.toList.map .device

/-! ## What a session holds -/

namespace Session

def bus (s : Session) (c : Fin 3) : List Resource :=
  match s.channels c with
  | none => []
  | some ch => (s.filters c).toList.map (.filter ch) ++ [.channel ch]

def held (s : Session) : List Resource :=
  s.bus 2 ++ s.bus 0 ++ s.device.toList.map .device

theorem ordered_held (s : Session) : Ordered s.held := by
  have hbus : ∀ c, ∃ buses : List (UInt32 × Option UInt32),
      s.bus c = buses.flatMap fun b => b.2.toList.map (.filter b.1) ++ [.channel b.1] := by
    intro c
    unfold bus
    cases s.channels c with
    | none => exact ⟨[], rfl⟩
    | some ch => exact ⟨[(ch, s.filters c)], by simp⟩
  obtain ⟨buses2, h2⟩ := hbus 2
  obtain ⟨buses0, h0⟩ := hbus 0
  exact ⟨buses2 ++ buses0, s.device, by rw [held, h2, h0, List.flatMap_append]⟩

/-- The fields of a session are what the calls say. -/
structure Accounts (enabled : Bool) (s : Session) : Prop where
  held : (acquired s.calls).Perm (released s.calls ++ s.held)
  idle : s.device = none → ∀ c, s.channels c = none
  filters : ∀ c, s.channels c = none → s.filters c = none
  middle : s.channels 1 = none
  polling : ∀ i, s.pollingActive i = (enabled && decide (lastAction s.calls i = some (.start i)))
  wired : ∀ i, s.pollingActive i = true → (s.channels 2).isSome
  clean : s.cleanupOk = s.calls.all (Entry.clean enabled)

theorem accounts_new (enabled : Bool) : Accounts enabled .new where
  held := List.Perm.nil
  idle := fun _ _ => rfl
  filters := fun _ _ => rfl
  middle := rfl
  polling := fun i => by simp [new, lastAction]
  wired := fun i h => nomatch h
  clean := rfl

end Session

/-! ## Messages -/

theorem new_action {id protocol flags : UInt32} {data : List UInt8} (h : data.length ≤ 8) :
    ({ Message.new id data with protocol, txFlags := flags } : Message).action =
      if protocol = swProtocol ∧ flags = 0 ∧ data.length = 8 then Polling.action id data
      else none := by
  obtain ⟨hsize, hpayload⟩ := @new_payload id data h
  have htwelve : (Message.new id data).dataSize = 12 ↔ data.length = 8 := by
    rw [← UInt32.toNat_inj, hsize]
    change 4 + data.length = 12 ↔ _
    omega
  unfold Message.action
  dsimp only
  simp only [new_identifier, htwelve]
  split_ifs with hkind
  · rw [hkind.2.2] at hpayload
    rw [hpayload]
  · rfl

theorem stopMessage_action (i : Fin 4) : (Session.stopMessage i).action = some (.stop i) := by
  refine (@new_action (Polling.ids i) swProtocol 0 Polling.stop (by decide)).trans ?_
  rw [if_pos ⟨rfl, rfl, rfl⟩]
  revert i
  decide

theorem command_cases {c : Nat} {ticket : UInt64} {protocol flags id : UInt32} {data : List UInt8}
    {r : Nat × UInt64 × Message × Transmission}
    (h : command c ticket protocol flags id data = .ok r) :
    (⟨id, false, false, UInt8.ofNat data.length, data⟩ : Frame).validate = .ok () ∧
      r = (c, ticket, { Message.new id data with protocol, txFlags := flags },
        { ticket, frame := ⟨id, false, false, UInt8.ofNat data.length, data⟩
          btr0 := if c = 0 then 0xc1 else 0xdd, btr1 := 0x36, electrical := commandState c flags }) := by
  unfold command at h
  dsimp only at h
  cases hvalid : (⟨id, false, false, UInt8.ofNat data.length, data⟩ : Frame).validate with
  | error e => rw [hvalid] at h; cases h
  | ok u => rw [hvalid] at h; exact ⟨rfl, (Except.ok.inj h).symm⟩

theorem parseTx_cases {line : List Char} {r : Nat × UInt64 × Message × Transmission}
    (h : parseTx line = .ok r) :
    ∃ c ticket protocol flags id data, Mdi.protocol c = .ok protocol ∧
      (flags = 0 ∨ flags = hvTx ∧ data = []) ∧
        command c ticket protocol flags id data = .ok r := by
  unfold parseTx at h
  split at h
  · split_ifs at h with hkind hdash
    · obtain ⟨c, -, h⟩ := except_bind_ok h
      obtain ⟨protocol, hprotocol, h⟩ := except_bind_ok h
      obtain ⟨ticket, -, h⟩ := except_bind_ok h
      obtain ⟨flags, -, h⟩ := except_bind_ok h
      obtain ⟨id, -, h⟩ := except_bind_ok h
      dsimp only at h
      split_ifs at h with hflags
      refine ⟨c, _, protocol, _, _, _, hprotocol, ?_, h⟩
      by_cases hzero : UInt32.ofNat flags = 0
      · exact .inl hzero
      · exact .inr ⟨(Decidable.of_not_not (not_and.mp hflags hzero)).2.1, rfl⟩
    · obtain ⟨c, -, h⟩ := except_bind_ok h
      obtain ⟨protocol, hprotocol, h⟩ := except_bind_ok h
      obtain ⟨ticket, -, h⟩ := except_bind_ok h
      obtain ⟨flags, -, h⟩ := except_bind_ok h
      obtain ⟨id, -, h⟩ := except_bind_ok h
      dsimp only at h
      split_ifs at h with hflags
      obtain ⟨data, -, h⟩ := except_bind_ok h
      refine ⟨c, _, protocol, _, _, data, hprotocol, .inl ?_, h⟩
      by_contra hzero
      exact hdash (Decidable.of_not_not (not_and.mp hflags hzero)).2.2.2
  · cases h

/-- The bytes of a message and the transmission agree on what they do. -/
theorem parseTx_action {line : List Char} {c : Nat} {ticket : UInt64} {m : Message}
    {tx : Transmission} (h : parseTx line = .ok (c, ticket, m, tx)) :
    (c = 0 ∨ c = 2) ∧ m.action = Polling.classify c tx := by
  obtain ⟨c', ticket', protocol, flags, id, data, hprotocol, hflags, hcommand⟩ := parseTx_cases h
  obtain ⟨hvalid, heq⟩ := command_cases hcommand
  simp only [Prod.mk.injEq] at heq
  obtain ⟨rfl, rfl, rfl, rfl⟩ := heq
  obtain ⟨-, hdlc, hlength⟩ := validate_standard rfl rfl hvalid
  dsimp only at hdlc hlength
  have hle : data.length ≤ 8 := by
    rw [hlength]
    exact UInt8.le_iff_toNat_le.mp hdlc
  have height : UInt8.ofNat data.length = 8 ↔ data.length = 8 := by
    rw [← UInt8.toNat_inj, ← hlength]
    rfl
  rw [new_action hle]
  unfold Mdi.protocol at hprotocol
  split_ifs at hprotocol with hzero htwo
  · cases hprotocol
    subst hzero
    exact ⟨.inl rfl, by rw [if_neg (fun h => absurd h.1 (by decide)), Polling.classify,
      if_pos (.inl (by decide))]⟩
  · cases hprotocol
    subst htwo
    refine ⟨.inr rfl, ?_⟩
    rcases hflags with rfl | ⟨rfl, rfl⟩
    · unfold Polling.classify
      by_cases hfull : data.length = 8
      · rw [if_pos ⟨rfl, rfl, hfull⟩, if_neg (by simp [hfull])]
        unfold electricalRoute
        rw [hvalid]
        simp [commandState, singleWireRoute, hvTx]
      · rw [if_neg (fun h => hfull h.2.2), if_pos (.inr (.inr (.inr (mt height.mp hfull))))]
    · rw [if_neg (fun h => absurd h.2.1 (by decide)), Polling.classify,
        if_pos (.inr (.inr (.inr (show UInt8.ofNat 0 ≠ 8 by decide))))]

/-! ## What a call adds -/

theorem acquired_append (calls : List Entry) (e : Entry) :
    acquired (calls ++ [e]) = acquired calls ++ e.acquires.toList := by
  rw [acquired, List.filterMap_append]
  cases h : e.acquires <;> simp [acquired, h]

theorem released_append (calls : List Entry) (e : Entry) :
    released (calls ++ [e]) = released calls ++ e.call.releases.toList := by
  rw [released, List.filterMap_append]
  cases h : e.call.releases <;> simp [released, h]

theorem lastAction_append (calls : List Entry) (e : Entry) (i : Fin 4) :
    lastAction (calls ++ [e]) i =
      if e.call.action.any (·.address = i) then e.call.action else lastAction calls i := by
  unfold lastAction
  rw [List.filterMap_append, List.filter_append]
  cases ha : e.call.action with
  | none => simp [ha]
  | some a =>
    by_cases hi : a.address = i
    · simp [ha, hi]
    · simp [ha, hi]

/-- A call that hands nothing out, gives nothing back and polls nothing. -/
structure Entry.Neutral (enabled : Bool) (e : Entry) : Prop where
  acquires : e.acquires = none
  releases : e.call.releases = none
  action : e.call.action = none
  clean : e.clean enabled = true

namespace Session

variable {D : Driver} {enabled : Bool} {s : Session}

theorem Accounts.neutral (h : Accounts enabled s) {e : Entry} (he : e.Neutral enabled) :
    Accounts enabled { s with calls := s.calls ++ [e] } where
  held := by
    change (acquired (s.calls ++ [e])).Perm (released (s.calls ++ [e]) ++ s.held)
    rw [acquired_append, released_append, he.acquires, he.releases]
    simpa using h.held
  idle := h.idle
  filters := h.filters
  middle := h.middle
  polling := fun i => by
    rw [h.polling i, lastAction_append, he.action]
    rfl
  wired := h.wired
  clean := by simp [h.clean, he.clean]

/-- The calls of a start that hand nothing out. -/
theorem ask_neutral {c : Call} {Q : Session → Prop}
    (hc : ∀ r, (⟨c, r⟩ : Entry).Neutral enabled)
    (hQ : ∀ s calls, Q s → Q { s with calls }) :
    Triple (fun s => Accounts enabled s ∧ Q s) (ask D c) (fun _ s => Accounts enabled s ∧ Q s)
      (fun _ => Accounts enabled) := by
  rintro s ⟨hs, hq⟩
  unfold ask
  have hnext := hs.neutral (hc (D.answer s.calls c))
  cases hr : D.answer s.calls c with
  | error e =>
    rw [hr] at hnext
    exact hnext
  | ok a =>
    rw [hr] at hnext
    exact ⟨hnext, hQ s _ hq⟩

/-- What a call that is answered leaves, before anything is noted. -/
theorem ask_triple {c : Call} {P : Session → Prop} {E : String → Session → Prop}
    (herror : ∀ s e, P s → E e { s with calls := s.calls ++ [⟨c, .error e⟩] }) :
    Triple P (ask D c) (fun a s => ∃ s₀, P s₀ ∧ s = { s₀ with calls := s₀.calls ++ [⟨c, .ok a⟩] })
      E := by
  intro s hs
  unfold ask
  cases hr : D.answer s.calls c with
  | error e => exact herror s e hs
  | ok a => exact ⟨s, hs, rfl⟩

/-! ## The start -/

theorem Accounts.opened (h : Accounts enabled s) (hfree : s.device = none) (d : UInt32) :
    Accounts enabled { s with
      calls := s.calls ++ [⟨.opens, .ok d⟩]
      device := some d } where
  held := by
    refine List.perm_iff_count.mpr fun r => ?_
    have hcount := List.perm_iff_count.mp h.held r
    dsimp only
    rw [acquired_append, released_append]
    simp only [Entry.acquires, Call.releases, Session.held, Session.bus, hfree, List.count_append,
      Option.toList_none, Option.toList_some, List.map_nil, List.map_cons, List.append_nil] at hcount ⊢
    omega
  idle := fun hnone => nomatch hnone
  filters := h.filters
  middle := h.middle
  polling := fun i => by
    rw [h.polling i, lastAction_append]
    rfl
  wired := h.wired
  clean := by simp [h.clean, Entry.clean]

theorem Accounts.connected (h : Accounts enabled s) {c : Fin 3} (hc : c ≠ 1)
    (hfree : s.channels c = none) (hdevice : s.device.isSome) (d protocol baud ch : UInt32) :
    Accounts enabled { s with
      calls := s.calls ++ [⟨.connect d protocol baud, .ok ch⟩]
      channels := Function.update s.channels c (some ch) } where
  held := by
    refine List.perm_iff_count.mpr fun r => ?_
    have hcount := List.perm_iff_count.mp h.held r
    have hnone := h.filters c hfree
    dsimp only
    rw [acquired_append, released_append]
    obtain rfl | rfl : c = 0 ∨ c = 2 := by omega
    · simp [Entry.acquires, Call.releases, Session.held, Session.bus, hfree, hnone, List.count_append,
        List.count_cons] at hcount ⊢
      omega
    · simp [Entry.acquires, Call.releases, Session.held, Session.bus, hfree, hnone, List.count_append,
        List.count_cons] at hcount ⊢
      omega
  idle := fun hnone => by
    rw [hnone] at hdevice
    cases hdevice
  filters := fun c' hc' => by
    dsimp only at hc' ⊢
    rw [Function.update_apply] at hc'
    split_ifs at hc'
    exact h.filters c' hc'
  middle := by
    dsimp only
    rw [Function.update_of_ne hc.symm]
    exact h.middle
  polling := fun i => by
    rw [h.polling i, lastAction_append]
    rfl
  wired := fun i hi => by
    dsimp only
    rw [Function.update_apply]
    split_ifs
    · rfl
    · exact h.wired i hi
  clean := by simp [h.clean, Entry.clean]

theorem Accounts.filtered (h : Accounts enabled s) {c : Fin 3} {ch : UInt32} (hc : c ≠ 1)
    (hopen : s.channels c = some ch) (hfree : s.filters c = none) (protocol f : UInt32) :
    Accounts enabled { s with
      calls := s.calls ++ [⟨.filter ch protocol, .ok f⟩]
      filters := Function.update s.filters c (some f) } where
  held := by
    refine List.perm_iff_count.mpr fun r => ?_
    have hcount := List.perm_iff_count.mp h.held r
    dsimp only
    rw [acquired_append, released_append]
    obtain rfl | rfl : c = 0 ∨ c = 2 := by omega
    · simp [Entry.acquires, Call.releases, Session.held, Session.bus, hopen, hfree, List.count_append,
        List.count_cons] at hcount ⊢
      omega
    · simp [Entry.acquires, Call.releases, Session.held, Session.bus, hopen, hfree, List.count_append,
        List.count_cons] at hcount ⊢
      omega
  idle := h.idle
  filters := fun c' hc' => by
    dsimp only at hc' ⊢
    rw [Function.update_apply]
    split_ifs with heq
    · rw [heq, hopen] at hc'
      cases hc'
    · exact h.filters c' hc'
  middle := h.middle
  polling := fun i => by
    rw [h.polling i, lastAction_append]
    rfl
  wired := h.wired
  clean := by simp [h.clean, Entry.clean]

/-- The device is open, and these buses are still to be connected. -/
def Ready (todo : List (Fin 3)) (s : Session) : Prop :=
  s.device.isSome ∧ ∀ c ∈ todo, s.channels c = none

theorem setUp_triple {c : Fin 3} (hc : c ≠ 1) (protocol ch : UInt32) (todo : List (Fin 3)) :
    Triple (fun s => Accounts enabled s ∧ Ready todo s ∧ s.channels c = some ch ∧ s.filters c = none)
      (setUp D c protocol ch) (fun _ s => Accounts enabled s ∧ Ready todo s)
      (fun _ => Accounts enabled) := by
  have hneutral (parameter value : UInt32) (r : Except String Unit) :
      (⟨.config ch parameter value, r⟩ : Entry).Neutral enabled := ⟨rfl, rfl, rfl, rfl⟩
  have hconfig (parameter value : UInt32) := ask_neutral (D := D)
    (c := .config ch parameter value)
    (Q := fun s => Ready todo s ∧ s.channels c = some ch ∧ s.filters c = none)
    (hneutral parameter value) fun s calls hq => hq
  unfold setUp
  refine Triple.bind (R := fun _ s =>
    Accounts enabled s ∧ Ready todo s ∧ s.channels c = some ch ∧ s.filters c = none) ?_ fun _ => ?_
  · unfold configurePins
    split
    · exact hconfig pins pin1
    · exact Triple.pure fun s hs => hs
  refine (hconfig loopback 1).bind fun _ => ?_
  refine (ask_triple fun s e hs => hs.1.neutral ⟨rfl, rfl, rfl, rfl⟩).bind fun f => ?_
  refine Triple.bind (R := fun _ s => Accounts enabled s ∧ Ready todo s) (Triple.change ?_) fun _ => ?_
  · rintro _ ⟨s, ⟨hs, hready, hopen, hfree⟩, rfl⟩
    exact ⟨hs.filtered hc hopen hfree protocol f, hready⟩
  · exact ask_neutral (fun r => ⟨rfl, rfl, rfl, rfl⟩) fun s calls hq => hq

theorem startBus_triple {c : Fin 3} (hc : c ≠ 1) {todo : List (Fin 3)} (htodo : c ∉ todo)
    (d : UInt32) :
    Triple (fun s => Accounts enabled s ∧ Ready (c :: todo) s) (startBus D d c)
      (fun _ s => Accounts enabled s ∧ Ready todo s) (fun _ => Accounts enabled) := by
  unfold startBus
  refine Triple.bind (R := fun _ s => Accounts enabled s ∧ Ready (c :: todo) s)
    (Triple.lift (fun _ _ _ => id) fun _ _ s hs => hs.1) fun protocol => ?_
  refine (ask_triple fun s e hs => hs.1.neutral ⟨rfl, rfl, rfl, rfl⟩).bind fun ch => ?_
  refine Triple.bind (Triple.change ?_) fun _ => setUp_triple hc protocol ch todo
  rintro _ ⟨s, ⟨hs, hdevice, hfree⟩, rfl⟩
  refine ⟨hs.connected hc (hfree c List.mem_cons_self) hdevice d protocol _ ch, ⟨hdevice, ?_⟩, ?_, ?_⟩
  · intro c' hc'
    dsimp only
    rw [Function.update_of_ne (ne_of_mem_of_not_mem hc' htodo)]
    exact hfree c' (List.mem_cons_of_mem c hc')
  · exact Function.update_self ..
  · exact hs.filters c (hfree c List.mem_cons_self)

theorem start_accounts (highSpeed : Bool) (h : Accounts enabled s) :
    Accounts enabled (start D highSpeed s).2 := by
  have hbuses (d : UInt32) : Triple
      (fun s => Accounts enabled s ∧ Ready (if highSpeed then [0, 2] else [2]) s)
      (each (startBus D d) (if highSpeed then [0, 2] else [2]))
      (fun _ => Accounts enabled) (fun _ => Accounts enabled) := by
    have hlast : Triple (fun s => Accounts enabled s ∧ Ready [2] s)
        (each (startBus D d) [2]) (fun _ => Accounts enabled) (fun _ => Accounts enabled) :=
      (startBus_triple (by decide) List.not_mem_nil d).bind fun _ => Triple.pure fun s hs => hs.1
    cases highSpeed with
    | true => exact (startBus_triple (by decide) (by decide) d).bind fun _ => hlast
    | false => exact hlast
  refine Triple.always (P := Accounts enabled) ?_ h
  unfold start
  refine Triple.bind (R := fun opened s => Accounts enabled s ∧ opened = s.device.isSome)
    (Triple.read fun s hs => ⟨hs, rfl⟩) fun opened => ?_
  split
  · exact Triple.fail fun s hs => hs.1
  rename_i hopened
  refine (ask_triple fun s e hs => hs.1.neutral ⟨rfl, rfl, rfl, rfl⟩).bind fun d => ?_
  refine Triple.bind (R := fun _ s => Accounts enabled s ∧ Ready [0, 2] s) (Triple.change ?_)
    fun _ => ?_
  · rintro _ ⟨s, ⟨hs, rfl⟩, rfl⟩
    have hnone : s.device = none := by simpa using hopened
    exact ⟨hs.opened hnone d, rfl, fun c _ => hs.idle hnone c⟩
  have hneutral (c : Call) (hc : ∀ r, (⟨c, r⟩ : Entry).Neutral enabled) :=
    ask_neutral (D := D) (Q := Ready [0, 2]) hc fun s calls hq => hq
  refine (hneutral (.version d) fun r => ⟨rfl, rfl, rfl, rfl⟩).bind fun version => ?_
  split
  · exact Triple.fail fun s hs => hs.1
  refine (hneutral (.voltage d) fun r => ⟨rfl, rfl, rfl, rfl⟩).bind fun _ => ?_
  refine (hbuses d).weaken ?_
  rintro s ⟨hs, hdevice, hfree⟩
  refine ⟨hs, hdevice, fun c hc => hfree c ?_⟩
  split_ifs at hc
  · exact hc
  · exact List.mem_cons_of_mem 0 hc

theorem receive_accounts (c : Nat) (h : Accounts enabled s) :
    Accounts enabled (receive D c s).2 := by
  refine Triple.always (P := Accounts enabled) ?_ h
  unfold receive
  split_ifs with hc
  · refine (Triple.read (Q := fun _ => Accounts enabled) fun s hs => hs).bind fun ch => ?_
    cases ch with
    | none => exact Triple.pure fun s hs => hs
    | some ch =>
      refine Triple.bind (R := fun _ => Accounts enabled) (fun s hs => ?_) fun m => ?_
      · have hnext := hs.neutral (e := ⟨.read ch, D.answer s.calls (.read ch)⟩) ⟨rfl, rfl, rfl, rfl⟩
        unfold ask
        cases hr : D.answer s.calls (.read ch) with
        | error e => rw [hr] at hnext; exact hnext
        | ok m => rw [hr] at hnext; exact hnext
      cases m with
      | none => exact Triple.pure fun s hs => hs
      | some m =>
        dsimp only
        split_ifs
        · refine Triple.bind (R := fun _ => Accounts enabled) (Triple.change fun s hs => ?_)
            fun _ => Triple.pure fun s hs => hs
          exact ⟨hs.held, hs.idle, hs.filters, hs.middle, hs.polling, hs.wired, hs.clean⟩
        · cases validateRx c m with
          | error e => exact Triple.fail fun s hs => hs
          | ok u => exact Triple.pure fun s hs => hs
  · exact Triple.pure fun s hs => hs

/-! ## Transmissions -/

/-- What is let through is written, and what is refused leaves no trace outside of the gate. -/
theorem transmit_cases (D : Driver) (enabled : Bool) (now : Nat) (line : List Char) (s : Session) :
    (∃ e gate, transmit D enabled now line s = (.error e, { s with gate })) ∨
      ∃ (c : Fin 3) (ticket : UInt64) (m : Message) (tx : Transmission) (ch : UInt32)
        (gate : CommandGate), parseTx line = .ok (c.val, ticket, m, tx) ∧ s.channels c = some ch ∧
          s.tickets c < ticket ∧ transmit D enabled now line s =
            deliver D c ticket m (if enabled then Polling.classify c tx else none) ch
              { s with gate } := by
  unfold transmit
  rcases hparse : parseTx line with e | ⟨c, ticket, m, tx⟩
  · exact .inl ⟨e, s.gate, bind_error rfl⟩
  · rw [bind_ok (show lift (Except.ok (c, ticket, m, tx)) s = (Except.ok (c, ticket, m, tx), s) from rfl)]
    by_cases hc : c < 3
    · simp only [hc, ↓reduceDIte]
      rw [bind_read]
      cases hopen : s.channels ⟨c, hc⟩ with
      | none => exact .inl ⟨_, s.gate, rfl⟩
      | some ch =>
        dsimp only
        rw [bind_read]
        by_cases hstale : ticket = 0 ∨ ticket ≤ s.tickets ⟨c, hc⟩
        · rw [if_pos hstale]
          exact .inl ⟨_, s.gate, rfl⟩
        · rw [if_neg hstale]
          have hnew : s.tickets ⟨c, hc⟩ < ticket := UInt64.not_le.mp (not_or.mp hstale).2
          cases haction : (if enabled then Polling.classify c tx else none) with
          | some action => exact .inr ⟨⟨c, hc⟩, ticket, m, tx, ch, s.gate, rfl, hopen, hnew, by rw [haction]⟩
          | none =>
            dsimp only
            rw [bind_read, bind_change]
            cases hallowed : (s.gate.allowed c tx .read now).2 with
            | false => exact .inl ⟨_, (s.gate.allowed c tx .read now).1, rfl⟩
            | true =>
              exact .inr ⟨⟨c, hc⟩, ticket, m, tx, ch, (s.gate.allowed c tx .read now).1, rfl, hopen,
                hnew, by rw [haction]; rfl⟩
    · simp only [hc, ↓reduceDIte]
      exact .inl ⟨_, s.gate, rfl⟩

theorem deliver_state (D : Driver) (c : Fin 3) (ticket : UInt64) (m : Message)
    (action : Option Action) (ch : UInt32) (s : Session) :
    (deliver D c ticket m action ch s).2 =
      written action (D.answer s.calls (.write ch m)) { record c ticket action s with
        calls := s.calls ++ [⟨.write ch m, D.answer s.calls (.write ch m)⟩] } := by
  unfold deliver
  rw [bind_change, bind_attempt, bind_change]
  change ((lift (D.answer s.calls (.write ch m)) >>= _) _).2 = _
  refine bind_induct (Q := fun r => r.2 = _) ?_ ?_
  · rintro e s' h
    exact (Prod.mk.inj h).2.symm
  · rintro n s' h
    rw [← (Prod.mk.inj h).2]
    split <;> rfl

theorem classify_controller {c : Nat} {tx : Transmission} {a : Action}
    (h : Polling.classify c tx = some a) : c = 2 := by
  unfold Polling.classify at h
  split at h
  · cases h
  · next hkind => exact Decidable.of_not_not fun hc => hkind (.inl hc)

theorem written_fields (action : Option Action) (write : Except String UInt32) (s : Session) :
    written action write s =
      { s with cleanupOk := s.cleanupOk && (!action.any Action.isStop || isOne write) } := by
  unfold written
  rcases action with _ | i | i
  · simp
  · simp [Action.isStop]
  · cases write <;> simp [Action.isStop, isOne]

theorem record_polling {c : Fin 3} {ticket : UInt64} {action : Option Action} {s : Session}
    (i : Fin 4) : (record c ticket action s).pollingActive i =
      if action.any (·.address = i) then decide (action = some (.start i))
      else s.pollingActive i := by
  unfold record
  rcases action with _ | j | j
  · simp
  · by_cases hij : j = i
    · simp [hij, Action.address]
    · simp [Action.address, hij, Function.update_of_ne (Ne.symm hij)]
  · by_cases hij : j = i
    · simp [hij, Action.address]
    · simp [Action.address, hij, Function.update_of_ne (Ne.symm hij)]

theorem Accounts.delivered (h : Accounts enabled s) {c : Fin 3} {ticket : UInt64} {m : Message}
    {action : Option Action} {ch : UInt32} (hopen : s.channels c = some ch)
    (haction : action = if enabled then m.action else none) (hbus : action ≠ none → c = 2) :
    Accounts enabled (deliver D c ticket m action ch s).2 := by
  rw [deliver_state, written_fields]
  generalize D.answer s.calls (.write ch m) = r
  refine ⟨?_, h.idle, h.filters, h.middle, fun i => ?_, fun i hi => ?_, ?_⟩
  · change (acquired (s.calls ++ [_])).Perm (released (s.calls ++ [_]) ++ s.held)
    rw [acquired_append, released_append]
    simpa [Entry.acquires, Call.releases] using h.held
  · change (record c ticket action s).pollingActive i = (enabled && decide (lastAction (s.calls ++ [_]) i = _))
    rw [record_polling, lastAction_append, haction, h.polling i]
    cases enabled with
    | false => rfl
    | true =>
      simp only [Bool.true_and, if_true]
      change _ = decide ((if m.action.any _ then m.action else _) = _)
      split_ifs <;> rfl
  · change (record c ticket action s).pollingActive i = true at hi
    change (s.channels 2).isSome
    rw [record_polling] at hi
    split_ifs at hi with hany
    · rw [← hbus (by rintro rfl; cases hany), hopen]
      rfl
    · exact h.wired i hi
  · change (s.cleanupOk && _) = (s.calls ++ [_]).all _
    rw [List.all_append, h.clean, haction]
    cases enabled <;> simp [Entry.clean]

theorem transmit_accounts (now : Nat) (line : List Char) (h : Accounts enabled s) :
    Accounts enabled (transmit D enabled now line s).2 := by
  rcases transmit_cases D enabled now line s with
    ⟨e, gate, heq⟩ | ⟨c, ticket, m, tx, ch, gate, hparse, hopen, -, heq⟩
  · rw [heq]
    exact ⟨h.held, h.idle, h.filters, h.middle, h.polling, h.wired, h.clean⟩
  · rw [heq]
    have hgate : Accounts enabled { s with gate } :=
      ⟨h.held, h.idle, h.filters, h.middle, h.polling, h.wired, h.clean⟩
    refine hgate.delivered hopen (by rw [(parseTx_action hparse).2]) fun hsome => ?_
    split_ifs at hsome
    · obtain ⟨a, ha⟩ := Option.ne_none_iff_exists'.mp hsome
      exact Fin.ext (classify_controller ha)
    · exact absurd rfl hsome

/-! ## The close -/

/-- After these calls of a close, all of them noted. -/
def Closing (enabled : Bool) (s₀ : Session) (sent : List Call) (calls : List Entry) (ok : Bool) :
    Prop :=
  ∃ new, calls = s₀.calls ++ new ∧ new.map (·.call) = sent ∧
    ok = (s₀.cleanupOk && new.all (Entry.clean enabled))

variable {s₀ : Session} {sent : List Call}

/-- A release goes on whatever it meets. -/
theorem release_closing {c : Call} {good : Except String c.Reply → Bool}
    (h : Closing enabled s₀ sent s.calls s.cleanupOk)
    (hgood : ∀ r, good r = Entry.clean enabled ⟨c, r⟩) :
    ∃ calls ok, release D c good s = (.ok (), { s with calls, cleanupOk := ok }) ∧
      Closing enabled s₀ (sent ++ [c]) calls ok := by
  obtain ⟨new, hcalls, hsent, hok⟩ := h
  refine ⟨_, _, rfl, new ++ [⟨c, D.answer s.calls c⟩], ?_, ?_, ?_⟩
  · change s.calls ++ _ = _
    rw [hcalls, List.append_assoc]
  · rw [List.map_append, hsent]
    rfl
  · change (s.cleanupOk && good (D.answer s.calls c)) = _
    rw [hok, hgood, List.all_append, Bool.and_assoc]
    simp

theorem stopPolling_closing (ch : UInt32) {i : Fin 4}
    (h : Closing enabled s₀ sent s.calls s.cleanupOk) (hactive : s.pollingActive i = true → enabled = true) :
    ∃ calls ok, stopPolling D ch i s = (.ok (), { s with
        calls
        cleanupOk := ok
        pollingActive := Function.update s.pollingActive i false }) ∧
      Closing enabled s₀
        (sent ++ if s.pollingActive i then [.write ch (stopMessage i)] else []) calls ok := by
  unfold stopPolling
  rw [bind_read, bind_change]
  cases hi : s.pollingActive i with
  | false => exact ⟨s.calls, s.cleanupOk, rfl, by simpa using h⟩
  | true =>
    refine release_closing (s := { s with pollingActive := Function.update s.pollingActive i false }) h
      fun r => ?_
    simp [Entry.clean, hactive hi, stopMessage_action, Action.isStop]

instance instLawfulBEqTimers : LawfulBEq (Fin 4) := inferInstance

theorem stopPolling_each (ch : UInt32) {is : List (Fin 4)} (hnodup : is.Nodup)
    (h : Closing enabled s₀ sent s.calls s.cleanupOk)
    (hactive : ∀ i, s.pollingActive i = true → enabled = true) :
    ∃ calls ok, each (stopPolling D ch) is s = (.ok (), { s with
        calls
        cleanupOk := ok
        pollingActive := fun i => if i ∈ is then false else s.pollingActive i }) ∧
      Closing enabled s₀
        (sent ++ (is.filter s.pollingActive).map fun i => .write ch (stopMessage i)) calls ok := by
  induction is generalizing s sent with
  | nil => exact ⟨s.calls, s.cleanupOk, by simp [each], by simpa using h⟩
  | cons i is ih =>
    obtain ⟨hi, hnodup⟩ := List.nodup_cons.mp hnodup
    obtain ⟨calls, ok, hfirst, hsent⟩ := stopPolling_closing (D := D) ch h (hactive i)
    obtain ⟨calls', ok', hrest, hsent'⟩ := ih (s := { s with
      calls, cleanupOk := ok, pollingActive := Function.update s.pollingActive i false })
      hnodup hsent fun j hj => by
        dsimp only at hj
        rw [Function.update_apply] at hj
        split_ifs at hj
        exact hactive j hj
    refine ⟨calls', ok', ?_, ?_⟩
    · rw [each, bind_ok hfirst, hrest]
      congr 2
      funext j
      by_cases hj : j = i
      · simp [hj]
      · simp [hj]
    · have hfilter : is.filter (Function.update s.pollingActive i false) =
          is.filter s.pollingActive :=
        List.filter_congr fun j hj => Function.update_of_ne (ne_of_mem_of_not_mem hj hi) ..
      dsimp only at hsent'
      rw [hfilter] at hsent'
      cases hact : s.pollingActive i with
      | false => simpa [hact] using hsent'
      | true => simpa [hact] using hsent'

theorem closeBus_closing {c : Fin 3} (h : Closing enabled s₀ sent s.calls s.cleanupOk)
    (hfilters : s.channels c = none → s.filters c = none) :
    ∃ calls ok, closeBus D c s = (.ok (), { s with
        calls
        cleanupOk := ok
        channels := Function.update s.channels c none
        filters := Function.update s.filters c none }) ∧
      Closing enabled s₀ (sent ++ (s.bus c).map Resource.release) calls ok := by
  unfold closeBus bus
  rw [bind_read]
  cases hopen : s.channels c with
  | none =>
    have hchannels : Function.update s.channels c none = s.channels := by
      rw [← hopen, Function.update_eq_self]
    have hclear : Function.update s.filters c none = s.filters := by
      rw [← hfilters hopen, Function.update_eq_self]
    refine ⟨s.calls, s.cleanupOk, ?_, by simpa using h⟩
    rw [hchannels, hclear]
    rfl
  | some ch =>
    dsimp only
    rw [bind_read, setFilter, bind_change]
    obtain ⟨calls, ok, hfilter, hsent⟩ : ∃ calls ok,
        stopFilter D ch (s.filters c) { s with filters := Function.update s.filters c none } =
          (.ok (), { s with
            calls, cleanupOk := ok, filters := Function.update s.filters c none }) ∧
          Closing enabled s₀ (sent ++ (s.filters c).toList.map (.stopFilter ch)) calls ok := by
      cases s.filters c with
      | none => exact ⟨s.calls, s.cleanupOk, rfl, by simpa using h⟩
      | some f =>
        exact release_closing (s := { s with filters := Function.update s.filters c none }) h
          fun r => rfl
    rw [bind_ok hfilter, setChannel, bind_change]
    have hgood (r : Except String Unit) :
        r.toBool = Entry.clean enabled ⟨.disconnect ch, r⟩ := rfl
    obtain ⟨calls', ok', hchannel, hsent'⟩ := release_closing (D := D) (c := .disconnect ch) (s := { s with
      calls, cleanupOk := ok, channels := Function.update s.channels c none
      filters := Function.update s.filters c none }) hsent hgood
    refine ⟨calls', ok', hchannel, ?_⟩
    rw [List.append_assoc] at hsent'
    rw [List.map_append, List.map_map]
    exact hsent'

/-- The stops of a close. -/
def stops (enabled : Bool) (calls : List Entry) (ch : UInt32) : List Call :=
  (if enabled then polled calls else []).map fun i => .write ch (stopMessage i)

/-- The session after a close. -/
def ended (s : Session) (calls : List Entry) (ok : Bool) : Session :=
  { s with
    calls
    cleanupOk := ok
    device := none
    channels := fun _ => none
    filters := fun _ => none
    pollingActive := fun _ => false }

theorem close_closing (D : Driver) (h : Accounts enabled s) :
    ∃ calls ok, close D s = (.ok ok, s.ended calls ok) ∧
      Closing enabled s (stops enabled s.calls ((s.channels 2).getD 0) ++ s.held.map Resource.release)
        calls ok := by
  have hstart : Closing enabled s [] s.calls s.cleanupOk := ⟨[], by simp, rfl, by simp⟩
  have hactive : ∀ i, s.pollingActive i = true → enabled = true := by
    intro i hi
    rw [h.polling i] at hi
    exact (Bool.and_eq_true _ _ ▸ hi).1
  have hpolled : (List.finRange 4).filter s.pollingActive = if enabled then polled s.calls else [] := by
    rw [show s.pollingActive = _ from funext h.polling]
    cases enabled <;> simp [polled]
  -- The stops come first, and need the channel of the single wire.
  obtain ⟨calls₁, ok₁, hstops, hsent₁⟩ : ∃ calls ok, stopAll D (s.channels 2) s =
      (.ok (), { s with calls, cleanupOk := ok, pollingActive := fun _ => false }) ∧
      Closing enabled s (stops enabled s.calls ((s.channels 2).getD 0)) calls ok := by
    unfold stopAll stops
    cases hopen : s.channels 2 with
    | none =>
      have hidle : s.pollingActive = fun _ => false := by
        funext i
        refine Bool.eq_false_iff.mpr fun hi => ?_
        have := h.wired i hi
        rw [hopen] at this
        cases this
      refine ⟨s.calls, s.cleanupOk, by rw [← hidle]; rfl, ?_⟩
      rw [← hpolled, hidle]
      simpa using hstart
    | some ch =>
      obtain ⟨calls, ok, heach, hsent⟩ := stopPolling_each (D := D) ch (List.nodup_finRange 4) hstart
        hactive
      refine ⟨calls, ok, by simpa using heach, ?_⟩
      rw [← hpolled]
      exact hsent
  obtain ⟨calls₂, ok₂, hbus2, hsent₂⟩ := closeBus_closing (D := D) (c := 2)
    (s := { s with calls := calls₁, cleanupOk := ok₁, pollingActive := fun _ => false }) hsent₁
    (h.filters 2)
  obtain ⟨calls₃, ok₃, hbus0, hsent₃⟩ := closeBus_closing (D := D) (c := 0)
    (s := { s with
      calls := calls₂, cleanupOk := ok₂, pollingActive := fun _ => false
      channels := Function.update s.channels 2 none
      filters := Function.update s.filters 2 none }) hsent₂ (h.filters 0)
  have hbuses : each (closeBus D) [2, 0]
      { s with calls := calls₁, cleanupOk := ok₁, pollingActive := fun _ => false } =
        (.ok (), { s with
          calls := calls₃, cleanupOk := ok₃, pollingActive := fun _ => false
          channels := fun _ => none, filters := fun _ => none }) := by
    rw [each, bind_ok hbus2, each, bind_ok hbus0]
    have hclear (f : Fin 3 → Option UInt32) (hmiddle : f 1 = none) :
        Function.update (Function.update f 2 none) 0 none = fun _ => none := by
      funext c
      obtain rfl | rfl | rfl : c = 0 ∨ c = 1 ∨ c = 2 := by omega
      · rfl
      · exact hmiddle
      · rfl
    rw [hclear _ h.middle, hclear _ (h.filters 1 h.middle)]
    rfl
  obtain ⟨calls₄, ok₄, hdevice, hsent₄⟩ : ∃ calls ok, closeDevice D s.device { s with
        calls := calls₃, cleanupOk := ok₃, pollingActive := fun _ => false
        channels := fun _ => none, filters := fun _ => none, device := none } =
          (.ok (), s.ended calls ok) ∧
      Closing enabled s (stops enabled s.calls ((s.channels 2).getD 0) ++
        s.held.map Resource.release) calls ok := by
    have hheld : stops enabled s.calls ((s.channels 2).getD 0) ++ s.held.map Resource.release =
        stops enabled s.calls ((s.channels 2).getD 0) ++ (s.bus 2).map Resource.release ++
          (s.bus 0).map Resource.release ++ s.device.toList.map .close := by
      rw [held, List.map_append, List.map_append, List.map_map]
      simp only [List.append_assoc]
      rfl
    rw [hheld]
    cases hd : s.device with
    | none =>
      rw [Option.toList_none, List.map_nil, List.append_nil]
      exact ⟨calls₃, ok₃, rfl, hsent₃⟩
    | some d =>
      exact release_closing (s := { s with
        calls := calls₃, cleanupOk := ok₃, pollingActive := fun _ => false
        channels := fun _ => none, filters := fun _ => none, device := none }) hsent₃ fun r => rfl
  refine ⟨calls₄, ok₄, ?_, hsent₄⟩
  unfold close
  rw [bind_read, bind_ok hstops, bind_ok hbuses, bind_read, setDevice, bind_change, bind_ok hdevice]
  rfl

theorem release_releases (r : Resource) : r.release.releases = some r := by
  cases r <;> rfl

theorem mem_closing {calls : List Entry} {ok : Bool} {ch : UInt32}
    (h : Closing enabled s₀ (stops enabled s₀.calls ch ++ s₀.held.map Resource.release) calls ok) :
    ∃ new, calls = s₀.calls ++ new ∧
      new.map (·.call) = stops enabled s₀.calls ch ++ s₀.held.map Resource.release ∧
      ok = (s₀.cleanupOk && new.all (Entry.clean enabled)) ∧ acquired new = [] ∧
      released new = s₀.held ∧
      new.filterMap (·.call.action) = (if enabled then polled s₀.calls else []).map Action.stop := by
  obtain ⟨new, rfl, hsent, rfl⟩ := h
  refine ⟨new, rfl, hsent, rfl, ?_, ?_, ?_⟩
  · refine List.filterMap_eq_nil_iff.mpr fun e he => ?_
    have hmem : e.call ∈ stops enabled s₀.calls ch ++ s₀.held.map Resource.release :=
      hsent ▸ List.mem_map_of_mem he
    obtain ⟨call, reply⟩ := e
    rcases List.mem_append.mp hmem with hmem | hmem
    · obtain ⟨i, -, rfl⟩ := List.mem_map.mp hmem
      rfl
    · obtain ⟨r, -, rfl⟩ := List.mem_map.mp hmem
      cases r <;> rfl
  · have hcompose : released new = (new.map (·.call)).filterMap Call.releases := by
      rw [List.filterMap_map]
      rfl
    rw [hcompose, hsent, List.filterMap_append, List.filterMap_map, stops, List.filterMap_map]
    have hstops (l : List (Fin 4)) :
        l.filterMap (Call.releases ∘ fun i => .write ch (stopMessage i)) = [] :=
      List.filterMap_eq_nil_iff.mpr fun i _ => rfl
    rw [hstops, List.nil_append]
    exact (List.filterMap_congr fun r _ => release_releases r).trans List.filterMap_some
  · have hcompose : new.filterMap (·.call.action) = (new.map (·.call)).filterMap Call.action := by
      rw [List.filterMap_map]
      rfl
    rw [hcompose, hsent, List.filterMap_append, List.filterMap_map, stops, List.filterMap_map]
    have hreleases (l : List Resource) : l.filterMap (Call.action ∘ Resource.release) = [] :=
      List.filterMap_eq_nil_iff.mpr fun r _ => by cases r <;> rfl
    have hstops (l : List (Fin 4)) :
        l.filterMap (Call.action ∘ fun i => .write ch (stopMessage i)) = l.map Action.stop := by
      rw [← List.filterMap_eq_map]
      exact List.filterMap_congr fun i _ => stopMessage_action i
    rw [hreleases, hstops, List.append_nil]

/-- After the stops no address has a start as its last attempt. -/
theorem lastAction_stopped {calls new : List Entry}
    (hnew : new.filterMap (·.call.action) = (polled calls).map Action.stop) (i : Fin 4) :
    lastAction (calls ++ new) i ≠ some (.start i) := by
  unfold lastAction
  rw [List.filterMap_append, hnew, List.filter_append, List.getLast?_append]
  intro h
  rcases Option.or_eq_some_iff.mp h with hlast | ⟨hnone, hlast⟩
  · obtain ⟨j, -, hj⟩ := List.mem_map.mp (List.mem_of_mem_filter (List.mem_of_getLast? hlast))
    cases hj
  · have hi : i ∈ polled calls := List.mem_filter.mpr ⟨List.mem_finRange i, decide_eq_true hlast⟩
    have hmem : Action.stop i ∈ ((polled calls).map Action.stop).filter (·.address = i) :=
      List.mem_filter.mpr ⟨List.mem_map_of_mem hi, by simp [Action.address]⟩
    rw [List.getLast?_eq_none_iff.mp hnone] at hmem
    cases hmem

theorem close_accounts (D : Driver) (h : Accounts enabled s) : Accounts enabled (close D s).2 := by
  obtain ⟨calls, ok, hclose, hsent⟩ := close_closing D h
  obtain ⟨new, rfl, -, rfl, hacquired, hreleased, hactions⟩ := mem_closing hsent
  rw [hclose]
  refine ⟨?_, fun _ _ => rfl, fun _ _ => rfl, rfl, fun i => ?_, (fun i hi => nomatch hi), ?_⟩
  · change (acquired (s.calls ++ new)).Perm (released (s.calls ++ new) ++ [])
    rw [acquired, List.filterMap_append, released, List.filterMap_append, List.append_nil]
    change (acquired s.calls ++ acquired new).Perm (released s.calls ++ released new)
    rw [hacquired, hreleased, List.append_nil]
    exact h.held
  · change false = (enabled && decide (lastAction (s.calls ++ new) i = _))
    cases enabled with
    | false => rfl
    | true => exact (decide_eq_false (lastAction_stopped hactions i)).symm
  · change (s.cleanupOk && _) = (s.calls ++ new).all _
    rw [h.clean, List.all_append]

/-- Nothing is left for a second close. -/
theorem close_ended (D : Driver) (s : Session) (calls : List Entry) (ok : Bool) :
    close D (s.ended calls ok) = (.ok ok, s.ended calls ok) := by
  have hbus (c : Fin 3) : closeBus D c (s.ended calls ok) = (.ok (), s.ended calls ok) := rfl
  have hbuses : each (closeBus D) [2, 0] (s.ended calls ok) = (.ok (), s.ended calls ok) := by
    rw [each, bind_ok (hbus 2), each, bind_ok (hbus 0)]
    rfl
  unfold close
  rw [bind_read, bind_ok (show stopAll D _ (s.ended calls ok) = (.ok (), s.ended calls ok) from rfl),
    bind_ok hbuses]
  rfl

/-! ## Runs -/

inductive Op where
  | start (highSpeed : Bool)
  | transmit (now : Nat) (line : List Char)
  | receive (c : Nat)
  | close

def step (D : Driver) (enabled : Bool) (s : Session) : Op → Session
  | .start highSpeed => (start D highSpeed s).2
  | .transmit now line => (transmit D enabled now line s).2
  | .receive c => (receive D c s).2
  | .close => (close D s).2

/-- The ticket that a step hands to the driver. -/
def handed (D : Driver) (enabled : Bool) (s : Session) : Op → List (Nat × UInt64)
  | .transmit now line =>
    match parseTx line with
    | .error _ => []
    | .ok (c, ticket, _) =>
      if (transmit D enabled now line s).2.calls.length = s.calls.length then [] else [(c, ticket)]
  | _ => []

theorem step_accounts (D : Driver) (enabled : Bool) (s : Session) (op : Op)
    (h : Accounts enabled s) : Accounts enabled (step D enabled s op) := by
  cases op with
  | start highSpeed => exact start_accounts highSpeed h
  | transmit now line => exact transmit_accounts now line h
  | receive c => exact receive_accounts c h
  | close => exact close_accounts D h

def sameTickets : Allowed Session where
  rel s s' := s'.tickets = s.tickets
  refl _ := rfl
  trans h h' := h'.trans h

theorem ask_tickets (D : Driver) (c : Call) : Keeps sameTickets (ask D c) := fun _ => rfl

theorem startBus_tickets (D : Driver) (d : UInt32) (c : Fin 3) :
    Keeps sameTickets (startBus D d c) := by
  refine (Keeps.lift _).bind fun protocol => (ask_tickets D _).bind fun ch => ?_
  refine Keeps.bind (fun _ => rfl) fun _ => Keeps.bind ?_ fun _ => ?_
  · unfold configurePins
    split
    · exact ask_tickets D _
    · exact Keeps.pure ()
  refine (ask_tickets D _).bind fun _ => (ask_tickets D _).bind fun f => ?_
  exact Keeps.bind (fun _ => rfl) fun _ => ask_tickets D _

theorem start_tickets (D : Driver) (highSpeed : Bool) : Keeps sameTickets (start D highSpeed) := by
  refine (Keeps.read _).bind fun opened => ?_
  split
  · exact Keeps.fail _
  refine (ask_tickets D _).bind fun d => Keeps.bind (fun _ => rfl) fun _ => ?_
  refine (ask_tickets D _).bind fun version => ?_
  split
  · exact Keeps.fail _
  · exact (ask_tickets D _).bind fun _ => Keeps.each fun c _ => startBus_tickets D d c

theorem receive_tickets (D : Driver) (c : Nat) : Keeps sameTickets (receive D c) := by
  unfold receive
  split
  · refine (Keeps.read _).bind fun ch => ?_
    cases ch with
    | none => exact Keeps.pure _
    | some ch =>
      refine (ask_tickets D _).bind fun m => ?_
      cases m with
      | none => exact Keeps.pure _
      | some m =>
        dsimp only
        split
        · exact Keeps.bind (fun _ => rfl) fun _ => Keeps.pure _
        · cases validateRx c m with
          | error e => exact Keeps.fail _
          | ok u => exact Keeps.pure _
  · exact Keeps.pure _

/-- What has been handed over is in order on each controller, up to its last ticket. -/
structure Tickets (s : Session) (log : List (Nat × UInt64)) : Prop where
  sorted : log.Pairwise fun a b => a.1 = b.1 → a.2 < b.2
  last : ∀ a ∈ log, ∃ c : Fin 3, c.val = a.1 ∧ a.2 ≤ s.tickets c

theorem Tickets.same {s' : Session} {log : List (Nat × UInt64)} (h : Tickets s log)
    (hsame : s'.tickets = s.tickets) : Tickets s' (log ++ []) := by
  rw [List.append_nil]
  exact ⟨h.sorted, hsame ▸ h.last⟩

theorem deliver_returns (D : Driver) (c : Fin 3) (ticket : UInt64) (m : Message)
    (action : Option Action) (ch : UInt32) :
    ∀ s r s', deliver D c ticket m action ch s = (.ok r, s') → r = (c.val, ticket) := by
  change Returns (· = (c.val, ticket)) (deliver D c ticket m action ch)
  refine Returns.bind fun _ => Returns.bind fun write => Returns.bind fun _ => Returns.bind fun n => ?_
  split
  · intro s r s' h
    cases (Prod.mk.inj h).1
  · exact Returns.pure rfl

theorem handed_cases (D : Driver) (enabled : Bool) (now : Nat) (line : List Char) (s : Session) :
    (handed D enabled s (.transmit now line) = [] ∧
        (transmit D enabled now line s).2.tickets = s.tickets ∧
        ∃ e, (transmit D enabled now line s).1 = .error e) ∨
      ∃ (c : Fin 3) (ticket : UInt64), handed D enabled s (.transmit now line) = [(c.val, ticket)] ∧
        s.tickets c < ticket ∧
        (transmit D enabled now line s).2.tickets = Function.update s.tickets c ticket ∧
        ∀ r, (transmit D enabled now line s).1 = .ok r → r = (c.val, ticket) := by
  rcases transmit_cases D enabled now line s with
    ⟨e, gate, heq⟩ | ⟨c, ticket, m, tx, ch, gate, hparse, -, hnew, heq⟩
  · have hcalls : (transmit D enabled now line s).2.calls.length = s.calls.length := by rw [heq]
    rw [heq]
    refine .inl ⟨?_, rfl, e, rfl⟩
    cases hparse : parseTx line with
    | error e => simp only [handed, hparse]
    | ok r => simp only [handed, hparse, hcalls, if_true]
  · have hcalls : (transmit D enabled now line s).2.calls.length ≠ s.calls.length := by
      rw [heq, deliver_state, written_fields, List.length_append]
      exact Nat.succ_ne_self _
    refine .inr ⟨c, ticket, by simp only [handed, hparse, hcalls, if_false], hnew, ?_, fun r hr => ?_⟩
    · rw [heq, deliver_state, written_fields]
      rfl
    · rw [heq] at hr
      exact deliver_returns D c ticket m _ ch _ r _ (Prod.ext hr rfl)

theorem step_tickets {log : List (Nat × UInt64)} (ha : Accounts enabled s) (h : Tickets s log)
    (op : Op) : Tickets (step D enabled s op) (log ++ handed D enabled s op) := by
  cases op with
  | start highSpeed => exact h.same (start_tickets D highSpeed s)
  | receive c => exact h.same (receive_tickets D c s)
  | close =>
    obtain ⟨calls, ok, hclose, -⟩ := close_closing D ha
    exact h.same (by rw [step, hclose]; rfl)
  | transmit now line =>
    rcases handed_cases D enabled now line s with ⟨hnone, hsame, -⟩ | ⟨c, ticket, hone, hnew, hnext, -⟩
    · rw [hnone]
      exact h.same hsame
    · rw [hone]
      constructor
      · refine List.pairwise_append.mpr ⟨h.sorted, List.pairwise_singleton .., fun a ha b hb hab => ?_⟩
        rw [List.mem_singleton.mp hb] at hab ⊢
        obtain ⟨c', hc', hle⟩ := h.last a ha
        obtain rfl : c' = c := Fin.ext (hc'.trans hab)
        exact UInt64.lt_of_le_of_lt hle hnew
      · intro a ha
        change ∃ c' : Fin 3, c'.val = a.1 ∧ a.2 ≤ (transmit D enabled now line s).2.tickets c'
        rw [hnext]
        rcases List.mem_append.mp ha with ha | ha
        · obtain ⟨c', hc', hle⟩ := h.last a ha
          refine ⟨c', hc', ?_⟩
          by_cases hcc : c' = c
          · rw [hcc, Function.update_self]
            exact UInt64.le_of_lt (UInt64.lt_of_le_of_lt (hcc ▸ hle) hnew)
          · rw [Function.update_of_ne hcc]
            exact hle
        · rw [List.mem_singleton.mp ha]
          exact ⟨c, rfl, by rw [Function.update_self]; exact UInt64.le_refl _⟩

/-- In every run, whatever the driver answers: a close stops what is polled and gives back what has been
handed out, once and in order, and is clean only if all of that has succeeded; a second close calls
nothing; and no ticket is handed to the driver twice. -/
theorem run_released (D : Driver) (enabled : Bool) (ops : List Op) :
    let s := Runs.run (step D enabled) .new ops
    (∃ (s' : Session) (new : List Entry) (held : List Resource) (ch : UInt32),
      close D s = (.ok s'.cleanupOk, s') ∧ s'.calls = s.calls ++ new ∧
        new.map (·.call) = stops enabled s.calls ch ++ held.map Resource.release ∧
        (stops enabled s.calls ch ≠ [] → s.channels 2 = some ch) ∧
        (acquired s.calls).Perm (released s.calls ++ held) ∧ Ordered held ∧
        (s'.cleanupOk = true ↔ ∀ e ∈ s'.calls, e.clean enabled = true) ∧
        (close D s').2.calls = s'.calls) ∧
      (Runs.log (step D enabled) (handed D enabled) .new ops).Pairwise
        (fun a b => a.1 = b.1 → a.2 < b.2) ∧
      ∀ now line c ticket, (transmit D enabled now line s).1 = .ok (c, ticket) →
        handed D enabled s (.transmit now line) = [(c, ticket)] := by
  have hrun := Runs.log_keeps (R := fun s log => Accounts enabled s ∧ Tickets s log)
    (fun s op log h => ⟨step_accounts D enabled s op h.1, step_tickets (D := D) h.1 h.2 op⟩) ops
    (⟨accounts_new enabled, List.Pairwise.nil, fun a ha => absurd ha List.not_mem_nil⟩)
  rw [List.nil_append] at hrun
  obtain ⟨haccounts, htickets⟩ := hrun
  intro s
  refine ⟨?_, htickets.sorted, fun now line c ticket hok => ?_⟩
  · obtain ⟨calls, ok, hclose, hsent⟩ := close_closing D haccounts
    have hclosed := close_accounts D haccounts
    obtain ⟨new, rfl, hnew, hclean, -⟩ := mem_closing hsent
    rw [hclose] at hclosed
    refine ⟨s.ended (s.calls ++ new) ok, new, s.held, (s.channels 2).getD 0, hclose, rfl, hnew,
      fun hstops => ?_, haccounts.held, ordered_held s, ?_, ?_⟩
    · cases hopen : s.channels 2 with
      | some ch => rfl
      | none =>
        refine absurd ?_ hstops
        have hidle : ∀ i, s.pollingActive i = false := by
          intro i
          refine Bool.eq_false_iff.mpr fun hi => ?_
          have hwired := haccounts.wired i hi
          rw [hopen] at hwired
          cases hwired
        unfold stops polled
        cases enabled with
        | false => rfl
        | true =>
          rw [if_pos rfl, List.map_eq_nil_iff, List.filter_eq_nil_iff]
          intro i _ hi
          have hpolling := haccounts.polling i
          rw [hidle i, Bool.true_and, hi] at hpolling
          cases hpolling
    · rw [show (s.ended (s.calls ++ new) ok).cleanupOk = _ from hclosed.clean, List.all_eq_true]
    · rw [close_ended]
  · rcases handed_cases D enabled now line s with ⟨-, -, e, he⟩ | ⟨c', ticket', hone, -, -, hres⟩
    · cases he.symm.trans hok
    · rw [hone, hres _ hok]

end Session

end OpenSaab.Mdi
