import OpenSaab.Policy.Transactions
import OpenSaab.VcxNano.TxLedger

/-!
# Completions of the ledger

Over any calls of the ledger, a completion says that its own frame was written whole and in time.
-/

namespace OpenSaab.VcxNano.TxLedger

open Can Policy

/-! ## Calls and what comes of them -/

inductive Op where
  | prepare (controller : Nat) (tx : Transmission) (now : Nat) (profile : Profile)
  | usbWriteFinished (controller : Nat) (ticket : UInt64) (outcome : Except String Nat) (now : Nat)
  | checkDeadline (now : Nat)
  | close

inductive Reply where
  | prepared (p : Prepared)
  | event (e : Event)
  | done
  deriving DecidableEq, Repr

def apply (l : TxLedger) : Op → TxLedger × Except String Reply
  | .prepare controller tx now profile =>
    let r := l.prepareForProfile controller tx now profile
    (r.1, r.2.map .prepared)
  | .usbWriteFinished controller ticket outcome now =>
    let r := l.usbWriteFinished controller ticket outcome now
    (r.1, r.2.map .event)
  | .checkDeadline now =>
    let r := l.checkDeadline now
    (r.1, r.2.map fun _ => .done)
  | .close => (l.close, .ok .done)

def next (l : TxLedger) (op : Op) : TxLedger := (l.apply op).1

/-- What the calls that succeeded have to show. -/
inductive Record where
  | prepared (tx : Transmission) (now : Nat) (p : Prepared)
  | completed (e : Event) (outcome : Except String Nat) (now : Nat)

def records (l : TxLedger) (op : Op) : List Record :=
  match op, (l.apply op).2 with
  | .prepare _ tx now _, .ok (.prepared p) => [.prepared tx now p]
  | .usbWriteFinished _ _ outcome now, .ok (.event e) => [.completed e outcome now]
  | _, _ => []

def history (ops : List Op) : List Record := Runs.log next records default ops

/-! ## What one call does -/

variable {l l' : TxLedger}

inductive Step (l : TxLedger) : TxLedger → List Record → Prop where
  | same : Step l l []
  | closed : Step l l.close []
  | prepared {controller : Nat} {tx : Transmission} {now : Nat} {profile : Profile}
      {wire : List UInt8} (hcontroller : controller < 3) (hidle : l.pendingOn controller = none)
      (hticket : ∀ last, l.lastTicket[controller]? = some last → last < tx.ticket)
      (hgate : (l.gate.allowed controller tx profile now).2 = true)
      (hwire : Carries wire ((l.sequence[controller]?).getD 0 + 1) controller tx) :
      Step l
        (record { l with gate := (l.gate.allowed controller tx profile now).1 }
          ⟨controller, tx.ticket, wire, now + writeLimit⟩ ((l.sequence[controller]?).getD 0 + 1))
        [.prepared tx now ⟨controller, tx.ticket, wire, now + writeLimit⟩]
  | completed {p : Prepared} {controller now : Nat} (hp : l.pendingOn controller = some p)
      (hnow : now < p.deadline) :
      Step l { l with pending := l.pending.setIfInBounds controller none }
        [.completed (.completed controller p.ticket .vcxUsbWriteCompatibility)
          (.ok p.wire.length) now]

theorem mem_of_pendingOn {p : Prepared} {controller : Nat} (h : l.pendingOn controller = some p) :
    some p ∈ l.pending.toList := by
  unfold pendingOn at h
  rw [Option.join_eq_some_iff] at h
  exact Vector.mem_toList_iff.mpr (Vector.mem_of_getElem? h)

/-- The check passes, or it refuses a closed ledger, or it closes one. -/
theorem checkDeadline_cases (l : TxLedger) (now : Nat) :
    l.checkDeadline now = (l, .ok ()) ∧ l.closed = false ∧
        (∀ c p, l.pendingOn c = some p → now < p.deadline) ∨
      l.checkDeadline now = (l, .error sessionClosed) ∧ l.closed = true ∨
      ∃ e, l.checkDeadline now = (l.close, .error e) ∧ e ≠ writePending ∧ e ≠ gateRejected := by
  unfold checkDeadline
  split_ifs with hclosed hdeadline
  · exact Or.inr (Or.inl ⟨rfl, hclosed⟩)
  · exact Or.inr (Or.inr ⟨_, rfl, by decide, by decide⟩)
  · refine Or.inl ⟨rfl, by simpa using hclosed, ?_⟩
    intro c p hp
    rw [Bool.not_eq_true, List.any_eq_false] at hdeadline
    simpa using hdeadline (some p) (mem_of_pendingOn hp)

/-- Why a call is refused, and the ledger after it. -/
inductive Refused (l : TxLedger) : Op → TxLedger → String → Prop where
  | shut {op : Op} (h : l.closed = true) : Refused l op l sessionClosed
  | pending {controller : Nat} {tx : Transmission} {now : Nat} {profile : Profile}
      (h : (l.pendingOn controller).isSome) :
      Refused l (.prepare controller tx now profile) l writePending
  | gate {controller : Nat} {tx : Transmission} {now : Nat} {profile : Profile}
      (h : (l.gate.allowed controller tx profile now).2 = false) :
      Refused l (.prepare controller tx now profile) l gateRejected
  | fatal {op : Op} {e : String} (he : e ≠ writePending ∧ e ≠ gateRejected) : Refused l op l.close e

theorem pendingOn_lt {p : Prepared} {controller : Nat} (h : l.pendingOn controller = some p) :
    controller < 3 := by
  unfold pendingOn at h
  rw [Option.join_eq_some_iff] at h
  exact (Vector.getElem?_eq_some_iff.mp h).1

theorem prepare_cases (l : TxLedger) (controller : Nat) (tx : Transmission) (now : Nat)
    (profile : Profile) :
    (∃ p, (l.prepareForProfile controller tx now profile).2 = .ok p ∧ l.closed = false ∧
      (l.gate.allowed controller tx profile now).2 = true ∧
      Step l (l.prepareForProfile controller tx now profile).1 [.prepared tx now p]) ∨
    ∃ e, (l.prepareForProfile controller tx now profile).2 = .error e ∧
      Refused l (.prepare controller tx now profile)
        (l.prepareForProfile controller tx now profile).1 e := by
  unfold prepareForProfile
  rcases checkDeadline_cases l now with ⟨hcheck, hopen, -⟩ | ⟨hcheck, hclosed⟩ | ⟨e, hcheck, he⟩
  · rw [hcheck]
    dsimp only
    split_ifs with hpending hticket
    · exact Or.inr ⟨_, rfl, .pending hpending⟩
    · exact Or.inr ⟨_, rfl, .fatal ⟨by decide, by decide⟩⟩
    · have hrefused := @allowed_refused l.gate controller tx profile now
      cases hallowed : l.gate.allowed controller tx profile now with
      | mk gate allowed =>
        rw [hallowed] at hrefused
        cases allowed with
        | false =>
          obtain rfl : gate = l.gate := hrefused rfl
          exact Or.inr ⟨_, rfl, .gate (by rw [hallowed])⟩
        | true =>
          have hgate : (l.gate.allowed controller tx profile now).2 = true := by rw [hallowed]
          obtain ⟨route, hroute⟩ := allowed_route hgate
          obtain ⟨wire, hwire, hcarries⟩ :=
            encode_carries ((l.sequence[controller]?).getD 0 + 1) hroute
          have hcontroller : controller < 3 := by
            rcases (electricalRoute_routed hroute).controller with rfl | rfl
            · decide
            · decide
          have hlast : ∀ last, l.lastTicket[controller]? = some last → last < tx.ticket := by
            intro last hl
            rw [hl] at hticket
            simpa using hticket
          have hstep := Step.prepared hcontroller (Option.not_isSome_iff_eq_none.mp hpending) hlast
            hgate hcarries
          rw [hallowed] at hstep
          rw [hwire]
          exact Or.inl ⟨_, rfl, hopen, rfl, hstep⟩
  · rw [hcheck]
    exact Or.inr ⟨_, rfl, .shut hclosed⟩
  · rw [hcheck]
    exact Or.inr ⟨_, rfl, .fatal he⟩

theorem usbWriteFinished_cases (l : TxLedger) (controller : Nat) (ticket : UInt64)
    (outcome : Except String Nat) (now : Nat) :
    (∃ e, (l.usbWriteFinished controller ticket outcome now).2 = .ok e ∧ l.closed = false ∧
      Step l (l.usbWriteFinished controller ticket outcome now).1 [.completed e outcome now]) ∨
    ∃ e, (l.usbWriteFinished controller ticket outcome now).2 = .error e ∧
      Refused l (.usbWriteFinished controller ticket outcome now)
        (l.usbWriteFinished controller ticket outcome now).1 e := by
  unfold usbWriteFinished
  rcases checkDeadline_cases l now with ⟨hcheck, hopen, hnow⟩ | ⟨hcheck, hclosed⟩ | ⟨e, hcheck, he⟩
  · rw [hcheck]
    dsimp only
    cases hp : l.pendingOn controller with
    | none => exact Or.inr ⟨_, rfl, .fatal ⟨by decide, by decide⟩⟩
    | some p =>
      dsimp only
      split_ifs with hticket houtcome
      · exact Or.inr ⟨_, rfl, .fatal ⟨by decide, by decide⟩⟩
      · exact Or.inr ⟨_, rfl, .fatal ⟨by decide, by decide⟩⟩
      · rw [not_not] at hticket houtcome
        subst hticket houtcome
        exact Or.inl ⟨_, rfl, hopen, .completed hp (hnow controller p hp)⟩
  · rw [hcheck]
    exact Or.inr ⟨_, rfl, .shut hclosed⟩
  · rw [hcheck]
    exact Or.inr ⟨_, rfl, .fatal he⟩

theorem apply_cases (l : TxLedger) (op : Op) :
    (∃ r, (l.apply op).2 = .ok r ∧ (op = .close ∨ l.closed = false) ∧
      Step l (l.next op) (l.records op)) ∨
    ∃ e, (l.apply op).2 = .error e ∧ Refused l op (l.next op) e ∧ l.records op = [] := by
  unfold next records apply
  cases op with
  | prepare controller tx now profile =>
    rcases prepare_cases l controller tx now profile with ⟨p, hp, hopen, -, hstep⟩ | ⟨e, he, hrefused⟩
    · dsimp only
      rw [hp]
      exact Or.inl ⟨_, rfl, Or.inr hopen, hstep⟩
    · dsimp only
      rw [he]
      exact Or.inr ⟨e, rfl, hrefused, rfl⟩
  | usbWriteFinished controller ticket outcome now =>
    rcases usbWriteFinished_cases l controller ticket outcome now with
      ⟨e, he, hopen, hstep⟩ | ⟨e, he, hrefused⟩
    · dsimp only
      rw [he]
      exact Or.inl ⟨_, rfl, Or.inr hopen, hstep⟩
    · dsimp only
      rw [he]
      exact Or.inr ⟨e, rfl, hrefused, rfl⟩
  | checkDeadline now =>
    dsimp only
    rcases checkDeadline_cases l now with ⟨hcheck, hopen, -⟩ | ⟨hcheck, hclosed⟩ | ⟨e, hcheck, he⟩
    · rw [hcheck]
      exact Or.inl ⟨_, rfl, Or.inr hopen, .same⟩
    · rw [hcheck]
      exact Or.inr ⟨_, rfl, .shut hclosed, rfl⟩
    · rw [hcheck]
      exact Or.inr ⟨_, rfl, .fatal he, rfl⟩
  | close => exact Or.inl ⟨_, rfl, Or.inl rfl, .closed⟩

theorem apply_step (l : TxLedger) (op : Op) : Step l (l.next op) (l.records op) := by
  rcases apply_cases l op with ⟨r, -, -, hstep⟩ | ⟨e, -, hrefused, hrecords⟩
  · exact hstep
  · rw [hrecords]
    generalize l.next op = l' at hrefused
    cases hrefused with
    | shut => exact .same
    | pending => exact .same
    | gate => exact .same
    | fatal => exact .closed

/-! ## What the history proves -/

def preparedTickets (controller : Nat) (history : List Record) : List UInt64 :=
  history.filterMap fun
    | .prepared _ _ p => if p.controller = controller then some p.ticket else none
    | _ => none

def completedTickets (controller : Nat) (history : List Record) : List UInt64 :=
  history.filterMap fun
    | .completed (.completed c ticket _) _ _ => if c = controller then some ticket else none
    | _ => none

/-- The frame of the ticket was prepared on this controller, and the outcome is that of its whole wire
within the time. -/
def Written (before : List Record) (controller : Nat) (ticket : UInt64) (outcome : Except String Nat)
    (now : Nat) : Prop :=
  ∃ tx at_ p, .prepared tx at_ p ∈ before ∧ p.controller = controller ∧ tx.ticket = ticket ∧
    p.ticket = ticket ∧ outcome = .ok p.wire.length ∧ now < at_ + writeLimit

def Grounded (before : List Record) : Record → Prop
  | .prepared tx _ p => p.ticket = tx.ticket ∧
      Carries p.wire (UInt8.ofNat ((preparedTickets p.controller before).length + 1)) p.controller tx
  | .completed e outcome now => ∃ controller ticket,
      e = .completed controller ticket .vcxUsbWriteCompatibility ∧
      Written before controller ticket outcome now ∧ ticket ∉ completedTickets controller before

structure Kept (l : TxLedger) (history : List Record) : Prop where
  increasing : ∀ c, (preparedTickets c history).Pairwise (· < ·)
  last : ∀ c last, l.lastTicket[c]? = some last → ∀ t ∈ preparedTickets c history, t ≤ last
  sequence : ∀ c s, l.sequence[c]? = some s → s = UInt8.ofNat (preparedTickets c history).length
  pending : ∀ c p, l.pendingOn c = some p → ∃ tx now, .prepared tx now p ∈ history ∧
    p.controller = c ∧ tx.ticket = p.ticket ∧ p.deadline = now + writeLimit ∧
    p.ticket ∉ completedTickets c history
  completed : ∀ c, ∀ t ∈ completedTickets c history, t ∈ preparedTickets c history
  once : ∀ c, (completedTickets c history).Nodup
  grounded : Runs.Justified Grounded history

theorem preparedTickets_append (c : Nat) (history rs : List Record) :
    preparedTickets c (history ++ rs) = preparedTickets c history ++ preparedTickets c rs :=
  List.filterMap_append

theorem completedTickets_append (c : Nat) (history rs : List Record) :
    completedTickets c (history ++ rs) = completedTickets c history ++ completedTickets c rs :=
  List.filterMap_append

theorem kept_default : Kept default [] where
  increasing _ := List.Pairwise.nil
  last _ _ _ t ht := absurd ht List.not_mem_nil
  sequence c s h := by
    obtain ⟨hc, rfl⟩ := Vector.getElem?_eq_some_iff.mp h
    simp [default, preparedTickets]
  pending c p h := by
    unfold pendingOn at h
    rw [Option.join_eq_some_iff] at h
    obtain ⟨hc, hp⟩ := Vector.getElem?_eq_some_iff.mp h
    simp [default] at hp
  completed _ t ht := absurd ht List.not_mem_nil
  once _ := List.nodup_nil
  grounded := .nil

theorem pendingOn_close (l : TxLedger) (c : Nat) : l.close.pendingOn c = none := by
  unfold pendingOn close
  simp only [Vector.getElem?_replicate]
  split <;> rfl

theorem Kept.close {history : List Record} (h : Kept l history) : Kept l.close history :=
  { h with
    pending := fun c p hp => by
      rw [pendingOn_close] at hp
      cases hp }

theorem Kept.prepared {history : List Record} (h : Kept l history) {gate : CommandGate}
    {tx : Transmission} {now : Nat} {p : Prepared} (hc : p.controller < 3)
    (hticket : ∀ last, l.lastTicket[p.controller]? = some last → last < tx.ticket)
    (hp : p.ticket = tx.ticket ∧ p.deadline = now + writeLimit)
    (hwire : Carries p.wire ((l.sequence[p.controller]?).getD 0 + 1) p.controller tx) :
    Kept (record { l with gate } p ((l.sequence[p.controller]?).getD 0 + 1))
      (history ++ [.prepared tx now p]) := by
  have hnew : ∀ t ∈ preparedTickets p.controller history, t < p.ticket := by
    intro t ht
    have hlast := h.last p.controller _ (Vector.getElem?_eq_getElem hc) t ht
    rw [hp.1]
    exact UInt64.lt_of_le_of_lt hlast (hticket _ (Vector.getElem?_eq_getElem hc))
  have hprepared : ∀ c, preparedTickets c (history ++ [.prepared tx now p]) =
      if p.controller = c then preparedTickets c history ++ [p.ticket]
      else preparedTickets c history := by
    intro c
    rw [preparedTickets_append]
    unfold preparedTickets
    split_ifs with hcc
    · simp [hcc]
    · simp [hcc]
  have hcompleted : ∀ c, completedTickets c (history ++ [.prepared tx now p]) =
      completedTickets c history := by
    intro c
    rw [completedTickets_append]
    exact List.append_nil _
  have hsequence : (l.sequence[p.controller]?).getD 0 + 1 =
      UInt8.ofNat ((preparedTickets p.controller history).length + 1) := by
    have hs := h.sequence p.controller _ (Vector.getElem?_eq_getElem hc)
    rw [Vector.getElem?_eq_getElem hc, Option.getD_some, hs, UInt8.ofNat_add]
    rfl
  constructor
  · intro c
    rw [hprepared]
    split_ifs with hcc
    · subst hcc
      refine List.pairwise_append.mpr ⟨h.increasing _, List.pairwise_singleton _ _, ?_⟩
      intro t ht t' ht'
      rw [List.mem_singleton.mp ht']
      exact hnew t ht
    · exact h.increasing c
  · intro c last hlast t ht
    unfold TxLedger.record at hlast
    rw [Vector.getElem?_setIfInBounds] at hlast
    rw [hprepared] at ht
    by_cases hcc : p.controller = c
    · subst hcc
      rw [if_pos rfl, if_pos hc] at hlast
      rw [if_pos rfl] at ht
      rw [← Option.some.inj hlast]
      rcases List.mem_append.mp ht with ht | ht
      · exact UInt64.le_of_lt (hnew t ht)
      · exact UInt64.le_of_eq (List.mem_singleton.mp ht)
    · rw [if_neg hcc] at hlast ht
      exact h.last c last hlast t ht
  · intro c s hs
    unfold TxLedger.record at hs
    rw [Vector.getElem?_setIfInBounds] at hs
    rw [hprepared]
    by_cases hcc : p.controller = c
    · subst hcc
      rw [if_pos rfl, if_pos hc, hsequence] at hs
      rw [if_pos rfl, List.length_append, List.length_singleton]
      exact (Option.some.inj hs).symm
    · rw [if_neg hcc] at hs ⊢
      exact h.sequence c s hs
  · intro c q hq
    rw [hcompleted]
    unfold pendingOn TxLedger.record at hq
    rw [Option.join_eq_some_iff, Vector.getElem?_setIfInBounds] at hq
    by_cases hcc : p.controller = c
    · subst hcc
      rw [if_pos rfl, if_pos hc, Option.some.injEq, Option.some.injEq] at hq
      subst hq
      refine ⟨tx, now, by simp, rfl, hp.1.symm, hp.2, ?_⟩
      intro hmem
      exact absurd (hnew _ (h.completed _ _ hmem)) (UInt64.lt_irrefl _)
    · rw [if_neg hcc] at hq
      obtain ⟨tx', now', hmem, hrest⟩ := h.pending c q (Option.join_eq_some_iff.mpr hq)
      exact ⟨tx', now', List.mem_append_left _ hmem, hrest⟩
  · intro c t ht
    rw [hcompleted] at ht
    rw [hprepared]
    split_ifs with hcc
    · exact List.mem_append_left _ (h.completed c t ht)
    · exact h.completed c t ht
  · intro c
    rw [hcompleted]
    exact h.once c
  · exact h.grounded.snoc ⟨hp.1, hsequence ▸ hwire⟩

theorem Kept.completed_step {history : List Record} (h : Kept l history) {p : Prepared}
    {c now : Nat} (hp : l.pendingOn c = some p) (hnow : now < p.deadline) :
    Kept { l with pending := l.pending.setIfInBounds c none }
      (history ++ [.completed (.completed c p.ticket .vcxUsbWriteCompatibility)
        (.ok p.wire.length) now]) := by
  obtain ⟨tx, at_, hmem, hcontroller, hticket, hdeadline, hfresh⟩ := h.pending c p hp
  have hprepared : ∀ c' e now, preparedTickets c' (history ++ [.completed e (.ok p.wire.length) now]) =
      preparedTickets c' history := by
    intro c' e now
    rw [preparedTickets_append]
    exact List.append_nil _
  have hcompleted : ∀ c', completedTickets c' (history ++
        [.completed (.completed c p.ticket .vcxUsbWriteCompatibility) (.ok p.wire.length) now]) =
      if c = c' then completedTickets c' history ++ [p.ticket] else completedTickets c' history := by
    intro c'
    rw [completedTickets_append]
    unfold completedTickets
    split_ifs with hcc
    · simp [hcc]
    · simp [hcc]
  constructor
  · intro c'
    rw [hprepared]
    exact h.increasing c'
  · intro c' last hlast t ht
    rw [hprepared] at ht
    exact h.last c' last hlast t ht
  · intro c' s hs
    rw [hprepared]
    exact h.sequence c' s hs
  · intro c' q hq
    unfold pendingOn at hq
    rw [Option.join_eq_some_iff, Vector.getElem?_setIfInBounds] at hq
    by_cases hcc : c = c'
    · subst hcc
      rw [if_pos rfl, if_pos (pendingOn_lt hp)] at hq
      cases hq
    · rw [if_neg hcc] at hq
      obtain ⟨tx', now', hmem', hrest⟩ := h.pending c' q (Option.join_eq_some_iff.mpr hq)
      refine ⟨tx', now', List.mem_append_left _ hmem', ?_⟩
      rw [hcompleted, if_neg hcc]
      exact hrest
  · intro c' t ht
    rw [hcompleted] at ht
    rw [hprepared]
    split_ifs at ht with hcc
    · subst hcc
      rcases List.mem_append.mp ht with ht | ht
      · exact h.completed c t ht
      · rw [List.mem_singleton.mp ht]
        refine List.mem_filterMap.mpr ⟨_, hmem, ?_⟩
        simp [hcontroller]
    · exact h.completed c' t ht
  · intro c'
    rw [hcompleted]
    split_ifs with hcc
    · subst hcc
      refine List.nodup_append.mpr ⟨h.once c, List.pairwise_singleton _ _, ?_⟩
      intro t ht t' ht'
      rw [List.mem_singleton.mp ht']
      exact fun heq => hfresh (heq ▸ ht)
    · exact h.once c'
  · refine h.grounded.snoc ⟨c, p.ticket, rfl, ?_, hfresh⟩
    exact ⟨tx, at_, p, hmem, hcontroller, hticket, rfl, rfl, hdeadline ▸ hnow⟩

theorem kept_step (l : TxLedger) (op : Op) (history : List Record) (h : Kept l history) :
    Kept (l.next op) (history ++ l.records op) := by
  have hstep := apply_step l op
  generalize l.next op = l' at hstep
  generalize l.records op = rs at hstep
  cases hstep with
  | same => simpa using h
  | closed => simpa using h.close
  | prepared hc hidle hticket hgate hwire => exact h.prepared hc hticket ⟨rfl, rfl⟩ hwire
  | completed hp hnow => exact h.completed_step hp hnow

theorem history_kept (ops : List Op) : Kept (Runs.run next default ops) (history ops) := by
  have h := Runs.log_keeps kept_step ops kept_default
  rwa [List.nil_append] at h

/-! ## The result -/

theorem prepare_admitted {controller : Nat} {tx : Transmission} {now : Nat} {profile : Profile}
    {p : Prepared} (h : (l.prepareForProfile controller tx now profile).2 = .ok p) :
    (l.gate.allowed controller tx profile now).2 = true := by
  rcases prepare_cases l controller tx now profile with ⟨-, -, -, hgate, -⟩ | ⟨e, he, -⟩
  · exact hgate
  · exact absurd (h.symm.trans he) (by simp)

/-- A refusal for a pending write or by the gate changes nothing, any other ends with a closed
ledger. -/
theorem refused_effect {op : Op} {e : String} (h : Refused l op l' e) :
    if e = writePending ∨ e = gateRejected then l' = l else l'.closed = true := by
  cases h with
  | shut h => exact h
  | pending => rfl
  | gate => rfl
  | fatal he =>
    rw [if_neg (not_or.mpr he)]
    rfl

theorem closed_stays (h : l.closed = true) (op : Op) :
    (l.next op).closed = true ∧ l.records op = [] := by
  rcases apply_cases l op with ⟨r, -, rfl | hopen, -⟩ | ⟨e, -, hrefused, hrecords⟩
  · exact ⟨rfl, rfl⟩
  · exact absurd (h.symm.trans hopen) (by decide)
  · refine ⟨?_, hrecords⟩
    generalize l.next op = l' at hrefused
    cases hrefused with
    | shut => exact h
    | pending => exact h
    | gate => exact h
    | fatal => rfl

/-- Completions come at most once a ticket and from the outcome of its own prepared write, in time;
what is prepared has been admitted by the gate, carries its transmission and has a new ticket; an
error other than a pending write or a refusal of the gate closes the ledger for good. -/
theorem completion_provenance (ops : List Op) :
    Runs.Justified Grounded (history ops) ∧
    (∀ controller, (completedTickets controller (history ops)).Nodup) ∧
    (∀ controller, (preparedTickets controller (history ops)).Pairwise (· < ·)) ∧
    (∀ (l : TxLedger) (controller : Nat) (tx : Transmission) (now : Nat) (profile : Profile)
      (p : Prepared), (l.prepareForProfile controller tx now profile).2 = .ok p →
      (l.gate.allowed controller tx profile now).2 = true) ∧
    (∀ (l : TxLedger) (op : Op) (e : String), (l.apply op).2 = .error e →
      Refused l op (l.next op) e ∧
      if e = writePending ∨ e = gateRejected then l.next op = l else (l.next op).closed = true) ∧
    ∀ l : TxLedger, l.closed = true → ∀ ops : List Op,
      (Runs.run next l ops).closed = true ∧ Runs.log next records l ops = [] := by
  have hkept := history_kept ops
  refine ⟨hkept.grounded, hkept.once, hkept.increasing, ?_, ?_, ?_⟩
  · intro l controller tx now profile p h
    exact prepare_admitted h
  · intro l op e he
    rcases apply_cases l op with ⟨r, hr, -, -⟩ | ⟨e', he', hrefused, -⟩
    · exact absurd (he.symm.trans hr) (by simp)
    · obtain rfl := Except.error.inj (he'.symm.trans he)
      exact ⟨hrefused, refused_effect hrefused⟩
  · intro l h ops
    induction ops generalizing l with
    | nil => exact ⟨h, rfl⟩
    | cons op ops ih =>
      obtain ⟨hclosed, hrecords⟩ := closed_stays h op
      rw [Runs.log, hrecords, Runs.run_cons]
      exact ih (l.next op) hclosed

end OpenSaab.VcxNano.TxLedger
