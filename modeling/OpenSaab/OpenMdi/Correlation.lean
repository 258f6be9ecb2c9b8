import OpenSaab.OpenMdi.Opening
import OpenSaab.OpenMdi.Tokens

/-!
# Frames and their indications

Over any calls of an open pair and whatever the device says, a frame is reported as sent at most once,
and only when the device has indicated it on its own link.
-/

namespace OpenSaab.OpenMdi

open Json Program Std

namespace RawPair

/-! ## What the calls show -/

/-- A frame and the token that it has been given. -/
structure Sending where
  token : UInt32
  channel : Nat
  id : UInt32
  data : List UInt8
  deriving DecidableEq, Repr

/-- A call has taken a token for its frame, has returned it, or has reported the frame as sent. -/
inductive Entry where
  | took (f : Sending)
  | returned (f : Sending)
  | transmitted (f : Sending)
  deriving DecidableEq, Repr

def Entry.token : Entry → UInt32
  | .took f | .returned f | .transmitted f => f.token

def sendingOf (event : Nat × RawEvent) : Option Sending :=
  match event.2 with
  | .transmitted token id data => some ⟨token, event.1, id, data⟩
  | _ => none

/-- The entries of a transmission, from the supply of tokens and the result. -/
def sent (p p' : RawPair) (f : Sending) (result : Except String UInt32) : List Entry :=
  (if p'.nextToken = p.nextToken then [] else [.took f]) ++
    match result with
    | .ok token => [.returned { f with token }]
    | .error _ => []

def entries (p : RawPair) : Call → List Entry
  | .transmit channel id data wake =>
    let r := p.transmit channel id data wake
    sent p r.2 ⟨p.nextToken, channel, id, data⟩ r.1
  | .poll => ((eventsOf (poll p).1).filterMap sendingOf).map .transmitted
  | .takeActivity => []
  | .close => []

/-- What an entry needs of those before it, when the supply starts with `first`. -/
def Sound (first : UInt32) (before : List Entry) : Entry → Prop
  | .took f => first ≤ f.token ∧ ∀ g, .took g ∈ before → g.token < f.token
  | .returned f => .took f ∈ before ∧ ∀ g, .returned g ∈ before → g.token < f.token
  | .transmitted f => .took f ∈ before ∧ ∀ g, .transmitted g ∈ before → g.token ≠ f.token

/-- One of the events that a call has read indicates the frame, on the link of its channel. -/
def Indicated (p p' : RawPair) (f : Sending) : Prop :=
  ∃ H c item, heard p.inner = H ++ heard p'.inner ∧ p.channels[f.channel]? = some c ∧ item ∈ H ∧
    Indicates c.link item f.token f.id f.data

/-- Only an indication ends the wait for a frame, and only an indication is reported. -/
structure Truthful (p : RawPair) (call : Call) : Prop where
  completes : ∀ t w, p.pending[t]? = some w → (p.step call).pending[t]? = some w ∨
    Indicated p (p.step call) ⟨t, w.channel, w.id, w.data⟩
  reports : ∀ f, .transmitted f ∈ p.entries call → Indicated p (p.step call) f

/-! ## The ledger -/

/-- The state against the entries so far. -/
structure Ledger (first : UInt32) (p : RawPair) (log : List Entry) : Prop where
  justified : Runs.Justified (Sound first) log
  starts : first ≤ p.nextToken
  below : ∀ e ∈ log, e.token < p.nextToken
  pending : ∀ t w, p.pending[t]? = some w → .took ⟨t, w.channel, w.id, w.data⟩ ∈ log ∧
    ∀ g, .transmitted g ∈ log → g.token ≠ t

variable {first : UInt32} {p p' : RawPair} {log : List Entry}

/-- A pair on which nothing is pending. -/
theorem Ledger.start (h : p.pending = ∅) : Ledger p.nextToken p [] where
  justified := .nil
  starts := UInt32.le_refl _
  below _ hmem := absurd hmem List.not_mem_nil
  pending t w hw := by
    rw [h] at hw
    simp at hw

theorem Ledger.same (h : Ledger first p log) (htoken : p'.nextToken = p.nextToken)
    (hpending : p'.pending = p.pending) : Ledger first p' log := by
  refine ⟨h.justified, ?_, ?_, ?_⟩
  · rw [htoken]
    exact h.starts
  · rw [htoken]
    exact h.below
  · rw [hpending]
    exact h.pending

theorem lt_add_one {t : UInt32} (h : t ≠ 0xffffffff) : t < t + 1 := by
  have hne : t.toNat ≠ 0xffffffff := fun h' => h (UInt32.toNat_inj.mp h')
  have hlt := t.toNat_lt
  have hone : (1 : UInt32).toNat = 1 := rfl
  rw [UInt32.lt_iff_toNat_lt, UInt32.toNat_add]
  omega

/-- A token is taken. Its frame may be pending from now on. -/
theorem Ledger.take (h : Ledger first p log) (hmax : p.nextToken ≠ 0xffffffff) {f : Sending}
    (hf : f.token = p.nextToken) (htoken : p'.nextToken = p.nextToken + 1)
    (hpending : ∀ t w, p'.pending[t]? = some w → p.pending[t]? = some w ∨
      f = ⟨t, w.channel, w.id, w.data⟩) : Ledger first p' (log ++ [.took f]) := by
  have hlt := lt_add_one hmax
  refine ⟨h.justified.snoc ⟨hf ▸ h.starts, fun g hg => hf ▸ h.below _ hg⟩, ?_, ?_, ?_⟩
  · rw [htoken]
    exact UInt32.le_trans h.starts (UInt32.le_of_lt hlt)
  · intro e he
    rw [htoken]
    rcases List.mem_append.mp he with he | he
    · exact UInt32.lt_trans (h.below e he) hlt
    · rw [List.mem_singleton.mp he]
      exact hf ▸ hlt
  · intro t w hw
    have hold (g : Sending) (hg : .transmitted g ∈ log ++ [.took f]) : .transmitted g ∈ log := by
      rcases List.mem_append.mp hg with hg | hg
      · exact hg
      · cases List.mem_singleton.mp hg
    rcases hpending t w hw with hwas | rfl
    · obtain ⟨htook, hnone⟩ := h.pending t w hwas
      exact ⟨List.mem_append_left _ htook, fun g hg => hnone g (hold g hg)⟩
    · refine ⟨List.mem_append_right _ (List.mem_singleton_self _), fun g hg heq => ?_⟩
      have hbelow : g.token < p.nextToken := h.below _ (hold g hg)
      rw [heq, ← hf] at hbelow
      exact UInt32.lt_irrefl _ hbelow

/-- The call that has taken a token returns it. -/
theorem Ledger.give {f : Sending} (h : Ledger first p log) (hf : f.token = p.nextToken)
    (htook : Ledger first p' (log ++ [.took f])) :
    Ledger first p' (log ++ [.took f] ++ [.returned f]) := by
  have hmem : Entry.took f ∈ log ++ [.took f] := List.mem_append_right _ (List.mem_singleton_self _)
  refine ⟨htook.justified.snoc ⟨hmem, fun g hg => ?_⟩, htook.starts, ?_, ?_⟩
  · rcases List.mem_append.mp hg with hg | hg
    · exact hf ▸ h.below _ hg
    · cases List.mem_singleton.mp hg
  · intro e he
    rcases List.mem_append.mp he with he | he
    · exact htook.below e he
    · rw [List.mem_singleton.mp he]
      exact htook.below (.took f) hmem
  · intro t w hw
    obtain ⟨hpending, hnone⟩ := htook.pending t w hw
    refine ⟨List.mem_append_left _ hpending, fun g hg => ?_⟩
    rcases List.mem_append.mp hg with hg | hg
    · exact hnone g hg
    · cases List.mem_singleton.mp hg

/-! ## One call -/

theorem transmit_ledger (h : Ledger first p log) (channel : Nat) (id : UInt32) (data : List UInt8)
    (wake : Bool) : Ledger first (p.step (.transmit channel id data wake))
      (log ++ p.entries (.transmit channel id data wake)) := by
  have hcases := transmit_cases p channel id data wake
  unfold step entries
  dsimp only
  generalize p.transmit channel id data wake = run at hcases ⊢
  obtain ⟨result, p'⟩ := run
  dsimp only at hcases ⊢
  have hmoved : p.nextToken + 1 ≠ p.nextToken := (add_one_ne _).symm
  cases hcases with
  | refused =>
    rw [sent, if_pos rfl, List.nil_append, List.append_nil]
    exact h.same rfl rfl
  | unsent hmax =>
    rw [sent, if_neg hmoved, List.append_nil]
    exact h.take hmax rfl rfl fun _ _ => Or.inl
  | @sent result inner deadline hmax hresult =>
    have htook : Ledger first
        { p with inner, nextToken := p.nextToken + 1,
                 pending := p.pending.insert p.nextToken ⟨channel, id, data, deadline⟩ }
        (log ++ [.took ⟨p.nextToken, channel, id, data⟩]) := by
      refine h.take hmax rfl rfl fun t w hw => ?_
      rw [Table.get_insert] at hw
      split_ifs at hw with ht
      · right
        rw [← Option.some.inj hw, ht]
      · exact Or.inl hw
    cases result with
    | error e =>
      rw [sent, if_neg hmoved, List.append_nil]
      exact htook
    | ok token =>
      rw [sent, if_neg hmoved, hresult token rfl, ← List.append_assoc]
      exact h.give rfl htook

theorem sendingOf_mem {events : List (Nat × RawEvent)} {f : Sending}
    (h : f ∈ events.filterMap sendingOf) : (f.channel, .transmitted f.token f.id f.data) ∈ events := by
  obtain ⟨⟨c, event⟩, hmem, hsending⟩ := List.mem_filterMap.mp h
  cases event with
  | transmitted token id data =>
    obtain rfl := Option.some.inj hsending
    exact hmem
  | received | observedMdiData | metadata => cases hsending

theorem tokenOf_eq (event : Nat × RawEvent) : tokenOf event = (sendingOf event).map Sending.token := by
  obtain ⟨c, event⟩ := event
  cases event with
  | transmitted | received | observedMdiData | metadata => rfl

/-- Frames that are reported as sent: each has been pending till now. -/
theorem Ledger.report {fs : List Sending} (h : Ledger first p log)
    (hnodup : (fs.map Sending.token).Nodup)
    (hdone : ∀ f ∈ fs, ∃ deadline, p.pending[f.token]? = some ⟨f.channel, f.id, f.data, deadline⟩ ∧
      p'.pending[f.token]? = none)
    (htoken : p'.nextToken = p.nextToken)
    (hkept : ∀ (t : UInt32) (w : Pending), p'.pending[t]? = some w → p.pending[t]? = some w) :
    Ledger first p' (log ++ fs.map .transmitted) := by
  refine ⟨h.justified.append ?_, ?_, ?_, ?_⟩
  · intro before x after heq
    obtain ⟨fs₁, fs₂, rfl, rfl, hrest⟩ := List.map_eq_append_iff.mp heq
    obtain ⟨f, fs₃, rfl, rfl, rfl⟩ := List.map_eq_cons_iff.mp hrest
    obtain ⟨deadline, hwas, -⟩ := hdone f (by simp)
    obtain ⟨htook, hnone⟩ := h.pending _ _ hwas
    refine ⟨List.mem_append_left _ htook, fun g hg => ?_⟩
    rcases List.mem_append.mp hg with hg | hg
    · exact hnone g hg
    · have hbefore : g ∈ fs₁ := by simpa using hg
      rw [List.map_append, List.nodup_append] at hnodup
      exact hnodup.2.2 _ (List.mem_map_of_mem hbefore) _ (by simp)
  · rw [htoken]
    exact h.starts
  · intro e he
    rw [htoken]
    rcases List.mem_append.mp he with he | he
    · exact h.below e he
    · obtain ⟨f, hf, rfl⟩ := List.mem_map.mp he
      obtain ⟨deadline, hwas, -⟩ := hdone f hf
      exact h.below (.took _) (h.pending _ _ hwas).1
  · intro t w hw
    obtain ⟨htook, hnone⟩ := h.pending t w (hkept t w hw)
    refine ⟨List.mem_append_left _ htook, fun g hg => ?_⟩
    rcases List.mem_append.mp hg with hg | hg
    · exact hnone g hg
    · have hmem : g ∈ fs := by simpa using hg
      obtain ⟨deadline, -, hgone⟩ := hdone g hmem
      rintro rfl
      rw [hgone] at hw
      cases hw

theorem Reports.done {H : List Value} {events : List (Nat × RawEvent)} (h : Reports H p p' events)
    {f : Sending} (hf : f ∈ events.filterMap sendingOf) :
    ∃ deadline, p.pending[f.token]? = some ⟨f.channel, f.id, f.data, deadline⟩ ∧
      p'.pending[f.token]? = none :=
  h.completed _ _ _ _ (sendingOf_mem hf)

theorem Reports.kept {H : List Value} {events : List (Nat × RawEvent)} (h : Reports H p p' events)
    {t : UInt32} {w : Pending} (hw : p'.pending[t]? = some w) : p.pending[t]? = some w := by
  rcases h.pending t with hsame | ⟨_, _, _, _, hgone, _⟩
  · rw [← hsame, hw]
  · rw [hgone] at hw
    cases hw

theorem poll_ledger (h : Ledger first p log) :
    Ledger first (p.step .poll) (log ++ p.entries .poll) := by
  obtain ⟨H, -, hreports⟩ := poll_polls p
  refine h.report ?_ (fun f hf => hreports.done hf) hreports.nextToken fun t w => hreports.kept
  have htokens : tokenOf = fun event => (sendingOf event).map Sending.token := funext tokenOf_eq
  have honce := hreports.once
  rwa [htokens, ← List.map_filterMap] at honce

/-- Closing leaves the supply of tokens and the pending frames alone. -/
theorem close_cases (p : RawPair) : p.step .close = p ∨
    ∃ inner cleanup, p.step .close = { p with closed := true, inner, cleanup } := by
  change p.close.2 = p ∨ ∃ inner cleanup, p.close.2 = _
  unfold RawPair.close
  split
  · exact Or.inl rfl
  · exact Or.inr ⟨_, _, rfl⟩

theorem step_ledger (h : Ledger first p log) (call : Call) :
    Ledger first (p.step call) (log ++ p.entries call) := by
  cases call with
  | transmit channel id data wake => exact transmit_ledger h channel id data wake
  | poll => exact poll_ledger h
  | takeActivity =>
    rw [entries, List.append_nil]
    exact h.same rfl rfl
  | close =>
    rw [entries, List.append_nil]
    rcases close_cases p with hp | ⟨inner, cleanup, hp⟩
    · rw [hp]
      exact h
    · rw [hp]
      exact h.same rfl rfl

/-- The frames that are pending have been given their tokens. -/
def Fresh (p : RawPair) : Prop := ∀ t w, p.pending[t]? = some w → t < p.nextToken

/-- What leaves the pending frames has been indicated. -/
theorem truthful (h : Fresh p) (call : Call) : Truthful p call := by
  cases call with
  | transmit channel id data wake =>
    refine ⟨fun t w hw => Or.inl ?_, fun f hf => ?_⟩
    · have hcases := transmit_cases p channel id data wake
      unfold step
      dsimp only
      generalize p.transmit channel id data wake = run at hcases ⊢
      obtain ⟨result, p'⟩ := run
      dsimp only at hcases ⊢
      have hne : t ≠ p.nextToken := UInt32.ne_of_lt (h t w hw)
      cases hcases with
      | refused => exact hw
      | unsent => exact hw
      | sent =>
        dsimp only
        rw [Table.get_insert, if_neg hne]
        exact hw
    · unfold entries sent at hf
      simp only [List.mem_append] at hf
      rcases hf with hf | hf
      · split at hf
        · cases hf
        · cases List.mem_singleton.mp hf
      · split at hf
        · cases List.mem_singleton.mp hf
        · cases hf
  | poll =>
    obtain ⟨H, hheard, hreports⟩ := poll_polls p
    have hgone {t : UInt32} {w : Pending} (hw : p.pending[t]? = some w) :
        (poll p).2.pending[t]? = some w ∨ Indicated p (poll p).2 ⟨t, w.channel, w.id, w.data⟩ := by
      rcases hreports.pending t with hsame | ⟨w', c, item, hw', -, hc, hitem, hindicates⟩
      · exact Or.inl (hsame.trans hw)
      · obtain rfl := Option.some.inj (hw.symm.trans hw')
        exact Or.inr ⟨H, c, item, hheard, hc, hitem, hindicates⟩
    refine ⟨fun t w hw => hgone hw, fun f hf => ?_⟩
    obtain ⟨g, hg, hfg⟩ := List.mem_map.mp hf
    obtain rfl := Entry.transmitted.inj hfg
    obtain ⟨deadline, hwas, hnone⟩ := hreports.done hg
    refine (hgone hwas).resolve_left fun hstill => ?_
    rw [hnone] at hstill
    cases hstill
  | takeActivity => exact ⟨fun t w hw => Or.inl hw, fun f hf => absurd hf List.not_mem_nil⟩
  | close =>
    refine ⟨fun t w hw => Or.inl ?_, fun f hf => absurd hf List.not_mem_nil⟩
    rcases close_cases p with hp | ⟨inner, cleanup, hp⟩
    · rw [hp]
      exact hw
    · rw [hp]
      exact hw

/-! ## A whole run -/

/-- The tokens of the two links of a session, which setting them up takes. -/
def setupTokens (session : UInt32) : List UInt32 :=
  let (_, hs, tags) := Session.allocate (Tags.forSession session)
  let (_, sw, _) := Session.allocate tags
  hs ++ sw

theorem setupTokens_eq (session : UInt32) : setupTokens session =
    tokensFrom (Tags.forSession session).nextPrimitive ++
      tokensFrom ((Tags.forSession session).nextPrimitive + 6) := by
  unfold setupTokens
  simp only [allocate_eq]

theorem setupTokens_lt {session t : UInt32} (h : t ∈ setupTokens session) :
    t < (Tags.forSession session).nextPrimitive + 12 := by
  have hfirst := Tags.forSession_lt session
  rw [setupTokens_eq] at h
  generalize (Tags.forSession session).nextPrimitive = prim at h hfirst ⊢
  have hadd (a b : UInt32) (ha : a.toNat < 2 ^ 27) (hb : b.toNat < 2 ^ 27) :
      (a + b).toNat = a.toNat + b.toNat := by
    rw [UInt32.toNat_add]
    omega
  have hword (k : UInt32) (hk : k.toNat < 12) : prim + k < prim + 12 := by
    have htwelve : (12 : UInt32).toNat = 12 := rfl
    rw [UInt32.lt_iff_toNat_lt, hadd _ _ (by omega) (by omega), hadd _ _ (by omega) (by omega)]
    omega
  have hzero : prim < prim + 12 := by
    have := hword 0 (by decide)
    rwa [UInt32.add_zero] at this
  simp only [tokensFrom, List.cons_append, List.nil_append, List.mem_cons, List.not_mem_nil, or_false,
    UInt32.add_assoc] at h
  rcases h with h | h | h | h | h | h | h | h | h | h | h | h
  · exact h ▸ hzero
  all_goals
    rw [h]
    exact hword _ (by decide)

/-- What an opening has come to. -/
theorem open_ok {start : Nat} {peer : Peer} (h : RawPair.open start peer = (.ok (), p)) :
    Opened p ∧ Supplied p := by
  obtain ⟨hopened, hsupplied⟩ := acquire_opened start peer
  unfold RawPair.open at h
  generalize acquire peer (fresh start) = run at h hopened hsupplied
  obtain ⟨_ | _, p'⟩ := run
  · cases (Prod.mk.inj h).1
  · obtain rfl := (Prod.mk.inj h).2
    exact ⟨hopened, hsupplied rfl⟩

/-- Over any calls of an open pair, each token stands for one frame. -/
theorem tokens_correlate {start : Nat} {peer : Peer} (h : RawPair.open start peer = (.ok (), p))
    (calls : List Call) :
    (∀ t ∈ setupTokens p.inner.session, t < p.nextToken) ∧
      (∀ c ∈ p.channels, c.receiver ∈ setupTokens p.inner.session) ∧
      Runs.Justified (Sound p.nextToken) (Runs.log step entries p calls) ∧
      Runs.Each step Truthful p calls := by
  obtain ⟨hopened, hsupplied⟩ := open_ok h
  have hstart : Ledger p.nextToken p [] := .start hopened.pending
  refine ⟨fun t ht => ?_, fun c hc => ?_, ?_, ?_⟩
  · rw [hsupplied.nextToken]
    exact setupTokens_lt ht
  · have hreceiver := List.mem_map_of_mem (f := LinkState.receiver) hc
    rw [hsupplied.receivers] at hreceiver
    rw [setupTokens_eq]
    simp only [tokensFrom, List.mem_append, List.mem_cons, UInt32.add_assoc]
    rcases List.mem_pair.mp hreceiver with hfirst | hsecond
    · exact Or.inl (Or.inr (Or.inl hfirst))
    · exact Or.inr (Or.inr (Or.inl hsecond))
  · exact (Runs.log_keeps (R := Ledger p.nextToken) (fun s a pre hledger => step_ledger hledger a)
      calls hstart).justified
  · refine Runs.Each.of_invariant (I := fun p' => ∃ log, Ledger p.nextToken p' log) ?_ ?_ calls
      ⟨[], hstart⟩
    · rintro s a ⟨log, hledger⟩
      exact ⟨_, step_ledger hledger a⟩
    · rintro s a ⟨log, hledger⟩
      exact truthful (fun t w hw => hledger.below _ (hledger.pending t w hw).1) a

/-- A socket on which these records come, each one millisecond after it is asked for. -/
def answering (replies : List Record) : Socket :=
  ⟨replies.map fun r => ⟨1, 0, .ok (some r), Nat.zero_le _⟩, true⟩

def registered : Record := ⟨0x885, words [0, 1, 0, 7]⟩

/-- The opcodes of the replies to the configuration of a link with this many parameters. -/
def configured (parameters : Nat) : List UInt32 :=
  0x450 :: List.replicate parameters 0x45a ++
    [0x460, 0x45e, 0x464, 0x464, 0x464, 0x464, 0x45e, 0x45a, 0x464]

/-- A device that grants everything. -/
def granting : Peer where
  command := ⟨0, .ok (answering (registered ::
    (configured 9 ++ configured 8).map fun op => ⟨op, word 0⟩))⟩
  callback := ⟨0, .ok (answering [registered])⟩

theorem eq_ok {ε σ : Type} {r : Except ε Unit × σ} (h : r.1.isOk = true) : r = (.ok (), r.2) := by
  obtain ⟨_ | _, s⟩ := r
  · cases h
  · rfl

theorem open_granting : (RawPair.open 0 granting).1.isOk = true := by decide +kernel

theorem tokens_correlate_granting :
    Runs.Each step Truthful (RawPair.open 0 granting).2 [.transmit 1 0x100 [] true, .poll] :=
  (tokens_correlate (eq_ok open_granting) [.transmit 1 0x100 [] true, .poll]).2.2.2

end RawPair

end OpenSaab.OpenMdi
