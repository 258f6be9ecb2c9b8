import OpenSaab.Mdi.Init
import OpenSaab.Translation.Reports

/-!
# The course of a startup

Whatever the driver answers, it is asked in one order only, and everything that it has given is given back
in the opposite order. A VIN that is reported has been heard after the one request for it.
-/

namespace OpenSaab.Mdi.Init

open Program Translation

/-! ## What the driver may be asked -/

inductive Phase where
  | opening
  | setUp
  | cleared
  | requested
  | ending
  deriving DecidableEq, Repr

/-- What has been acquired and not released. -/
structure Held where
  device : Option UInt32
  channel : Option UInt32
  filter : Option UInt32
  phase : Phase
  deriving DecidableEq, Repr

/-- What may be asked by who holds this, and what is held then. Where a call fails only releases follow. -/
inductive Allows : Held → Entry → Held → Prop where
  | opened (d : UInt32) : Allows ⟨none, none, none, .opening⟩ ⟨.opens, .ok d⟩ ⟨some d, none, none, .setUp⟩
  | identified (d : UInt32) (version : String × String × String) :
      Allows ⟨some d, none, none, .setUp⟩ ⟨.version d, .ok version⟩ ⟨some d, none, none, .setUp⟩
  | measured (d mv : UInt32) :
      Allows ⟨some d, none, none, .setUp⟩ ⟨.voltage d, .ok mv⟩ ⟨some d, none, none, .setUp⟩
  | connected (d c : UInt32) :
      Allows ⟨some d, none, none, .setUp⟩ ⟨.connect d, .ok c⟩ ⟨some d, some c, none, .setUp⟩
  | filtered (d c f : UInt32) :
      Allows ⟨some d, some c, none, .setUp⟩ ⟨.filter c, .ok f⟩ ⟨some d, some c, some f, .setUp⟩
  | cleared (d c f : UInt32) :
      Allows ⟨some d, some c, some f, .setUp⟩ ⟨.clearRx c, .ok ()⟩ ⟨some d, some c, some f, .cleared⟩
  | requested (d c f n : UInt32) :
      Allows ⟨some d, some c, some f, .cleared⟩ ⟨.write c request, .ok n⟩
        ⟨some d, some c, some f, .requested⟩
  | heard (d c f : UInt32) (m : Option Message) :
      Allows ⟨some d, some c, some f, .requested⟩ ⟨.read c, .ok m⟩
        ⟨some d, some c, some f, .requested⟩
  | failed {h h' : Held} {c : Call} {a : c.Reply} (e : String) (hallows : Allows h ⟨c, .ok a⟩ h')
      (hgoes : h'.phase ≠ .ending) : Allows h ⟨c, .error e⟩ { h with phase := .ending }
  | unfiltered (d c f : UInt32) (phase : Phase) (reply : Except String Unit) :
      Allows ⟨some d, some c, some f, phase⟩ ⟨.stopFilter c f, reply⟩ ⟨some d, some c, none, .ending⟩
  | disconnected (d c : UInt32) (phase : Phase) (reply : Except String Unit) :
      Allows ⟨some d, some c, none, phase⟩ ⟨.disconnect c, reply⟩ ⟨some d, none, none, .ending⟩
  | closed (d : UInt32) (phase : Phase) (reply : Except String Unit) :
      Allows ⟨some d, none, none, phase⟩ ⟨.close d, reply⟩ ⟨none, none, none, .ending⟩

/-- What is held after these calls. -/
inductive Course : List Entry → Held → Prop where
  | nil : Course [] ⟨none, none, none, .opening⟩
  | snoc {calls : List Entry} {e : Entry} {h h' : Held} (hbefore : Course calls h)
      (hallows : Allows h e h') : Course (calls ++ [e]) h'

/-- Everything has been given back. -/
def Over (calls : List Entry) : Prop := Course calls ⟨none, none, none, .ending⟩

def Entry.fine (e : Entry) : Bool := e.reply.toBool

def Held.handles (h : Held) : Option UInt32 × Option UInt32 × Option UInt32 :=
  (h.device, h.channel, h.filter)

def State.handles (s : State) : Option UInt32 × Option UInt32 × Option UInt32 :=
  (s.device, s.channel, s.filter)

/-- The course so far, as the state has it. -/
structure Holds (h : Held) (s : State) : Prop where
  course : Course s.calls h
  handles : s.handles = h.handles

/-- The operation goes on after these calls, which went well. -/
structure At (h : Held) (calls : List Entry) (s : State) : Prop extends Holds h s where
  asked : s.calls = calls
  fine : ∀ e ∈ calls, e.fine = true

/-- A channel belongs to a device, and a filter to a channel. -/
inductive Held.Nested : Held → Prop where
  | none : Nested ⟨none, none, none, .ending⟩
  | device (d : UInt32) (phase : Phase) : Nested ⟨some d, .none, .none, phase⟩
  | channel (d c : UInt32) (phase : Phase) : Nested ⟨some d, some c, .none, phase⟩
  | filter (d c f : UInt32) (phase : Phase) : Nested ⟨some d, some c, some f, phase⟩

/-- The operation has ended somewhere. -/
def Left (s : State) : Prop := ∃ h : Held, h.Nested ∧ Holds h s

theorem At.left {h : Held} {calls : List Entry} {s : State} (hn : h.Nested) (hat : At h calls s) :
    Left s :=
  ⟨h, hn, hat.toHolds⟩

/-! ## One call -/

section Calls

variable (D : Driver) {h : Held} {calls : List Entry} {c : Call} {k : c.Reply → Held} [Nonempty c.Reply]

/-- A call that the course allows, before anything is kept of its answer. -/
theorem ask_course (hallows : ∀ a, Allows h ⟨c, .ok a⟩ (k a)) (hgoes : ∀ a, (k a).phase ≠ .ending)
    (hnested : Held.Nested { h with phase := .ending }) :
    Triple (At h calls) (ask D c)
      (fun a s => Course s.calls (k a) ∧ s.handles = h.handles ∧ s.calls = calls ++ [⟨c, .ok a⟩] ∧
        ∀ e ∈ s.calls, e.fine = true)
      fun _ => Left := by
  intro s ⟨⟨hcourse, hhandles⟩, hasked, hfine⟩
  subst hasked
  unfold ask
  cases D.answer s.calls c with
  | error e =>
    obtain ⟨a⟩ := ‹Nonempty c.Reply›
    exact ⟨_, hnested, hcourse.snoc (.failed e (hallows a) (hgoes a)), hhandles⟩
  | ok a =>
    refine ⟨hcourse.snoc (hallows a), hhandles, rfl, List.forall_mem_append.mpr ⟨hfine, fun e he => ?_⟩⟩
    rw [List.mem_singleton.mp he]
    rfl

theorem ask_at (hallows : ∀ a, Allows h ⟨c, .ok a⟩ (k a)) (hgoes : ∀ a, (k a).phase ≠ .ending)
    (hnested : Held.Nested { h with phase := .ending }) (hsame : ∀ a, (k a).handles = h.handles) :
    Triple (At h calls) (ask D c) (fun a => At (k a) (calls ++ [⟨c, .ok a⟩])) fun _ => Left :=
  (ask_course D hallows hgoes hnested).mono fun a _ ⟨hcourse, hhandles, hasked, hfine⟩ =>
    ⟨⟨hcourse, hhandles.trans (hsame a).symm⟩, hasked, hasked ▸ hfine⟩

theorem take_at {keep : c.Reply → State → State} (hallows : ∀ a, Allows h ⟨c, .ok a⟩ (k a))
    (hgoes : ∀ a, (k a).phase ≠ .ending) (hnested : Held.Nested { h with phase := .ending })
    (hcalls : ∀ a s, (keep a s).calls = s.calls)
    (hkeep : ∀ a s, s.handles = h.handles → (keep a s).handles = (k a).handles) :
    Triple (At h calls) (take D c keep) (fun a => At (k a) (calls ++ [⟨c, .ok a⟩])) fun _ => Left := by
  refine (ask_course D hallows hgoes hnested).bind fun a => ?_
  refine Triple.bind (R := fun _ => At (k a) (calls ++ [⟨c, .ok a⟩])) (Triple.change fun s hs => ?_)
    fun _ => Triple.pure fun s hs => hs
  obtain ⟨hcourse, hhandles, hasked, hfine⟩ := hs
  exact ⟨⟨hcalls a s ▸ hcourse, hkeep a s hhandles⟩, (hcalls a s).trans hasked, hasked ▸ hfine⟩

end Calls

/-! ## The operations -/

section Operations

variable (D : Driver)

/-- Nothing is held but the device, and the operation goes on. -/
def device (d : UInt32) : Held := ⟨some d, none, none, .setUp⟩

/-- The device, the channel and its filter are held. -/
def whole (d c f : UInt32) (phase : Phase) : Held := ⟨some d, some c, some f, phase⟩

/-- The calls that identify a device that the profile has been made for. -/
def identified (d : UInt32) (firmware : String) : List Entry :=
  [⟨.opens, .ok d⟩, ⟨.version d, .ok (firmware, "2.5.33.154", "04.04")⟩]

/-- The calls that open a channel and set its filter. -/
def opened (d c f : UInt32) : List Entry :=
  [⟨.connect d, .ok c⟩, ⟨.filter c, .ok f⟩, ⟨.clearRx c, .ok ()⟩]

theorem identify_at : Triple (At ⟨none, none, none, .opening⟩ []) (identify D)
    (fun d s => ∃ firmware, At (device d) (identified d firmware) s) fun _ => Left := by
  refine Triple.bind (take_at D (h := ⟨none, none, none, .opening⟩) (c := .opens) (k := device) .opened
    (fun _ => nofun) .none (fun _ _ => rfl) fun d s hs => ?_) fun d => ?_
  · simp only [State.handles, Held.handles, Prod.mk.injEq] at hs ⊢
    exact ⟨rfl, hs.2⟩
  refine (ask_at D (h := device d) (c := .version d) (k := fun _ => device d) (.identified d)
    (fun _ => nofun) (.device d _) fun _ => rfl).bind fun version => ?_
  split
  · exact Triple.fail fun s hs => hs.left (.device d _)
  · next hversion =>
    rw [not_or, not_not, not_not] at hversion
    obtain ⟨firmware, dll, api⟩ := version
    obtain ⟨rfl, rfl⟩ := hversion
    exact Triple.bind (R := fun _ => At (device d) (identified d firmware))
      (Triple.change fun s hs => ⟨⟨hs.course, hs.handles⟩, hs.asked, hs.fine⟩) fun _ =>
        Triple.pure fun s hs => ⟨firmware, hs⟩

theorem measure_at (d : UInt32) {calls : List Entry} : Triple (At (device d) calls) (measure D d)
    (fun mv => At (device d) (calls ++ [⟨.voltage d, .ok mv⟩])) fun _ => Left :=
  take_at D (c := .voltage d) (k := fun _ => device d) (.measured d) (fun _ => nofun) (.device d _)
    (fun _ _ => rfl) fun _ _ hs => hs

theorem setUp_at (d : UInt32) {calls : List Entry} : Triple (At (device d) calls) (setUp D d)
    (fun c s => ∃ f, At (whole d c f .cleared) (calls ++ opened d c f) s) fun _ => Left := by
  refine Triple.bind (take_at D (h := device d) (c := .connect d)
    (k := fun c => ⟨some d, some c, none, .setUp⟩) (.connected d) (fun _ => nofun) (.device d _)
    (fun _ _ => rfl) fun c s hs => ?_) fun c => ?_
  · simp only [State.handles, Held.handles, device, Prod.mk.injEq] at hs ⊢
    exact ⟨hs.1, trivial, hs.2.2⟩
  refine Triple.bind (take_at D (h := ⟨some d, some c, none, .setUp⟩) (c := .filter c)
    (k := fun f => whole d c f .setUp) (.filtered d c) (fun _ => nofun) (.channel d c _) (fun _ _ => rfl)
    fun f s hs => ?_) fun f => ?_
  · simp only [State.handles, Held.handles, whole, Prod.mk.injEq] at hs ⊢
    exact ⟨hs.1, hs.2.1, trivial⟩
  refine (ask_at D (h := whole d c f .setUp) (c := .clearRx c) (k := fun _ => whole d c f .cleared)
    (fun _ => .cleared d c f) (fun _ => nofun) (.filter d c f _) fun _ => rfl).bind fun _ => ?_
  refine Triple.pure fun s hs => ?_
  rw [List.append_assoc, List.append_assoc] at hs
  exact ⟨f, hs⟩

/-! ## The end -/

theorem releaseEach_run (cs : List Call) (s : State) : ∃ more,
    (releaseEach D cs s).2 = { s with calls := s.calls ++ more } ∧ more.map (·.call) = cs ∧
      ((releaseEach D cs s).1 = [] → ∀ e ∈ more, e.fine = true) := by
  induction cs generalizing s with
  | nil => exact ⟨[], by rw [List.append_nil]; rfl, rfl, fun _ => nofun⟩
  | cons c cs ih =>
    obtain ⟨more, hstate, hcalls, hfine⟩ := ih (ask D c s).2
    have hask : (ask D c s).1 = D.answer s.calls c := rfl
    have hnext : (ask D c s).2.calls = s.calls ++ [⟨c, D.answer s.calls c⟩] := rfl
    rw [hnext, List.append_assoc, List.singleton_append] at hstate
    refine ⟨⟨c, D.answer s.calls c⟩ :: more, ?_, congrArg (c :: ·) hcalls, ?_⟩
    · unfold releaseEach
      split <;> exact hstate
    · unfold releaseEach
      rw [hask]
      cases D.answer s.calls c with
      | ok a => exact fun hnone => List.forall_mem_cons.mpr ⟨rfl, hfine hnone⟩
      | error e => exact nofun

/-- Everything is given back, and nothing else happens. -/
theorem release_run {h : Held} (hn : h.Nested) {s : State} (hs : Holds h s) : ∃ more,
    (releaseEach D s.releases s).2 = { s with calls := s.calls ++ more } ∧ Over (s.calls ++ more) ∧
      more.map (·.call) = s.releases ∧
      ((releaseEach D s.releases s).1 = [] → ∀ e ∈ more, e.fine = true) := by
  obtain ⟨more, hstate, hcalls, hfine⟩ := releaseEach_run D s.releases s
  refine ⟨more, hstate, ?_, hcalls, hfine⟩
  obtain ⟨hcourse, hhandles⟩ := hs
  simp only [State.handles, Held.handles, Prod.mk.injEq] at hhandles
  obtain ⟨hd, hc, hf⟩ := hhandles
  simp only [State.releases, hd, hc, hf] at hcalls
  cases hn with
  | none =>
    obtain rfl := List.map_eq_nil_iff.mp hcalls
    rw [List.append_nil]
    exact hcourse
  | device d phase =>
    obtain ⟨⟨_, r3⟩, rfl, rfl⟩ := List.map_eq_singleton_iff.mp hcalls
    exact hcourse.snoc (.closed d phase r3)
  | channel d c phase =>
    obtain ⟨⟨_, r2⟩, rest, rfl, rfl, hlast⟩ := List.map_eq_cons_iff.mp hcalls
    obtain ⟨⟨_, r3⟩, rfl, rfl⟩ := List.map_eq_singleton_iff.mp hlast
    rw [List.append_cons]
    exact (hcourse.snoc (.disconnected d c phase r2)).snoc (.closed d _ r3)
  | filter d c f phase =>
    obtain ⟨⟨_, r1⟩, rest, rfl, rfl, hrest⟩ := List.map_eq_cons_iff.mp hcalls
    obtain ⟨⟨_, r2⟩, rest, rfl, rfl, hlast⟩ := List.map_eq_cons_iff.mp hrest
    obtain ⟨⟨_, r3⟩, rfl, rfl⟩ := List.map_eq_singleton_iff.mp hlast
    rw [List.append_cons, List.append_cons]
    have hunfiltered := hcourse.snoc (.unfiltered d c f phase r1)
    exact (hunfiltered.snoc (.disconnected d c _ r2)).snoc (.closed d _ r3)

end Operations

/-! ## The VIN -/

/-- The message carries this VIN, in a positive reply of the ECU. -/
structure Brings (m : Message) (vin : String) : Prop where
  protocol : m.protocol = 6 ∧ m.rxStatus = 0
  sender : identifier m.data = 0x7e8
  payload : assembledSaabVin ((m.data.take m.dataSize.toNat).drop 4) = .ok vin

def reads (calls : List Entry) : Nat := (calls.map (·.call.name)).count "read"

/-- The VIN comes with the last record, heard in its turn, within five seconds of the one accepted
request. -/
def Fresh (turns : List (UInt64 × UInt64)) (vin : String) (calls : List Entry) : Prop :=
  ∃ before m c after, calls = before ++ ⟨.read c, .ok (some m)⟩ :: after ∧ reads after = 0 ∧
    ⟨.write c request, .ok 1⟩ ∈ before ∧ Brings m vin ∧
      ∃ turn, turns[reads before]? = some turn ∧ turn.2 < 5000000

/-- The transaction is the one for the VIN, since its request. -/
def Ours (reply : Translation.Session) : Prop := reply.config = config ∧ reply.startUs = 0

theorem Ours.tick {reply : Translation.Session} (h : Ours reply) (now : UInt64) :
    Ours (reply.tick now).2 := by
  have hticked := Translation.Session.tick_cases reply now
  generalize reply.tick now = r at hticked
  cases hticked <;> exact h

theorem Ours.feed {reply : Translation.Session} (h : Ours reply) {o : Observation}
    {action : Translation.Action} (hfed : (reply.feed o).1 = .ok action) : Ours (reply.feed o).2 := by
  have hcases := Translation.Session.feed_cases reply o
  generalize reply.feed o = r at hcases hfed
  cases hcases with
  | ignored => exact h
  | progress _ _ _ hkept =>
    obtain ⟨_, _, _, rfl⟩ := hkept
    exact h
  | complete _ _ _ hkept =>
    obtain ⟨_, _, _, rfl⟩ := hkept
    exact h
  | _ => cases hfed

/-- A payload that completes the transaction is that of the observation, from the ECU and in time. -/
theorem Ours.complete {reply : Translation.Session} (h : Ours reply) {seen : UInt64} {id : UInt32}
    {data payload : List UInt8} (hcomplete : (reply.feed ⟨1, seen, .isoTpPayload .hsCan id false data⟩).1 =
      .ok (.complete (.payload payload))) : seen < 5000000 ∧ id = 0x7e8 ∧ payload = data := by
  obtain ⟨hconfig, hstart⟩ := h
  obtain ⟨hactive, hclock, htime⟩ : reply.state = .active ∧ reply.lastUs ≤ seen ∧ reply.InTime seen := by
    have hfed := Translation.Session.feed_cases reply ⟨1, seen, .isoTpPayload .hsCan id false data⟩
    generalize reply.feed _ = r at hfed hcomplete
    cases hfed with
    | progress _ _ _ _ _ hresult => exact absurd (Except.ok.inj hcomplete) (hresult _)
    | complete hactive hclock htime => exact ⟨hactive, hclock, htime⟩
    | _ => cases hcomplete
  have hseen : seen < 5000000 := by
    have hlimit := htime.1
    rw [hstart, hconfig] at hlimit
    simpa [config] using hlimit
  rw [Translation.Session.feed_eq hactive hclock htime, if_neg (by simp [hconfig, config])] at hcomplete
  rw [Translation.Session.record_fst] at hcomplete
  have hconsumed : reply.consumePayload .hsCan id false data = .ok (.complete (.payload payload)) :=
    hcomplete
  unfold Translation.Session.consumePayload at hconsumed
  split at hconsumed
  · cases hconsumed
  next hselected =>
  rw [not_not, Translation.Session.selected_iff, hconfig] at hselected
  refine ⟨hseen, ?_, ?_⟩
  · simpa [config] using hselected.2.2
  simp only [hconfig, config] at hconsumed
  repeat' split at hconsumed
  all_goals try cases hconsumed
  unfold Translation.Session.finish at hconsumed
  split at hconsumed
  · simpa using hconsumed.symm
  · cases hconsumed

/-- What an observation is made of. -/
theorem observation_some {m : Message} {seen : UInt64} {o : Observation}
    (h : observation m seen = .ok (some o)) : (m.protocol = 6 ∧ m.rxStatus = 0) ∧ o = ⟨1, seen, .isoTpPayload .hsCan (identifier m.data) false
      ((m.data.take m.dataSize.toNat).drop 4)⟩ := by
  unfold observation at h
  split at h
  · cases h
  split at h
  · cases h
  next hours =>
  split at h
  · cases h
  split at h
  · cases h
  rw [not_or, not_not, not_not] at hours
  exact ⟨hours, (Option.some.inj (Except.ok.inj h)).symm⟩

/-- A record brings the VIN, or leaves the transaction as it has to be. -/
theorem hear_at {h : Held} (hn : h.Nested) {calls : List Entry} {reply : Translation.Session}
    (hours : Ours reply) (seen : UInt64) (m : Message) :
    Triple (At h calls) (hear reply seen m)
      (fun o s => At h calls s ∧ match o with
        | .ok vin => Brings m vin ∧ seen < 5000000
        | .error reply => Ours reply)
      fun _ => Left := by
  refine Triple.bind (R := fun _ => At h calls)
    (Triple.change fun s hs => ⟨⟨hs.course, hs.handles⟩, hs.asked, hs.fine⟩) fun _ => ?_
  refine Triple.bind (R := fun _ => At h calls) (Triple.read fun s hs => hs) fun n => ?_
  split
  · exact Triple.fail fun s hs => hs.left hn
  refine Triple.bind (R := fun o s => At h calls s ∧ observation m seen = .ok o)
    (Triple.lift (fun o ho s hs => ⟨hs, ho⟩) fun e _ s hs => hs.left hn) fun o => ?_
  cases o with
  | none => exact Triple.pure fun s hs => ⟨hs.1, hours⟩
  | some o =>
    refine Triple.weaken (P := fun s => observation m seen = .ok (some o) ∧ At h calls s)
      (Triple.of_and fun hobserved => ?_) fun s hs => hs.symm
    obtain ⟨hprotocol, rfl⟩ := observation_some hobserved
    refine Triple.bind (R := fun action s => (reply.feed ⟨1, seen, .isoTpPayload .hsCan
        (identifier m.data) false ((m.data.take m.dataSize.toNat).drop 4)⟩).1 = .ok action ∧ At h calls s)
      (Triple.lift (fun a ha s hs => ⟨ha, hs⟩) fun e _ s hs => hs.left hn) fun action => ?_
    refine Triple.of_and fun hfed => ?_
    split
    · refine Triple.bind (R := fun vin s => Brings m vin ∧ At h calls s)
        (Triple.lift ?_ fun e _ s hs => hs.left hn) fun vin => Triple.pure fun s hs => ⟨hs.2, hs.1, (hours.complete hfed).1⟩
      intro vin hvin s hs
      obtain ⟨-, hsender, rfl⟩ := hours.complete hfed
      exact ⟨⟨hprotocol, hsender, hvin⟩, hs⟩
    · exact Triple.pure fun s hs => ⟨hs, hours.feed hfed⟩
    · exact Triple.pure fun s hs => ⟨hs, hours.feed hfed⟩
    · exact Triple.pure fun s hs => ⟨hs, hours.feed hfed⟩
    · exact Triple.fail fun s hs => hs.left hn

section Listening

variable (D : Driver)

/-- The operation has the VIN. -/
def Told (turns : List (UInt64 × UInt64)) (s : State) : Prop := ∃ d c f calls vin,
  At (whole d c f .requested) calls s ∧ s.vin = some vin ∧ Fresh turns vin calls

theorem listen_told {d c f : UInt32} {turns : List (UInt64 × UInt64)} (past : List (UInt64 × UInt64))
    {reply : Translation.Session} (hours : Ours reply) {calls : List Entry}
    (hreads : reads calls = past.length) (hrequest : ⟨.write c request, .ok 1⟩ ∈ calls) :
    Triple (At (whole d c f .requested) calls) (listen D c turns reply) (fun _ => Told (past ++ turns))
      fun _ => Left := by
  induction turns generalizing past reply calls with
  | nil => exact Triple.fail fun s hs => hs.left (.filter d c f _)
  | cons turn turns ih =>
    obtain ⟨now, seen⟩ := turn
    refine Triple.bind (R := fun _ => At (whole d c f .requested) calls)
      (Triple.lift (fun _ _ s hs => hs) fun _ _ s hs => hs.left (.filter d c f _)) fun _ => ?_
    refine (ask_at D (c := .read c) (k := fun _ => whole d c f .requested) (.heard d c f) (fun _ => nofun)
      (.filter d c f _) fun _ => rfl).bind fun m => ?_
    have hnext : reads (calls ++ [⟨.read c, .ok m⟩]) = (past ++ [(now, seen)]).length := by
      simp [reads, ← hreads, Call.name]
    have hkept : ⟨.write c request, .ok 1⟩ ∈ calls ++ [⟨.read c, .ok m⟩] :=
      List.mem_append_left _ hrequest
    cases m with
    | none => exact List.append_cons past _ turns ▸ ih (past ++ [(now, seen)]) (hours.tick now) hnext hkept
    | some m =>
      refine (hear_at (.filter d c f _) (hours.tick now) seen m).bind fun heard => ?_
      cases heard with
      | error reply =>
        exact Triple.weaken (Triple.of_and fun h => List.append_cons past _ turns ▸ ih _ h hnext hkept)
          fun s hs => hs.symm
      | ok vin =>
        refine Triple.change fun s ⟨hat, hbrings, hseen⟩ => ?_
        refine ⟨d, c, f, _, vin, ⟨⟨hat.course, hat.handles⟩, hat.asked, hat.fine⟩, rfl, ?_⟩
        exact ⟨calls, m, c, [], rfl, rfl, hrequest, hbrings, (now, seen), by simp [hreads], hseen⟩

theorem exchange_told (turns : List (UInt64 × UInt64)) :
    Triple (At ⟨none, none, none, .opening⟩ []) (exchange D turns) (fun _ => Told turns)
      fun _ => Left := by
  refine (identify_at D).bind fun d => Triple.of_exists fun firmware => ?_
  refine (measure_at D d).bind fun mv => (setUp_at D d).bind fun c => Triple.of_exists fun f => ?_
  refine Triple.bind (R := fun reply s => Ours reply ∧
      At (whole d c f .cleared) (identified d firmware ++ [⟨.voltage d, .ok mv⟩] ++ opened d c f) s)
    (Triple.lift ?_ ?_) fun reply => Triple.of_and fun hours => ?_
  · intro reply hnew s hs
    obtain rfl : config.session ⟨19, none, [], 1, false, false⟩ none 0 = reply :=
      Except.ok.inj (rfl.trans hnew)
    exact ⟨⟨rfl, rfl⟩, hs⟩
  · intro e hnew
    cases hnew
  refine Triple.bind (take_at D (h := whole d c f .cleared) (c := .write c request)
    (k := fun _ => whole d c f .requested) (.requested d c f) (fun _ => nofun) (.filter d c f _)
    (fun _ _ => rfl) fun _ _ hs => hs) fun n => ?_
  split
  · exact Triple.fail fun s hs => hs.left (.filter d c f _)
  next hone =>
  obtain rfl := not_not.mp hone
  exact listen_told D [] hours rfl (List.mem_append_right _ List.mem_cons_self)

end Listening

/-! ## Neither a request nor a record -/

/-- The driver has been asked neither to send nor to receive. -/
def Quiet (calls : List Entry) : Prop := ∀ e ∈ calls, e.call.name ∉ ["write", "read"]

def quiet : Allowed State := .invariant fun s => Quiet s.calls

theorem State.releases_quiet (s : State) : ∀ c ∈ s.releases, c.name ∉ ["write", "read"] := by
  unfold State.releases
  cases s.channel <;> cases s.filter <;> cases s.device <;> simp [Call.name]

section Quiet

variable (D : Driver)

theorem ask_quiet {c : Call} (hc : c.name ∉ ["write", "read"]) : Keeps quiet (ask D c) := fun s hs =>
  List.forall_mem_append.mpr ⟨hs, fun e he => by rw [List.mem_singleton.mp he]; exact hc⟩

theorem take_quiet {c : Call} (hc : c.name ∉ ["write", "read"]) {keep : c.Reply → State → State}
    (hkeep : ∀ a s, (keep a s).calls = s.calls) : Keeps quiet (take D c keep) :=
  (ask_quiet D hc).bind fun a => Keeps.bind (fun s => (congrArg Quiet (hkeep a s)).mpr) fun _ => .pure a

theorem prepare_quiet (stage : Stage) : Keeps quiet (prepare D stage) := by
  refine Keeps.bind ?_ fun d => ?_
  · refine Keeps.bind (take_quiet D (c := .opens) (by simp [Call.name]) fun _ _ => rfl) fun d => ?_
    refine (ask_quiet D (c := .version d) (by simp [Call.name])).bind fun version => ?_
    split
    · exact .fail _
    · exact Keeps.bind (fun s hs => hs) fun _ => .pure d
  split
  · exact .pure ()
  refine Keeps.bind (take_quiet D (c := .voltage d) (by simp [Call.name]) fun _ _ => rfl) fun _ => ?_
  split
  · exact .pure ()
  refine Keeps.bind ?_ fun _ => .pure ()
  refine Keeps.bind (take_quiet D (c := .connect d) (by simp [Call.name]) fun _ _ => rfl) fun c => ?_
  refine Keeps.bind (take_quiet D (c := .filter c) (by simp [Call.name]) fun _ _ => rfl) fun _ => ?_
  exact (ask_quiet D (c := .clearRx c) (by simp [Call.name])).bind fun _ => .pure c

end Quiet

/-! ## The stages -/

/-- What is called for a stage that completes. -/
def Stage.calls : Stage → List String
  | .openOnly => ["open", "version", "close"]
  | .deviceInfo => ["open", "version", "voltage", "close"]
  | .channelOnly =>
    ["open", "version", "voltage", "connect", "filter", "clear_rx", "stop_filter", "disconnect", "close"]

/-- The operation is through, and only the end is left of its calls. -/
def Prepared (stage : Stage) (s : State) : Prop := ∃ h d firmware rest,
  h.Nested ∧ At h (identified d firmware ++ rest) s ∧
    (s.calls.map (·.call) ++ s.releases).map Call.name = stage.calls

theorem At.prepared {h : Held} (hn : h.Nested) {d : UInt32} {firmware : String} {rest : List Entry}
    {s : State} (hat : At h (identified d firmware ++ rest) s) {stage : Stage}
    (hcalls : ((identified d firmware ++ rest).map (·.call) ++
      ({ s with device := h.device, channel := h.channel, filter := h.filter } : State).releases).map
        Call.name = stage.calls) : Prepared stage s := by
  have hhandles := hat.handles
  simp only [State.handles, Held.handles, Prod.mk.injEq] at hhandles
  obtain ⟨hd, hc, hf⟩ := hhandles
  rw [← hd, ← hc, ← hf, ← hat.asked] at hcalls
  exact ⟨h, d, firmware, rest, hn, hat, hcalls⟩

theorem prepare_prepared (D : Driver) (stage : Stage) :
    Triple (At ⟨none, none, none, .opening⟩ []) (prepare D stage) (fun _ => Prepared stage)
      fun _ => Left := by
  refine (identify_at D).bind fun d => Triple.of_exists fun firmware => ?_
  split
  · next h =>
    subst h
    rw [← List.append_nil (identified d firmware)]
    exact Triple.pure fun s hs => At.prepared (.device d _) hs rfl
  refine (measure_at D d).bind fun mv => ?_
  split
  · next h =>
    subst h
    exact Triple.pure fun s hs => At.prepared (.device d _) hs rfl
  · next hopen hinfo =>
    obtain rfl : stage = .channelOnly := by
      cases stage <;> simp at hopen hinfo ⊢
    refine (setUp_at D d).bind fun c => Triple.pure fun s ⟨f, hs⟩ => ?_
    rw [List.append_assoc] at hs
    exact At.prepared (.filter d c f _) hs rfl

/-! ## The outcomes -/

theorem failure_none {operation : Except String Unit} {errors : List String}
    (h : failure operation errors = none) : operation = .ok () ∧ errors = [] := by
  unfold failure at h
  cases operation with
  | ok _ =>
    dsimp only at h
    split at h
    · next herrors => exact ⟨rfl, herrors⟩
    · cases h
  | error e =>
    dsimp only at h
    split at h <;> cases h

theorem new_at : At ⟨none, none, none, .opening⟩ [] .new := ⟨⟨.nil, rfl⟩, rfl, fun _ => nofun⟩

/-- Whatever the driver answers, its calls follow one course, over at the end; a readiness profile neither
sends nor receives. -/
theorem startup_over (D : Driver) : (∀ turns, Over (readVin D turns).1) ∧
    ∀ stage, Over (run D stage).1 ∧ Quiet (run D stage).1 := by
  refine ⟨fun turns => ?_, fun stage => ⟨?_, ?_⟩⟩
  · obtain ⟨h, hn, hs⟩ := ((exchange_told D turns).mono fun _ s ⟨d, c, f, _, _, hat, _⟩ =>
      hat.left (.filter d c f _)).always new_at
    obtain ⟨more, hstate, hover, -⟩ := release_run D hn hs
    exact (congrArg (Over ·.calls) hstate).mpr hover
  · obtain ⟨h, hn, hs⟩ := ((prepare_prepared D stage).mono fun _ s ⟨_, _, _, _, hn, hat, _⟩ =>
      hat.left hn).always new_at
    obtain ⟨more, hstate, hover, -⟩ := release_run D hn hs
    exact (congrArg (Over ·.calls) hstate).mpr hover
  · obtain ⟨more, hstate, hcalls, -⟩ :=
      releaseEach_run D (prepare D stage .new).2.releases (prepare D stage .new).2
    refine (congrArg (Quiet ·.calls) hstate).mpr (List.forall_mem_append.mpr
      ⟨prepare_quiet D stage .new fun _ => nofun, fun e he => ?_⟩)
    exact State.releases_quiet _ e.call (hcalls ▸ List.mem_map_of_mem he)

theorem Fresh.append {turns : List (UInt64 × UInt64)} {vin : String} {calls more : List Entry}
    (hfresh : Fresh turns vin calls) (hmore : ∀ e ∈ more, e.call.name ≠ "read") :
    Fresh turns vin (calls ++ more) := by
  obtain ⟨before, m, c, after, rfl, hafter, h⟩ := hfresh
  refine ⟨before, m, c, after ++ more, by rw [List.append_assoc, List.cons_append], ?_, h⟩
  rw [reads, List.map_append, List.count_append, ← reads, hafter, zero_add, List.count_eq_zero,
    List.mem_map]
  exact fun ⟨e, he, hname⟩ => hmore e he hname

/-- A startup that reports success has had no failing call, and has been told its VIN in time by the ECU. -/
theorem vin_fresh (D : Driver) (turns : List (UInt64 × UInt64)) (h : (readVin D turns).2.success = true) :
    (∀ e ∈ (readVin D turns).1, e.fine = true) ∧
      ∃ vin, (readVin D turns).2.vin = some vin ∧ Fresh turns vin (readVin D turns).1 := by
  simp only [Outcome.success, Bool.and_eq_true, Option.isNone_iff_eq_none] at h
  obtain ⟨hrun, herrors⟩ : (exchange D turns .new).1 = .ok () ∧
      (releaseEach D (exchange D turns .new).2.releases (exchange D turns .new).2).1 = [] := failure_none h.2
  have htold := exchange_told D turns .new new_at
  rcases hex : exchange D turns .new with ⟨operation, s⟩
  rw [hex] at hrun herrors htold
  obtain rfl : operation = .ok () := hrun
  obtain ⟨d, c, f, calls, vin, hat, hvin, hfresh⟩ := htold
  obtain ⟨more, hstate, -, hcalls, hfine⟩ := release_run D (.filter d c f _) hat.toHolds
  have hend : (readVin D turns).1 = calls ++ more ∧ (readVin D turns).2.vin = some vin := by
    simp only [readVin, hex, hstate, hat.asked, hvin, and_self]
  rw [hend.1]
  refine ⟨List.forall_mem_append.mpr ⟨hat.fine, hfine herrors⟩, vin, hend.2, ?_⟩
  refine hfresh.append fun e he hname => ?_
  exact s.releases_quiet e.call (hcalls ▸ List.mem_map_of_mem he) (by simp [hname])

/-- A device that first tells of the request, then brings a VIN. -/
def answering : Driver where
  answer calls
    | .opens => .ok 0
    | .version _ => .ok ("8.5.33", "2.5.33.154", "04.04")
    | .voltage _ => .ok 14000
    | .connect _ => .ok 0
    | .filter _ => .ok 0
    | .clearRx _ => .ok ()
    | .write .. => .ok 1
    | .read _ =>
      let m := Message.new 0x7e8 [0x5a, 0x90, 0x59, 0x53, 0x33, 0x46, 0x44, 0x34, 0x39, 0x59, 0x58,
        0x34, 0x31, 0x30, 0x30, 0x30, 0x30, 0x30, 0x31]
      .ok (some (if reads calls = 0 then { m with rxStatus := 1 } else m))
    | .stopFilter .. => .ok ()
    | .disconnect _ => .ok ()
    | .close _ => .ok ()

theorem answering_fresh : ∃ vin, (readVin answering [(0, 1000), (2000, 3000)]).2.vin = some vin ∧
    Fresh [(0, 1000), (2000, 3000)] vin (readVin answering [(0, 1000), (2000, 3000)]).1 :=
  (vin_fresh answering [(0, 1000), (2000, 3000)] (by decide +kernel)).2

/-- A readiness profile that reports success has made the calls of its stage, of a driver that is known. -/
theorem stage_calls (D : Driver) (stage : Stage) (h : (run D stage).2.success = true) :
    (run D stage).2.calls = stage.calls ∧ (∀ e ∈ (run D stage).1, e.fine = true) ∧
      ∃ d firmware, ⟨.version d, .ok (firmware, "2.5.33.154", "04.04")⟩ ∈ (run D stage).1 := by
  simp only [Readiness.success, Bool.and_eq_true, Option.isNone_iff_eq_none] at h
  obtain ⟨hrun, herrors⟩ : (prepare D stage .new).1 = .ok () ∧
      (releaseEach D (prepare D stage .new).2.releases (prepare D stage .new).2).1 = [] := failure_none h.2
  have hprepared := prepare_prepared D stage .new new_at
  rcases hex : prepare D stage .new with ⟨operation, s⟩
  rw [hex] at hrun herrors hprepared
  obtain rfl : operation = .ok () := hrun
  obtain ⟨held, d, firmware, rest, hn, hat, hnames⟩ := hprepared
  obtain ⟨more, hstate, -, hcalls, hfine⟩ := release_run D hn hat.toHolds
  have hend : (run D stage).1 = s.calls ++ more ∧
      (run D stage).2.calls = (s.calls ++ more).map (·.call.name) := by
    simp only [run, hex, hstate, and_self]
  rw [hend.1, hend.2]
  refine ⟨?_, List.forall_mem_append.mpr ⟨hat.asked ▸ hat.fine, hfine herrors⟩, d, firmware, ?_⟩
  · rw [← hnames, ← hcalls, List.map_append, List.map_append, List.map_map, List.map_map]
    rfl
  · rw [hat.asked]
    exact List.mem_append_left _ (List.mem_append_left _ (by simp [identified]))

theorem answering_channel : (run answering .channelOnly).2.calls = Stage.channelOnly.calls :=
  (stage_calls answering .channelOnly (by decide +kernel)).1

end OpenSaab.Mdi.Init
