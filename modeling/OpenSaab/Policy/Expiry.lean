import OpenSaab.Policy.Transactions

/-!
# After a request that was not finished

The deadline of an open request is looked at by the frames that go on with it, and by no others. So a gate
with a request that has run out of time is compared with one that has none.
-/

namespace OpenSaab.Policy

open Can Runs

/-! ## Engine requests -/

/-- The first frame of a request that a free gate opens. -/
def Offer.opens (o : Offer) : Prop :=
  (electricalRoute o.controller o.tx).isOk ∧ o.data.length = 8 ∧ o.data.getD 0 0 &&& 0xf0 = 0x10 ∧
    (opensRead o.data ∨ opensDefinition o.data)

/-- A request to the engine, as it begins or whole. -/
def Offer.asksEngine (o : Offer) : Prop :=
  o.key = engineKey ∧ (o.opens ∨ allowedForProfile o.controller o.tx o.profile)

/-- What the gate says to the offers, one after the other. -/
def CommandGate.decisions (g : CommandGate) (offers : List Offer) : List Bool :=
  log CommandGate.offer (fun g o => [g.admits o]) g offers

@[simp] theorem decisions_cons (g : CommandGate) (o : Offer) (offers : List Offer) :
    g.decisions (o :: offers) = g.admits o :: (g.offer o).decisions offers := rfl

theorem allowed_not_segment {o : Offer} (h : allowedForProfile o.controller o.tx o.profile) :
    ¬ (o.data.getD 0 0 &&& 0xf0 = 0x10 ∨ o.data.getD 0 0 &&& 0xf0 = 0x20) := fun hsegment => by
  rw [segment_not_single (segment_iff.mpr hsegment)] at h
  cases h

theorem allowed_routed {controller : Nat} {tx : Transmission} {p : Profile}
    (h : allowedForProfile controller tx p) : (electricalRoute controller tx).isOk := by
  unfold allowedForProfile at h
  cases hroute : electricalRoute controller tx with
  | error e =>
    rw [hroute] at h
    cases h
  | ok route => rfl

/-- The allowlist decides, unless the engine is in the middle of a request. -/
theorem allowed_admits {g : CommandGate} {o : Offer}
    (h : allowedForProfile o.controller o.tx o.profile) (hidle : o.key = engineKey → g.packet = none) :
    g.admits o = true := by
  have hsegment := not_or.mp (allowed_not_segment h)
  have hok := allowed_routed h
  unfold CommandGate.admits CommandGate.allowed
  cases hroute : electricalRoute o.controller o.tx with
  | error e =>
    rw [hroute] at hok
    cases hok
  | ok route =>
    dsimp only
    rw [if_neg (fun h => hsegment.1 h.2.2), if_neg (fun h => hsegment.2 h.2), if_neg]
    · exact h
    · rintro ⟨hengine, hopen⟩
      rw [hidle (engine_iff.mp hengine)] at hopen
      cases hopen

theorem opens_admits {o : Offer} (hkey : o.key = engineKey) (h : o.opens) :
    CommandGate.default.admits o = true := by
  obtain ⟨hok, hlen, hpci, hkind⟩ := h
  unfold CommandGate.admits CommandGate.allowed
  cases hroute : electricalRoute o.controller o.tx with
  | error e =>
    rw [hroute] at hok
    cases hok
  | ok route =>
    dsimp only
    rw [if_pos ⟨engine_iff.mpr hkey, hlen, hpci⟩, if_neg]
    rintro (hbusy | hnone)
    · cases hbusy
    · exact hnone hkind

/-- A gate without an open request lets exactly these requests through to the engine. -/
theorem default_admits_iff {o : Offer} (hkey : o.key = engineKey) :
    CommandGate.default.admits o = true ↔ o.asksEngine := by
  constructor
  · intro hyes
    rcases offer_cases CommandGate.default o with ⟨hno, -⟩ | ⟨-, ha⟩
    · rw [hyes] at hno
      cases hno
    · obtain ⟨route, hroute⟩ := allowed_route hyes
      have hok : (electricalRoute o.controller o.tx).isOk := by rw [hroute]; rfl
      generalize CommandGate.default.offer o = g' at ha
      cases ha with
      | opens _ _ hlen hpci hkind => exact ⟨hkey, .inl ⟨hok, hlen, hpci, hkind⟩⟩
      | goesOn hp => cases hp
      | single _ h => exact ⟨hkey, .inr h⟩
  · rintro ⟨-, hopens | hallowed⟩
    · exact opens_admits hkey hopens
    · exact allowed_admits hallowed fun _ => rfl

/-! ## Other frames -/

theorem other_admits {g : CommandGate} {o : Offer} (hkey : o.key ≠ engineKey) :
    g.admits o = allowedForProfile o.controller o.tx o.profile := by
  rcases offer_cases g o with ⟨hno, -⟩ | ⟨hyes, ha⟩
  · refine hno.trans (Bool.eq_false_iff.mpr fun hallowed => ?_).symm
    rw [allowed_admits hallowed fun h => absurd h hkey] at hno
    cases hno
  · refine hyes.trans (admitted_other g o o ?_ hkey).symm
    rw [CommandGate.admitted, if_pos hyes]
    exact List.mem_singleton_self o

theorem other_keeps (g : CommandGate) {o : Offer} (hkey : o.key ≠ engineKey) : g.offer o = g := by
  rcases offer_cases g o with ⟨-, hsame⟩ | ⟨-, ha⟩
  · exact hsame
  · generalize g.offer o = g' at ha
    cases ha with
    | opens _ h => exact absurd h hkey
    | goesOn _ h => exact absurd h hkey
    | single => rfl

/-! ## A request that has run out of time -/

/-- Nothing that comes late gets through to the engine, and the request stays open. -/
theorem late_refused {g : CommandGate} {p : PacketContinuation} {o : Offer} (hp : g.packet = some p)
    (hlate : p.deadline ≤ o.now) (hkey : o.key = engineKey) : g.admits o = false ∧ g.offer o = g := by
  rcases offer_cases g o with hno | ⟨-, ha⟩
  · exact hno
  · generalize g.offer o = g' at ha
    cases ha with
    | opens hidle =>
      rw [hp] at hidle
      cases hidle
    | goesOn hq _ _ htakes =>
      rw [hp] at hq
      obtain rfl := Option.some.inj hq
      simp [PacketContinuation.takes, Nat.not_lt.mpr hlate] at htakes
    | single hidle =>
      have hnone := hidle hkey
      rw [hp] at hnone
      cases hnone

/-- A late offer is treated as by a free gate unless it asks the engine, and then neither moves. -/
theorem late_same_iff {g : CommandGate} {p : PacketContinuation} {o : Offer} (hp : g.packet = some p)
    (hlate : p.deadline ≤ o.now) :
    g.admits o = CommandGate.default.admits o ↔ ¬ o.asksEngine := by
  by_cases hkey : o.key = engineKey
  · rw [(late_refused hp hlate hkey).1, ← default_admits_iff hkey, Bool.not_eq_true]
    exact eq_comm
  · exact iff_of_true ((other_admits hkey).trans (other_admits hkey).symm) fun h => hkey h.1

theorem late_keeps {g : CommandGate} {p : PacketContinuation} {o : Offer} (hp : g.packet = some p)
    (hlate : p.deadline ≤ o.now) : g.offer o = g := by
  by_cases hkey : o.key = engineKey
  · exact (late_refused hp hlate hkey).2
  · exact other_keeps g hkey

theorem default_keeps {o : Offer} (h : ¬ o.asksEngine) :
    CommandGate.default.offer o = CommandGate.default := by
  by_cases hkey : o.key = engineKey
  · exact allowed_refused (Bool.eq_false_iff.mpr fun hyes => h ((default_admits_iff hkey).mp hyes))
  · exact other_keeps _ hkey

theorem late_decisions_iff {g : CommandGate} {p : PacketContinuation} (hp : g.packet = some p)
    (late : List Offer) (hlate : ∀ o ∈ late, p.deadline ≤ o.now) :
    g.decisions late = CommandGate.default.decisions late ↔ ∀ o ∈ late, ¬ o.asksEngine := by
  induction late with
  | nil => exact iff_of_true rfl fun _ h => nomatch h
  | cons o late ih =>
    obtain ⟨ho, hrest⟩ := List.forall_mem_cons.mp hlate
    rw [decisions_cons, decisions_cons, List.cons.injEq, late_keeps hp ho, late_same_iff hp ho,
      List.forall_mem_cons]
    refine and_congr_right fun hquiet => ?_
    rw [default_keeps hquiet]
    exact ih hrest

/-- Once the deadline of an open request has passed, the gate goes on as a free one does exactly if
nothing is asked of the engine any more. -/
theorem expired_recovers_iff (earlier late : List Offer)
    (hlate : ∀ p, (run CommandGate.offer CommandGate.default earlier).packet = some p →
      ∀ o ∈ late, p.deadline ≤ o.now) :
    (run CommandGate.offer CommandGate.default earlier).decisions late =
        CommandGate.default.decisions late ↔
      (run CommandGate.offer CommandGate.default earlier).packet = none ∨
        ∀ o ∈ late, ¬ o.asksEngine := by
  generalize hg : run CommandGate.offer CommandGate.default earlier = g at hlate
  cases hp : g.packet with
  | none =>
    obtain ⟨packet⟩ := g
    obtain rfl : packet = none := hp
    exact iff_of_true rfl (.inl rfl)
  | some p =>
    rw [late_decisions_iff hp late (hlate p hp)]
    simp

/-! ## A definition that is abandoned -/

def engineOffer (ticket : UInt64) (data : List UInt8) (now : Nat) : Offer where
  controller := 0
  tx := ⟨ticket, ⟨0x7e0, false, false, 8, data⟩, 0xc1, 0x36, .standardCan⟩
  profile := .read
  now := now

def abandoned : Offer := engineOffer 1 [0x10, 0x0c, 0x2c, 0xf3, 0x14, 0x70, 0x15, 0x34] 0

/-- A request for the identification, a minute later. -/
def identification : Offer := engineOffer 2 [2, 0x1a, 0x90, 0, 0, 0, 0, 0] 60000000000

theorem expired_recovers_iff_abandoned :
    (run CommandGate.offer CommandGate.default [abandoned]).decisions [identification] =
        CommandGate.default.decisions [identification] ↔
      (run CommandGate.offer CommandGate.default [abandoned]).packet = none ∨
        ∀ o ∈ [identification], ¬ o.asksEngine :=
  expired_recovers_iff [abandoned] [identification] (by decide +kernel)

theorem gate_stays_closed :
    ¬ ∀ earlier late : List Offer,
      (∀ p, (run CommandGate.offer CommandGate.default earlier).packet = some p →
        ∀ o ∈ late, p.deadline ≤ o.now) →
      (run CommandGate.offer CommandGate.default earlier).decisions late =
        CommandGate.default.decisions late := by
  intro h
  have heq := h [abandoned] [identification] fun p hp o ho => by
    obtain rfl := List.mem_singleton.mp ho
    obtain rfl := Option.some.inj hp
    decide
  exact absurd heq (by decide +kernel)

end OpenSaab.Policy
