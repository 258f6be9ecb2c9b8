import OpenSaab.Library.Runs
import OpenSaab.Seatbelt.Policy

/-!
# Who may write to the body controller

The flags of the policy against the frames that have passed it: each flag stands for a part of the
exchange that has taken place.
-/

namespace OpenSaab.Seatbelt

open Can

/-! ## Calls and what passes -/

inductive Event where
  | before (controller : Nat) (tx : Transmission)
  | observe (controller : Nat) (id : UInt32) (d : List UInt8)

/-- What has gone out on the route of the body controller, and what it has answered. -/
inductive Record where
  | passed (d : List UInt8)
  | seen (d : List UInt8)
  deriving DecidableEq, Repr

namespace Policy

def step (p : Policy) : Event → Policy
  | .before controller tx => (p.before controller tx).1
  | .observe controller id d => (p.observe controller id d).1

def records (p : Policy) : Event → List Record
  | .before controller tx =>
    if bcm controller tx ∧ (p.before controller tx).2 = .ok () then [.passed tx.frame.data] else []
  | .observe controller id d => if controller = 2 ∧ id = 0x642 then [.seen d] else []

def history (p : Policy) (events : List Event) : List Record := Runs.log step records p events

end Policy

variable {p p' : Policy}

/-! ## What one call does -/

inductive Step (p : Policy) : Policy → List Record → Prop where
  | same : Step p p []
  | seedRequested (hkey : p.keySent = false) (hopen : p.rejection = none) :
      Step p { p with requested := true } [.passed seedRequest]
  | keySent (hmatched : p.matched = true) (hkey : p.keySent = false) (hopen : p.rejection = none) :
      Step p { p with keySent := true } [.passed p.keyRequest]
  | written (hauthorized : p.authorized = true) (hbaseline : p.baseline = true)
      (hwritten : p.written = false) (hopen : p.rejection = none) :
      Step p { p with written := true } [.passed p.writeRequest]
  | readAsked : Step p { p with readPending := true } [.passed readRequest]
  | unguarded {d : List UInt8} (hread : d ≠ readRequest)
      (h : ¬ (3 ≤ d.length ∧ (d.getD 1 0 = 0x27 ∨ d.getD 1 0 = 0x3b))) : Step p p [.passed d]
  | seedMatched {d : List UInt8} (hd : isSeed d) (hrequested : p.requested = true)
      (hseed : Words.ofBig (value d) = p.seed.toNat) : Step p { p with matched := true } [.seen d]
  | granted {d : List UInt8} (hd : isGrant d) (hkey : p.keySent = true) :
      Step p { p with authorized := true } [.seen d]
  | answered {d : List UInt8} (hd : isBlock d) (hread : p.readPending = true) :
      Step p { p with
        readPending := false
        baseline := p.authorized && value d == [0x99, p.desired ^^^ 0xc0]
        symbolOnly := value d == [0x99, 0]
        desiredReadback := value d == [0x99, p.desired] } [.seen d]
  | acknowledged {d : List UInt8} (hd : isWritten d) : Step p { p with acknowledged := true } [.seen d]
  | rejected {d : List UInt8} (hd : isRejection d) :
      Step p { p with
        rejection := some (d.getD 2 0, d.getD 3 0)
        authorized := false
        baseline := false } [.seen d]
  | heard {d : List UInt8} (hblock : isBlock d = true → p.readPending = false)
      (hd : isRejection d = false) : Step p p [.seen d]

/-- What is let out of the guarded services is one of the three requests of the operation. -/
theorem allows_cases {controller : Nat} {tx : Transmission} (h : p.allows controller tx = true) :
    p.rejection = none ∧
      (tx.frame.data = seedRequest ∧ p.keySent = false ∨
        tx.frame.data = p.keyRequest ∧ p.matched = true ∧ p.keySent = false ∨
        tx.frame.data = p.writeRequest ∧ p.authorized = true ∧ p.baseline = true ∧
          p.written = false) := by
  unfold Policy.allows at h
  split_ifs at h with hshut hseed hkey
  · rw [not_or, Option.not_isSome_iff_eq_none] at hshut
    exact ⟨hshut.1, Or.inl ⟨hseed, by simpa using h⟩⟩
  · rw [not_or, Option.not_isSome_iff_eq_none] at hshut
    exact ⟨hshut.1, Or.inr (Or.inl ⟨hkey, by simpa using h⟩)⟩
  · rw [not_or, Option.not_isSome_iff_eq_none] at hshut
    simp only [Bool.and_eq_true, beq_iff_eq, Bool.not_eq_true'] at h
    exact ⟨hshut.1, Or.inr (Or.inr ⟨h.1.1.1, h.1.1.2, h.1.2, h.2⟩)⟩

theorem before_step (p : Policy) (controller : Nat) (tx : Transmission) :
    Step p (p.step (.before controller tx)) (p.records (.before controller tx)) := by
  unfold Policy.step Policy.records
  dsimp only
  unfold Policy.before
  by_cases hbcm : Policy.bcm controller tx = true
  · rw [if_neg (by simp [hbcm])]
    dsimp only
    by_cases hguard : 3 ≤ tx.frame.data.length ∧
        (tx.frame.data.getD 1 0 = 0x27 ∨ tx.frame.data.getD 1 0 = 0x3b)
    · rw [if_pos hguard]
      cases hallows : p.allows controller tx with
      | false => simpa [hbcm] using Step.same
      | true =>
        obtain ⟨hopen, ⟨hd, hkey⟩ | ⟨hd, hmatched, hkey⟩ | ⟨hd, hauthorized, hbaseline, hwritten⟩⟩ :=
          allows_cases hallows
        · rw [hd, Policy.mark_seedRequest]
          simpa [hbcm] using Step.seedRequested hkey hopen
        · rw [hd, Policy.mark_keyRequest]
          simpa [hbcm] using Step.keySent hmatched hkey hopen
        · rw [hd, Policy.mark_writeRequest]
          simpa [hbcm] using Step.written hauthorized hbaseline hwritten hopen
    · rw [if_neg hguard]
      by_cases hread : tx.frame.data = readRequest
      · rw [hread, Policy.noteRead, if_pos rfl]
        simpa [hbcm] using Step.readAsked
      · rw [Policy.noteRead, if_neg hread]
        simpa [hbcm] using Step.unguarded hread hguard
  · rw [if_pos hbcm]
    simpa [hbcm] using Step.same

/-- An answer of another kind that changes nothing. -/
theorem heard_other {d : List UInt8} {a b : UInt8} (h : d.take 2 = [a, b])
    (hblock : [a, b] ≠ [4, 0x5a]) (hrejection : [a, b] ≠ [3, 0x7f]) : Step p p [.seen d] := by
  refine .heard (fun hd => ?_) (isRejection_false h hrejection)
  rw [isBlock_false h hblock] at hd
  cases hd

theorem observe_step (p : Policy) (controller : Nat) (id : UInt32) (d : List UInt8) :
    Step p (p.step (.observe controller id d)) (p.records (.observe controller id d)) := by
  unfold Policy.step Policy.records
  dsimp only
  unfold Policy.observe
  by_cases hours : controller = 2 ∧ id = 0x642
  · rw [if_pos hours]
    split_ifs with hshort hseed hwrong hgrant hno hblock hwrote hnot hrejected
    · have hlen : d.length < 3 := by
        rcases hshort with h | h | h
        · exact absurd hours.1 h
        · exact absurd hours.2 h
        · exact h
      have hnone := answers_length hlen
      exact .heard (fun h => absurd (hnone.1.symm.trans h) (by decide)) hnone.2
    · exact heard_other (isSeed_head hseed) (by decide) (by decide)
    · rw [not_or, not_not, not_not] at hwrong
      exact .seedMatched hseed hwrong.1 hwrong.2
    · exact .granted hgrant hno
    · exact heard_other (isGrant_head hgrant) (by decide) (by decide)
    · exact .answered hblock.1 hblock.2
    · exact .acknowledged hwrote
    · exact heard_other (isWritten_head hwrote) (by decide) (by decide)
    · exact .rejected hrejected
    · refine .heard (fun h => ?_) (by simpa using hrejected)
      rw [not_and] at hblock
      simpa using hblock h
  · rw [if_neg hours, if_pos]
    · exact Step.same
    · tauto

/-! ## The exchange that a write needs -/

/-- A read has gone out and has not been answered. -/
def awaits (waiting : Bool) : Record → Bool
  | .passed d => waiting || d == readRequest
  | .seen d => waiting && !isBlock d

def awaiting (history : List Record) : Bool := history.foldl awaits false

def IsAnswer (before : List Record) (d : List UInt8) : Prop := awaiting before = true ∧ isBlock d

/-- Seed request, seed, key and grant. -/
def exchange (p : Policy) : List (Record → Prop) :=
  [(· = .passed seedRequest),
    fun r => ∃ d, r = .seen d ∧ isSeed d ∧ Words.ofBig (value d) = p.seed.toNat,
    (· = .passed p.keyRequest),
    fun r => ∃ d, r = .seen d ∧ isGrant d]

/-- After the whole exchange, a read has been answered with the value that the write replaces, and no
later one with another. -/
def Established (p : Policy) (before : List Record) : Prop :=
  ∃ pre d post, before = pre ++ .seen d :: post ∧ Runs.InOrder (exchange p) pre ∧ IsAnswer pre d ∧
    value d = [0x99, p.desired ^^^ 0xc0] ∧
    Runs.Justified (fun mid r => ∀ d', r = .seen d' → ¬ IsAnswer (pre ++ .seen d :: mid) d') post

/-- What each flag of the policy stands for. -/
structure Tracks (q p : Policy) (history : List Record) : Prop where
  fixed : p.desired = q.desired ∧ p.seed = q.seed ∧ p.key = q.key
  requested : p.requested = true → Runs.InOrder ((exchange q).take 1) history
  matched : p.matched = true → Runs.InOrder ((exchange q).take 2) history
  keySent : p.keySent = true → Runs.InOrder ((exchange q).take 3) history
  authorized : p.authorized = true → Runs.InOrder (exchange q) history
  readPending : p.readPending = awaiting history
  baseline : p.baseline = true → Established q history
  keyOnce : history.count (.passed q.keyRequest) = p.keySent.toNat
  writeOnce : history.count (.passed q.writeRequest) = p.written.toNat
  rejection : p.rejection = none → ∀ d, .seen d ∈ history → isRejection d = false
  service : ∀ d, .passed d ∈ history → d.getD 1 0 = 0x3b → d = q.writeRequest ∨ d.length < 3
  write : Runs.Justified (fun before r => r = .passed q.writeRequest →
    Established q before ∧ before.count (.passed q.keyRequest) = 1) history
  final : Runs.Justified (fun before r =>
    r = .passed seedRequest ∨ r = .passed q.keyRequest ∨ r = .passed q.writeRequest →
      ∀ d, .seen d ∈ before → isRejection d = false) history

theorem awaiting_snoc (history : List Record) (r : Record) :
    awaiting (history ++ [r]) = awaits (awaiting history) r := by
  rw [awaiting, List.foldl_append]
  rfl

/-- What is established stays so for as long as no read is answered again. -/
theorem Established.snoc {history : List Record} (h : Established p history) {r : Record}
    (hr : ∀ d, r = .seen d → ¬ IsAnswer history d) : Established p (history ++ [r]) := by
  obtain ⟨pre, d, post, rfl, horder, hanswer, hvalue, hlast⟩ := h
  exact ⟨pre, d, post ++ [r], by simp, horder, hanswer, hvalue, hlast.snoc hr⟩

/-- The read is answered after the whole exchange. -/
theorem established_now {history : List Record} {d : List UInt8}
    (h : Runs.InOrder (exchange p) history) (hd : IsAnswer history d)
    (hvalue : value d = [0x99, p.desired ^^^ 0xc0]) : Established p (history ++ [.seen d]) :=
  ⟨history, d, [], rfl, h, hd, hvalue, .nil⟩

/-- What a step does to the flags, by the frame that it is about. -/
structure Explains (p p' : Policy) (r : Record) : Prop where
  fixed : p'.desired = p.desired ∧ p'.seed = p.seed ∧ p'.key = p.key
  requested : p'.requested = true → p.requested = true ∨ r = .passed seedRequest
  matched : p'.matched = true → p.matched = true ∨
    p.requested = true ∧ ∃ d, r = .seen d ∧ isSeed d ∧ Words.ofBig (value d) = p.seed.toNat
  keySent : p'.keySent = true → p.keySent = true ∨ p.matched = true ∧ r = .passed p.keyRequest
  authorized : p'.authorized = true → p.authorized = true ∨
    p.keySent = true ∧ ∃ d, r = .seen d ∧ isGrant d
  readPending : p'.readPending = awaits p.readPending r
  baseline : p'.baseline = true →
    p.baseline = true ∧ (∀ d, r = .seen d → p.readPending = true → isBlock d = false) ∨
    p.authorized = true ∧ ∃ d, r = .seen d ∧ p.readPending = true ∧ isBlock d ∧
      value d = [0x99, p.desired ^^^ 0xc0]
  key : p'.keySent.toNat = p.keySent.toNat + if r = .passed p.keyRequest then 1 else 0
  write : p'.written.toNat = p.written.toNat + if r = .passed p.writeRequest then 1 else 0
  rejection : p'.rejection = none → p.rejection = none ∧ ∀ d, r = .seen d → isRejection d = false
  service : ∀ d, r = .passed d → d.getD 1 0 = 0x3b → d = p.writeRequest ∨ d.length < 3
  justified : r = .passed p.writeRequest → p.authorized = true ∧ p.baseline = true
  final : r = .passed seedRequest ∨ r = .passed p.keyRequest ∨ r = .passed p.writeRequest →
    p.rejection = none

theorem Tracks.snoc {q : Policy} {history : List Record} {r : Record} (h : Tracks q p history)
    (he : Explains p p' r) : Tracks q p' (history ++ [r]) := by
  obtain ⟨hdesired, hseed, hkey⟩ := h.fixed
  have hkeyRequest : p.keyRequest = q.keyRequest := by rw [Policy.keyRequest, hkey]; rfl
  have hwriteRequest : p.writeRequest = q.writeRequest := by rw [Policy.writeRequest, hdesired]; rfl
  have hanswer : ∀ d, IsAnswer history d ↔ p.readPending = true ∧ isBlock d := by
    intro d
    rw [IsAnswer, h.readPending]
  constructor
  · rw [he.fixed.1, he.fixed.2.1, he.fixed.2.2]
    exact h.fixed
  · intro hr
    rcases he.requested hr with hr | hr
    · exact (h.requested hr).append _
    · exact @Runs.InOrder.snoc _ [] _ history r trivial hr
  · intro hm
    rcases he.matched hm with hm | ⟨hr, hd⟩
    · exact (h.matched hm).append _
    · rw [hseed] at hd
      exact (h.requested hr).snoc hd
  · intro hk
    rcases he.keySent hk with hk | ⟨hm, hr⟩
    · exact (h.keySent hk).append _
    · rw [hkeyRequest] at hr
      exact (h.matched hm).snoc hr
  · intro ha
    rcases he.authorized ha with ha | ⟨hk, hd⟩
    · exact (h.authorized ha).append _
    · exact (h.keySent hk).snoc hd
  · rw [he.readPending, h.readPending, awaiting_snoc]
  · intro hb
    rcases he.baseline hb with ⟨hb, hquiet⟩ | ⟨ha, d, rfl, hwait, hblock, hvalue⟩
    · refine (h.baseline hb).snoc fun d hd => ?_
      rw [hanswer]
      rintro ⟨hwait, hblock⟩
      rw [hquiet d hd hwait] at hblock
      cases hblock
    · rw [hdesired] at hvalue
      exact established_now (h.authorized ha) ((hanswer d).mpr ⟨hwait, hblock⟩) hvalue
  · have hcount := he.key
    rw [hkeyRequest] at hcount
    rw [List.count_append, h.keyOnce, List.count_singleton, hcount]
    simp only [beq_iff_eq]
  · have hcount := he.write
    rw [hwriteRequest] at hcount
    rw [List.count_append, h.writeOnce, List.count_singleton, hcount]
    simp only [beq_iff_eq]
  · intro hnone d hd
    obtain ⟨hbefore, hnew⟩ := he.rejection hnone
    rcases List.mem_append.mp hd with hd | hd
    · exact h.rejection hbefore d hd
    · exact hnew d (List.mem_singleton.mp hd).symm
  · intro d hd hservice
    rcases List.mem_append.mp hd with hd | hd
    · exact h.service d hd hservice
    · exact hwriteRequest ▸ he.service d (List.mem_singleton.mp hd).symm hservice
  · refine h.write.snoc fun hr => ?_
    obtain ⟨hauthorized, hbaseline⟩ := he.justified (hwriteRequest ▸ hr)
    refine ⟨h.baseline hbaseline, ?_⟩
    obtain ⟨r', hr', rfl⟩ :=
      (h.authorized hauthorized).mem (· = .passed q.keyRequest) (by simp [exchange])
    have hpos := List.count_pos_iff.mpr hr'
    have hle := Bool.toNat_le p.keySent
    have hcount := h.keyOnce
    omega
  · refine h.final.snoc fun hr => h.rejection (he.final ?_)
    rw [hkeyRequest, hwriteRequest]
    exact hr

/-- The three requests are the guarded ones. -/
def Guarded (d : List UInt8) : Prop := 3 ≤ d.length ∧ (d.getD 1 0 = 0x27 ∨ d.getD 1 0 = 0x3b)

theorem guarded_requests (p : Policy) :
    Guarded seedRequest ∧ Guarded p.keyRequest ∧ Guarded p.writeRequest := by
  simp [Guarded, seedRequest, Policy.keyRequest, Policy.writeRequest]

theorem unguarded_ne {d : List UInt8} (h : ¬ Guarded d) :
    d ≠ seedRequest ∧ d ≠ p.keyRequest ∧ d ≠ p.writeRequest := by
  obtain ⟨hseed, hkey, hwrite⟩ := guarded_requests p
  refine ⟨?_, ?_, ?_⟩
  · rintro rfl
    exact h hseed
  · rintro rfl
    exact h hkey
  · rintro rfl
    exact h hwrite

theorem seedRequest_ne (p : Policy) : seedRequest ≠ p.keyRequest ∧ seedRequest ≠ p.writeRequest ∧
    seedRequest ≠ readRequest := by
  simp [seedRequest, Policy.keyRequest, Policy.writeRequest, readRequest]

theorem keyRequest_ne (p : Policy) : p.keyRequest ≠ p.writeRequest ∧ p.keyRequest ≠ readRequest ∧
    p.writeRequest ≠ readRequest := by
  simp [Policy.keyRequest, Policy.writeRequest, readRequest]

end OpenSaab.Seatbelt
