import OpenSaab.Candi.Writes
import OpenSaab.Library.Bits
import Mathlib.Data.List.Nodup
import Mathlib.Data.List.Perm.Subperm

/-!
# Transmission tickets

Every answer of the backend is attributed to the transmission that it is about, however late it
comes.
-/

namespace OpenSaab.Candi.Controller

open Runs Can Bits

variable {c c' : Controller}

/-! ## What a write does to the tickets -/

/-- A write leaves the transmission alone, requests one, or drops the one that is pending. -/
inductive Moved (c c' : Controller) : Prop where
  | same (hnext : c'.nextTicket = c.nextTicket) (hpending : c'.pending = c.pending)
      (hdispatched : c'.dispatched = c.dispatched) (hcancelled : c'.cancelled = c.cancelled)
  | requested (tx : Transmission) (hnone : c.pending = none) (hticket : tx.ticket = c.nextTicket)
      (hmax : c.nextTicket ≠ 0xffffffffffffffff) (hnext : c'.nextTicket = c.nextTicket + 1)
      (hpending : c'.pending = some tx) (hdispatched : c'.dispatched = false)
      (hcancelled : c'.cancelled = c.cancelled)
  | dropped (hnext : c'.nextTicket = c.nextTicket) (hpending : c'.pending = none)
      (hdispatched : c'.dispatched = false)
      (hcancelled : c'.cancelled = c.cancelPending.2.cancelled)

theorem Moved.refl (c : Controller) : Moved c c := .same rfl rfl rfl rfl

/-- What comes after the transmission part of a command leaves it alone. -/
theorem Moved.trans_same {c'' : Controller} (h : Moved c c')
    (hnext : c''.nextTicket = c'.nextTicket)
    (hpending : c''.pending = c'.pending) (hdispatched : c''.dispatched = c'.dispatched)
    (hcancelled : c''.cancelled = c'.cancelled) : Moved c c'' := by
  cases h with
  | same h₁ h₂ h₃ h₄ =>
    exact .same (hnext.trans h₁) (hpending.trans h₂) (hdispatched.trans h₃) (hcancelled.trans h₄)
  | requested tx hnone hticket hmax h₁ h₂ h₃ h₄ =>
    exact .requested tx hnone hticket hmax (hnext.trans h₁) (hpending.trans h₂)
      (hdispatched.trans h₃) (hcancelled.trans h₄)
  | dropped h₁ h₂ h₃ h₄ =>
    exact .dropped (hnext.trans h₁) (hpending.trans h₂) (hdispatched.trans h₃)
      (hcancelled.trans h₄)

theorem request_moved (h : c.request = .ok c') : Moved c c' := by
  unfold request at h
  split at h
  · cases h
  split at h
  · cases h
  · next hmode =>
    split at h
    · cases h
    · split at h
      · cases h
      · next hmax =>
        cases h
        simp only [not_or] at hmode
        exact .requested _ (Option.not_isSome_iff_eq_none.mp hmode.2.2.2) rfl hmax rfl rfl rfl rfl

theorem abort_moved (c : Controller) : Moved c c.abort := by
  unfold abort
  dsimp only
  split
  · exact .dropped rfl rfl rfl rfl
  · exact .dropped rfl rfl rfl rfl

theorem release_moved (h : Moved c c') : Moved c c'.release := by
  unfold release
  dsimp only
  cases c'.rx with
  | nil =>
    dsimp only
    split
    · exact h.trans_same rfl rfl rfl rfl
    · exact h
  | cons frame rest =>
    dsimp only
    split
    · exact h.trans_same rfl rfl rfl rfl
    · exact h.trans_same rfl rfl rfl rfl

theorem both_bits : ∀ b : UInt8, b &&& 1 ≠ 0 → b &&& 2 ≠ 0 → b &&& 3 = 3 :=
  forall_byte (by decide +kernel)

theorem command_moved {value : UInt8} (h : c.command value = .ok c') : Moved c c' := by
  unfold command at h
  split at h
  · cases h
  split at h
  · cases h
  split at h
  · cases h
  · next hsingle =>
    split at h
    · cases h
    · next c₁ hfirst =>
      have h₂ : Moved c (if value &&& 2 ≠ 0 then c₁.abort else c₁) := by
        split at hfirst
        · next hrequest =>
          have hno : ¬ value &&& 2 ≠ 0 := fun habort => hsingle (both_bits value hrequest habort)
          rw [if_neg hno]
          exact request_moved hfirst
        · cases hfirst
          split
          · exact abort_moved c
          · exact .refl c
      dsimp only at h
      generalize (if value &&& 2 ≠ 0 then c₁.abort else c₁) = c₂ at h h₂
      have h₃ : Moved c (if value &&& 4 ≠ 0 then c₂.release else c₂) := by
        split
        · exact release_moved h₂
        · exact h₂
      generalize (if value &&& 4 ≠ 0 then c₂.release else c₂) = c₃ at h h₃
      cases h
      split
      · exact h₃.trans_same rfl rfl rfl rfl
      · exact h₃

theorem writeMode_moved (c : Controller) (value : UInt8) : Moved c (c.writeMode value) := by
  unfold writeMode
  dsimp only
  split
  · exact .dropped rfl rfl rfl rfl
  · split <;> exact .same rfl rfl rfl rfl

theorem written_moved (c : Controller) (offset value : UInt8) :
    Moved c (c.written offset value) := by
  have hwritten := write_cases c offset value
  generalize c.written offset value = c' at hwritten
  cases hwritten with
  | mode value => exact writeMode_moved c value
  | command h => exact command_moved h
  | _ => exact .same rfl rfl rfl rfl

/-! ## What a run knows of its tickets -/

/-- The ticket that a step hands to the backend. -/
def handed (c : Controller) : Op → List UInt64
  | .takeTransmission => (c.takeTransmission.1.map (·.ticket)).toList
  | _ => []

/-- The dispatched ticket that a write takes away. -/
def dropped (c : Controller) : Op → List UInt64
  | .write offset value =>
    if c.dispatched ∧ (c.written offset value).pending = none then
      (c.pending.map (·.ticket)).toList
    else []
  | _ => []

/-- The ticket that a completion has marked as sent. -/
def sent (c : Controller) : Op → List UInt64
  | .complete ticket => if (c.complete ticket).1 = .ok true then [ticket] else []
  | _ => []

/-- The ticket whose completion came too late. -/
def late (c : Controller) : Op → List UInt64
  | .complete ticket => if (c.complete ticket).1 = .ok false then [ticket] else []
  | _ => []

/-- The tickets of a run, and what the controller still knows of them. -/
structure Attributed (handed dropped sent late : List UInt64) (c : Controller) : Prop where
  order : handed.Pairwise (· < ·)
  below : ∀ t ∈ handed, t < c.nextTicket
  fresh : ∀ tx, c.pending = some tx → tx.ticket < c.nextTicket
  waiting : ∀ tx, c.pending = some tx → c.dispatched = false → ∀ t ∈ handed, t < tx.ticket
  newest : ∀ tx, c.pending = some tx → c.dispatched = true →
    tx.ticket ∈ handed ∧ ∀ t ∈ handed, t ≤ tx.ticket
  live : ∀ t, t ∈ handed ∧ t ∉ dropped ∧ t ∉ sent ↔
    c.dispatched = true ∧ ∃ tx, c.pending = some tx ∧ tx.ticket = t
  dropOrder : dropped.Pairwise (· < ·)
  dropHanded : ∀ t ∈ dropped, t ∈ handed
  sentOnce : sent.Nodup
  sentHanded : ∀ t ∈ sent, t ∈ handed ∧ t ∉ dropped
  lateOnce : late.Nodup
  lateDropped : ∀ t ∈ late, t ∈ dropped
  kept : c.cancelled.Sublist dropped
  unanswered : ∀ t ∈ c.cancelled, t ∉ late
  bounded : c.cancelled.length ≤ 64
  recent : ∀ before t after, dropped = before ++ t :: after → after.length < 64 → t ∉ late →
    t ∈ c.cancelled

theorem attributed_default : Attributed [] [] [] [] default := by
  refine ⟨.nil, ?_, ?_, ?_, ?_, ?_, .nil, ?_, .nil, ?_, .nil, ?_, .slnil, ?_, ?_, ?_⟩ <;>
    simp [default]

variable {h d s l : List UInt64}

/-- Nothing but the tickets matters. -/
theorem Attributed.congr (ha : Attributed h d s l c) (hnext : c'.nextTicket = c.nextTicket)
    (hpending : c'.pending = c.pending) (hdispatched : c'.dispatched = c.dispatched)
    (hcancelled : c'.cancelled = c.cancelled) : Attributed h d s l c' := by
  obtain ⟨order, below, fresh, waiting, newest, live, dropOrder, dropHanded, sentOnce, sentHanded,
    lateOnce, lateDropped, kept, unanswered, bounded, recent⟩ := ha
  refine ⟨order, ?_, ?_, ?_, ?_, ?_, dropOrder, dropHanded, sentOnce, sentHanded, lateOnce,
    lateDropped, ?_, ?_, ?_, ?_⟩ <;> simpa only [hnext, hpending, hdispatched, hcancelled]

theorem ticket_lt_next {n : UInt64} (hmax : n ≠ 0xffffffffffffffff) : n < n + 1 := by
  have hlt := n.toNat_lt
  have hne : n.toNat ≠ 2 ^ 64 - 1 := fun heq => hmax (UInt64.toNat_inj.mp heq)
  rw [UInt64.lt_iff_toNat_lt, UInt64.toNat_add]
  change n.toNat < (n.toNat + 1) % 2 ^ 64
  omega

/-- A new request waits for the backend under a ticket of its own. -/
theorem Attributed.request (ha : Attributed h d s l c) {tx : Transmission}
    (hnone : c.pending = none)
    (hticket : tx.ticket = c.nextTicket) (hmax : c.nextTicket ≠ 0xffffffffffffffff)
    (hnext : c'.nextTicket = c.nextTicket + 1) (hpending : c'.pending = some tx)
    (hdispatched : c'.dispatched = false) (hcancelled : c'.cancelled = c.cancelled) :
    Attributed h d s l c' where
  order := ha.order
  below t ht := by
    rw [hnext]
    exact UInt64.lt_trans (ha.below t ht) (ticket_lt_next hmax)
  fresh tx' htx' := by
    obtain rfl : tx = tx' := Option.some.inj (hpending.symm.trans htx')
    rw [hnext, hticket]
    exact ticket_lt_next hmax
  waiting tx' htx' _ t ht := by
    obtain rfl : tx = tx' := Option.some.inj (hpending.symm.trans htx')
    rw [hticket]
    exact ha.below t ht
  newest tx' htx' hyes := absurd (hyes.symm.trans hdispatched) (by decide)
  live t := by
    rw [ha.live t, hnone, hdispatched]
    simp
  dropOrder := ha.dropOrder
  dropHanded := ha.dropHanded
  sentOnce := ha.sentOnce
  sentHanded := ha.sentHanded
  lateOnce := ha.lateOnce
  lateDropped := ha.lateDropped
  kept := hcancelled ▸ ha.kept
  unanswered := hcancelled ▸ ha.unanswered
  bounded := hcancelled ▸ ha.bounded
  recent := hcancelled ▸ ha.recent

/-- What was not dispatched is dropped without a trace. -/
theorem Attributed.forget (ha : Attributed h d s l c)
    (hidle : c.dispatched = true → c.pending = none) (hnext : c'.nextTicket = c.nextTicket)
    (hpending : c'.pending = none) (hcancelled : c'.cancelled = c.cancelled) :
    Attributed h d s l c' where
  order := ha.order
  below := hnext ▸ ha.below
  fresh tx htx := absurd (hpending.symm.trans htx) (by simp)
  waiting tx htx := absurd (hpending.symm.trans htx) (by simp)
  newest tx htx := absurd (hpending.symm.trans htx) (by simp)
  live t := by
    rw [ha.live t, hpending]
    constructor
    · rintro ⟨hyes, tx, htx, -⟩
      exact absurd ((hidle hyes).symm.trans htx) (by simp)
    · rintro ⟨-, tx, htx, -⟩
      cases htx
  dropOrder := ha.dropOrder
  dropHanded := ha.dropHanded
  sentOnce := ha.sentOnce
  sentHanded := ha.sentHanded
  lateOnce := ha.lateOnce
  lateDropped := ha.lateDropped
  kept := hcancelled ▸ ha.kept
  unanswered := hcancelled ▸ ha.unanswered
  bounded := hcancelled ▸ ha.bounded
  recent := hcancelled ▸ ha.recent

/-- A pending transmission is handed to the backend. -/
theorem Attributed.hand (ha : Attributed h d s l c) {tx : Transmission}
    (hpending : c.pending = some tx) (hdispatched : c.dispatched = false) :
    Attributed (h ++ [tx.ticket]) d s l { c with dispatched := true } where
  order := by
    refine List.pairwise_append.mpr ⟨ha.order, List.pairwise_singleton _ _, fun t ht t' ht' => ?_⟩
    rw [List.mem_singleton.mp ht']
    exact ha.waiting tx hpending hdispatched t ht
  below t ht := by
    rcases List.mem_append.mp ht with hold | hnew
    · exact ha.below t hold
    · rw [List.mem_singleton.mp hnew]
      exact ha.fresh tx hpending
  fresh := ha.fresh
  waiting tx' _ hno := absurd hno (by simp)
  newest tx' htx' _ := by
    obtain rfl : tx = tx' := Option.some.inj (hpending.symm.trans htx')
    refine ⟨by simp, fun t ht => ?_⟩
    rcases List.mem_append.mp ht with hold | hnew
    · exact UInt64.le_of_lt (ha.waiting tx hpending hdispatched t hold)
    · exact UInt64.le_of_eq (List.mem_singleton.mp hnew)
  live t := by
    have hnot : tx.ticket ∉ h := fun hmem =>
      UInt64.lt_irrefl _ (ha.waiting tx hpending hdispatched _ hmem)
    constructor
    · rintro ⟨ht, hdrop, hsent⟩
      rcases List.mem_append.mp ht with hold | hnew
      · exact absurd (((ha.live t).mp ⟨hold, hdrop, hsent⟩).1.symm.trans hdispatched) (by decide)
      · exact ⟨rfl, tx, hpending, (List.mem_singleton.mp hnew).symm⟩
    · rintro ⟨-, tx', htx', rfl⟩
      obtain rfl : tx = tx' := Option.some.inj (hpending.symm.trans htx')
      exact ⟨by simp, fun hdrop => hnot (ha.dropHanded _ hdrop),
        fun hsent => hnot (ha.sentHanded _ hsent).1⟩
  dropOrder := ha.dropOrder
  dropHanded t ht := List.mem_append_left _ (ha.dropHanded t ht)
  sentOnce := ha.sentOnce
  sentHanded t ht := ⟨List.mem_append_left _ (ha.sentHanded t ht).1, (ha.sentHanded t ht).2⟩
  lateOnce := ha.lateOnce
  lateDropped := ha.lateDropped
  kept := ha.kept
  unanswered := ha.unanswered
  bounded := ha.bounded
  recent := ha.recent

theorem nodup_of_increasing {tickets : List UInt64} (horder : tickets.Pairwise (· < ·)) :
    tickets.Nodup := by
  refine horder.imp fun {a b} hlt => ?_
  rintro rfl
  exact UInt64.lt_irrefl _ hlt

theorem Attributed.cancelled_nodup (ha : Attributed h d s l c) : c.cancelled.Nodup :=
  nodup_of_increasing (ha.dropOrder.sublist ha.kept)

/-- Only what 64 later tickets have followed is no longer retained. -/
theorem mem_retain {dropped tickets before after : List UInt64} {t new : UInt64}
    (hsub : tickets.Sublist dropped) (horder : dropped.Pairwise (· < ·)) (ht : t ∈ tickets)
    (hsplit : dropped = before ++ t :: after) (hfew : after.length < 63) :
    t ∈ retain tickets new := by
  unfold retain
  refine List.mem_append_left _ ?_
  split
  · next hfull =>
    cases tickets with
    | nil => cases ht
    | cons first rest =>
      rcases List.mem_cons.mp ht with rfl | hrest
      · -- the 63 tickets behind the first one all come after it
        exfalso
        have hpair := horder.sublist hsub
        rw [List.pairwise_cons] at hpair
        have hafter : rest ⊆ after := by
          intro r hr
          have hr' : r ∈ dropped := hsub.subset (List.mem_cons_of_mem _ hr)
          have hlt := hpair.1 r hr
          rw [hsplit] at hr' horder
          rcases List.mem_append.mp hr' with hbefore | hmem
          · have hgt := (List.pairwise_append.mp horder).2.2 r hbefore t List.mem_cons_self
            exact absurd (UInt64.lt_trans hlt hgt) (UInt64.lt_irrefl _)
          · rcases List.mem_cons.mp hmem with rfl | hmem
            · exact absurd hlt (UInt64.lt_irrefl _)
            · exact hmem
        have hle := (List.subperm_of_subset (nodup_of_increasing hpair.2) hafter).length_le
        simp only [List.length_cons] at hfull
        omega
      · exact hrest
  · exact ht

theorem retain_sublist {dropped tickets : List UInt64} (hsub : tickets.Sublist dropped)
    (new : UInt64) : (retain tickets new).Sublist (dropped ++ [new]) := by
  unfold retain
  refine List.Sublist.append ?_ (List.Sublist.refl _)
  split
  · exact (List.tail_sublist tickets).trans hsub
  · exact hsub

theorem retain_length {tickets : List UInt64} (hbound : tickets.length ≤ 64) (new : UInt64) :
    (retain tickets new).length ≤ 64 := by
  unfold retain
  rw [List.length_append, List.length_singleton]
  split
  · rw [List.length_tail]
    omega
  · omega

/-- A dispatched transmission is dropped, and its ticket retained. -/
theorem Attributed.drop (ha : Attributed h d s l c) {tx : Transmission}
    (hpending : c.pending = some tx) (hdispatched : c.dispatched = true)
    (hnext : c'.nextTicket = c.nextTicket) (hpending' : c'.pending = none)
    (hcancelled : c'.cancelled = retain c.cancelled tx.ticket) :
    Attributed h (d ++ [tx.ticket]) s l c' := by
  obtain ⟨hhanded, hdrop, hsent⟩ := (ha.live tx.ticket).mpr ⟨hdispatched, tx, hpending, rfl⟩
  have hlate : tx.ticket ∉ l := fun hmem => hdrop (ha.lateDropped _ hmem)
  exact {
    order := ha.order
    below := hnext ▸ ha.below
    fresh := fun tx' htx' => absurd (hpending'.symm.trans htx') (by simp)
    waiting := fun tx' htx' => absurd (hpending'.symm.trans htx') (by simp)
    newest := fun tx' htx' => absurd (hpending'.symm.trans htx') (by simp)
    live := by
      intro t
      constructor
      · rintro ⟨ht, hnot, hnot'⟩
        rw [List.mem_append, List.mem_singleton, not_or] at hnot
        obtain ⟨-, tx', htx', rfl⟩ := (ha.live t).mp ⟨ht, hnot.1, hnot'⟩
        obtain rfl : tx = tx' := Option.some.inj (hpending.symm.trans htx')
        exact absurd rfl hnot.2
      · rintro ⟨-, tx', htx', -⟩
        exact absurd (hpending'.symm.trans htx') (by simp)
    dropOrder := by
      refine List.pairwise_append.mpr
        ⟨ha.dropOrder, List.pairwise_singleton _ _, fun t ht t' ht' => ?_⟩
      rw [List.mem_singleton.mp ht']
      refine UInt64.lt_of_le_of_ne ((ha.newest tx hpending hdispatched).2 t (ha.dropHanded t ht)) ?_
      rintro rfl
      exact hdrop ht
    dropHanded := by
      intro t ht
      rcases List.mem_append.mp ht with hold | hnew
      · exact ha.dropHanded t hold
      · exact List.mem_singleton.mp hnew ▸ hhanded
    sentOnce := ha.sentOnce
    sentHanded := by
      intro t ht
      obtain ⟨hmem, hnot⟩ := ha.sentHanded t ht
      rw [List.mem_append, List.mem_singleton, not_or]
      refine ⟨hmem, hnot, ?_⟩
      rintro rfl
      exact hsent ht
    lateOnce := ha.lateOnce
    lateDropped := fun t ht => List.mem_append_left _ (ha.lateDropped t ht)
    kept := hcancelled ▸ retain_sublist ha.kept _
    unanswered := by
      intro t ht
      rw [hcancelled] at ht
      rcases List.mem_append.mp ht with hold | hnew
      · refine ha.unanswered t ?_
        split at hold
        · exact List.mem_of_mem_tail hold
        · exact hold
      · exact List.mem_singleton.mp hnew ▸ hlate
    bounded := hcancelled ▸ retain_length ha.bounded _
    recent := by
      intro before t after hsplit hfew hnot
      rw [hcancelled]
      rcases List.eq_nil_or_concat after with rfl | ⟨after', last, rfl⟩
      · have hlast := List.singleton_inj.mp (List.append_inj' hsplit rfl).2
        exact List.mem_append_right _ (List.mem_singleton.mpr hlast.symm)
      · rw [List.concat_eq_append] at hsplit hfew
        have hsplit' : d = before ++ t :: after' := by
          have hall : d ++ [tx.ticket] = (before ++ t :: after') ++ [last] := by simpa using hsplit
          exact (List.append_inj' hall rfl).1
        rw [List.length_append, List.length_singleton] at hfew
        exact mem_retain ha.kept ha.dropOrder (ha.recent before t after' hsplit' (by omega) hnot)
          hsplit' (by omega) }

/-- A late completion uses a retained ticket up. -/
theorem Attributed.late (ha : Attributed h d s l c) {t : UInt64} (ht : t ∈ c.cancelled) :
    Attributed h d s (l ++ [t]) { c with cancelled := c.cancelled.erase t } where
  order := ha.order
  below := ha.below
  fresh := ha.fresh
  waiting := ha.waiting
  newest := ha.newest
  live := ha.live
  dropOrder := ha.dropOrder
  dropHanded := ha.dropHanded
  sentOnce := ha.sentOnce
  sentHanded := ha.sentHanded
  lateOnce := by
    refine List.nodup_append.mpr ⟨ha.lateOnce, List.nodup_singleton t, fun r hr r' hr' heq => ?_⟩
    rw [List.mem_singleton.mp hr'] at heq
    exact ha.unanswered t ht (heq ▸ hr)
  lateDropped r hr := by
    rcases List.mem_append.mp hr with hold | hnew
    · exact ha.lateDropped r hold
    · exact List.mem_singleton.mp hnew ▸ ha.kept.subset ht
  kept := List.erase_sublist.trans ha.kept
  unanswered r hr := by
    obtain ⟨hne, hmem⟩ := (List.Nodup.mem_erase_iff ha.cancelled_nodup).mp hr
    rw [List.mem_append, List.mem_singleton, not_or]
    exact ⟨ha.unanswered r hmem, hne⟩
  bounded := Nat.le_trans List.erase_sublist.length_le ha.bounded
  recent before r after hsplit hfew hnot := by
    rw [List.mem_append, List.mem_singleton, not_or] at hnot
    exact (List.mem_erase_of_ne hnot.2).mpr (ha.recent before r after hsplit hfew hnot.1)

/-- A completion in time sends the transmission. -/
theorem Attributed.send (ha : Attributed h d s l c) {tx : Transmission}
    (hpending : c.pending = some tx) (hdispatched : c.dispatched = true)
    (hnext : c'.nextTicket = c.nextTicket) (hpending' : c'.pending = none)
    (hcancelled : c'.cancelled = c.cancelled) : Attributed h d (s ++ [tx.ticket]) l c' := by
  obtain ⟨hhanded, hdrop, hsent⟩ := (ha.live tx.ticket).mpr ⟨hdispatched, tx, hpending, rfl⟩
  exact {
    order := ha.order
    below := hnext ▸ ha.below
    fresh := fun tx' htx' => absurd (hpending'.symm.trans htx') (by simp)
    waiting := fun tx' htx' => absurd (hpending'.symm.trans htx') (by simp)
    newest := fun tx' htx' => absurd (hpending'.symm.trans htx') (by simp)
    live := by
      intro t
      constructor
      · rintro ⟨ht, hnot, hnot'⟩
        rw [List.mem_append, List.mem_singleton, not_or] at hnot'
        obtain ⟨-, tx', htx', rfl⟩ := (ha.live t).mp ⟨ht, hnot, hnot'.1⟩
        obtain rfl : tx = tx' := Option.some.inj (hpending.symm.trans htx')
        exact absurd rfl hnot'.2
      · rintro ⟨-, tx', htx', -⟩
        exact absurd (hpending'.symm.trans htx') (by simp)
    dropOrder := ha.dropOrder
    dropHanded := ha.dropHanded
    sentOnce := by
      refine List.nodup_append.mpr
        ⟨ha.sentOnce, List.nodup_singleton _, fun r hr r' hr' heq => ?_⟩
      rw [List.mem_singleton.mp hr'] at heq
      exact hsent (heq ▸ hr)
    sentHanded := by
      intro t ht
      rcases List.mem_append.mp ht with hold | hnew
      · exact ha.sentHanded t hold
      · rw [List.mem_singleton.mp hnew]
        exact ⟨hhanded, hdrop⟩
    lateOnce := ha.lateOnce
    lateDropped := ha.lateDropped
    kept := hcancelled ▸ ha.kept
    unanswered := hcancelled ▸ ha.unanswered
    bounded := hcancelled ▸ ha.bounded
    recent := hcancelled ▸ ha.recent }

/-! ## Steps and runs -/

/-- What `complete` answers, and what it changes. -/
inductive Completed (c : Controller) (t : UInt64) : Except String Bool × Controller → Prop where
  | late (h : t ∈ c.cancelled) : Completed c t (.ok false, { c with cancelled := c.cancelled.erase t })
  | stale (h : t ∉ c.cancelled)
      (hother : ¬ (c.dispatched = true ∧ ∃ tx, c.pending = some tx ∧ tx.ticket = t)) :
      Completed c t (.error "Stale CAN transmission completion", c)
  | sent {tx : Transmission} (h : t ∉ c.cancelled) (hdispatched : c.dispatched = true)
      (hpending : c.pending = some tx) (hticket : tx.ticket = t) :
      Completed c t
        (.ok true,
          { c with
            pending := none
            registers := (c.registers.set 2 (c.register 2 &&& ~~~0x20 ||| 0x0c) (by decide)).set 3
              (c.register 3 ||| c.register 4 &&& 2) (by decide) })

theorem complete_cases (c : Controller) (t : UInt64) : Completed c t (c.complete t) := by
  unfold complete
  split
  · next hmem => exact .late hmem
  · next hmem =>
    split
    · next hother =>
      refine .stale hmem ?_
      rintro ⟨hdispatched, tx, hpending, rfl⟩
      simp [hdispatched, hpending] at hother
    · next hsame =>
      simp only [not_or, not_not] at hsame
      obtain ⟨hdispatched, hany⟩ := hsame
      cases hpending : c.pending with
      | none => simp [hpending] at hany
      | some tx => exact .sent hmem hdispatched hpending (by simpa [hpending] using hany)

theorem attributed_step (ha : Attributed h d s l c) (op : Op) :
    Attributed (h ++ c.handed op) (d ++ c.dropped op) (s ++ c.sent op) (l ++ c.late op)
      (c.step op) := by
  cases op with
  | read offset =>
    simp only [handed, dropped, sent, late, List.append_nil]
    refine ha.congr ?_ ?_ ?_ ?_ <;> unfold step read readInterrupts <;> grind
  | enableTransport =>
    simp only [handed, dropped, sent, late, List.append_nil]
    exact ha.congr rfl rfl rfl rfl
  | setElectrical state =>
    simp only [handed, dropped, sent, late, List.append_nil]
    exact ha.congr rfl rfl rfl rfl
  | receive f =>
    simp only [handed, dropped, sent, late, List.append_nil]
    refine ha.congr ?_ ?_ ?_ ?_ <;> unfold step receive overrun enqueue <;> grind
  | takeTransmission =>
    simp only [handed, dropped, sent, late, List.append_nil]
    unfold step takeTransmission
    dsimp only
    split
    · simpa using ha
    · next hno =>
      rw [Bool.not_eq_true] at hno
      dsimp only
      rcases Option.eq_none_or_eq_some c.pending with hpending | ⟨tx, hpending⟩
      · rw [show (c.pending.map (·.ticket)).toList = [] by rw [hpending]; rfl, List.append_nil]
        exact ha.forget (fun _ => hpending) rfl hpending rfl
      · rw [show (c.pending.map (·.ticket)).toList = [tx.ticket] by rw [hpending]; rfl]
        exact ha.hand hpending hno
  | complete t =>
    simp only [handed, dropped, sent, late, List.append_nil]
    show Attributed h d _ _ (c.complete t).2
    have hcases := complete_cases c t
    generalize c.complete t = r at hcases
    cases hcases with
    | late hmem => simpa using ha.late hmem
    | stale => simpa using ha
    | sent _ hdispatched hpending hticket =>
      subst hticket
      rw [if_pos rfl, if_neg (by simp), List.append_nil]
      exact ha.send hpending hdispatched rfl rfl rfl
  | write offset value =>
    simp only [handed, sent, late, List.append_nil]
    show Attributed h
      (d ++ if c.dispatched = true ∧ (c.written offset value).pending = none then
        (c.pending.map (·.ticket)).toList else []) s l (c.written offset value)
    have hmoved := written_moved c offset value
    generalize c.written offset value = c' at hmoved
    cases hmoved with
    | same hnext hpending hdispatched hcancelled =>
      have hnothing : (if c.dispatched = true ∧ c'.pending = none then
          (c.pending.map (·.ticket)).toList else []) = [] := by
        split
        · next hboth => simp [← hpending, hboth.2]
        · rfl
      rw [hnothing, List.append_nil]
      exact ha.congr hnext hpending hdispatched hcancelled
    | requested tx hnone hticket hmax hnext hpending hdispatched hcancelled =>
      rw [if_neg (by simp [hpending]), List.append_nil]
      exact ha.request hnone hticket hmax hnext hpending hdispatched hcancelled
    | dropped hnext hpending hdispatched hcancelled =>
      unfold cancelPending at hcancelled
      rcases Option.eq_none_or_eq_some c.pending with hold | ⟨tx, hold⟩
      · simp only [hold] at hcancelled
        rw [hold, Option.map_none, Option.toList_none, ite_self, List.append_nil]
        exact ha.forget (fun _ => hold) hnext hpending hcancelled
      · simp only [hold] at hcancelled
        rw [hold, Option.map_some, Option.toList_some]
        by_cases hyes : c.dispatched = true
        · rw [if_pos ⟨hyes, hpending⟩]
          rw [if_pos hyes] at hcancelled
          exact ha.drop hold hyes hnext hpending hcancelled
        · rw [if_neg (fun hboth => hyes hboth.1), List.append_nil]
          rw [if_neg hyes] at hcancelled
          exact ha.forget (fun hyes' => absurd hyes' hyes) hnext hpending hcancelled

theorem attributed_run (ops : List Op) (ha : Attributed h d s l c) :
    Attributed (h ++ log step handed c ops) (d ++ log step dropped c ops)
      (s ++ log step sent c ops) (l ++ log step late c ops) (run step c ops) := by
  induction ops generalizing h d s l c with
  | nil => simpa [log] using ha
  | cons op ops ih => simpa [log] using ih (attributed_step ha op)

/-! ## The transmit-complete bit -/

theorem requested_complete (b : UInt8) : (b &&& ~~~0x0c ||| 0x20) &&& 8 = 0 :=
  (set_other (by decide) _).trans (clear_same (by decide) b)

theorem aborted_complete (b : UInt8) : (b &&& ~~~0x28 ||| 4) &&& 8 = 0 :=
  (set_other (by decide) _).trans (clear_same (by decide) b)

theorem emptied_complete (b : UInt8) : (b &&& ~~~1) &&& 8 = b &&& 8 := clear_other (by decide) b

theorem cleared_complete (b : UInt8) : (b &&& ~~~2) &&& 8 = b &&& 8 := clear_other (by decide) b

theorem overrun_complete (b : UInt8) : (b ||| 2) &&& 8 = b &&& 8 := set_other (by decide) b

theorem received_complete (b : UInt8) : (b ||| 1) &&& 8 = b &&& 8 := set_other (by decide) b

/-- The last transmission is not complete. -/
def Incomplete (c : Controller) : Prop := c.register 2 status_lt &&& 8 = 0

theorem command_incomplete {value : UInt8} (h : Incomplete c)
    (hcommand : c.command value = .ok c') :
    Incomplete c' := by
  refine command_keeps (P := Incomplete) (fun c c' _ hrequest => ?_) (fun c hc => ?_)
    (fun c hc => ?_) (fun c hc => ?_) h hcommand
  · unfold request at hrequest
    repeat' split at hrequest
    all_goals try cases hrequest
    simpa [Incomplete] using requested_complete c.registers[2]
  · unfold abort
    dsimp only
    split
    · simpa [Incomplete, cancelPending] using aborted_complete c.registers[2]
    · exact hc
  · have hpopped : ∀ c : Controller, Incomplete c →
        Incomplete (if c.rx = [] then
          { c with registers := c.registers.set 2 (c.registers[2] &&& ~~~1) } else c) := by
      intro c hc
      split
      · simpa [Incomplete] using (emptied_complete c.registers[2]).trans hc
      · exact hc
    unfold release
    dsimp only
    refine hpopped _ ?_
    split
    · exact hc
    · simpa [Incomplete] using hc
  · simpa [Incomplete, clearOverrun] using (cleared_complete c.registers[2]).trans hc

/-- While a controller operates, only a completion in time marks a transmission as complete. -/
theorem step_incomplete (h : Incomplete c) (hreset : c.reset = false) (op : Op)
    (hreset' : (c.step op).reset = false)
    (hop : ∀ t, op = .complete t → (c.complete t).1 ≠ .ok true) : Incomplete (c.step op) := by
  cases op with
  | read offset =>
    show Incomplete (c.read offset).2
    unfold read
    split
    · exact h
    split
    · exact h
    split
    · simpa [Incomplete, readInterrupts] using h
    · exact h
  | write offset value =>
    change (c.written offset value).reset = false at hreset'
    show Incomplete (c.written offset value)
    have hwritten := write_cases c offset value
    generalize c.written offset value = c' at hwritten hreset'
    cases hwritten with
    | mode value =>
      unfold writeMode at hreset' ⊢
      dsimp only at hreset' ⊢
      split
      · next hinto =>
        rw [if_pos hinto] at hreset'
        have hback := hinto
        simp only [reset, cancelPending] at hreset' hback
        simp_all
      · rw [if_neg (by simp [hreset])]
        simpa [Incomplete] using h
    | command hcommand => exact command_incomplete h hcommand
    | configuration hsame =>
      simp only [Incomplete, register]
      rw [hsame 2 (by decide) (by decide)]
      exact h
    | clock => simpa [Incomplete] using h
    | start => simpa [Incomplete] using h
    | _ => exact h
  | enableTransport => exact h
  | setElectrical state => exact h
  | takeTransmission =>
    show Incomplete c.takeTransmission.2
    unfold takeTransmission
    split <;> exact h
  | complete t =>
    have hcases := complete_cases c t
    have hnot := hop t rfl
    show Incomplete (c.complete t).2
    generalize c.complete t = r at hcases hnot
    cases hcases with
    | late => exact h
    | stale => exact h
    | sent => exact absurd rfl hnot
  | receive f =>
    show Incomplete (c.receive f).2
    unfold receive
    split
    · exact h
    · exact h
    · split
      · simpa [Incomplete, overrun] using (overrun_complete c.registers[2]).trans h
      · simpa [Incomplete, enqueue] using (received_complete c.registers[2]).trans h

/-- The tickets that are handed out increase. A completion is applied exactly to the ticket that was
handed out and neither dropped nor sent, and marks it as sent. The completion of a dropped ticket is
taken once, as long as fewer than 64 tickets were dropped after it, and changes nothing but that
memory; any other completion is refused and changes nothing. -/
theorem tickets_attributed (ops : List Op) :
    let c := run step default ops
    let h := log step handed default ops
    let d := log step dropped default ops
    let s := log step sent default ops
    let l := log step late default ops
    h.Pairwise (· < ·) ∧ s.Nodup ∧ l.Nodup ∧
      (∀ t, (c.complete t).1 = .ok true ↔ t ∈ h ∧ t ∉ d ∧ t ∉ s) ∧
      (∀ t, (c.complete t).1 = .ok true → (c.complete t).2 =
        { c with
          pending := none
          registers := (c.registers.set 2 (c.register 2 &&& ~~~0x20 ||| 0x0c) (by decide)).set 3
            (c.register 3 ||| c.register 4 &&& 2) (by decide) }) ∧
      (∀ t, (c.complete t).1 = .ok false → t ∈ d ∧ t ∉ l ∧
        (c.complete t).2 = { c with cancelled := c.cancelled.erase t }) ∧
      (∀ before t after, d = before ++ t :: after → after.length < 64 → t ∉ l →
        (c.complete t).1 = .ok false) ∧
      (∀ t, (c.complete t).1 ≠ .ok true → (c.complete t).1 ≠ .ok false →
        c.complete t = (.error "Stale CAN transmission completion", c)) ∧
      ∀ op, Incomplete c → c.reset = false → (c.step op).reset = false → ¬ Incomplete (c.step op) →
        ∃ t, op = .complete t ∧ (c.complete t).1 = .ok true := by
  intro c h d s l
  have ha : Attributed h d s l c := by
    simpa using attributed_run ops attributed_default
  have hcases := complete_cases c
  refine ⟨ha.order, ha.sentOnce, ha.lateOnce, fun t => ?_, fun t => ?_, fun t => ?_,
    fun before t after hsplit hfew hnot => ?_, fun t htrue hfalse => ?_,
    fun op hbefore hreset hreset' hafter => ?_⟩
  · rw [ha.live t]
    have ht := hcases t
    generalize c.complete t = r at ht
    cases ht with
    | late hmem =>
      refine iff_of_false (by simp) fun hlive => ?_
      exact ((ha.live t).mpr hlive).2.1 (ha.kept.subset hmem)
    | stale _ hother => exact iff_of_false (by simp) hother
    | sent _ hdispatched hpending hticket =>
      exact iff_of_true rfl ⟨hdispatched, _, hpending, hticket⟩
  · have ht := hcases t
    generalize c.complete t = r at ht
    cases ht with
    | sent => exact fun _ => rfl
    | _ => exact fun heq => absurd heq (by simp)
  · have ht := hcases t
    generalize c.complete t = r at ht
    cases ht with
    | late hmem => exact fun _ => ⟨ha.kept.subset hmem, ha.unanswered t hmem, rfl⟩
    | _ => exact fun heq => absurd heq (by simp)
  · have hmem := ha.recent before t after hsplit hfew hnot
    have ht := hcases t
    generalize c.complete t = r at ht
    cases ht with
    | late => rfl
    | stale hnot => exact absurd hmem hnot
    | sent hnot => exact absurd hmem hnot
  · have ht := hcases t
    generalize c.complete t = r at ht htrue hfalse
    cases ht with
    | late => exact absurd rfl hfalse
    | stale => rfl
    | sent => exact absurd rfl htrue
  · by_contra hnone
    refine hafter (step_incomplete hbefore hreset op hreset' fun t hop htrue => ?_)
    exact hnone ⟨t, hop, htrue⟩

end OpenSaab.Candi.Controller
