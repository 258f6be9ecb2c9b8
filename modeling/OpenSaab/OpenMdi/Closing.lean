import OpenSaab.Library.Runs
import OpenSaab.OpenMdi.Cleanup

/-!
# Closing a pair

Whatever has been done with a pair, closing it gives up what its opening has acquired, once.
-/

namespace OpenSaab.OpenMdi

open Json Program Std

namespace RawPair

/-! ## What the calls leave alone -/

/-- The session, the command socket and the marks of the selected link. -/
def kept : Allowed Session where
  rel s s' := s'.session = s.session ∧ (s.command.isSome → s'.command.isSome) ∧ (Idle s → Idle s')
  refl _ := ⟨rfl, id, id⟩
  trans h h' := ⟨h'.1.trans h.1, h'.2.1 ∘ h.2.1, h'.2.2 ∘ h.2.2⟩

/-- The links of an open pair, and its session. -/
def used : Allowed RawPair where
  rel p p' := p'.channels = p.channels ∧ p'.closed = p.closed ∧
    p'.inner.session = p.inner.session ∧ (p.inner.command.isSome → p'.inner.command.isSome) ∧
    (p.channels = [] → Idle p.inner → Idle p'.inner)
  refl _ := ⟨rfl, rfl, rfl, id, fun _ => id⟩
  trans h h' := ⟨h'.1.trans h.1, h'.2.1.trans h.2.1, h'.2.2.1.trans h.2.2.1, h'.2.2.2.1 ∘ h.2.2.2.1,
    fun hnil => h'.2.2.2.2 (h.1.trans hnil) ∘ h.2.2.2.2 hnil⟩

/-- A pair that has been closed with this report, after these requests. -/
def Closed (report : Value) (journal : List Rpc) (p : RawPair) : Prop :=
  p.closed = true ∧ p.cleanup = report ∧ p.inner.journal = journal

theorem Closed.close {report : Value} {journal : List Rpc} {p : RawPair} (h : Closed report journal p) :
    p.close = (report, p) := by
  unfold RawPair.close
  rw [if_pos h.1, h.2.1]

/-- The pair as its opening has left it. -/
def opening (start : Nat) (peer : Peer) : RawPair := (acquire peer (fresh start)).2

end RawPair

end OpenSaab.OpenMdi
