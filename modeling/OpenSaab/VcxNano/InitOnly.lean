import OpenSaab.Library.Runs
import OpenSaab.VcxNano.Codec

/-!
# The opening commands

`adapters/vcx_nano/init_handshake.rs`: the transport that lets only the opening commands through, in
their order. A write that fails may have reached the adapter, and its place is still open.
-/

namespace OpenSaab.VcxNano

open Runs

/-- The command and the width of its payload. -/
abbrev Opening := UInt8 × Nat

def expected : List Opening := [(0x8c, 0), (0xa0, 8), (0x84, 32), (0xa0, 8), (0xa1, 160), (0xa2, 32)]

/-- The frame is the command that is due. -/
def Frame.Opens (f : Frame) (due : Opening) : Prop :=
  f.header = #v[0x80, 0, due.1, 0] ∧ f.payload.length = due.2

instance (f : Frame) (due : Opening) : Decidable (f.Opens due) := inferInstanceAs (Decidable (_ ∧ _))

structure InitOnly where
  completedWrites : Nat
  deriving DecidableEq, Repr

/-- What is written, and what the transport below makes of it. -/
structure Write where
  bytes : List UInt8
  inner : Except String Unit

namespace InitOnly

/-- All that is checked before the bytes are handed over. -/
def checked (t : InitOnly) (bytes : List UInt8) : Except String Frame :=
  match Decoder.default.feed bytes with
  | (_, .error e) => .error e
  | (decoder, .ok frames) =>
    match decoder.finish with
    | .error e => .error e
    | .ok () =>
      match frames, expected[t.completedWrites]? with
      | [frame], some due =>
        if frame.Opens due then .ok frame
        else .error "Init-only forbids channel/CAN/reset/firmware or replayed order"
      | _, _ => .error "Init-only TX count/frame bound exceeded"

def write (t : InitOnly) (w : Write) : Except String Unit × InitOnly :=
  match t.checked w.bytes with
  | .error e => (.error e, t)
  | .ok _ =>
    match w.inner with
    | .error e => (.error e, t)
    | .ok () => (.ok (), { t with completedWrites := t.completedWrites + 1 })

def step (t : InitOnly) (w : Write) : InitOnly := (t.write w).2

/-- The frame that a write hands to the transport below. -/
def handed (t : InitOnly) (w : Write) : List Frame := (t.checked w.bytes).toOption.toList

/-! ## What is handed over -/

variable {t : InitOnly} {w : Write} {ws : List Write} {f : Frame} {n : Nat}

/-- The frames are the commands from place `n` on, each of them once. -/
def InOrder (n : Nat) (frames : List Frame) : Prop :=
  List.Forall₂ Frame.Opens frames ((expected.drop n).take frames.length)

/-- The bytes are the command that is due at place `n`. -/
def Due (n : Nat) (bytes : List UInt8) : Prop := ∃ f, (InitOnly.mk n).checked bytes = .ok f

/-- After a write of the command that is due has failed, that command is not written again. -/
def Unrepeated : Nat → List Write → Prop
  | _, [] => True
  | n, w :: ws =>
    (Due n w.bytes → w.inner = .ok () → Unrepeated (n + 1) ws) ∧
      (Due n w.bytes → w.inner ≠ .ok () → ∀ w' ∈ ws, ¬ Due n w'.bytes) ∧
      (¬ Due n w.bytes → Unrepeated n ws)

theorem checked_ok {bytes : List UInt8} (h : t.checked bytes = .ok f) :
    ∃ due, expected[t.completedWrites]? = some due ∧ f.Opens due := by
  unfold checked at h
  split at h
  · cases h
  · split at h
    · cases h
    · split at h
      · next frame due hdue _ =>
        split at h
        · next hopens =>
          obtain rfl := Except.ok.inj h
          exact ⟨due, hdue, hopens⟩
        · cases h
      · cases h

/-- No command is due twice in a row. -/
theorem not_opens_next {due next : Opening} (h : expected[n]? = some due)
    (hnext : expected[n + 1]? = some next) (hf : f.Opens due) : ¬ f.Opens next := by
  have hdiffer : due ≠ next := by
    have hn : n < 6 := (List.getElem?_eq_some_iff.mp h).1
    have hall : ∀ n < 6, expected[n]? ≠ expected[n + 1]? := by decide
    rintro rfl
    exact hall n hn (h.trans hnext.symm)
  rintro ⟨hheader, hwidth⟩
  have hsame := hf.1.symm.trans hheader
  refine hdiffer (Prod.ext ?_ (hf.2.symm.trans hwidth))
  have hcommand := congrArg (fun v : Vector UInt8 4 => v.toList) hsame
  simpa using hcommand

theorem handed_of_due (h : (InitOnly.mk n).checked w.bytes = .ok f) :
    (InitOnly.mk n).handed w = [f] := by
  unfold handed
  rw [h]
  rfl

theorem handed_of_not_due (h : ¬ Due n w.bytes) :
    (InitOnly.mk n).handed w = [] ∧ (InitOnly.mk n).step w = ⟨n⟩ := by
  unfold handed step write
  cases hchecked : (InitOnly.mk n).checked w.bytes with
  | error e => exact ⟨rfl, rfl⟩
  | ok f => exact absurd ⟨f, hchecked⟩ h

theorem step_of_due (h : Due n w.bytes) :
    (w.inner = .ok () → (InitOnly.mk n).step w = ⟨n + 1⟩) ∧
      (w.inner ≠ .ok () → (InitOnly.mk n).step w = ⟨n⟩) := by
  obtain ⟨f, hf⟩ := h
  unfold step write
  rw [hf]
  cases w.inner with
  | error e => exact ⟨by simp, fun _ => rfl⟩
  | ok u => exact ⟨fun _ => rfl, fun hne => absurd rfl hne⟩

/-- What is handed over first is the command that is due. -/
theorem handed_first (h : ∃ w ∈ ws, Due n w.bytes) :
    ∃ f rest, log step handed ⟨n⟩ ws = f :: rest ∧ ∃ due, expected[n]? = some due ∧ f.Opens due := by
  induction ws with
  | nil => simp at h
  | cons w ws ih =>
    by_cases hdue : Due n w.bytes
    · obtain ⟨f, hf⟩ := hdue
      refine ⟨f, log step handed ((InitOnly.mk n).step w) ws, ?_, checked_ok hf⟩
      rw [log, handed_of_due hf, List.singleton_append]
    · obtain ⟨w', hw', hdue'⟩ := h
      obtain ⟨hnone, hsame⟩ := handed_of_not_due hdue
      rw [log, hnone, hsame, List.nil_append]
      rcases List.mem_cons.mp hw' with rfl | hw'
      · exact absurd hdue' hdue
      · exact ih ⟨w', hw', hdue'⟩

theorem handed_none (h : ∀ w ∈ ws, ¬ Due n w.bytes) : log step handed ⟨n⟩ ws = [] := by
  induction ws with
  | nil => rfl
  | cons w ws ih =>
    obtain ⟨hw, hws⟩ := List.forall_mem_cons.mp h
    obtain ⟨hnone, hsame⟩ := handed_of_not_due hw
    rw [log, hnone, hsame, List.nil_append, ih hws]

/-- The commands from a place on are the one that is due there, and those behind it. -/
theorem inOrder_cons {due : Opening} (h : expected[n]? = some due) (rest : List Frame) :
    InOrder n (f :: rest) ↔ f.Opens due ∧ InOrder (n + 1) rest := by
  obtain ⟨hn, hget⟩ := List.getElem?_eq_some_iff.mp h
  unfold InOrder
  rw [List.drop_eq_getElem_cons hn, hget, List.length_cons, List.take_succ_cons,
    List.forall₂_cons]

theorem inOrder_nil (n : Nat) : InOrder n [] := .nil

/-- A command that is handed over a second time is out of order. -/
theorem not_inOrder_again {due : Opening} (h : expected[n]? = some due) (hf : f.Opens due)
    (rest : List Frame) : ¬ InOrder (n + 1) (f :: rest) := by
  intro horder
  cases hnext : expected[n + 1]? with
  | none =>
    unfold InOrder at horder
    rw [List.drop_eq_nil_of_le (List.getElem?_eq_none_iff.mp hnext), List.take_nil] at horder
    cases horder
  | some next =>
    exact not_opens_next h hnext hf ((inOrder_cons hnext rest).mp horder).1

theorem inOrder_iff (n : Nat) (ws : List Write) :
    InOrder n (log step handed ⟨n⟩ ws) ↔ Unrepeated n ws := by
  induction ws generalizing n with
  | nil => exact iff_of_true (inOrder_nil n) trivial
  | cons w ws ih =>
    by_cases hdue : Due n w.bytes
    · obtain ⟨f, hf⟩ := hdue
      obtain ⟨due, hat, hopens⟩ := checked_ok hf
      have hstep := step_of_due ⟨f, hf⟩
      rw [log, handed_of_due hf, List.singleton_append, inOrder_cons hat]
      by_cases hok : w.inner = .ok ()
      · rw [hstep.1 hok, ih]
        constructor
        · rintro ⟨-, hrest⟩
          exact ⟨fun _ _ => hrest, fun _ hne => absurd hok hne, fun hnot => absurd ⟨f, hf⟩ hnot⟩
        · intro h
          exact ⟨hopens, h.1 ⟨f, hf⟩ hok⟩
      · rw [hstep.2 hok]
        constructor
        · rintro ⟨-, hrest⟩
          refine ⟨fun _ hyes => absurd hyes hok, fun _ _ w' hw' hdue' => ?_,
            fun hnot => absurd ⟨f, hf⟩ hnot⟩
          obtain ⟨g, rest, hlog, due', hat', hopens'⟩ := handed_first ⟨w', hw', hdue'⟩
          rw [hlog] at hrest
          exact not_inOrder_again hat' hopens' rest hrest
        · intro h
          rw [handed_none (h.2.1 ⟨f, hf⟩ hok)]
          exact ⟨hopens, inOrder_nil _⟩
    · obtain ⟨hnone, hsame⟩ := handed_of_not_due hdue
      rw [log, hnone, hsame, List.nil_append, ih]
      constructor
      · intro h
        exact ⟨fun hyes => absurd hyes hdue, fun hyes => absurd hyes hdue, fun _ => h⟩
      · intro h
        exact h.2.2 hdue

/-- The commands go out in their order and each of them once exactly if none is written again after
its write has failed. -/
theorem handed_in_order (ws : List Write) :
    List.Forall₂ Frame.Opens (log step handed ⟨0⟩ ws)
        (expected.take (log step handed ⟨0⟩ ws).length) ↔ Unrepeated 0 ws :=
  inOrder_iff 0 ws

/-- The first command on the wire. -/
def getInfo : List UInt8 := [0xbb, 0x80, 0, 0x8c, 0, 0x0c, 0xbb]

/-- The first command is handed over again after its write has failed. -/
theorem failed_write_repeated :
    ¬ ∀ ws : List Write, List.Forall₂ Frame.Opens (log step handed ⟨0⟩ ws)
      (expected.take (log step handed ⟨0⟩ ws).length) := by
  intro h
  have hdue : Due 0 getInfo := ⟨⟨#v[0x80, 0, 0x8c, 0], []⟩, by decide⟩
  have hclear := (inOrder_iff 0 _).mp (h [⟨getInfo, .error "write failed"⟩, ⟨getInfo, .ok ()⟩])
  exact hclear.2.1 hdue (by simp) ⟨getInfo, .ok ()⟩ (by simp) hdue

end InitOnly

end OpenSaab.VcxNano
