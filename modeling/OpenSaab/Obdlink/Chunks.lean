import OpenSaab.Obdlink.Grammar

/-!
# The pieces of the stream

The adapter's bytes arrive in pieces. What is read of them does not depend on the pieces, except for
what is complete in the piece in which a byte is refused.
-/

namespace OpenSaab.Obdlink

open Can Lines

namespace Parser

/-! ## Piece by piece, and byte by byte -/

/-- What is read of the pieces: the items, and the error that ends the session. -/
def received (p : Parser) : List (List UInt8) → List Item × Option String
  | [] => ([], none)
  | piece :: pieces =>
    match p.feed piece with
    | (.error e, _) => ([], some e)
    | (.ok items, p) =>
      let r := p.received pieces
      (items ++ r.1, r.2)

/-- What is read where each byte is a piece of its own. -/
def events (p : Parser) : List UInt8 → List Item × Option String
  | [] => ([], none)
  | b :: bs =>
    match p.push b with
    | (.error e, _) => ([], some e)
    | (.ok items, p) =>
      let r := p.events bs
      (items ++ r.1, r.2)

theorem events_cons (p : Parser) (b : UInt8) (bs : List UInt8) :
    p.events (b :: bs) =
      match p.push b with
      | (.error e, _) => ([], some e)
      | (.ok items, p) =>
        let r := p.events bs
        (items ++ r.1, r.2) :=
  rfl

/-- Whatever the pieces are, the same is read. -/
def Independent (bs : List UInt8) : Prop :=
  ∀ pieces pieces' : List (List UInt8), pieces.flatten = bs → pieces'.flatten = bs →
    Parser.default.received pieces = Parser.default.received pieces'

theorem events_of_feed_ok {p q : Parser} {bs : List UInt8} {items : List Item}
    (h : p.feed bs = (.ok items, q)) (rest : List UInt8) :
    p.events (bs ++ rest) = (items ++ (q.events rest).1, (q.events rest).2) := by
  induction bs generalizing p items with
  | nil =>
    cases h
    rfl
  | cons b bs ih =>
    unfold feed at h
    split at h
    · cases h
    · next first r hpush =>
      obtain ⟨hitems, hlast⟩ := Prod.mk.inj h
      cases hrest : r.feed bs with
      | mk result r' =>
        rw [hrest] at hitems hlast
        subst hlast
        cases result with
        | error e => cases hitems
        | ok more =>
          obtain rfl := Except.ok.inj hitems
          rw [List.cons_append, events_cons, hpush]
          dsimp only
          rw [ih hrest, List.append_assoc]

theorem events_of_feed_error {p q : Parser} {bs : List UInt8} {e : String}
    (h : p.feed bs = (.error e, q)) :
    ∃ items, ∀ rest, p.events (bs ++ rest) = (items, some e) := by
  induction bs generalizing p with
  | nil => cases h
  | cons b bs ih =>
    unfold feed at h
    split at h
    · next message r hpush =>
      cases h
      refine ⟨[], fun rest => ?_⟩
      rw [List.cons_append, events_cons, hpush]
    · next first r hpush =>
      obtain ⟨hitems, hlast⟩ := Prod.mk.inj h
      cases hrest : r.feed bs with
      | mk result r' =>
        rw [hrest] at hitems hlast
        subst hlast
        cases result with
        | ok more => cases hitems
        | error message =>
          cases hitems
          obtain ⟨items, hevents⟩ := ih hrest
          refine ⟨first ++ items, fun rest => ?_⟩
          rw [List.cons_append, events_cons, hpush]
          dsimp only
          rw [hevents]

/-- The pieces only matter after an error: then items at the end may be lost. -/
theorem received_events (p : Parser) (pieces : List (List UInt8)) :
    (p.received pieces).2 = (p.events pieces.flatten).2 ∧
      (p.received pieces).1 <+: (p.events pieces.flatten).1 ∧
      ((p.events pieces.flatten).2 = none → (p.received pieces).1 = (p.events pieces.flatten).1) := by
  induction pieces generalizing p with
  | nil => exact ⟨rfl, List.prefix_refl [], fun _ => rfl⟩
  | cons piece pieces ih =>
    rw [List.flatten_cons]
    unfold received
    cases hfeed : p.feed piece with
    | mk result q =>
      cases result with
      | error e =>
        obtain ⟨items, hevents⟩ := events_of_feed_error hfeed
        rw [hevents]
        refine ⟨rfl, List.nil_prefix, ?_⟩
        intro h
        cases h
      | ok items =>
        obtain ⟨herror, hprefix, hall⟩ := ih q
        rw [events_of_feed_ok hfeed]
        exact ⟨herror, (List.prefix_append_right_inj items).mpr hprefix,
          fun h => congrArg (items ++ ·) (hall h)⟩

theorem feed_one (p : Parser) (b : UInt8) :
    p.feed [b] = ((p.push b).1.map (· ++ []), (p.push b).2) := by
  unfold feed feed
  cases hpush : p.push b with
  | mk result q =>
    cases result <;> rfl

theorem received_bytes (p : Parser) (bs : List UInt8) :
    p.received (bs.map fun b => [b]) = p.events bs := by
  induction bs generalizing p with
  | nil => rfl
  | cons b bs ih =>
    rw [List.map_cons, received, events, feed_one]
    cases hpush : p.push b with
    | mk result q =>
      cases result with
      | error e => rfl
      | ok items =>
        change (items ++ [] ++ _, _) = _
        rw [ih, List.append_nil]

theorem independent_iff (bs : List UInt8) :
    Independent bs ↔
      (Parser.default.events bs).2 = none ∨ (Parser.default.events bs).1 = [] := by
  constructor
  · intro h
    have hbytes := received_bytes Parser.default bs
    have hwhole := h (bs.map fun b => [b]) [bs] (List.flatMap_singleton' bs) (List.append_nil bs)
    rw [hbytes] at hwhole
    rw [hwhole]
    unfold received
    cases hfeed : Parser.default.feed bs with
    | mk result q =>
      cases result with
      | error e => exact .inr rfl
      | ok items => exact .inl rfl
  · intro h
    have hall (pieces : List (List UInt8)) (hflatten : pieces.flatten = bs) :
        Parser.default.received pieces = Parser.default.events bs := by
      subst hflatten
      obtain ⟨herror, hprefix, hwhole⟩ := received_events Parser.default pieces
      rcases h with hnone | hnil
      · exact Prod.ext (hwhole hnone) herror
      · rw [hnil] at hprefix
        exact Prod.ext ((List.prefix_nil.mp hprefix).trans hnil.symm) herror
    intro pieces pieces' hp hp'
    rw [hall pieces hp, hall pieces' hp']

/-! ## Which streams these are -/

/-- A byte of a line. -/
def isText (b : UInt8) : Bool := 0x20 ≤ b && b ≤ 0x7e && b != 0x3e

/-- A byte that ends a line. -/
def isEnd (b : UInt8) : Bool := b == 0x0d || b == 0x0a

def Known (b : UInt8) : Prop := isText b = true ∨ isEnd b = true ∨ b = 0x3e

/-- A byte that is refused behind so many bytes of a line. -/
def RefusedBehind (n : Nat) (b : UInt8) : Prop := ¬ Known b ∨ isText b = true ∧ n = maxLine

/-- Every byte is known, and no line is too long. -/
def Accepted (bs : List UInt8) : Prop :=
  (∀ b ∈ bs, Known b) ∧ ∀ run, run <:+: bs → (∀ b ∈ run, isText b = true) → run.length ≤ maxLine

/-- After `n` bytes of a line: the first byte that is no text is refused, or the one too many. -/
def RefusedInLine (n : Nat) (bs : List UInt8) : Prop :=
  ∃ text b rest, bs = text ++ b :: rest ∧ (∀ t ∈ text, isText t = true) ∧
    n + text.length ≤ maxLine ∧ RefusedBehind (n + text.length) b

/-- The first byte that is refused comes before any line or prompt is complete. -/
def RefusedFirst (bs : List UInt8) : Prop :=
  ∃ ends rest, bs = ends ++ rest ∧ (∀ e ∈ ends, isEnd e = true) ∧ RefusedInLine 0 rest

theorem isText_iff {b : UInt8} : isText b = true ↔ (0x20 ≤ b ∧ b ≤ 0x7e) ∧ b ≠ 0x3e := by
  simp [isText]

theorem not_text_of_end {b : UInt8} (h : isEnd b = true) : isText b = false := by
  rcases Bool.or_eq_true_iff.mp h with h | h
  · rw [eq_of_beq h]
    rfl
  · rw [eq_of_beq h]
    rfl

theorem push_text {p : Parser} {b : UInt8} (hb : isText b = true) :
    p.push b = if maxLine ≤ p.line.length then (.error "STN raw receive line exceeded limit", p)
      else (.ok [], ⟨p.line ++ [Char.ofNat b.toNat]⟩) := by
  obtain ⟨hrange, hprompt⟩ := isText_iff.mp hb
  have hend : ¬(b = 0x0d ∨ b = 0x0a) := by
    rintro (rfl | rfl) <;> cases hb
  rw [push, if_neg hprompt, if_neg hend, if_pos hrange]

theorem push_end {p : Parser} {b : UInt8} (hb : isEnd b = true) :
    p.push b = (.ok p.take, default) := by
  have hend : b = 0x0d ∨ b = 0x0a := by simpa [isEnd] using hb
  have hprompt : b ≠ 0x3e := by
    rintro rfl
    cases hb
  rw [push, if_neg hprompt, if_pos hend]

theorem push_prompt (p : Parser) : p.push 0x3e = (.ok (p.take ++ [.prompt]), default) := rfl

theorem push_unknown {p : Parser} {b : UInt8} (hb : ¬ Known b) :
    p.push b = (.error "STN raw receive contained non-ASCII data", p) := by
  obtain ⟨htext, hend, hprompt⟩ : isText b ≠ true ∧ isEnd b ≠ true ∧ b ≠ 0x3e := by
    simpa [Known] using hb
  have hend' : ¬(b = 0x0d ∨ b = 0x0a) := by simpa [isEnd] using hend
  have hrange : ¬(0x20 ≤ b ∧ b ≤ 0x7e) := fun h => htext (isText_iff.mpr ⟨h, hprompt⟩)
  rw [push, if_neg hprompt, if_neg hend', if_neg hrange]

theorem push_refused {p : Parser} {b : UInt8} (hb : RefusedBehind p.line.length b) :
    ∃ e, p.push b = (.error e, p) := by
  rcases hb with hunknown | ⟨htext, hfull⟩
  · exact ⟨_, push_unknown hunknown⟩
  · exact ⟨_, (push_text htext).trans (if_pos (Nat.le_of_eq hfull.symm))⟩

/-! ## Streams with no byte refused -/

/-- The same behind `n` bytes of a line. -/
def AcceptedBehind (n : Nat) (bs : List UInt8) : Prop :=
  Accepted bs ∧ ∀ run, run <+: bs → (∀ b ∈ run, isText b = true) → n + run.length ≤ maxLine

theorem acceptedBehind_zero {bs : List UInt8} : AcceptedBehind 0 bs ↔ Accepted bs :=
  ⟨fun h => h.1, fun h => ⟨h, fun run hrun htext =>
    (Nat.zero_add _).symm ▸ h.2 run hrun.isInfix htext⟩⟩

theorem acceptedBehind_text {n : Nat} {b : UInt8} {bs : List UInt8} (hb : isText b = true) :
    AcceptedBehind n (b :: bs) ↔ AcceptedBehind (n + 1) bs := by
  constructor
  · rintro ⟨⟨hknown, hruns⟩, hfirst⟩
    refine ⟨⟨fun c hc => hknown c (List.mem_cons_of_mem b hc),
      fun run hrun htext => hruns run (hrun.trans (List.suffix_cons b bs).isInfix) htext⟩, ?_⟩
    intro run hrun htext
    have hlong := hfirst (b :: run) ((List.prefix_cons_inj b).mpr hrun)
      (List.forall_mem_cons.mpr ⟨hb, htext⟩)
    rw [List.length_cons] at hlong
    omega
  · rintro ⟨⟨hknown, hruns⟩, hfirst⟩
    have hprefix (run : List UInt8) (hrun : run <+: b :: bs) (htext : ∀ c ∈ run, isText c = true) :
        n + run.length ≤ maxLine := by
      rcases List.prefix_cons_iff.mp hrun with rfl | ⟨rest, rfl, hrest⟩
      · have hnil := hfirst [] List.nil_prefix (fun c hc => absurd hc List.not_mem_nil)
        rw [List.length_nil] at hnil ⊢
        omega
      · have hlong := hfirst rest hrest fun c hc => htext c (List.mem_cons_of_mem b hc)
        rw [List.length_cons]
        omega
    refine ⟨⟨List.forall_mem_cons.mpr ⟨.inl hb, hknown⟩, ?_⟩, hprefix⟩
    intro run hrun htext
    rcases List.infix_cons_iff.mp hrun with hrun | hrun
    · have hlong := hprefix run hrun htext
      omega
    · exact hruns run hrun htext

/-- A byte that is known and no text ends the line. -/
theorem acceptedBehind_break {n : Nat} {b : UInt8} {bs : List UInt8} (hknown : Known b)
    (hb : isText b = false) (hn : n ≤ maxLine) :
    AcceptedBehind n (b :: bs) ↔ AcceptedBehind 0 bs := by
  rw [acceptedBehind_zero]
  have hnil (run : List UInt8) (hrun : run <+: b :: bs) (htext : ∀ c ∈ run, isText c = true) :
      run = [] := by
    rcases List.prefix_cons_iff.mp hrun with rfl | ⟨rest, rfl, -⟩
    · rfl
    · exact absurd (htext b List.mem_cons_self) (by simp [hb])
  constructor
  · rintro ⟨⟨hall, hruns⟩, -⟩
    exact ⟨fun c hc => hall c (List.mem_cons_of_mem b hc),
      fun run hrun htext => hruns run (hrun.trans (List.suffix_cons b bs).isInfix) htext⟩
  · rintro ⟨hall, hruns⟩
    refine ⟨⟨List.forall_mem_cons.mpr ⟨hknown, hall⟩, ?_⟩, ?_⟩
    · intro run hrun htext
      rcases List.infix_cons_iff.mp hrun with hrun | hrun
      · rw [hnil run hrun htext]
        exact Nat.zero_le _
      · exact hruns run hrun htext
    · intro run hrun htext
      rw [hnil run hrun htext]
      exact hn

theorem not_acceptedBehind {n : Nat} {b : UInt8} {bs : List UInt8} (hb : RefusedBehind n b) :
    ¬ AcceptedBehind n (b :: bs) := by
  rintro ⟨⟨hknown, -⟩, hfirst⟩
  rcases hb with hunknown | ⟨htext, hfull⟩
  · exact hunknown (hknown b List.mem_cons_self)
  · have hlong := hfirst [b] (List.prefix_append [b] bs)
      fun c hc => (List.mem_singleton.mp hc).symm ▸ htext
    rw [List.length_singleton] at hlong
    omega

/-- What a byte is, behind `n` bytes of a line. -/
theorem byte_cases {n : Nat} (hn : n ≤ maxLine) (b : UInt8) :
    RefusedBehind n b ∨ isText b = true ∧ n < maxLine ∨ isEnd b = true ∨ b = 0x3e := by
  by_cases hknown : Known b
  · rcases hknown with htext | hend | hprompt
    · rcases Nat.lt_or_eq_of_le hn with hlt | hfull
      · exact .inr (.inl ⟨htext, hlt⟩)
      · exact .inl (.inr ⟨htext, hfull⟩)
    · exact .inr (.inr (.inl hend))
    · exact .inr (.inr (.inr hprompt))
  · exact .inl (.inl hknown)

theorem events_cons_ok {p q : Parser} {b : UInt8} {items : List Item}
    (h : p.push b = (.ok items, q)) (bs : List UInt8) :
    p.events (b :: bs) = (items ++ (q.events bs).1, (q.events bs).2) := by
  rw [events, h]

theorem events_cons_error {p : Parser} {b : UInt8} (h : RefusedBehind p.line.length b)
    (bs : List UInt8) : ∃ e, p.events (b :: bs) = ([], some e) := by
  obtain ⟨e, hpush⟩ := push_refused h
  exact ⟨e, by rw [events, hpush]⟩

theorem events_text {p : Parser} {b : UInt8} (hb : isText b = true) (h : p.line.length < maxLine)
    (bs : List UInt8) : p.events (b :: bs) = Parser.events ⟨p.line ++ [Char.ofNat b.toNat]⟩ bs := by
  rw [events_cons_ok ((push_text hb).trans (if_neg (Nat.not_le.mpr h)))]
  rfl

theorem events_ok_iff {p : Parser} (hp : p.line.length ≤ maxLine) (bs : List UInt8) :
    (p.events bs).2 = none ↔ AcceptedBehind p.line.length bs := by
  induction bs generalizing p with
  | nil =>
    simp only [events, AcceptedBehind, Accepted, true_iff]
    refine ⟨⟨fun b hb => absurd hb List.not_mem_nil, ?_⟩, ?_⟩
    · intro run hrun _
      rw [List.infix_nil.mp hrun]
      exact Nat.zero_le _
    · intro run hrun _
      rw [List.prefix_nil.mp hrun]
      exact hp
  | cons b bs ih =>
    rcases byte_cases hp b with hrefused | ⟨htext, hlt⟩ | hend | rfl
    · obtain ⟨e, hevents⟩ := events_cons_error hrefused bs
      rw [hevents]
      exact iff_of_false (fun h => by cases h) (not_acceptedBehind hrefused)
    · have hlength : (p.line ++ [Char.ofNat b.toNat]).length = p.line.length + 1 := by simp
      rw [events_text htext hlt, acceptedBehind_text htext, ← hlength]
      exact ih (p := ⟨p.line ++ [Char.ofNat b.toNat]⟩) (by simp; omega)
    · rw [events_cons_ok (push_end hend),
        acceptedBehind_break (.inr (.inl hend)) (not_text_of_end hend) hp]
      exact ih (Nat.zero_le _)
    · rw [events_cons_ok (push_prompt p), acceptedBehind_break (.inr (.inr rfl)) rfl hp]
      exact ih (Nat.zero_le _)

/-! ## Streams refused before anything is complete -/

/-- The stream is refused, and nothing is read of it. -/
def Silent (r : List Item × Option String) : Prop := ∃ e, r = ([], some e)

theorem refusedInLine_cons {n : Nat} {b : UInt8} {bs : List UInt8} (hb : isText b = true)
    (hn : n < maxLine) : RefusedInLine n (b :: bs) ↔ RefusedInLine (n + 1) bs := by
  constructor
  · rintro ⟨text, c, rest, heq, htext, hlength, hrefused⟩
    cases text with
    | nil =>
      obtain ⟨rfl, rfl⟩ := List.cons.inj heq
      rcases hrefused with hunknown | ⟨-, hfull⟩
      · exact absurd (.inl hb) hunknown
      · rw [List.length_nil] at hfull
        omega
    | cons t text =>
      obtain ⟨rfl, rfl⟩ := List.cons.inj heq
      rw [List.length_cons, ← Nat.add_assoc, Nat.add_right_comm] at hlength hrefused
      exact ⟨text, c, rest, rfl, (List.forall_mem_cons.mp htext).2, hlength, hrefused⟩
  · rintro ⟨text, c, rest, rfl, htext, hlength, hrefused⟩
    refine ⟨b :: text, c, rest, rfl, List.forall_mem_cons.mpr ⟨hb, htext⟩, ?_, ?_⟩
    · rw [List.length_cons]
      omega
    · rw [List.length_cons, ← Nat.add_assoc, Nat.add_right_comm]
      exact hrefused

/-- A byte that ends the line is not refused in it. -/
theorem not_refusedInLine {n : Nat} {b : UInt8} {bs : List UInt8} (hknown : Known b)
    (hb : isText b = false) : ¬ RefusedInLine n (b :: bs) := by
  rintro ⟨text, c, rest, heq, htext, -, hrefused⟩
  cases text with
  | nil =>
    obtain ⟨rfl, -⟩ := List.cons.inj heq
    rcases hrefused with hunknown | ⟨htext, -⟩
    · exact hunknown hknown
    · exact absurd (hb.symm.trans htext) Bool.false_ne_true
  | cons t text =>
    obtain ⟨rfl, -⟩ := List.cons.inj heq
    exact absurd (hb.symm.trans (htext b List.mem_cons_self)) Bool.false_ne_true

theorem refusedInLine_now {n : Nat} {b : UInt8} (hn : n ≤ maxLine) (h : RefusedBehind n b)
    (bs : List UInt8) : RefusedInLine n (b :: bs) :=
  ⟨[], b, bs, rfl, fun _ ht => absurd ht List.not_mem_nil, hn, h⟩

theorem not_refusedInLine_nil (n : Nat) : ¬ RefusedInLine n [] := by
  rintro ⟨text, b, rest, heq, -⟩
  exact absurd heq.symm (List.append_ne_nil_of_right_ne_nil text (List.cons_ne_nil b rest))

theorem not_silent_of_items {p q : Parser} {b : UInt8} {item : Item} {items : List Item}
    (h : p.push b = (.ok (item :: items), q)) (bs : List UInt8) : ¬ Silent (p.events (b :: bs)) := by
  rintro ⟨e, he⟩
  rw [events_cons_ok h] at he
  cases (Prod.mk.inj he).1

/-- With bytes of a line at hand, the refusal must come before its end. -/
theorem silent_line_iff {p : Parser} (hp : p.line.length ≤ maxLine) (hne : p.line ≠ [])
    (bs : List UInt8) : Silent (p.events bs) ↔ RefusedInLine p.line.length bs := by
  have htake : p.take = [.line p.line] := if_neg hne
  induction bs generalizing p with
  | nil => exact iff_of_false (fun ⟨e, h⟩ => by cases h) (not_refusedInLine_nil _)
  | cons b bs ih =>
    rcases byte_cases hp b with hrefused | ⟨htext, hlt⟩ | hend | rfl
    · exact iff_of_true (events_cons_error hrefused bs) (refusedInLine_now hp hrefused bs)
    · have hlength : (p.line ++ [Char.ofNat b.toNat]).length = p.line.length + 1 := by simp
      rw [events_text htext hlt, refusedInLine_cons htext hlt, ← hlength]
      exact ih (p := ⟨p.line ++ [Char.ofNat b.toNat]⟩) (by simp; omega) (by simp) (if_neg (by simp))
    · have hpush := push_end (p := p) hend
      rw [htake] at hpush
      exact iff_of_false (not_silent_of_items hpush bs)
        (not_refusedInLine (.inr (.inl hend)) (not_text_of_end hend))
    · have hpush := push_prompt p
      rw [htake] at hpush
      exact iff_of_false (not_silent_of_items hpush bs) (not_refusedInLine (.inr (.inr rfl)) rfl)

/-- A byte that is no line end: what comes first is a line. -/
theorem refusedFirst_cons {b : UInt8} {bs : List UInt8} (hb : isEnd b = false) :
    RefusedFirst (b :: bs) ↔ RefusedInLine 0 (b :: bs) := by
  constructor
  · rintro ⟨ends, rest, heq, hends, hrest⟩
    cases ends with
    | nil =>
      rw [List.nil_append] at heq
      exact heq ▸ hrest
    | cons e ends =>
      obtain ⟨rfl, -⟩ := List.cons.inj heq
      exact absurd (hb.symm.trans (hends b List.mem_cons_self)) Bool.false_ne_true
  · intro h
    exact ⟨[], b :: bs, rfl, fun e he => absurd he List.not_mem_nil, h⟩

theorem refusedFirst_end {b : UInt8} {bs : List UInt8} (hb : isEnd b = true) :
    RefusedFirst (b :: bs) ↔ RefusedFirst bs := by
  constructor
  · rintro ⟨ends, rest, heq, hends, hrest⟩
    cases ends with
    | nil =>
      rw [List.nil_append] at heq
      rw [← heq] at hrest
      exact absurd hrest (not_refusedInLine (.inr (.inl hb)) (not_text_of_end hb))
    | cons e ends =>
      obtain ⟨rfl, rfl⟩ := List.cons.inj heq
      exact ⟨ends, rest, rfl, (List.forall_mem_cons.mp hends).2, hrest⟩
  · rintro ⟨ends, rest, rfl, hends, hrest⟩
    exact ⟨b :: ends, rest, rfl, List.forall_mem_cons.mpr ⟨hb, hends⟩, hrest⟩

theorem silent_iff (bs : List UInt8) : Silent (Parser.default.events bs) ↔ RefusedFirst bs := by
  induction bs with
  | nil =>
    refine iff_of_false (fun ⟨e, h⟩ => by cases h) ?_
    rintro ⟨ends, rest, heq, -, hrest⟩
    rw [(List.append_eq_nil_iff.mp heq.symm).2] at hrest
    exact not_refusedInLine_nil 0 hrest
  | cons b bs ih =>
    cases hend : isEnd b with
    | true =>
      rw [refusedFirst_end hend, events_cons_ok (push_end hend)]
      exact ih
    | false =>
      rw [refusedFirst_cons hend]
      rcases byte_cases (Nat.zero_le maxLine) b with hrefused | ⟨htext, hlt⟩ | hend' | rfl
      · exact iff_of_true (events_cons_error (p := default) hrefused bs)
          (refusedInLine_now (Nat.zero_le _) hrefused bs)
      · rw [events_text (p := default) htext hlt, refusedInLine_cons htext hlt]
        exact silent_line_iff (p := ⟨[Char.ofNat b.toNat]⟩) (Nat.succ_le_of_lt hlt)
          (List.cons_ne_nil _ _) bs
      · exact absurd (hend.symm.trans hend') Bool.false_ne_true
      · exact iff_of_false (not_silent_of_items (push_prompt default) bs)
          (not_refusedInLine (.inr (.inr rfl)) rfl)

theorem independent_iff_bytes (bs : List UInt8) :
    Independent bs ↔ Accepted bs ∨ RefusedFirst bs := by
  rw [independent_iff, ← silent_iff, ← acceptedBehind_zero]
  have hnone : (Parser.default.events bs).2 = none ↔ AcceptedBehind 0 bs :=
    events_ok_iff (Nat.zero_le _) bs
  rw [← hnone]
  constructor
  · rintro (h | h)
    · exact .inl h
    · cases herror : (Parser.default.events bs).2 with
      | none => exact .inl rfl
      | some e => exact .inr ⟨e, Prod.ext h herror⟩
  · rintro (h | ⟨e, h⟩)
    · exact .inl h
    · exact .inr (congrArg Prod.fst h)

end Parser

/-- A line is read as a frame exactly where it is a line of a data frame, unless one of its bytes has
a sign; each standard data frame comes back from its line; and what is read of a stream is the same
for all its pieces, unless a byte is refused behind something that is complete. -/
theorem lines_of_adapter (line : List Char) (f : Frame) (bs : List UInt8) :
    (((∃ f, frame line = .ok (some f)) ↔ IsFrameLine line) ↔ ¬ Signed line) ∧
      (f.extended = false → f.rtr = false → f.validate = .ok () →
        frame (render f) = .ok (some f)) ∧
      (Parser.Independent bs ↔ Parser.Accepted bs ∨ Parser.RefusedFirst bs) :=
  ⟨grammar_iff line, fun hstandard hdata hvalid => frame_render hstandard hdata hvalid,
    Parser.independent_iff_bytes bs⟩

/-- A byte with a sign is read, and a prompt in the same piece as a refused byte is lost. -/
theorem signed_byte_read :
    frame "123 1 +5".toList = .ok (some ⟨0x123, false, false, 1, [5]⟩) ∧
      ¬ IsFrameLine "123 1 +5".toList ∧ ¬ Parser.Independent [0x3e, 0x00] := by
  refine ⟨by decide +kernel, ?_, ?_⟩
  · intro h
    exact h.unsigned ['+', '5'] (by decide +kernel) rfl
  · intro h
    have hpieces := h [[0x3e], [0x00]] [[0x3e, 0x00]] rfl rfl
    cases congrArg Prod.fst hpieces

end OpenSaab.Obdlink
