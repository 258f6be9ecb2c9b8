import OpenSaab.Config.Splices

/-!
# Revisions of a text

The rows that an edit keeps, revised, and the lines that it adds.
-/

namespace OpenSaab.Config

/-! ## The rows of the new text -/

/-- The rows that are kept, revised. -/
def keptRows (rs : List (String × Chars)) (rows : List Row) : List Row :=
  (rows.filter fun row => !dropped rs row).map (revised rs)

def addedRows (ending : Chars) (final : Bool) : List Chars → List Row
  | [] => []
  | [line] => [(line, if final then ending else [])]
  | line :: rest => (line, ending) :: addedRows ending final rest

theorem joined_addedRows (ending : Chars) (final : Bool) (lines : List Chars) :
    joined (addedRows ending final lines) = added ending final lines := by
  induction lines with
  | nil => rfl
  | cons line rest ih =>
    cases rest with
    | nil => simp [addedRows, added, joined]
    | cons next rest =>
      change joined ((line, ending) :: addedRows ending final (next :: rest)) = _
      rw [joined_cons, ih]
      rfl

theorem bodies_addedRows (ending : Chars) (final : Bool) (lines : List Chars) :
    (addedRows ending final lines).map Prod.fst = lines := by
  induction lines with
  | nil => rfl
  | cons line rest ih =>
    cases rest with
    | nil => rfl
    | cons next rest =>
      change line :: (addedRows ending final (next :: rest)).map Prod.fst = _
      rw [ih]

theorem lined_addedRows {ending : Chars} (he : ending ∈ endings) (final : Bool)
    {lines : List Chars} (hlines : ∀ line ∈ lines, Plain line) :
    Lined (addedRows ending final lines) := by
  induction lines with
  | nil => exact ⟨nofun, nofun, List.Pairwise.nil⟩
  | cons line rest ih =>
    have hline := hlines line List.mem_cons_self
    cases rest with
    | nil =>
      refine ⟨?_, ?_, List.pairwise_singleton _ _⟩ <;> intro r hr <;>
        obtain rfl := List.mem_singleton.mp hr
      · exact hline
      · cases final with
        | true => exact .inr he
        | false => exact .inl rfl
    | cons next rest =>
      have hrest := ih fun l hl => hlines l (List.mem_cons_of_mem line hl)
      refine ⟨?_, ?_, List.pairwise_cons.mpr ⟨fun _ _ => he, hrest.ended⟩⟩ <;> intro r hr <;>
        rcases List.mem_cons.mp hr with rfl | hr
      · exact hline
      · exact hrest.plain r hr
      · exact .inr he
      · exact hrest.ending r hr

theorem lined_append {rows rows' : List Row} (h : Lined rows) (hended : ∀ r ∈ rows, r.2 ∈ endings)
    (h' : Lined rows') : Lined (rows ++ rows') := by
  refine ⟨fun r hr => ?_, fun r hr => ?_, List.pairwise_append.mpr ⟨h.ended, h'.ended,
    fun r hr _ _ => hended r hr⟩⟩
  · rcases List.mem_append.mp hr with hr | hr
    · exact h.plain r hr
    · exact h'.plain r hr
  · rcases List.mem_append.mp hr with hr | hr
    · exact h.ending r hr
    · exact h'.ending r hr

theorem endsLine_of_ending {e : Chars} (he : e ∈ endings) (text : Chars) :
    endsLine (text ++ e) = true := by
  simp only [endings, List.mem_cons, List.not_mem_nil, or_false] at he
  unfold endsLine
  rcases he with rfl | rfl | rfl <;>
    rw [List.getLast?_append_of_ne_nil _ (List.cons_ne_nil _ _)] <;> decide

/-- Rows that are closed one after the other, the last one too if its text ends a line. -/
theorem ended_of_endsLine {rows : List Row} (h : Lined rows)
    (hbody : ∀ r ∈ rows, r.2 = [] → r.1 ≠ []) (hend : joined rows = [] ∨ endsLine (joined rows) = true) :
    ∀ r ∈ rows, r.2 ∈ endings := by
  intro r hr
  rcases h.ending r hr with hnone | hsome
  · exfalso
    obtain ⟨front, back, rfl⟩ := List.append_of_mem hr
    have hback : back = [] := by
      rw [List.eq_nil_iff_forall_not_mem]
      intro s hs
      have hpair := (List.pairwise_append.mp h.ended).2.1
      have hmem := (List.pairwise_cons.mp hpair).1 s hs
      rw [hnone] at hmem
      exact absurd hmem (by decide)
    subst hback
    have hne := hbody r hr hnone
    have hjoined : joined (front ++ [r]) = joined front ++ r.1 := by
      rw [joined_append, joined_cons, hnone]
      simp [joined]
    rw [hjoined] at hend
    rcases hend with hnil | hend
    · exact hne (List.append_eq_nil_iff.mp hnil).2
    · unfold endsLine at hend
      rw [List.getLast?_append_of_ne_nil _ hne] at hend
      rw [List.getLast?_eq_some_getLast hne] at hend
      have hlast := h.plain r hr _ (List.getLast_mem hne)
      rw [Option.any_some, hlast] at hend
      cases hend
  · exact hsome

/-- The new text is made of rows. -/
theorem closed_rows {rows : List Row} (h : Lined rows) (hbody : ∀ r ∈ rows, r.2 = [] → r.1 ≠ [])
    {ending : Chars} (he : ending ∈ endings) (final : Bool) {additions : List Chars}
    (hplain : ∀ line ∈ additions, Plain line) : ∃ rows' : List Row,
      (if additions ≠ [] ∧ joined rows ≠ [] ∧ ¬ endsLine (joined rows) = true
        then joined rows ++ ending else joined rows) ++ added ending final additions =
          joined rows' ∧ Lined rows' ∧ rows'.map Prod.fst = rows.map Prod.fst ++ additions := by
  have hadded := lined_addedRows he final hplain
  split
  · next hopen =>
    obtain ⟨_, hne, hend⟩ := hopen
    have hrows : rows ≠ [] := by
      rintro rfl
      exact hne rfl
    obtain ⟨front, r, rfl⟩ := List.eq_nil_or_concat' rows |>.resolve_left hrows
    have hnone : r.2 = [] := by
      refine (h.ending r (by simp)).resolve_right fun hsome => hend ?_
      rw [joined_append, joined_cons, ← List.append_assoc]
      simpa [joined, ← List.append_assoc] using endsLine_of_ending hsome (joined front ++ r.1)
    have hfront : ∀ s ∈ front, s.2 ∈ endings := fun s hs =>
      (List.pairwise_append.mp h.ended).2.2 s hs r (List.mem_singleton_self r)
    have hclosed : Lined (front ++ [(r.1, ending)]) := by
      refine ⟨fun s hs => ?_, fun s hs => ?_, List.pairwise_append.mpr
        ⟨(List.pairwise_append.mp h.ended).1, List.pairwise_singleton _ _, fun s hs _ _ => hfront s hs⟩⟩
      · rcases List.mem_append.mp hs with hs | hs
        · exact h.plain s (List.mem_append_left _ hs)
        · rw [List.mem_singleton.mp hs]
          exact h.plain r (by simp)
      · rcases List.mem_append.mp hs with hs | hs
        · exact .inr (hfront s hs)
        · rw [List.mem_singleton.mp hs]
          exact .inr he
    refine ⟨front ++ [(r.1, ending)] ++ addedRows ending final additions, ?_,
      lined_append hclosed (fun s hs => ?_) hadded, ?_⟩
    · simp only [joined_append, joined_addedRows, joined_cons, hnone]
      simp [joined]
    · rcases List.mem_append.mp hs with hs | hs
      · exact hfront s hs
      · rw [List.mem_singleton.mp hs]
        exact he
    · rw [List.map_append, bodies_addedRows, List.map_append, List.map_append]
      rfl
  · next hclosed =>
    by_cases hnone : additions = []
    · subst hnone
      exact ⟨rows, List.append_nil _, h, (List.append_nil _).symm⟩
    · have hend : joined rows = [] ∨ endsLine (joined rows) = true := by tauto
      refine ⟨rows ++ addedRows ending final additions, ?_,
        lined_append h (ended_of_endsLine h hbody hend) hadded, ?_⟩
      · rw [joined_append, joined_addedRows]
      · rw [List.map_append, bodies_addedRows]

/-! ## The text of the draft -/

theorem joined_kept {rs : List (String × Chars)} {removed : List Nat} {rows : List Row} (k : Nat)
    (h : ∀ i row, rows[i]? = some row → (i + k ∈ removed ↔ dropped rs row = true)) :
    (((rows.map (revised rs)).zipIdx k).flatMap fun (row, n) =>
      if n ∈ removed then [] else row.1 ++ row.2) = joined (keptRows rs rows) := by
  induction rows generalizing k with
  | nil => rfl
  | cons row rows ih =>
    have hrest := ih (k + 1) fun i q hq => by
      have hnext := h (i + 1) q (by rw [List.getElem?_cons_succ]; exact hq)
      rwa [Nat.add_assoc, Nat.add_comm 1 k] at hnext
    have hfirst := h 0 row rfl
    rw [Nat.zero_add] at hfirst
    rw [List.map_cons, List.zipIdx_cons, List.flatMap_cons, hrest]
    dsimp only
    cases hdropped : dropped rs row with
    | true =>
      rw [if_pos (hfirst.mpr hdropped), keptRows, keptRows, List.filter_cons_of_neg]
      · rfl
      · rw [hdropped]
        exact Bool.false_ne_true
    | false =>
      have hnot : k ∉ removed := fun hmem => by
        rw [hfirst, hdropped] at hmem
        cases hmem
      rw [if_neg hnot, keptRows, keptRows, List.filter_cons_of_pos, List.map_cons, joined_cons]
      rw [hdropped]
      rfl

theorem Drafted.text_eq {base : Tech2WinConfig} {rows : List Row} {rs : List (String × Chars)}
    {d : Draft} (h : Drafted base rows rs d) (ending : Chars) (final : Bool) :
    d.text ending final = (if d.additions ≠ [] ∧ joined (keptRows rs rows) ≠ [] ∧
        ¬ endsLine (joined (keptRows rs rows)) = true
      then joined (keptRows rs rows) ++ ending else joined (keptRows rs rows)) ++
        added ending final d.additions := by
  unfold Draft.text
  rw [h.kept, joined_kept 0 h.removed]

section

variable {files : Files} {env : Environment} {path : Path} {text : Chars} {base : Tech2WinConfig}
  {rs : List (String × Chars)}

theorem requestFor_mem {body : Chars} {r : String × Chars} (h : requestFor rs body = some r) :
    r ∈ rs ∧ about r.1 (readLine body).flag = true := by
  have hfound := List.find?_some h
  exact ⟨List.mem_of_find?_eq_some h, hfound⟩

/-- Only the backends have no value in a row that is about a request. -/
theorem Said.row_value (h : Said files env path text base) {row : Row} (hrow : row ∈ splitText text)
    (hallowed : (readLine row.1).flag ∈ allowed) :
    isBackend (readLine row.1).flag = true ↔ (readLine row.1).value = [] :=
  value_of_accepted (h.accepted _ (row_said files env path hrow hallowed)) hallowed

/-- What becomes of a row. -/
inductive Outcome (rs : List (String × Chars)) (row : Row) : Prop
  | kept (hdropped : dropped rs row = false) (hsame : revised rs row = row)
      (hr : ∀ r, requestFor rs row.1 = some r → erases r = false ∧
        Alike r (readLine row.1).flag (readLine row.1).value)
  | deleted (r : String × Chars) (hr : requestFor rs row.1 = some r) (herases : erases r = true)
      (hdropped : dropped rs row = true)
  | replaced (r : String × Chars) (hr : requestFor rs row.1 = some r) (herases : erases r = false)
      (hdiffer : ¬ Alike r (readLine row.1).flag (readLine row.1).value)
      (hdropped : dropped rs row = false) (body : Chars) (hbody : revised rs row = (body, row.2))
      (hreplaced : Replaced r row.1 body)

theorem Said.outcome (h : Said files env path text base) (hrs : ∀ r ∈ rs, Editable r.1 r.2)
    {row : Row} (hrow : row ∈ splitText text) : Outcome rs row := by
  cases hr : requestFor rs row.1 with
  | none =>
    refine .kept ?_ ?_ fun r hr' => ?_
    · rw [dropped, hr]
      rfl
    · rw [revised, hr]
    · rw [hr] at hr'
      cases hr'
  | some r =>
    obtain ⟨hmem, habout⟩ := requestFor_mem hr
    have hallowed := about_allowed (hrs r hmem).allowed habout
    have hdropped : dropped rs row = erases r := by
      rw [dropped, hr]
      rfl
    have hrevised : revised rs row = if erases r then row else (revisedBody r row.1, row.2) := by
      rw [revised, hr]
    cases herases : erases r with
    | true => exact .deleted r hr herases (hdropped.trans herases)
    | false =>
      rw [herases] at hdropped
      rw [herases, if_neg Bool.false_ne_true] at hrevised
      by_cases halike : Alike r (readLine row.1).flag (readLine row.1).value
      · have hbody : revisedBody r row.1 = row.1 := if_pos halike
        rw [hbody] at hrevised
        refine .kept hdropped hrevised fun q hq => ?_
        obtain rfl := Option.some.inj (hr.symm.trans hq)
        exact ⟨herases, halike⟩
      · exact .replaced r hr herases halike hdropped _ hrevised
          (replaced_of_about (hrs r hmem) habout (h.row_value hrow hallowed) herases halike)

theorem body_ne_of_flag {body : Chars} (h : (readLine body).flag ∈ allowed) : body ≠ [] := by
  rintro rfl
  exact absurd h (by decide)

theorem Said.lined_kept (h : Said files env path text base) (hrs : ∀ r ∈ rs, Editable r.1 r.2) :
    Lined (keptRows rs (splitText text)) ∧
      ∀ r ∈ keptRows rs (splitText text), r.2 = [] → r.1 ≠ [] := by
  have hlined := lined_splitText text
  have hrow : ∀ row ∈ splitText text, dropped rs row = false →
      (revised rs row).2 = row.2 ∧ Plain (revised rs row).1 ∧
        (row.2 = [] → (revised rs row).1 ≠ []) := by
    intro row hrow hkept
    cases h.outcome hrs hrow with
    | kept _ hsame _ =>
      rw [hsame]
      exact ⟨rfl, hlined.plain row hrow, body_of_unended hrow⟩
    | deleted _ _ _ hdropped =>
      rw [hkept] at hdropped
      cases hdropped
    | replaced r hr _ _ _ body hbody hreplaced =>
      rw [hbody]
      refine ⟨rfl, hreplaced.plain (hlined.plain row hrow), fun _ => body_ne_of_flag ?_⟩
      rw [hreplaced.flag]
      exact (hrs r (requestFor_mem hr).1).allowed
  have hsub : ((splitText text).filter fun row => !dropped rs row).Sublist (splitText text) :=
    List.filter_sublist
  have hmem : ∀ r ∈ keptRows rs (splitText text), ∃ row ∈ splitText text,
      dropped rs row = false ∧ revised rs row = r := by
    intro r hr
    obtain ⟨row, hfilter, rfl⟩ := List.mem_map.mp hr
    obtain ⟨hin, hnot⟩ := List.mem_filter.mp hfilter
    exact ⟨row, hin, by simpa using hnot, rfl⟩
  refine ⟨⟨?_, ?_, ?_⟩, ?_⟩
  · intro r hr
    obtain ⟨row, hin, hkept, rfl⟩ := hmem r hr
    exact (hrow row hin hkept).2.1
  · intro r hr
    obtain ⟨row, hin, hkept, rfl⟩ := hmem r hr
    rw [(hrow row hin hkept).1]
    exact hlined.ending row hin
  · refine List.pairwise_map.mpr ((hlined.ended.sublist hsub).imp_of_mem ?_)
    intro a b ha _ hended
    obtain ⟨hin, hnot⟩ := List.mem_filter.mp ha
    rw [(hrow a hin (by simpa using hnot)).1]
    exact hended
  · intro r hr hend
    obtain ⟨row, hin, hkept, rfl⟩ := hmem r hr
    obtain ⟨hending, _, hne⟩ := hrow row hin hkept
    exact hne (hending ▸ hend)

end

end OpenSaab.Config
