import Mathlib.Data.List.Pairwise
import OpenSaab.Config.Revision

/-!
# Lossless edits

An edit changes the options that are asked for and nothing else, in the text and in what it says.
-/

namespace OpenSaab.Config

section

variable {files : Files} {env : Environment} {path : Path} {text : Chars} {base : Tech2WinConfig}
  {rs : List (String × Chars)}

/-! ## What the new text says -/

/-- What becomes of a statement. -/
def restate (rs : List (String × Chars)) (st : Statement) : List Statement :=
  match rs.find? fun r => about r.1 st.flag with
  | none => [st]
  | some r =>
    if erases r then []
    else if Alike r st.flag st.value then [st]
    else [⟨st.source, r.1, newValue r st.value⟩]

/-- What is said by an added line. -/
def addedStatement (path : Path) (r : String × Chars) : Statement :=
  ⟨path, r.1, if isBackend r.1 then [] else r.2⟩

theorem upper_allowed {flag : String} (h : flag ∈ allowed) :
    IsToken flag.toList ∧ upper flag.toList = flag.toList := by
  simp only [allowed, List.mem_cons, List.not_mem_nil, or_false] at h
  rcases h with rfl | rfl | rfl | rfl | rfl | rfl | rfl | rfl | rfl <;>
    exact ⟨⟨by decide, Text.forall_of_all (by decide)⟩, by decide⟩

theorem rowSays_of_read {raw : Chars} {flag : String} {value : Chars} (hflag : flag ∈ allowed)
    (hread : (readLine raw).flag = flag) (hvalue : (readLine raw).value = value) :
    rowSays files env path raw = [⟨path, flag, value⟩] := by
  rw [rowSays, rowStatements_option (hread ▸ hflag), hread, hvalue]

theorem rowSays_addition {r : String × Chars} (hr : Editable r.1 r.2) (herases : erases r = false) :
    rowSays files env path (addition r) = [addedStatement path r] := by
  obtain ⟨htoken, hupper⟩ := upper_allowed hr.allowed
  cases hbackend : isBackend r.1 with
  | true =>
    have hline := readLine_token (b := []) (w := []) nofun htoken nofun
    rw [List.nil_append, List.append_nil, hupper, String.ofList_toList] at hline
    have haddition : addition r = r.1.toList := if_pos hbackend
    rw [haddition, addedStatement, if_pos hbackend]
    exact rowSays_of_read hr.allowed (by rw [hline]) (by rw [hline])
  | false =>
    have hnot : ¬ isBackend r.1 = true := by
      rw [hbackend]
      exact Bool.false_ne_true
    have hne : r.2 ≠ [] := fun hempty => of_decide_eq_false herases ⟨hnot, hempty⟩
    have hblank : Text.Blank [' '] := by
      intro c hc
      rw [List.mem_singleton.mp hc]
      decide
    have hline := readLine_value (b := []) (w := []) nofun htoken hblank (List.cons_ne_nil _ _)
      hr.trimmed hne nofun
    rw [List.nil_append, List.append_nil, hupper, String.ofList_toList] at hline
    have haddition : addition r = r.1.toList ++ [' '] ++ r.2 := if_neg hnot
    rw [haddition, addedStatement, if_neg hnot]
    exact rowSays_of_read hr.allowed (by rw [hline]) (by rw [hline])

theorem IsToken.plain {t : Chars} (h : IsToken t) : Plain t := by
  intro c hc
  by_contra hend
  have hchar : c = '\r' ∨ c = '\n' := of_decide_eq_true (eq_true_of_ne_false hend)
  have hsolid := h.solid c hc
  rcases hchar with rfl | rfl <;> exact absurd hsolid (by decide)

theorem plain_addition {r : String × Chars} (hr : Editable r.1 r.2) : Plain (addition r) := by
  have hflag := (upper_allowed hr.allowed).1.plain
  have hblank : Plain [' '] := by
    intro c hc
    rw [List.mem_singleton.mp hc]
    decide
  unfold addition
  split
  · exact hflag
  · exact (hflag.append hblank).append hr.plain

theorem usualEnding_mem {rows : List Row} (h : Lined rows) : usualEnding rows ∈ endings := by
  unfold usualEnding
  cases hfind : rows.find? fun row => row.2 ≠ [] with
  | none => exact List.mem_cons_of_mem _ List.mem_cons_self
  | some row =>
    have hne := List.find?_some hfind
    exact (h.ending row (List.mem_of_find?_eq_some hfind)).resolve_left (of_decide_eq_true hne)

/-- Where a row of the text owns the option, no file that is included does. -/
theorem Said.foreign (h : Said files env path text base) {r : String × Chars} (hr : Editable r.1 r.2)
    (hown : owned base r.1 = true → ∃ (i : Nat) (row : Row), (splitText text)[i]? = some row ∧
      about r.1 (readLine row.1).flag = true)
    {row : Row} (hrow : row ∈ splitText text) (hflag : (readLine row.1).flag ∉ allowed)
    {st : Statement} (hst : st ∈ rowSays files env path row.1) : about r.1 st.flag = false := by
  by_contra hnot
  have habout := eq_true_of_ne_false hnot
  have hallowed := about_allowed hr.allowed habout
  have hmem : st ∈ textStatements files env path text := by
    rw [textStatements_eq]
    exact List.mem_flatMap.mpr ⟨row, hrow, hst⟩
  have howned : owned base r.1 = true := by
    by_contra hno
    exact hnot (h.unowned (Bool.eq_false_iff.mpr hno) hmem)
  obtain ⟨i, own, hi, habout'⟩ := hown howned
  have hin := List.mem_of_getElem? hi
  have hallowed' := about_allowed hr.allowed habout'
  have hflags : (readLine own.1).flag ∈ optionFlags (rowSays files env path own.1) := by
    rw [optionFlags_row hallowed']
    exact List.mem_singleton_self _
  have hst' : st.flag ∈ optionFlags (rowSays files env path row.1) :=
    List.mem_map_of_mem (List.mem_filter.mpr
      ⟨hst, decide_eq_true (ne_of_allowed hallowed (by decide))⟩)
  rcases about_same habout' habout with hsame | ⟨hbackend, hrival⟩
  · have hfresh := h.fresh
    rw [textStatements_eq, optionFlags_flatMap, List.nodup_flatMap] at hfresh
    have hne : own ≠ row := by
      rintro rfl
      exact hflag hallowed'
    have : Std.Symm (Function.onFun List.Disjoint fun q : Row =>
        optionFlags (rowSays files env path q.1)) := ⟨fun _ _ hxy _ hx hy => hxy hy hx⟩
    have hdisjoint := hfresh.2.forall hin hrow hne
    exact hdisjoint hflags (hsame ▸ hst')
  · have hall : ∀ {q : Row} {f : String}, q ∈ splitText text →
        f ∈ optionFlags (rowSays files env path q.1) →
        f ∈ optionFlags (textStatements files env path text) := by
      intro q f hq hf
      rw [textStatements_eq, optionFlags_flatMap]
      exact List.mem_flatMap.mpr ⟨q, hq, hf⟩
    exact h.rivals _ (hall hin hflags) hbackend (hrival ▸ hall hrow hst')

theorem restate_other {st : Statement} (h : ∀ r ∈ rs, about r.1 st.flag = false) :
    restate rs st = [st] := by
  have hnone : (rs.find? fun r => about r.1 st.flag) = none :=
    List.find?_eq_none.mpr fun r hr => Bool.eq_false_iff.mp (h r hr)
  rw [restate, hnone]

/-- A row of the new text says what becomes of the statements of the old one. -/
theorem Said.row_restated (h : Said files env path text base) (hrs : ∀ r ∈ rs, Editable r.1 r.2)
    (hown : ∀ r ∈ rs, owned base r.1 = true → ∃ (i : Nat) (row : Row),
      (splitText text)[i]? = some row ∧ about r.1 (readLine row.1).flag = true)
    {row : Row} (hrow : row ∈ splitText text) :
    (if dropped rs row then [] else rowSays files env path (revised rs row).1) =
      (rowSays files env path row.1).flatMap (restate rs) := by
  by_cases hallowed : (readLine row.1).flag ∈ allowed
  · have hstates : rowSays files env path row.1 =
        [⟨path, (readLine row.1).flag, (readLine row.1).value⟩] :=
      rowSays_of_read hallowed rfl rfl
    rw [hstates, List.flatMap_singleton, restate]
    have hfind : (rs.find? fun r => about r.1 (readLine row.1).flag) = requestFor rs row.1 := rfl
    rw [hfind]
    cases h.outcome hrs hrow with
    | kept hdropped hsame hr =>
      rw [hdropped, if_neg Bool.false_ne_true, hsame, hstates]
      cases hrequest : requestFor rs row.1 with
      | none => rfl
      | some r =>
        obtain ⟨herases, halike⟩ := hr r hrequest
        dsimp only
        rw [herases, if_neg Bool.false_ne_true, if_pos halike]
    | deleted r hr herases hdropped =>
      rw [hdropped, hr, if_pos rfl]
      dsimp only
      rw [if_pos herases]
    | replaced r hr herases hdiffer hdropped body hbody hreplaced =>
      have hmem := (requestFor_mem hr).1
      rw [hdropped, if_neg Bool.false_ne_true, hbody, hr]
      dsimp only
      rw [herases, if_neg Bool.false_ne_true, if_neg hdiffer]
      exact rowSays_of_read (hrs r hmem).allowed hreplaced.flag hreplaced.value
  · have hnone : requestFor rs row.1 = none := by
      refine List.find?_eq_none.mpr fun r hr habout => hallowed ?_
      exact about_allowed (hrs r hr).allowed habout
    have hdropped : dropped rs row = false := by
      rw [dropped, hnone]
      rfl
    have hrevised : revised rs row = row := by
      rw [revised, hnone]
    rw [hdropped, if_neg Bool.false_ne_true, hrevised]
    have hsingle : ∀ sts : List Statement, sts.flatMap (fun st => [st]) = sts := fun sts => by simp
    conv_lhs => rw [← hsingle (rowSays files env path row.1)]
    refine List.flatMap_congr fun st hst => (restate_other fun r hr => ?_).symm
    exact h.foreign (hrs r hr) (hown r hr) hrow hallowed hst

theorem flatMap_kept (g : Row → List Statement) (rows : List Row) :
    (keptRows rs rows).flatMap g =
      rows.flatMap fun row => if dropped rs row then [] else g (revised rs row) := by
  induction rows with
  | nil => rfl
  | cons row rows ih =>
    rw [List.flatMap_cons, ← ih, keptRows, keptRows]
    cases hdropped : dropped rs row with
    | true =>
      rw [List.filter_cons_of_neg (by rw [hdropped]; exact Bool.false_ne_true)]
      rfl
    | false =>
      rw [List.filter_cons_of_pos (by rw [hdropped]; rfl), List.map_cons, List.flatMap_cons]
      rfl

/-- What the text of a draft says. -/
theorem Said.restated (h : Said files env path text base) (hrs : ∀ r ∈ rs, Editable r.1 r.2)
    {d : Draft} (hd : Drafted base (splitText text) rs d) {ending : Chars} (he : ending ∈ endings)
    (final : Bool) :
    textStatements files env path (d.text ending final) =
        (textStatements files env path text).flatMap (restate rs) ++
          (adding base rs).map (addedStatement path) ∧
      (splitText (d.text ending final)).length ≤
        (splitText text).length + (adding base rs).length := by
  have hadding : ∀ r ∈ adding base rs, Editable r.1 r.2 ∧ erases r = false := by
    intro r hr
    obtain ⟨hmem, hcond⟩ := List.mem_filter.mp hr
    exact ⟨hrs r hmem, by simpa using (Bool.and_eq_true_iff.mp hcond).2⟩
  have hplain : ∀ line ∈ d.additions, Plain line := by
    intro line hline
    rw [hd.additions] at hline
    obtain ⟨r, hr, rfl⟩ := List.mem_map.mp hline
    exact plain_addition (hadding r hr).1
  obtain ⟨hlined, hbody⟩ := h.lined_kept hrs
  obtain ⟨rows, htext, hrows, hfirst⟩ := closed_rows hlined hbody he final hplain
  rw [hd.text_eq, htext]
  constructor
  · have hscan : textStatements files env path (joined rows) =
        (rows.map Prod.fst).flatMap (rowSays files env path) := by
      rw [List.flatMap_map]
      exact scan_joined (rowStatements_nil files env _ path) hrows
    rw [hscan, hfirst, List.flatMap_append, List.flatMap_map, flatMap_kept, textStatements_eq,
      List.flatMap_assoc, hd.additions, List.flatMap_map]
    congr 1
    · exact List.flatMap_congr fun row hrow => h.row_restated hrs hd.own hrow
    · rw [← List.flatMap_pure_eq_map]
      exact List.flatMap_congr fun r hr => rowSays_addition (hadding r hr).1 (hadding r hr).2
  · have hcount := congrArg List.length hfirst
    simp only [List.length_map, List.length_append] at hcount
    have hkept : (keptRows rs (splitText text)).length ≤ (splitText text).length := by
      rw [keptRows, List.length_map]
      exact List.length_filter_le _ _
    have hadded : d.additions.length = (adding base rs).length := by
      rw [hd.additions, List.length_map]
    have hsplit := length_splitText_joined hrows
    omega

end

end OpenSaab.Config
