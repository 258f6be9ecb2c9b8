import OpenSaab.Config.Lossless

/-!
# Effective edits

What is read back of an edit: the requests, and all that the text said before of other options.
-/

namespace OpenSaab.Config

/-! ## One request for an option -/

theorem about_both {q r said : String} (hq : about q said = true) (hr : about r said = true) :
    q = r ∨ isBackend r = true ∧ q = rival r := by
  rcases of_decide_eq_true hr with rfl | ⟨hbackend, rfl⟩
  · rcases of_decide_eq_true hq with heq | ⟨hbackend, heq⟩
    · exact .inl heq.symm
    · rw [heq, rival_rival hbackend]
      exact .inr ⟨isBackend_rival hbackend, rfl⟩
  · rcases of_decide_eq_true hq with heq | ⟨hqbackend, heq⟩
    · exact .inr ⟨hbackend, heq.symm⟩
    · rw [← rival_rival hqbackend, ← heq, rival_rival hbackend]
      exact .inl rfl

theorem about_self (flag : String) : about flag flag = true := decide_eq_true (.inl rfl)

section Requests

variable {changes requested : Edits}

theorem Requests.mem_iff (h : Requests changes requested) {r : String × Chars} :
    r ∈ requested.toList ↔ Requested changes r.1 r.2 := by
  rw [← h.iff]
  exact Std.TreeMap.mem_toList_iff_getElem?_eq_some

theorem Requests.editables (h : Requests changes requested) :
    ∀ r ∈ requested.toList, Editable r.1 r.2 :=
  fun r hr => h.editable r.1 r.2 (Table.get_of_mem hr)

theorem Requests.value (h : Requests changes requested) {q r : String × Chars}
    (hq : Requested changes q.1 q.2) (hr : Requested changes r.1 r.2) (heq : q.1 = r.1) : q = r := by
  have hget := (h.iff _ _).mpr hq
  rw [heq, (h.iff _ _).mpr hr] at hget
  exact Prod.ext heq (Option.some.inj hget).symm

/-- Two requests are not for two backends. -/
theorem Requests.no_rival (h : Requests changes requested) {q r : String × Chars}
    (hq : Requested changes q.1 q.2) (hr : Requested changes r.1 r.2)
    (hbackend : isBackend r.1 = true) : q.1 ≠ rival r.1 := by
  intro heq
  have hmem : ∀ {p : String × Chars}, Requested changes p.1 p.2 → p.1 ∈ requested := fun hp =>
    Std.TreeMap.mem_iff_isSome_getElem?.mpr (Option.isSome_of_eq_some ((h.iff _ _).mpr hp))
  have hqmem := hmem hq
  have hrmem := hmem hr
  rw [heq] at hqmem
  rcases backend_cases hbackend with hr' | hr' <;> rw [hr'] at hqmem hrmem
  · exact h.single ⟨hrmem, hqmem⟩
  · exact h.single ⟨hqmem, hrmem⟩

theorem Requests.same (h : Requests changes requested) {q r : String × Chars} {said : String}
    (hq : Requested changes q.1 q.2) (hr : Requested changes r.1 r.2)
    (hq' : about q.1 said = true) (hr' : about r.1 said = true) : q = r := by
  rcases about_both hq' hr' with heq | ⟨hbackend, heq⟩
  · exact h.value hq hr heq
  · exact absurd heq (h.no_rival hq hr hbackend)

theorem Requests.find (h : Requests changes requested) {r : String × Chars} {said : String}
    (hr : Requested changes r.1 r.2) (habout : about r.1 said = true) :
    (requested.toList.find? fun q => about q.1 said) = some r := by
  have hsome : (requested.toList.find? fun q => about q.1 said).isSome = true :=
    List.find?_isSome.mpr ⟨r, h.mem_iff.mpr hr, habout⟩
  obtain ⟨q, hq⟩ := Option.isSome_iff_exists.mp hsome
  have hmem := h.mem_iff.mp (List.mem_of_find?_eq_some hq)
  have hfound := List.find?_some hq
  rw [hq, h.same hmem hr hfound habout]

end Requests

/-! ## Statements after the edit -/

/-- Options of two backends do not come to the same. -/
theorem alike_flag {r : String × Chars} {said : String} {value : Chars}
    (habout : about r.1 said = true) (halike : Alike r said value) : said = r.1 := by
  rcases of_decide_eq_true habout with heq | ⟨hbackend, rfl⟩
  · exact heq
  · exfalso
    unfold Alike at halike
    rcases backend_cases hbackend with hr | hr <;> rw [hr] at halike <;> cases halike

theorem restate_cases {rs : List (String × Chars)} {st st' : Statement} (h : st' ∈ restate rs st) :
    (st' = st ∧ ∀ r, (rs.find? fun r => about r.1 st.flag) = some r →
      erases r = false ∧ Alike r st.flag st.value) ∨
    ∃ r ∈ rs, about r.1 st.flag = true ∧ erases r = false ∧
      st' = ⟨st.source, r.1, newValue r st.value⟩ := by
  unfold restate at h
  cases hfind : rs.find? fun r => about r.1 st.flag with
  | none =>
    rw [hfind] at h
    exact .inl ⟨List.mem_singleton.mp h, nofun⟩
  | some r =>
    rw [hfind] at h
    dsimp only at h
    split at h
    · cases h
    next herases =>
    have herases := eq_false_of_ne_true herases
    split at h
    · next halike =>
      refine .inl ⟨List.mem_singleton.mp h, fun q hq => ?_⟩
      obtain rfl := Option.some.inj hq
      exact ⟨herases, halike⟩
    · have habout := List.find?_some hfind
      exact .inr ⟨r, List.mem_of_find?_eq_some hfind, habout, herases, List.mem_singleton.mp h⟩

theorem effect_newValue {r : String × Chars} (hr : Editable r.1 r.2) (old : Chars) :
    effect r.1 (newValue r old) = effect r.1 r.2 := by
  unfold newValue
  split
  · next hbackend => rw [hr.bare hbackend]
  · exact effect_quoted hr.trimmed

theorem effect_added {path : Path} {r : String × Chars} (hr : Editable r.1 r.2) :
    effect r.1 (addedStatement path r).value = effect r.1 r.2 := by
  unfold addedStatement
  dsimp only
  split
  · next hbackend => rw [hr.bare hbackend]
  · rfl

/-- The statements of the new text that have a flag, where no request is about it. -/
theorem filter_restated {rs : List (String × Chars)} {flag : String}
    (h : ∀ r ∈ rs, about r.1 flag = false) (sts : List Statement) :
    (sts.flatMap (restate rs)).filter (·.flag = flag) = sts.filter (·.flag = flag) := by
  induction sts with
  | nil => rfl
  | cons st sts ih =>
    rw [List.flatMap_cons, List.filter_append, ih]
    by_cases hst : st.flag = flag
    · have hsame : restate rs st = [st] := restate_other fun r hr => by
        rw [hst]
        exact h r hr
      have hcons : ∀ l : List Statement,
          (st :: l).filter (·.flag = flag) = st :: l.filter (·.flag = flag) :=
        fun l => List.filter_cons_of_pos (decide_eq_true hst)
      rw [hsame, hcons, hcons]
      rfl
    · have hnone : (restate rs st).filter (·.flag = flag) = [] := by
        rw [List.filter_eq_nil_iff]
        intro st' hst' heq
        have heq := of_decide_eq_true heq
        rcases restate_cases hst' with ⟨rfl, _⟩ | ⟨r, hr, _, _, rfl⟩
        · exact hst heq
        · have hself := h r hr
          rw [← heq, about_self] at hself
          cases hself
      rw [hnone, List.filter_cons_of_neg (by simpa using hst)]
      rfl

theorem version_fold (env : Environment) (sts : List Statement) (m : Meaning) :
    (sts.foldl (Meaning.say env) m).version =
      (sts.filter (·.flag = "@")).foldl (fun _ st => st.value) m.version := by
  induction sts generalizing m with
  | nil => rfl
  | cons st sts ih =>
    rw [List.foldl_cons, ih]
    unfold Meaning.say
    by_cases hst : st.flag = "@"
    · have hcons : (st :: sts).filter (·.flag = "@") = st :: sts.filter (·.flag = "@") :=
        List.filter_cons_of_pos (decide_eq_true hst)
      have hnot : ¬ st.isOption = true := fun hoption => of_decide_eq_true hoption hst
      rw [hcons, if_neg hnot]
      rfl
    · have hoption : st.isOption = true := decide_eq_true hst
      rw [List.filter_cons_of_neg (by simpa using hst), if_pos hoption]

theorem saidOf_eq_head (sts : List Statement) (flag : String) :
    saidOf sts flag = (sts.filter (·.flag = flag)).head? := List.head?_filter.symm

/-- An option is said once. -/
theorem saidOf_of_mem {sts : List Statement} (h : (optionFlags sts).Nodup) {st : Statement}
    (hst : st ∈ sts) (hoption : st.flag ≠ "@") : saidOf sts st.flag = some st := by
  induction sts with
  | nil => cases hst
  | cons s sts ih =>
    have happend : optionFlags (s :: sts) = optionFlags [s] ++ optionFlags sts :=
      optionFlags_append [s] sts
    rcases List.mem_cons.mp hst with rfl | hst
    · exact List.find?_cons_of_pos (decide_eq_true rfl)
    · have hmem : st.flag ∈ optionFlags sts :=
        List.mem_map_of_mem (List.mem_filter.mpr ⟨hst, decide_eq_true hoption⟩)
      have hne : ¬ s.flag = st.flag := by
        intro heq
        have hs : Statement.isOption s = true := decide_eq_true (heq ▸ hoption)
        rw [optionFlags, List.filter_cons_of_pos hs, List.map_cons, List.nodup_cons] at h
        exact h.1 (heq ▸ hmem)
      rw [happend] at h
      unfold saidOf
      rw [List.find?_cons_of_neg (by simpa using hne)]
      exact ih (List.nodup_append.mp h).2.1 hst

/-! ## Lossless edits -/

/-- What an edit makes of a row of the text. -/
inductive Revised (changes : Edits) (row : Row) : Chars → Prop
  | kept (h : ∀ r : String × Chars, Requested changes r.1 r.2 →
      about r.1 (readLine row.1).flag = true →
      erases r = false ∧ Alike r (readLine row.1).flag (readLine row.1).value) :
      Revised changes row (row.1 ++ row.2)
  | deleted (r : String × Chars) (hr : Requested changes r.1 r.2)
      (habout : about r.1 (readLine row.1).flag = true) (herases : erases r = true) :
      Revised changes row []
  | replaced (r : String × Chars) (hr : Requested changes r.1 r.2)
      (habout : about r.1 (readLine row.1).flag = true) (herases : erases r = false)
      (hdiffer : ¬ Alike r (readLine row.1).flag (readLine row.1).value) (body : Chars)
      (hreplaced : Replaced r row.1 body) : Revised changes row (body ++ row.2)

/-- The requests for options that the text does not have. -/
structure Appended (changes : Edits) (base : Tech2WinConfig) (rs : List (String × Chars)) :
    Prop where
  iff : ∀ r, r ∈ rs ↔ Requested changes r.1 r.2 ∧ erases r = false ∧
    ∀ st ∈ stated base.lines, about r.1 st.flag = false
  single : rs.Pairwise fun q r => q.1 ≠ r.1

/-- The text with the additions at its end. -/
def appended (ending : Chars) (final : Bool) (kept : Chars) (rs : List (String × Chars)) : Chars :=
  (if rs ≠ [] ∧ kept ≠ [] ∧ ¬ endsLine kept = true then kept ++ ending else kept) ++
    added ending final (rs.map addition)

/-- The option has the requested value already. -/
def Current (base : Tech2WinConfig) (r : String × Chars) : Prop :=
  if erases r then base.statementOf r.1 = none
  else ∃ st, base.statementOf r.1 = some st ∧ effect r.1 st.value = effect r.1 r.2

/-- What an edit of `base` comes to. -/
structure Lossless (env : Environment) (changes : Edits) (base c : Tech2WinConfig) : Prop where
  text : ∃ pieces rs, List.Forall₂ (Revised changes) (splitText base.sourceText) pieces ∧
    Appended changes base rs ∧
    c.sourceText = appended (usualEnding (splitText base.sourceText)) (endsLine base.sourceText)
      pieces.flatten rs ∧
    (splitText c.sourceText).length ≤ (splitText base.sourceText).length + rs.length
  requested : ∀ r : String × Chars, Requested changes r.1 r.2 → erases r = false →
    ∃ st, c.statementOf r.1 = some st ∧ effect r.1 st.value = effect r.1 r.2 ∧
      st.source = base.sourcePath
  removed : ∀ r : String × Chars, Requested changes r.1 r.2 → erases r = true → c.statementOf r.1 = none
  rival : ∀ r : String × Chars, Requested changes r.1 r.2 → isBackend r.1 = true →
    c.statementOf (rival r.1) = none
  other : ∀ flag, (∀ r : String × Chars, Requested changes r.1 r.2 → about r.1 flag = false) →
    c.statementOf flag = base.statementOf flag
  version : c.version = base.version
  single : (optionFlags (stated c.lines)).Nodup
  statements : ∀ st ∈ stated c.lines, st ∈ stated base.lines ∨
    ∃ r : String × Chars, Requested changes r.1 r.2 ∧ erases r = false ∧ st.flag = r.1 ∧
      effect r.1 st.value = effect r.1 r.2
  shows : Shows env (stated c.lines) c.meaning
  current : (∀ r : String × Chars, Requested changes r.1 r.2 → Current base r) →
    c.sourceText = base.sourceText

section Lossless

variable {files : Files} {env : Environment} {path : Path} {text : Chars} {base : Tech2WinConfig}
  {changes requested : Edits}

theorem owned_iff (hsaid : Said files env path text base) {flag : String} (hflag : flag ∈ allowed) :
    owned base flag = false ↔ ∀ st ∈ stated base.lines, about flag st.flag = false := by
  constructor
  · intro h st hst
    rw [hsaid.lines] at hst
    exact hsaid.unowned h hst
  · intro h
    by_contra howned
    obtain ⟨l, hl⟩ := Option.isSome_iff_exists.mp (eq_true_of_ne_false howned)
    have howns := List.find?_some hl
    have habout : about flag l.flag = true := howns
    have hallowed := about_allowed hflag habout
    have hstatement : l.isStatement = true := by
      refine decide_eq_true ⟨ne_of_allowed hallowed (by decide),
        ne_of_allowed hallowed (by decide), ?_⟩
      rw [allowed_head hallowed]
      decide
    have hno := h l.statement (List.mem_map_of_mem (List.mem_filter.mpr
      ⟨List.mem_of_find?_eq_some hl, hstatement⟩))
    exact Bool.false_ne_true (hno.symm.trans habout)

theorem Requests.appended (h : Requests changes requested)
    (hsaid : Said files env path text base) : Appended changes base (adding base requested.toList) := by
  constructor
  · intro r
    have hcond : (!owned base r.1 && !erases r) = true ↔ owned base r.1 = false ∧ erases r = false := by
      rw [Bool.and_eq_true_iff, Bool.not_eq_true', Bool.not_eq_true']
    rw [adding, List.mem_filter, hcond, h.mem_iff]
    constructor
    · rintro ⟨hr, howned, herases⟩
      have hallowed := (h.editables r (h.mem_iff.mpr hr)).allowed
      exact ⟨hr, herases, (owned_iff hsaid hallowed).mp howned⟩
    · rintro ⟨hr, herases, hno⟩
      have hallowed := (h.editables r (h.mem_iff.mpr hr)).allowed
      exact ⟨hr, (owned_iff hsaid hallowed).mpr hno, herases⟩
  · exact (h.pairwise.imp fun hne => hne.1).filter _

/-- What becomes of the rows. -/
theorem Said.pieces (hsaid : Said files env path text base) (h : Requests changes requested) :
    ∃ pieces, List.Forall₂ (Revised changes) (splitText text) pieces ∧
      pieces.flatten = joined (keptRows requested.toList (splitText text)) := by
  have hrow : ∀ row ∈ splitText text, Revised changes row
      (if dropped requested.toList row then [] else
        (revised requested.toList row).1 ++ (revised requested.toList row).2) := by
    intro row hrow
    cases hsaid.outcome h.editables hrow with
    | kept hdropped hsame hr =>
      rw [hdropped, if_neg Bool.false_ne_true, hsame]
      exact .kept fun r hreq habout => hr r (h.find hreq habout)
    | deleted r hr herases hdropped =>
      obtain ⟨hmem, habout⟩ := requestFor_mem hr
      rw [hdropped, if_pos rfl]
      exact .deleted r (h.mem_iff.mp hmem) habout herases
    | replaced r hr herases hdiffer hdropped body hbody hreplaced =>
      obtain ⟨hmem, habout⟩ := requestFor_mem hr
      rw [hdropped, if_neg Bool.false_ne_true, hbody]
      exact .replaced r (h.mem_iff.mp hmem) habout herases hdiffer body hreplaced
  refine ⟨(splitText text).map fun row => if dropped requested.toList row then [] else
    (revised requested.toList row).1 ++ (revised requested.toList row).2, ?_, ?_⟩
  · rw [List.forall₂_map_right_iff, List.forall₂_same]
    exact hrow
  · clear hrow
    induction splitText text with
    | nil => rfl
    | cons row rows ih =>
      rw [List.map_cons, List.flatten_cons, ih, keptRows, keptRows]
      cases hdropped : dropped requested.toList row with
      | true =>
        rw [List.filter_cons_of_neg (by rw [hdropped]; exact Bool.false_ne_true)]
        rfl
      | false =>
        rw [List.filter_cons_of_pos (by rw [hdropped]; rfl), List.map_cons, joined_cons]
        rfl

/-- A statement about a request stands in the text itself. -/
theorem Said.own_source (hsaid : Said files env path text base) (h : Requests changes requested)
    (hown : ∀ r ∈ requested.toList, owned base r.1 = true → ∃ (i : Nat) (row : Row),
      (splitText text)[i]? = some row ∧ about r.1 (readLine row.1).flag = true)
    {r : String × Chars} (hr : Requested changes r.1 r.2) {st : Statement}
    (hst : st ∈ textStatements files env path text) (habout : about r.1 st.flag = true) :
    st.source = path := by
  have hmem := h.mem_iff.mpr hr
  rw [textStatements_eq] at hst
  obtain ⟨row, hrow, hst⟩ := List.mem_flatMap.mp hst
  by_cases hallowed : (readLine row.1).flag ∈ allowed
  · rw [rowSays, rowStatements_option hallowed] at hst
    rw [List.mem_singleton.mp hst]
  · have hno := hsaid.foreign (h.editables r hmem) (hown r hmem) hrow hallowed hst
    rw [habout] at hno
    cases hno

/-- What the new text says of a flag that is requested. -/
theorem Requests.said_new (h : Requests changes requested) {sts : List Statement}
    {r : String × Chars} (hr : Requested changes r.1 r.2) {st : Statement}
    (hst : st ∈ sts.flatMap (restate requested.toList) ++
      (adding base requested.toList).map (addedStatement path))
    (habout : about r.1 st.flag = true) :
    erases r = false ∧ st.flag = r.1 ∧ effect r.1 st.value = effect r.1 r.2 ∧
      (st.source = path ∨ ∃ old ∈ sts, about r.1 old.flag = true ∧ st.source = old.source) := by
  rcases List.mem_append.mp hst with hst | hst
  · obtain ⟨old, hold, hst⟩ := List.mem_flatMap.mp hst
    rcases restate_cases hst with ⟨rfl, hkept⟩ | ⟨q, hq, hqabout, herases, rfl⟩
    · obtain ⟨herases, halike⟩ := hkept r (h.find hr habout)
      have hflag := alike_flag habout halike
      refine ⟨herases, hflag, ?_, .inr ⟨st, hold, habout, rfl⟩⟩
      rw [← hflag]
      rw [Alike, hflag] at halike
      exact hflag ▸ halike.symm
    · obtain rfl := h.same (h.mem_iff.mp hq) hr (about_self q.1) habout
      exact ⟨herases, rfl, effect_newValue (h.editables q hq) _,
        .inr ⟨old, hold, hqabout, rfl⟩⟩
  · obtain ⟨q, hq, rfl⟩ := List.mem_map.mp hst
    obtain ⟨hmem, hcond⟩ := List.mem_filter.mp hq
    obtain rfl := h.same (h.mem_iff.mp hmem) hr (about_self q.1) habout
    exact ⟨by simpa using (Bool.and_eq_true_iff.mp hcond).2, rfl,
      effect_added (h.editables q hmem), .inl rfl⟩

/-- What the new text says of a flag that no request is about. -/
theorem Requests.filter_new (h : Requests changes requested) (base : Tech2WinConfig) (path : Path)
    {flag : String}
    (hflag : ∀ r : String × Chars, Requested changes r.1 r.2 → about r.1 flag = false)
    (sts : List Statement) :
    (sts.flatMap (restate requested.toList) ++
      (adding base requested.toList).map (addedStatement path)).filter (·.flag = flag) =
      sts.filter (·.flag = flag) := by
  have hno : ∀ r ∈ requested.toList, about r.1 flag = false := fun r hr =>
    hflag r (h.mem_iff.mp hr)
  have hadded : ((adding base requested.toList).map (addedStatement path)).filter
      (·.flag = flag) = [] := by
    rw [List.filter_eq_nil_iff]
    intro st hst heq
    obtain ⟨r, hr, rfl⟩ := List.mem_map.mp hst
    have hself := hno r (List.mem_of_mem_filter hr)
    rw [← of_decide_eq_true heq] at hself
    exact Bool.false_ne_true (hself.symm.trans (about_self r.1))
  rw [List.filter_append, filter_restated hno, hadded, List.append_nil]

/-- A request that takes nothing away is answered. -/
theorem Requests.said_some (h : Requests changes requested) (path : Path) {sts : List Statement}
    (howned : ∀ r : String × Chars, Requested changes r.1 r.2 → owned base r.1 = true →
      ∃ st ∈ sts, about r.1 st.flag = true)
    {r : String × Chars} (hr : Requested changes r.1 r.2) (herases : erases r = false) :
    ∃ st ∈ sts.flatMap (restate requested.toList) ++
      (adding base requested.toList).map (addedStatement path), st.flag = r.1 := by
  cases hown : owned base r.1 with
  | false =>
    refine ⟨addedStatement path r, List.mem_append_right _ (List.mem_map_of_mem ?_), rfl⟩
    refine List.mem_filter.mpr ⟨h.mem_iff.mpr hr, ?_⟩
    rw [hown, herases]
    rfl
  | true =>
    obtain ⟨st, hst, habout⟩ := howned r hr hown
    have hfind := h.find hr habout
    by_cases halike : Alike r st.flag st.value
    · refine ⟨st, List.mem_append_left _ (List.mem_flatMap.mpr ⟨st, hst, ?_⟩),
        alike_flag habout halike⟩
      rw [restate, hfind]
      dsimp only
      rw [herases, if_neg Bool.false_ne_true, if_pos halike]
      exact List.mem_singleton_self st
    · refine ⟨⟨st.source, r.1, newValue r st.value⟩,
        List.mem_append_left _ (List.mem_flatMap.mpr ⟨st, hst, ?_⟩), rfl⟩
      rw [restate, hfind]
      dsimp only
      rw [herases, if_neg Bool.false_ne_true, if_neg halike]
      exact List.mem_singleton_self _

/-- Where all requests are met, the rows are kept as they are. -/
theorem Said.kept_current (hsaid : Said files env path text base) (h : Requests changes requested)
    (hcurrent : ∀ r : String × Chars, Requested changes r.1 r.2 → Current base r) :
    keptRows requested.toList (splitText text) = splitText text ∧
      adding base requested.toList = [] := by
  have hstates : ∀ flag, base.statementOf flag = saidOf (textStatements files env path text) flag :=
    fun flag => by rw [Tech2WinConfig.statementOf, hsaid.lines]
  have hsaidrow : ∀ row ∈ splitText text, (readLine row.1).flag ∈ allowed →
      base.statementOf (readLine row.1).flag = some ⟨path, (readLine row.1).flag, (readLine row.1).value⟩ := by
    intro row hrow hallowed
    rw [hstates]
    exact saidOf_of_mem hsaid.fresh (row_said _ _ _ hrow hallowed) (ne_of_allowed hallowed (by decide))
  have hmet : ∀ row ∈ splitText text, ∀ r : String × Chars, Requested changes r.1 r.2 →
      about r.1 (readLine row.1).flag = true →
      erases r = false ∧ Alike r (readLine row.1).flag (readLine row.1).value := by
    intro row hrow r hr habout
    have hallowed := about_allowed (h.editables r (h.mem_iff.mpr hr)).allowed habout
    have hrowsaid := hsaidrow row hrow hallowed
    have hcur := hcurrent r hr
    unfold Current at hcur
    rcases of_decide_eq_true habout with hflag | ⟨hbackend, hrival⟩
    · rw [hflag] at hrowsaid
      cases herases : erases r with
      | true =>
        rw [if_pos herases, hrowsaid] at hcur
        cases hcur
      | false =>
        rw [if_neg (by rw [herases]; exact Bool.false_ne_true)] at hcur
        obtain ⟨st, hst, heffect⟩ := hcur
        obtain rfl := Option.some.inj (hrowsaid.symm.trans hst)
        refine ⟨rfl, ?_⟩
        rw [Alike, hflag]
        exact heffect.symm
    · exfalso
      have herases : ¬ erases r = true := fun he => (of_decide_eq_true he).1 hbackend
      rw [if_neg herases] at hcur
      obtain ⟨st, hst, _⟩ := hcur
      rw [hstates] at hst
      have hmem : r.1 ∈ optionFlags (textStatements files env path text) :=
        (saidOf_isSome (ne_of_allowed (h.editables r (h.mem_iff.mpr hr)).allowed
          (by decide))).mp (Option.isSome_of_eq_some hst)
      refine hsaid.rivals r.1 hmem hbackend ?_
      rw [← hrival]
      rw [hstates] at hrowsaid
      exact (saidOf_isSome (ne_of_allowed hallowed (by decide))).mp
        (Option.isSome_of_eq_some hrowsaid)
  constructor
  · have hsame : ∀ row ∈ splitText text, dropped requested.toList row = false ∧
        revised requested.toList row = row := by
      intro row hrow
      cases hsaid.outcome h.editables hrow with
      | kept hdropped hsame _ => exact ⟨hdropped, hsame⟩
      | deleted r hr herases _ =>
        obtain ⟨hmem, habout⟩ := requestFor_mem hr
        rw [(hmet row hrow r (h.mem_iff.mp hmem) habout).1] at herases
        cases herases
      | replaced r hr _ hdiffer _ _ _ _ =>
        obtain ⟨hmem, habout⟩ := requestFor_mem hr
        exact absurd (hmet row hrow r (h.mem_iff.mp hmem) habout).2 hdiffer
    have hfilter : ((splitText text).filter fun row => !dropped requested.toList row) =
        splitText text := by
      rw [List.filter_eq_self]
      intro row hrow
      rw [(hsame row hrow).1]
      rfl
    rw [keptRows, hfilter]
    conv_rhs => rw [← List.map_id (splitText text)]
    exact List.map_congr_left fun row hrow => (hsame row hrow).2
  · refine List.filter_eq_nil_iff.mpr fun r hr hcond => ?_
    obtain ⟨hunowned, herases⟩ := Bool.and_eq_true_iff.mp hcond
    have herases : ¬ erases r = true := by
      intro he
      rw [he] at herases
      cases herases
    have hcur := hcurrent r (h.mem_iff.mp hr)
    rw [Current, if_neg herases] at hcur
    obtain ⟨st, hst, _⟩ := hcur
    have hin := saidOf_flag hst
    have hallowed := (h.editables r hr).allowed
    have hno := (owned_iff hsaid hallowed).mp (by simpa using hunowned) st hin.1
    rw [hin.2, about_self] at hno
    cases hno

/-- An edit leaves what it is not about, in the text and in what is read of it. -/
theorem edited_lossless (files : Files) (c c' : Tech2WinConfig) (changes : Edits)
    (h : c.edited files changes = .ok c') :
    ∃ base result, parseWithEnvironment files c.sourcePath c.sourceText c.environment = .ok base ∧
      parseWithEnvironment files c.sourcePath c'.sourceText c.environment = .ok result ∧
      c' = { result with
        encoding := c.encoding, loadedBytes := c.loadedBytes, loadedPath := c.loadedPath } ∧
      base.sourceText = c.sourceText ∧ base.sourcePath = c.sourcePath ∧
      Lossless c.environment changes base c' := by
  obtain ⟨requested, hrequests, h⟩ := Program.except_bind_ok h
  obtain ⟨base, hbase, h⟩ := Program.except_bind_ok h
  obtain ⟨d, hdraft, h⟩ := Program.except_bind_ok h
  obtain ⟨result, hresult, h⟩ := Program.except_bind_ok h
  obtain rfl := Except.ok.inj h
  have hreq := requests_ok hrequests
  have hold := parse_said hbase
  have hnew := parse_said hresult
  have hd := edit_drafted hbase hrequests hdraft
  have hending := usualEnding_mem (lined_splitText c.sourceText)
  obtain ⟨hstatements, hlength⟩ := hold.restated hreq.editables hd hending (endsLine c.sourceText)
  have hlines : stated result.lines = (stated base.lines).flatMap (restate requested.toList) ++
      (adding base requested.toList).map (addedStatement c.sourcePath) := by
    rw [hnew.lines, hold.lines, hstatements]
  obtain ⟨pieces, hpieces, hflat⟩ := hold.pieces hreq
  have htext : result.sourceText = appended (usualEnding (splitText c.sourceText))
      (endsLine c.sourceText) pieces.flatten (adding base requested.toList) := by
    rw [hnew.sourceText, hd.text_eq, hflat, hd.additions, appended]
    simp only [ne_eq, List.map_eq_nil_iff]
  have howned : ∀ r : String × Chars, Requested changes r.1 r.2 → owned base r.1 = true →
      ∃ st ∈ stated base.lines, about r.1 st.flag = true := by
    intro r hr hown
    have hallowed := (hreq.editables r (hreq.mem_iff.mpr hr)).allowed
    by_contra hno
    refine Bool.false_ne_true (((owned_iff hold hallowed).mpr fun st hst => ?_).symm.trans hown)
    by_contra habout
    exact hno ⟨st, hst, eq_true_of_ne_false habout⟩
  have hpath := hold.sourcePath
  refine ⟨base, result, hbase, ?_, rfl, hold.sourceText, hpath, ?_, ?_, ?_, ?_, ?_, ?_, ?_, ?_, ?_, ?_⟩
  · change parseWithEnvironment files c.sourcePath result.sourceText c.environment = _
    rw [hnew.sourceText]
    exact hresult
  · rw [hold.sourceText]
    refine ⟨pieces, _, hpieces, hreq.appended hold, htext, ?_⟩
    change (splitText result.sourceText).length ≤ _
    rw [hnew.sourceText]
    exact hlength
  · intro r hr herases
    obtain ⟨new, hmem, hflag⟩ := hreq.said_some c.sourcePath howned hr herases
    rw [← hlines] at hmem
    have hsome : (saidOf (stated result.lines) r.1).isSome = true :=
      List.find?_isSome.mpr ⟨new, hmem, decide_eq_true hflag⟩
    obtain ⟨st, hst⟩ := Option.isSome_iff_exists.mp hsome
    obtain ⟨hin, hst'⟩ := saidOf_flag hst
    rw [hlines] at hin
    obtain ⟨_, _, heffect, hsource⟩ := hreq.said_new hr hin (hst' ▸ about_self r.1)
    refine ⟨st, hst, heffect, ?_⟩
    rw [hpath]
    rcases hsource with hsource | ⟨old, hin, habout, hsource⟩
    · exact hsource
    · rw [hsource]
      rw [hold.lines] at hin
      exact hold.own_source hreq hd.own hr hin habout
  · intro r hr herases
    by_contra hsome
    obtain ⟨st, hst⟩ := Option.ne_none_iff_exists'.mp hsome
    obtain ⟨hin, hst'⟩ := saidOf_flag hst
    rw [hlines] at hin
    rw [(hreq.said_new hr hin (hst' ▸ about_self r.1)).1] at herases
    cases herases
  · intro r hr hbackend
    by_contra hsome
    obtain ⟨st, hst⟩ := Option.ne_none_iff_exists'.mp hsome
    obtain ⟨hin, hst'⟩ := saidOf_flag hst
    rw [hlines] at hin
    have habout : about r.1 st.flag = true := decide_eq_true (.inr ⟨hbackend, hst'⟩)
    have hflag := (hreq.said_new hr hin habout).2.1
    exact rival_ne hbackend (hst'.symm.trans hflag)
  · intro flag hflag
    change saidOf (stated result.lines) flag = saidOf (stated base.lines) flag
    rw [saidOf_eq_head, saidOf_eq_head, hlines, hreq.filter_new base c.sourcePath hflag]
  · change result.meaning.version = base.meaning.version
    have hversion : ∀ r : String × Chars, Requested changes r.1 r.2 → about r.1 "@" = false := by
      intro r hr
      by_contra habout
      have hallowed := (hreq.editables r (hreq.mem_iff.mpr hr)).allowed
      exact absurd (about_allowed hallowed (eq_true_of_ne_false habout)) (by decide)
    rw [hnew.meaning, hold.meaning, version_fold, version_fold, ← hnew.lines, ← hold.lines, hlines,
      hreq.filter_new _ _ hversion]
  · change (optionFlags (stated result.lines)).Nodup
    rw [hnew.lines]
    exact hnew.fresh
  · intro st hst
    change st ∈ stated result.lines at hst
    by_cases habout : ∃ r : String × Chars, Requested changes r.1 r.2 ∧ about r.1 st.flag = true
    · obtain ⟨r, hr, habout⟩ := habout
      rw [hlines] at hst
      obtain ⟨herases, hflag, heffect, _⟩ := hreq.said_new hr hst habout
      exact .inr ⟨r, hr, herases, hflag, heffect⟩
    · left
      have hno : ∀ r : String × Chars, Requested changes r.1 r.2 → about r.1 st.flag = false :=
        fun r hr => by_contra fun hnot => habout ⟨r, hr, eq_true_of_ne_false hnot⟩
      have hfilter := hreq.filter_new base c.sourcePath hno (stated base.lines)
      rw [← hlines] at hfilter
      have hmem : st ∈ (stated result.lines).filter (·.flag = st.flag) :=
        List.mem_filter.mpr ⟨hst, decide_eq_true rfl⟩
      rw [hfilter] at hmem
      exact List.mem_of_mem_filter hmem
  · change Shows _ (stated result.lines) result.meaning
    rw [hnew.lines]
    exact hnew.shows
  · intro hcurrent
    obtain ⟨hkept, hadds⟩ := hold.kept_current hreq hcurrent
    change result.sourceText = _
    rw [htext, hflat, hkept, hadds, joined_splitText, hold.sourceText]
    simp [appended, added]

end Lossless

def cardConfig : Tech2WinConfig :=
  newConfig "c".toList "; kept\r\n  -p0 \"/old/card.bin\"  \r\n-PJ\r\n".toList []

def cardEdits : Edits := ((∅ : Edits).insert "-P0" "/new/card.bin".toList).insert "-PP" []

theorem edited_lossless_card : ∃ c', cardConfig.edited noFiles cardEdits = .ok c' ∧
    c'.sourceText = "; kept\r\n  -p0 \"/new/card.bin\"  \r\n-PP\r\n".toList ∧
    ∃ base result,
      parseWithEnvironment noFiles "c".toList cardConfig.sourceText [] = .ok base ∧
      parseWithEnvironment noFiles "c".toList c'.sourceText [] = .ok result ∧
      c' = { result with encoding := .utf8, loadedBytes := none, loadedPath := none } ∧
      base.sourceText = cardConfig.sourceText ∧ base.sourcePath = "c".toList ∧
      Lossless [] cardEdits base c' := by
  have hedit : (cardConfig.edited noFiles cardEdits).toOption.map (·.sourceText) =
      some "; kept\r\n  -p0 \"/new/card.bin\"  \r\n-PP\r\n".toList := by
    decide +kernel
  cases h : cardConfig.edited noFiles cardEdits with
  | error e =>
    rw [h] at hedit
    cases hedit
  | ok c' =>
    rw [h] at hedit
    exact ⟨c', rfl, Option.some.inj hedit, edited_lossless noFiles cardConfig c' cardEdits h⟩

end OpenSaab.Config
