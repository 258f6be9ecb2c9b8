import OpenSaab.Config.Effects

/-!
# Drafts of an edit

Each request changes the one row that is about its option, or adds a line where there is none.
-/

namespace OpenSaab.Config

/-! ## Requests -/

/-- A change that is asked for, with its flag in capitals and its value trimmed. -/
def Requested (changes : Edits) (flag : String) (value : Chars) : Prop :=
  ∃ change ∈ changes.toList, change.1.map Char.toUpper = flag ∧ Text.trim change.2 = value

/-- A request that is taken. -/
structure Editable (flag : String) (value : Chars) : Prop where
  allowed : flag ∈ allowed
  plain : Plain value
  trimmed : Text.Trimmed value
  bare : isBackend flag = true → value = []

theorem plain_trim {v : Chars} (h : Plain v) : Plain (Text.trim v) := by
  refine h.of_subset fun c hc => ?_
  have hmem : c ∈ v.dropWhile Text.whitespace := by
    rw [← Text.trim_append_trailing]
    exact List.mem_append_left _ hc
  exact (List.dropWhile_suffix _).subset hmem

theorem request_ok {acc acc' : Edits} {change : String × Chars}
    (h : request acc change = .ok acc') :
    change.1.map Char.toUpper ∉ acc ∧ Editable (change.1.map Char.toUpper) (Text.trim change.2) ∧
      acc' = acc.insert (change.1.map Char.toUpper) (Text.trim change.2) := by
  unfold request at h
  dsimp only at h
  split at h
  · cases h
  next hallowed =>
  split at h
  · cases h
  next hplain =>
  split at h
  · cases h
  next hnew =>
  split at h
  · cases h
  next hbare =>
  have heditable : Editable (change.1.map Char.toUpper) (Text.trim change.2) := by
    refine ⟨not_not.mp hallowed, plain_trim ?_, Text.trimmed_trim _, ?_⟩
    · intro c hc
      by_contra hend
      refine hplain (List.any_eq_true.mpr ⟨c, hc, ?_⟩)
      have hc := eq_true_of_ne_false hend
      simp only [lineEnd, decide_eq_true_eq] at hc ⊢
      tauto
    · exact fun hbackend => by_contra fun hne => hbare ⟨hbackend, hne⟩
  refine ⟨hnew, heditable, ?_⟩
  split at h
  · obtain ⟨key, _, h⟩ := Program.except_bind_ok h
    split at h
    · exact (Except.ok.inj h).symm
    · cases h
  · exact (Except.ok.inj h).symm

theorem requests_fold {l : List (String × Chars)} {acc requested : Edits}
    (h : l.foldlM request acc = .ok requested) :
    (∀ flag value, requested[flag]? = some value ↔ acc[flag]? = some value ∨
      ∃ change ∈ l, change.1.map Char.toUpper = flag ∧ Text.trim change.2 = value) ∧
    ∀ flag value, requested[flag]? = some value → acc[flag]? = some value ∨ Editable flag value := by
  induction l generalizing acc with
  | nil =>
    obtain rfl := Except.ok.inj h
    exact ⟨fun flag value => by simp, fun flag value hvalue => .inl hvalue⟩
  | cons change l ih =>
    rw [List.foldlM_cons] at h
    obtain ⟨acc', hfirst, hrest⟩ := Program.except_bind_ok h
    obtain ⟨hnew, heditable, rfl⟩ := request_ok hfirst
    obtain ⟨hiff, hall⟩ := ih hrest
    have hnone : acc[change.1.map Char.toUpper]? = none :=
      Std.TreeMap.getElem?_eq_none hnew
    constructor
    · intro flag value
      rw [hiff, Table.get_insert]
      simp only [List.mem_cons, exists_eq_or_imp]
      split
      · next heq =>
        subst heq
        simp only [hnone, Option.some.injEq, true_and]
        tauto
      · next hne =>
        have hother : ¬ change.1.map Char.toUpper = flag := fun heq => hne heq.symm
        simp only [hother, false_and, false_or]
    · intro flag value hvalue
      rcases hall flag value hvalue with hold | hnew
      · rw [Table.get_insert] at hold
        split at hold
        · next heq =>
          rw [heq, ← Option.some.inj hold]
          exact .inr heditable
        · exact .inl hold
      · exact .inr hnew

/-- The requests of an edit. -/
structure Requests (changes requested : Edits) : Prop where
  iff : ∀ flag value, requested[flag]? = some value ↔ Requested changes flag value
  editable : ∀ flag value, requested[flag]? = some value → Editable flag value
  single : ¬ ("-PP" ∈ requested ∧ "-PJ" ∈ requested)

theorem requests_ok {changes requested : Edits} (h : requests changes = .ok requested) :
    Requests changes requested := by
  obtain ⟨acc, hfold, hrest⟩ := Program.except_bind_ok h
  split at hrest
  · cases hrest
  next hboth =>
  obtain rfl := Except.ok.inj hrest
  obtain ⟨hiff, hall⟩ := requests_fold hfold
  refine ⟨fun flag value => ?_, fun flag value hvalue => ?_, hboth⟩
  · rw [hiff]
    simp [Requested]
  · exact (hall flag value hvalue).resolve_left (by simp)

/-! ## Rows and requests -/

/-- The statement is about the flag, or about the other backend. -/
def about (flag said : String) : Bool := said = flag ∨ isBackend flag ∧ said = rival flag

/-- The request takes its option away. -/
def erases (r : String × Chars) : Bool := ¬ isBackend r.1 ∧ r.2 = []

def Alike (r : String × Chars) (flag : String) (value : Chars) : Prop :=
  effect r.1 r.2 = effect flag value

instance instDecidableAlike (r : String × Chars) (flag : String) (value : Chars) :
    Decidable (Alike r flag value) := inferInstanceAs (Decidable (_ = _))

/-- The body of a row after a request about it. -/
def revisedBody (r : String × Chars) (body : Chars) : Chars :=
  if Alike r (readLine body).flag (readLine body).value then body
  else if isBackend r.1 then restyle r.1 body
  else replaceValue (quoted r.1 r.2 (readLine body).value) body

def requestFor (rs : List (String × Chars)) (body : Chars) : Option (String × Chars) :=
  rs.find? fun r => about r.1 (readLine body).flag

def revised (rs : List (String × Chars)) (row : Row) : Row :=
  match requestFor rs row.1 with
  | some r => if erases r then row else (revisedBody r row.1, row.2)
  | none => row

def dropped (rs : List (String × Chars)) (row : Row) : Bool := (requestFor rs row.1).any erases

/-! ## One row for an option -/

theorem allowed_head {flag : String} (h : flag ∈ allowed) : flag.toList.head? = some '-' := by
  simp only [allowed, List.mem_cons, List.not_mem_nil, or_false] at h
  rcases h with rfl | rfl | rfl | rfl | rfl | rfl | rfl | rfl | rfl <;> rfl

theorem about_allowed {flag said : String} (hflag : flag ∈ allowed) (h : about flag said = true) :
    said ∈ allowed := by
  rcases of_decide_eq_true h with rfl | ⟨hbackend, rfl⟩
  · exact hflag
  · rcases backend_cases hbackend with rfl | rfl <;> decide

theorem line_of_allowed {raw : Chars} (h : (readLine raw).flag ∈ allowed) :
    (readLine raw).line ≠ [] ∧ (readLine raw).line.head? = some '-' :=
  line_of_flag (by decide) (allowed_head h)

theorem ne_of_allowed {flag other : String} (h : flag ∈ allowed) (hother : other ∉ allowed) :
    flag ≠ other := by
  rintro rfl
  exact hother h

theorem rowStatements_option {files : Files} {env : Environment}
    {inner : Path → Chars → List Statement} {source : Path} {raw : Chars}
    (h : (readLine raw).flag ∈ allowed) : rowStatements files env inner source raw =
      [⟨source, (readLine raw).flag, (readLine raw).value⟩] := by
  obtain ⟨hne, hhead⟩ := line_of_allowed h
  have hat : (readLine raw).flag ≠ "@" := ne_of_allowed h (by decide)
  have hof : (readLine raw).flag ≠ "-OF" := ne_of_allowed h (by decide)
  unfold rowStatements
  dsimp only
  rw [if_neg (by simp [hne, hhead]), if_neg (by simp [hhead]), if_neg hat, if_neg hof]

section Drafts

variable {files : Files} {env : Environment} {path : Path} {text : Chars} {base : Tech2WinConfig}

/-- What a row of the text says. -/
def rowSays (files : Files) (env : Environment) (path : Path) (raw : Chars) : List Statement :=
  rowStatements files env (statementsOf files env 14) path raw

theorem textStatements_eq (files : Files) (env : Environment) (path : Path) (text : Chars) :
    textStatements files env path text =
      (splitText text).flatMap fun r => rowSays files env path r.1 := rfl

theorem optionFlags_flatMap {α : Type} (f : α → List Statement) (l : List α) :
    optionFlags (l.flatMap f) = l.flatMap fun a => optionFlags (f a) := by
  induction l with
  | nil => rfl
  | cons a l ih => rw [List.flatMap_cons, optionFlags_append, ih, List.flatMap_cons]

theorem optionFlags_row {raw : Chars} (h : (readLine raw).flag ∈ allowed) :
    optionFlags (rowSays files env path raw) = [(readLine raw).flag] := by
  have hoption : Statement.isOption ⟨path, (readLine raw).flag, (readLine raw).value⟩ = true :=
    decide_eq_true (ne_of_allowed h (by decide))
  rw [rowSays, rowStatements_option h, optionFlags, List.filter_cons_of_pos hoption]
  rfl

theorem about_same {flag a b : String} (ha : about flag a = true) (hb : about flag b = true) :
    a = b ∨ isBackend a = true ∧ b = rival a := by
  rcases of_decide_eq_true ha with rfl | ⟨hbackend, rfl⟩
  · rcases of_decide_eq_true hb with rfl | ⟨hbackend, rfl⟩
    · exact .inl rfl
    · exact .inr ⟨hbackend, rfl⟩
  · rcases of_decide_eq_true hb with rfl | ⟨_, rfl⟩
    · exact .inr ⟨isBackend_rival hbackend, (rival_rival hbackend).symm⟩
    · exact .inl rfl

/-- One row at most is about a flag. -/
theorem Said.row_unique (h : Said files env path text base) {flag : String} (hflag : flag ∈ allowed)
    {i j : Nat} {r r' : Row} (hi : (splitText text)[i]? = some r)
    (hj : (splitText text)[j]? = some r') (hr : about flag (readLine r.1).flag = true)
    (hr' : about flag (readLine r'.1).flag = true) : i = j := by
  have hmem : ∀ {k : Nat} {q : Row}, (splitText text)[k]? = some q →
      about flag (readLine q.1).flag = true →
      (readLine q.1).flag ∈ optionFlags (textStatements files env path text) := by
    intro k q hk hq
    rw [textStatements_eq, optionFlags_flatMap]
    refine List.mem_flatMap.mpr ⟨q, List.mem_of_getElem? hk, ?_⟩
    rw [optionFlags_row (about_allowed hflag hq)]
    exact List.mem_singleton_self _
  rcases about_same hr hr' with hsame | ⟨hbackend, hrival⟩
  · have hfresh := h.fresh
    rw [textStatements_eq, optionFlags_flatMap, List.nodup_flatMap] at hfresh
    have hpair := List.pairwise_iff_getElem.mp hfresh.2
    obtain ⟨hi', rfl⟩ := List.getElem?_eq_some_iff.mp hi
    obtain ⟨hj', rfl⟩ := List.getElem?_eq_some_iff.mp hj
    have hdisjoint : ∀ {a b : Nat} (ha : a < (splitText text).length)
        (hb : b < (splitText text).length), a < b →
        (readLine (splitText text)[a].1).flag = (readLine (splitText text)[b].1).flag →
        about flag (readLine (splitText text)[a].1).flag = true → False := by
      intro a b ha hb hlt heq habout
      have hallowed := about_allowed hflag habout
      have hdisjoint := hpair a b ha hb hlt
      refine hdisjoint (a := (readLine (splitText text)[a].1).flag) ?_ ?_
      · dsimp only
        rw [optionFlags_row hallowed]
        exact List.mem_singleton_self _
      · dsimp only
        rw [optionFlags_row (heq ▸ hallowed), heq]
        exact List.mem_singleton_self _
    rcases Nat.lt_trichotomy i j with hlt | heq | hlt
    · exact absurd hr fun hr => hdisjoint hi' hj' hlt hsame hr
    · exact heq
    · exact absurd hr' fun hr' => hdisjoint hj' hi' hlt hsame.symm hr'
  · exact absurd (hrival ▸ hmem hj hr') (h.rivals _ (hmem hi hr) hbackend)

/-! ## The draft -/

/-- The line that a request adds. -/
def addition (r : String × Chars) : Chars :=
  if isBackend r.1 then r.1.toList else r.1.toList ++ [' '] ++ r.2

def owned (base : Tech2WinConfig) (flag : String) : Bool := (base.lines.find? (owns flag)).isSome

/-- The requests that add a line. -/
def adding (base : Tech2WinConfig) (rs : List (String × Chars)) : List (String × Chars) :=
  rs.filter fun r => !owned base r.1 && !erases r

/-- The draft after these requests. -/
structure Drafted (base : Tech2WinConfig) (rows : List Row) (rs : List (String × Chars))
    (d : Draft) : Prop where
  kept : d.rows = rows.map (revised rs)
  removed : ∀ i row, rows[i]? = some row → (i ∈ d.removed ↔ dropped rs row = true)
  additions : d.additions = (adding base rs).map addition
  own : ∀ r ∈ rs, owned base r.1 = true →
    ∃ (i : Nat) (row : Row), rows[i]? = some row ∧ about r.1 (readLine row.1).flag = true

theorem requestFor_concat (rs : List (String × Chars)) (r : String × Chars) (body : Chars) :
    requestFor (rs ++ [r]) body = (requestFor rs body).or
      (if about r.1 (readLine body).flag then some r else none) := by
  unfold requestFor
  rw [List.find?_append, List.find?_singleton]

/-- A row is about one of the requests at most. -/
theorem requestFor_none {rs : List (String × Chars)} {r : String × Chars}
    (hnew : ∀ q ∈ rs, q.1 ≠ r.1 ∧ ¬ (isBackend r.1 = true ∧ q.1 = rival r.1)) {body : Chars}
    (h : about r.1 (readLine body).flag = true) : requestFor rs body = none := by
  refine List.find?_eq_none.mpr fun q hq habout => ?_
  obtain ⟨hne, hrival⟩ := hnew q hq
  rcases of_decide_eq_true h with hsaid | ⟨hbackend, hsaid⟩
  · rcases of_decide_eq_true habout with hq' | ⟨hqbackend, hq'⟩
    · exact hne (hq'.symm.trans hsaid)
    · have hr : r.1 = rival q.1 := hsaid.symm.trans hq'
      refine hrival ⟨hr ▸ isBackend_rival hqbackend, ?_⟩
      rw [hr, rival_rival hqbackend]
  · rcases of_decide_eq_true habout with hq' | ⟨hqbackend, hq'⟩
    · exact hrival ⟨hbackend, hq'.symm.trans hsaid⟩
    · refine hne ?_
      rw [← rival_rival hqbackend, ← rival_rival hbackend, ← hq', hsaid]

/-- A request that no row is about. -/
theorem revised_other {rs : List (String × Chars)} {r : String × Chars} {row : Row}
    (h : about r.1 (readLine row.1).flag = false) :
    revised (rs ++ [r]) row = revised rs row ∧ dropped (rs ++ [r]) row = dropped rs row := by
  have hsame : requestFor (rs ++ [r]) row.1 = requestFor rs row.1 := by
    rw [requestFor_concat, h, if_neg Bool.false_ne_true, Option.or_none]
  unfold revised dropped
  rw [hsame]
  exact ⟨rfl, rfl⟩

/-- The request of a row. -/
theorem revised_own {rs : List (String × Chars)} {r : String × Chars} {row : Row}
    (hnone : requestFor rs row.1 = none) (h : about r.1 (readLine row.1).flag = true) :
    revised rs row = row ∧ dropped rs row = false ∧
      revised (rs ++ [r]) row = (if erases r then row else (revisedBody r row.1, row.2)) ∧
      dropped (rs ++ [r]) row = erases r := by
  have hown : requestFor (rs ++ [r]) row.1 = some r := by
    rw [requestFor_concat, hnone, h, if_pos rfl]
    rfl
  unfold revised dropped
  rw [hown, hnone]
  exact ⟨rfl, rfl, rfl, rfl⟩

/-- The line that owns an option is one of the rows. -/
theorem owner_row (hparse : parseWithEnvironment files path text env = .ok base) {flag : String}
    (hflag : flag ∈ allowed) {owner : ConfigLine} (howner : base.lines.find? (owns flag) = some owner)
    (hsource : files.normalized owner.source = files.normalized path) :
    ∃ row, (splitText text)[owner.line - 1]? = some row ∧
      owner.flag = (readLine row.1).flag ∧ owner.value = (readLine row.1).value ∧
      about flag (readLine row.1).flag = true := by
  have howns := List.find?_some howner
  have habout : about flag owner.flag = true := howns
  have hallowed := about_allowed hflag habout
  obtain ⟨_, row, hrow, _, hread, hvalue⟩ := parse_placed hparse (List.mem_of_find?_eq_some howner)
    hsource (ne_of_allowed hallowed (by decide))
  exact ⟨row, hrow, hread, hvalue, hread ▸ habout⟩

/-- A flag that no line owns is the flag of no row. -/
theorem Said.unowned (h : Said files env path text base) {flag : String}
    (howned : owned base flag = false) {st : Statement}
    (hst : st ∈ textStatements files env path text) : about flag st.flag = false := by
  by_contra habout
  rw [← h.lines] at hst
  obtain ⟨l, hl, rfl⟩ := List.mem_map.mp hst
  have hnone := Option.not_isSome_iff_eq_none.mp (Bool.eq_false_iff.mp howned)
  exact List.find?_eq_none.mp hnone l (List.mem_of_mem_filter hl) (eq_true_of_ne_false habout)

theorem row_said (files : Files) (env : Environment) (path : Path) {row : Row}
    (hrow : row ∈ splitText text)
    (hallowed : (readLine row.1).flag ∈ allowed) :
    ⟨path, (readLine row.1).flag, (readLine row.1).value⟩ ∈ textStatements files env path text := by
  rw [textStatements_eq]
  refine List.mem_flatMap.mpr ⟨row, hrow, ?_⟩
  rw [rowSays, rowStatements_option hallowed]
  exact List.mem_singleton_self _

theorem modify_same {rows : List Row} {i : Nat} {row : Row} (h : rows[i]? = some row) :
    rows.modify i (fun _ => row) = rows := by
  refine List.ext_getElem? fun j => ?_
  rw [List.getElem?_modify]
  by_cases hj : i = j
  · subst hj
    rw [h]
    simp
  · simp [hj]

/-- A row that a request is about, among rows that it is not about. -/
theorem map_revised_own {rows : List Row} (rs : List (String × Chars)) {r : String × Chars}
    {i : Nat} {row : Row} (hrow : rows[i]? = some row)
    (hother : ∀ j q, rows[j]? = some q → j ≠ i → about r.1 (readLine q.1).flag = false) :
    rows.map (revised (rs ++ [r])) =
      (rows.map (revised rs)).modify i fun _ => revised (rs ++ [r]) row := by
  refine List.ext_getElem? fun j => ?_
  rw [List.getElem?_map, List.getElem?_modify, List.getElem?_map]
  by_cases hj : i = j
  · subst hj
    rw [hrow]
    simp
  · cases hq : rows[j]? with
    | none => rfl
    | some q =>
      have hsame : revised (rs ++ [r]) q = revised rs q :=
        (revised_other (hother j q hq (Ne.symm hj))).1
      simp [hj, hsame]

theorem adding_concat (rs : List (String × Chars)) (r : String × Chars) :
    adding base (rs ++ [r]) = adding base rs ++
      if owned base r.1 = false ∧ erases r = false then [r] else [] := by
  unfold adding
  rw [List.filter_append, List.filter_singleton]
  congr 1
  cases owned base r.1 <;> cases erases r <;> rfl

/-- One more request on the draft. -/
theorem amend_drafted (hparse : parseWithEnvironment files path text env = .ok base)
    {rs : List (String × Chars)} {r : String × Chars} (hr : Editable r.1 r.2)
    (hnew : ∀ q ∈ rs, q.1 ≠ r.1 ∧ ¬ (isBackend r.1 = true ∧ q.1 = rival r.1)) {d d' : Draft}
    (hd : Drafted base (splitText text) rs d) (h : amend files base d r = .ok d') :
    Drafted base (splitText text) (rs ++ [r]) d' := by
  have hsaid := parse_said hparse
  have hpath : base.sourcePath = path := hsaid.sourcePath
  unfold amend at h
  dsimp only at h
  cases howner : base.lines.find? (owns r.1) with
  | some owner =>
    rw [howner] at h
    have howned : owned base r.1 = true := by rw [owned, howner]; rfl
    have hadds : adding base (rs ++ [r]) = adding base rs := by
      rw [adding_concat, howned, if_neg (fun hno => by cases hno.1), List.append_nil]
    dsimp only at h
    split at h
    · cases h
    next hsource =>
    rw [hpath, not_not] at hsource
    obtain ⟨row, hrow, hflag, hvalue, habout⟩ := owner_row hparse hr.allowed howner hsource
    have hother : ∀ j q, (splitText text)[j]? = some q → j ≠ owner.line - 1 →
        about r.1 (readLine q.1).flag = false := fun j q hq hne => by
      by_contra hq'
      exact hne (hsaid.row_unique hr.allowed hq hrow (eq_true_of_ne_false hq') habout)
    have hown : ∀ q ∈ rs ++ [r], owned base q.1 = true →
        ∃ (i : Nat) (row : Row), (splitText text)[i]? = some row ∧
          about q.1 (readLine row.1).flag = true := by
      intro q hq hqowned
      rcases List.mem_append.mp hq with hq | hq
      · exact hd.own q hq hqowned
      · rw [List.mem_singleton.mp hq]
        exact ⟨_, row, hrow, habout⟩
    obtain ⟨hbefore, hkept, hafter, hdropped⟩ := revised_own (requestFor_none hnew habout) habout
    have hmap := map_revised_own rs hrow hother
    have hsame : (splitText text).map (revised rs) =
        ((splitText text).map (revised rs)).modify (owner.line - 1) fun _ => row := by
      refine (modify_same ?_).symm
      rw [List.getElem?_map, hrow, Option.map_some, hbefore]
    have hremoved : ∀ j q, (splitText text)[j]? = some q → j ≠ owner.line - 1 →
        (j ∈ d.removed ↔ dropped (rs ++ [r]) q = true) := fun j q hq hne => by
      rw [(revised_other (hother j q hq hne)).2]
      exact hd.removed j q hq
    have hfirst := hd.removed _ row hrow
    rw [hkept] at hfirst
    split at h
    · next herase =>
      have herases : erases r = true := decide_eq_true herase
      rw [herases, if_pos rfl] at hafter
      obtain rfl := Except.ok.inj h
      refine ⟨?_, ?_, by rw [hadds]; exact hd.additions, hown⟩
      · rw [hmap, hafter, ← hsame]
        exact hd.kept
      · intro j q hq
        by_cases hj : j = owner.line - 1
        · subst hj
          obtain rfl := Option.some.inj (hrow.symm.trans hq)
          rw [hdropped, herases]
          exact ⟨fun _ => rfl, fun _ => List.mem_cons_self⟩
        · rw [List.mem_cons, ← hremoved j q hq hj]
          exact or_iff_right hj
    next herase =>
    have herases : erases r = false := decide_eq_false herase
    rw [herases, if_neg Bool.false_ne_true] at hafter
    have hremains : ∀ j q, (splitText text)[j]? = some q →
        (j ∈ d.removed ↔ dropped (rs ++ [r]) q = true) := by
      intro j q hq
      by_cases hj : j = owner.line - 1
      · subst hj
        obtain rfl := Option.some.inj (hrow.symm.trans hq)
        rw [hdropped, herases]
        exact hfirst
      · exact hremoved j q hq hj
    obtain ⟨b, hb, hrest⟩ := Program.except_bind_ok h
    have hbare : isBackend r.1 = true → r.2 = owner.value := by
      intro hbackend
      have hallowed := about_allowed hr.allowed habout
      have haccept := hsaid.accepted _ (row_said files env path (List.mem_of_getElem? hrow)
        hallowed)
      have hrowbackend : isBackend (readLine row.1).flag = true := by
        rcases of_decide_eq_true habout with heq | ⟨_, heq⟩
        · rw [heq]
          exact hbackend
        · rw [heq]
          exact isBackend_rival hbackend
      rw [hr.bare hbackend, hvalue]
      exact ((value_of_accepted haccept hallowed).mp hrowbackend).symm
    have halike := unchanged_iff hr.allowed (by rw [hflag]; exact of_decide_eq_true habout) hbare hb
    rw [hflag, hvalue] at halike
    cases b with
    | true =>
      obtain rfl := Except.ok.inj hrest
      have hbody : revisedBody r row.1 = row.1 := if_pos (halike.mp rfl)
      refine ⟨?_, hremains, by rw [hadds]; exact hd.additions, hown⟩
      rw [hmap, hafter, hbody, ← hsame]
      exact hd.kept
    | false =>
      obtain rfl := Except.ok.inj hrest
      have hnot : ¬ Alike r (readLine row.1).flag (readLine row.1).value := fun halike' =>
        Bool.false_ne_true (halike.mpr halike')
      refine ⟨?_, hremains, by rw [hadds]; exact hd.additions, hown⟩
      have hat : d.rows[owner.line - 1]? = some row := by
        rw [hd.kept, List.getElem?_map, hrow, Option.map_some, hbefore]
      have hbody : revisedBody r row.1 = if isBackend r.1 then restyle r.1 row.1
          else replaceValue (quoted r.1 r.2 (readLine row.1).value) row.1 := if_neg hnot
      rw [hmap, hafter, hbody, ← hd.kept, hat, ← hvalue]
      refine List.ext_getElem? fun j => ?_
      rw [List.getElem?_modify, List.getElem?_modify]
      by_cases hj : owner.line - 1 = j
      · subst hj
        rw [hat]
        rfl
      · simp [hj]
  | none =>
    rw [howner] at h
    have howned : owned base r.1 = false := by rw [owned, howner]; rfl
    have hother : ∀ row ∈ splitText text, about r.1 (readLine row.1).flag = false := by
      intro row hrow
      by_contra habout
      have hallowed := about_allowed hr.allowed (eq_true_of_ne_false habout)
      exact habout (hsaid.unowned howned (row_said files env path hrow hallowed))
    have hrows : (splitText text).map (revised (rs ++ [r])) = (splitText text).map (revised rs) :=
      List.map_congr_left fun row hrow => (revised_other (hother row hrow)).1
    have hremoved : ∀ i row, (splitText text)[i]? = some row →
        (i ∈ d.removed ↔ dropped (rs ++ [r]) row = true) := fun i row hrow => by
      rw [(revised_other (hother row (List.mem_of_getElem? hrow))).2]
      exact hd.removed i row hrow
    have hown : ∀ q ∈ rs ++ [r], owned base q.1 = true →
        ∃ (i : Nat) (row : Row), (splitText text)[i]? = some row ∧
          about q.1 (readLine row.1).flag = true := by
      intro q hq hqowned
      rcases List.mem_append.mp hq with hq | hq
      · exact hd.own q hq hqowned
      · rw [List.mem_singleton.mp hq, howned] at hqowned
        cases hqowned
    dsimp only at h
    split at h
    · next hbackend =>
      obtain rfl := Except.ok.inj h
      have herases : erases r = false := decide_eq_false fun he => he.1 hbackend
      refine ⟨by rw [hrows]; exact hd.kept, hremoved, ?_, hown⟩
      rw [adding_concat, if_pos ⟨howned, herases⟩, List.map_append, ← hd.additions]
      change _ = d.additions ++ [addition r]
      rw [addition, if_pos hbackend]
    next hbackend =>
    split at h
    · next hvalue =>
      obtain rfl := Except.ok.inj h
      have herases : erases r = false := decide_eq_false fun he => hvalue he.2
      refine ⟨by rw [hrows]; exact hd.kept, hremoved, ?_, hown⟩
      rw [adding_concat, if_pos ⟨howned, herases⟩, List.map_append, ← hd.additions]
      change _ = d.additions ++ [addition r]
      rw [addition, if_neg hbackend]
    · next hvalue =>
      obtain rfl := Except.ok.inj h
      have herases : erases r = true := decide_eq_true ⟨hbackend, not_not.mp hvalue⟩
      refine ⟨by rw [hrows]; exact hd.kept, hremoved, ?_, hown⟩
      have hno : ¬ (owned base r.1 = false ∧ erases r = false) := fun he => by
        rw [herases] at he
        exact Bool.false_ne_true he.2.symm
      rw [adding_concat, if_neg hno, List.append_nil]
      exact hd.additions

theorem amend_fold (hparse : parseWithEnvironment files path text env = .ok base)
    {more rs : List (String × Chars)}
    (hpair : (rs ++ more).Pairwise fun q r => q.1 ≠ r.1 ∧ ¬ (isBackend r.1 = true ∧ q.1 = rival r.1))
    (hmore : ∀ r ∈ more, Editable r.1 r.2) {d d' : Draft}
    (hd : Drafted base (splitText text) rs d) (h : more.foldlM (amend files base) d = .ok d') :
    Drafted base (splitText text) (rs ++ more) d' := by
  induction more generalizing rs d with
  | nil =>
    obtain rfl := Except.ok.inj h
    rw [List.append_nil]
    exact hd
  | cons r more ih =>
    rw [List.foldlM_cons] at h
    obtain ⟨d₁, hfirst, hrest⟩ := Program.except_bind_ok h
    have hnew : ∀ q ∈ rs, q.1 ≠ r.1 ∧ ¬ (isBackend r.1 = true ∧ q.1 = rival r.1) := fun q hq =>
      (List.pairwise_append.mp hpair).2.2 q hq r List.mem_cons_self
    have hstep := amend_drafted hparse (hmore r List.mem_cons_self) hnew hd hfirst
    rw [List.append_cons] at hpair
    have hend := ih hpair (fun q hq => hmore q (List.mem_cons_of_mem r hq)) hstep hrest
    rwa [List.append_assoc] at hend

theorem Requests.pairwise {changes requested : Edits} (h : Requests changes requested) :
    requested.toList.Pairwise fun q r => q.1 ≠ r.1 ∧ ¬ (isBackend r.1 = true ∧ q.1 = rival r.1) := by
  refine List.Pairwise.imp_of_mem ?_ Std.TreeMap.distinct_keys_toList
  intro q r hq hr hne
  refine ⟨fun heq => hne (Std.LawfulEqCmp.compare_eq_iff_eq.mpr heq), ?_⟩
  rintro ⟨hbackend, hrival⟩
  have hmem : ∀ {p : String × Chars}, p ∈ requested.toList → p.1 ∈ requested := fun hp =>
    Std.TreeMap.mem_iff_isSome_getElem?.mpr (Option.isSome_of_eq_some (Table.get_of_mem hp))
  rcases backend_cases hbackend with hr' | hr'
  · refine h.single ⟨hr' ▸ hmem hr, ?_⟩
    have hq' : q.1 = "-PJ" := hrival.trans (by rw [hr']; decide)
    exact hq' ▸ hmem hq
  · refine h.single ⟨?_, hr' ▸ hmem hr⟩
    have hq' : q.1 = "-PP" := hrival.trans (by rw [hr']; decide)
    exact hq' ▸ hmem hq

theorem drafted_nil (base : Tech2WinConfig) (rows : List Row) : Drafted base rows [] ⟨rows, [], []⟩ :=
  ⟨(List.map_id rows).symm, fun _ _ _ => ⟨nofun, nofun⟩, rfl, nofun⟩

/-- The draft of an edit. -/
theorem edit_drafted (hparse : parseWithEnvironment files path text env = .ok base)
    {changes requested : Edits} (hrequests : requests changes = .ok requested) {d : Draft}
    (h : requested.toList.foldlM (amend files base) ⟨splitText text, [], []⟩ = .ok d) :
    Drafted base (splitText text) requested.toList d := by
  have hr := requests_ok hrequests
  exact amend_fold hparse (show ([] ++ requested.toList).Pairwise _ from hr.pairwise)
    (fun r hmem => hr.editable r.1 r.2 (Table.get_of_mem hmem)) (drafted_nil base _) h

end Drafts

end OpenSaab.Config
