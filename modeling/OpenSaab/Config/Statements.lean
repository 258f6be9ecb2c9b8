import Mathlib.Data.List.Nodup
import OpenSaab.Config.Rows
import OpenSaab.Library.Programs

/-!
# Statements of a configuration

A text comes to a list of statements, those of its includes in their place. A configuration that is
parsed is what its statements make of the defaults.
-/

namespace OpenSaab.Config

/-- An option, or the version, with the file that it stands in. -/
structure Statement where
  source : Path
  flag : String
  value : Chars
  deriving DecidableEq, Repr

def Statement.isOption (st : Statement) : Bool := st.flag ≠ "@"

/-! ## The statements of a text -/

def includedText (files : Files) (env : Environment) (source : Path) (value : Chars) :
    Option (Path × Chars) :=
  match resolvePath value source env with
  | .error _ => none
  | .ok path =>
    match files.read path.resolved with
    | .error _ => none
    | .ok bytes =>
      match decode bytes with
      | .error _ => none
      | .ok (text, _) => some (path.resolved, text)

section

variable (files : Files) (env : Environment)

def rowStatements (inner : Path → Chars → List Statement) (source : Path) (raw : Chars) :
    List Statement :=
  let r := readLine raw
  if r.line = [] ∨ r.line.head? = some ';' then []
  else if r.line.head? = some '<' then []
  else if r.flag = "@" then [⟨source, r.flag, r.value⟩]
  else if r.flag = "-OF" then
    match includedText files env source r.value with
    | some (path, text) => inner path text
    | none => []
  else [⟨source, r.flag, r.value⟩]

def statementsOf : Nat → Path → Chars → List Statement
  | 0, source, text => scan (rowStatements files env (fun _ _ => []) source) text
  | room + 1, source, text => scan (rowStatements files env (statementsOf room) source) text

end

theorem rowStatements_nil (files : Files) (env : Environment)
    (inner : Path → Chars → List Statement) (source : Path) :
    rowStatements files env inner source [] = [] := by
  unfold rowStatements
  exact if_pos (.inl rfl)

/-! ## What statements mean -/

/-- An option on the settings; nothing where it is refused or not supported. -/
def Statement.settled (env : Environment) (s : Settings) (st : Statement) : Settings :=
  match settle env st.source st.flag st.value s with
  | .ok (some s') => s'
  | _ => s

/-- What a configuration is apart from its text. -/
structure Meaning where
  settings : Settings
  version : Chars
  options : Std.TreeMap String Chars

def Tech2WinConfig.meaning (c : Tech2WinConfig) : Meaning := ⟨c.settings, c.version, c.options⟩

def Meaning.say (env : Environment) (m : Meaning) (st : Statement) : Meaning :=
  if st.isOption then
    { m with settings := st.settled env m.settings, options := m.options.insert st.flag st.value }
  else { m with version := st.value }

/-- The lines that are statements. -/
def ConfigLine.isStatement (l : ConfigLine) : Bool :=
  l.flag ≠ "" ∧ l.flag ≠ "-OF" ∧ l.flag.toList.head? ≠ some '<'

def ConfigLine.statement (l : ConfigLine) : Statement := ⟨l.source, l.flag, l.value⟩

def stated (lines : List ConfigLine) : List Statement :=
  (lines.filter ConfigLine.isStatement).map ConfigLine.statement

theorem stated_append (ls ls' : List ConfigLine) : stated (ls ++ ls') = stated ls ++ stated ls' := by
  rw [stated, List.filter_append, List.map_append]
  rfl

def optionFlags (sts : List Statement) : List String :=
  (sts.filter Statement.isOption).map Statement.flag

theorem optionFlags_append (sts sts' : List Statement) :
    optionFlags (sts ++ sts') = optionFlags sts ++ optionFlags sts' := by
  rw [optionFlags, List.filter_append, List.map_append]
  rfl

/-! ## What the parser makes of them -/

theorem backend_cases {flag : String} (h : isBackend flag = true) : flag = "-PP" ∨ flag = "-PJ" :=
  of_decide_eq_true h

theorem isBackend_rival {flag : String} (h : isBackend flag = true) :
    isBackend (rival flag) = true := by
  rcases backend_cases h with rfl | rfl <;> decide

theorem rival_rival {flag : String} (h : isBackend flag = true) : rival (rival flag) = flag := by
  rcases backend_cases h with rfl | rfl <;> decide

theorem rival_ne {flag : String} (h : isBackend flag = true) : rival flag ≠ flag := by
  rcases backend_cases h with rfl | rfl <;> decide

/-- An option that the parser takes. -/
def Accepted (env : Environment) (st : Statement) : Prop :=
  st.isOption = true → ∃ s r, settle env st.source st.flag st.value s = .ok r

/-- The parser has gone through these statements. -/
structure Grown (sts : List Statement) (p p' : Parsing) : Prop where
  meaning : p'.config.meaning = sts.foldl (Meaning.say p.config.environment) p.config.meaning
  seen : p'.seen = (optionFlags sts).reverse ++ p.seen
  fresh : (optionFlags sts).Nodup
  unseen : ∀ f ∈ optionFlags sts, f ∉ p.seen
  rivals : ∀ f ∈ optionFlags sts, isBackend f = true → rival f ∉ optionFlags sts ++ p.seen
  accepted : ∀ st ∈ sts, Accepted p.config.environment st
  lines : stated p'.config.lines = stated p.config.lines ++ sts
  environment : p'.config.environment = p.config.environment
  text : p'.config.sourceText = p.config.sourceText
  path : p'.config.sourcePath = p.config.sourcePath

theorem Grown.refl (p : Parsing) : Grown [] p p :=
  ⟨rfl, rfl, List.nodup_nil, nofun, nofun, nofun, by rw [List.append_nil], rfl, rfl, rfl⟩

theorem Grown.trans {sts sts' : List Statement} {p p' p'' : Parsing} (h : Grown sts p p')
    (h' : Grown sts' p' p'') : Grown (sts ++ sts') p p'' := by
  refine ⟨?_, ?_, ?_, ?_, ?_, ?_, ?_, h'.environment.trans h.environment, h'.text.trans h.text,
    h'.path.trans h.path⟩
  · rw [h'.meaning, h.meaning, h.environment, List.foldl_append]
  · rw [h'.seen, h.seen, optionFlags_append, List.reverse_append, List.append_assoc]
  · rw [optionFlags_append]
    refine List.nodup_append.mpr ⟨h.fresh, h'.fresh, ?_⟩
    rintro f hf g hg rfl
    refine h'.unseen f hg ?_
    rw [h.seen]
    exact List.mem_append_left _ (List.mem_reverse.mpr hf)
  · intro f hf
    rw [optionFlags_append] at hf
    rcases List.mem_append.mp hf with hf | hf
    · exact h.unseen f hf
    · intro hseen
      refine h'.unseen f hf ?_
      rw [h.seen]
      exact List.mem_append_right _ hseen
  · intro f hf hbackend hrival
    rw [optionFlags_append] at hf hrival
    have hmem : ∀ g, g ∈ p'.seen ↔ g ∈ optionFlags sts ∨ g ∈ p.seen := fun g => by
      rw [h.seen, List.mem_append, List.mem_reverse]
    rw [List.append_assoc, List.mem_append, List.mem_append] at hrival
    rcases List.mem_append.mp hf with hf | hf
    · rcases hrival with hrival | hrival | hrival
      · exact h.rivals f hf hbackend (List.mem_append_left _ hrival)
      · refine h'.rivals _ hrival (isBackend_rival hbackend) (List.mem_append_right _ ?_)
        rw [rival_rival hbackend, hmem]
        exact .inl hf
      · exact h.rivals f hf hbackend (List.mem_append_right _ hrival)
    · refine h'.rivals f hf hbackend ?_
      rw [List.mem_append, hmem]
      tauto
  · intro st hst
    rcases List.mem_append.mp hst with hst | hst
    · exact h.accepted st hst
    · have haccepted := h'.accepted st hst
      rwa [h.environment] at haccepted
  · rw [h'.lines, h.lines, List.append_assoc]

/-- A line of the text that is kept. -/
theorem Grown.listed {sts : List Statement} {p p' : Parsing} (h : Grown sts p p') {l : ConfigLine}
    (hl : stated [l] = []) : Grown sts p (p'.listed l) := by
  refine ⟨h.meaning, h.seen, h.fresh, h.unseen, h.rivals, h.accepted, ?_, h.environment, h.text, h.path⟩
  change stated (p'.config.lines ++ [l]) = _
  rw [stated_append, hl, List.append_nil, h.lines]

theorem Grown.warned {sts : List Statement} {p p' : Parsing} (h : Grown sts p p') (text : String) :
    Grown sts p (p'.warned text) :=
  ⟨h.meaning, h.seen, h.fresh, h.unseen, h.rivals, h.accepted, h.lines, h.environment, h.text, h.path⟩

theorem settled_of_ok {env : Environment} {st : Statement} {s : Settings} {r : Option Settings}
    (h : settle env st.source st.flag st.value s = .ok r) : st.settled env s = r.getD s := by
  unfold Statement.settled
  rw [h]
  cases r <;> rfl

/-- A new option, before its line is kept. -/
theorem parseOption_ok {source : Path} {n : Nat} {flag : String} {value : Chars} {p q : Parsing}
    {supported : Bool} (h : parseOption source n flag value p = .ok (supported, q)) :
    flag ∉ p.seen ∧ ¬ (isBackend flag = true ∧ rival flag ∈ p.seen) ∧ ∃ r warnings,
      settle p.config.environment source flag value p.config.settings = .ok r ∧
      q = ⟨{ p.config with
        settings := r.getD p.config.settings
        options := p.config.options.insert flag value
        warnings := warnings }, flag :: p.seen⟩ := by
  unfold parseOption at h
  split at h
  · cases h
  next hseen =>
  split at h
  · cases h
  next hrival =>
  obtain ⟨r, hsettle, hrest⟩ := Program.except_bind_ok h
  refine ⟨hseen, hrival, r, ?_⟩
  cases r with
  | none =>
    obtain ⟨_, rfl⟩ := Prod.mk.inj (Except.ok.inj hrest)
    exact ⟨_, hsettle, rfl⟩
  | some settings =>
    obtain ⟨_, rfl⟩ := Prod.mk.inj (Except.ok.inj hrest)
    split
    · exact ⟨_, hsettle, rfl⟩
    · exact ⟨_, hsettle, rfl⟩

theorem parseOption_grown {source : Path} {n : Nat} {flag : String} {value raw : Chars}
    {p q : Parsing} {supported : Bool} (kept : Bool) (hat : flag ≠ "@")
    (hflag : ConfigLine.isStatement ⟨source, n, raw, flag, value, kept⟩ = true)
    (h : parseOption source n flag value p = .ok (supported, q)) :
    Grown [⟨source, flag, value⟩] p (q.listed ⟨source, n, raw, flag, value, kept⟩) := by
  obtain ⟨hseen, hrival, r, warnings, hsettle, rfl⟩ := parseOption_ok h
  have hoption : Statement.isOption ⟨source, flag, value⟩ = true := decide_eq_true hat
  have hflags : optionFlags [⟨source, flag, value⟩] = [flag] := by
    rw [optionFlags, List.filter_cons_of_pos hoption]
    rfl
  refine ⟨?_, ?_, ?_, ?_, ?_, ?_, ?_, rfl, rfl, rfl⟩
  · rw [List.foldl_cons, List.foldl_nil, Meaning.say, if_pos hoption]
    have hsettled : Statement.settled p.config.environment p.config.settings
        ⟨source, flag, value⟩ = r.getD p.config.settings := settled_of_ok hsettle
    exact congrArg (fun s => Meaning.mk s p.config.version _) hsettled.symm
  · rw [hflags]
    rfl
  · rw [hflags]
    exact List.nodup_singleton flag
  · intro f hf
    rw [hflags] at hf
    rwa [List.mem_singleton.mp hf]
  · intro f hf hbackend hmem
    rw [hflags] at hf hmem
    obtain rfl := List.mem_singleton.mp hf
    rcases List.mem_cons.mp hmem with hsame | hmem
    · exact rival_ne hbackend hsame
    · exact hrival ⟨hbackend, hmem⟩
  · intro st hst _
    obtain rfl := List.mem_singleton.mp hst
    exact ⟨_, r, hsettle⟩
  · change stated (p.config.lines ++ [_]) = _
    rw [stated_append]
    congr 1
    rw [stated, List.filter_cons_of_pos hflag]
    rfl

theorem mapError_ok {ε ε' α : Type} {f : ε → ε'} {r : Except ε α} {a : α}
    (h : r.mapError f = .ok a) : r = .ok a := by
  cases r with
  | error e => cases h
  | ok b => exact congrArg Except.ok (Except.ok.inj h)

theorem included_ok {files : Files} {env : Environment} {chain : List Path} {source : Path}
    {value : Chars} {path key : Path} {text : Chars}
    (h : included files env chain source value = .ok (path, key, text)) :
    includedText files env source value = some (path, text) ∧ key = files.normalized path ∧
      key ∉ chain := by
  obtain ⟨resolved, hpath, hrest⟩ := Program.except_bind_ok h
  split at hrest
  · cases hrest
  dsimp only at hrest
  split at hrest
  · cases hrest
  next hchain =>
  obtain ⟨bytes, hread, hrest⟩ := Program.except_bind_ok hrest
  obtain ⟨⟨decoded, encoding⟩, hdecode, hrest⟩ := Program.except_bind_ok hrest
  obtain ⟨rfl, hpair⟩ := Prod.mk.inj (Except.ok.inj hrest)
  obtain ⟨rfl, rfl⟩ := Prod.mk.inj hpair
  refine ⟨?_, rfl, fun hmem => hchain (.inr hmem)⟩
  unfold includedText
  simp only [hpath, mapError_ok hread, hdecode]

/-- The parser of an included file goes through its statements. -/
def Goes (env : Environment) (inner : Include) (sts : Path → Chars → List Statement) : Prop :=
  ∀ chain path text p p', p.config.environment = env → inner chain path text p = .ok p' →
    Grown (sts path text) p p'

/-- The flag of a row begins as its line does, unless with a letter. -/
theorem head_of_flag {raw : Chars} (h : (readLine raw).line ≠ []) {d : Char} (hd : d.toNat < 65)
    (hflag : (readLine raw).flag.toList.head? = some d) : (readLine raw).line.head? = some d := by
  have hparts := parts_of_line h
  obtain ⟨c, t, ht⟩ := List.exists_cons_of_ne_nil hparts.solid.ne
  rw [hparts.flag, String.toList_ofList, ht] at hflag
  rw [hparts.head, ht, ← eq_of_toUpper (Option.some.inj hflag) hd]
  rfl

theorem line_of_flag {raw : Chars} {d : Char} (hd : d.toNat < 65)
    (hflag : (readLine raw).flag.toList.head? = some d) :
    (readLine raw).line ≠ [] ∧ (readLine raw).line.head? = some d := by
  have hne : (readLine raw).line ≠ [] := by
    intro hnil
    have hempty : (readLine raw).flag = "" := by
      change Text.trim raw = [] at hnil
      unfold readLine
      rw [hnil]
      rfl
    rw [hempty] at hflag
    cases hflag
  exact ⟨hne, head_of_flag hne hd hflag⟩

/-- A row that is neither empty nor a comment nor a tag is a statement. -/
theorem isStatement_of_read {raw : Chars} (source : Path) (n : Nat) (kept : Bool)
    (hline : (readLine raw).line ≠ []) (htag : (readLine raw).line.head? ≠ some '<')
    (hof : (readLine raw).flag ≠ "-OF") :
    ConfigLine.isStatement ⟨source, n, raw, (readLine raw).flag, (readLine raw).value, kept⟩ =
      true := by
  refine decide_eq_true ⟨?_, hof, fun h => htag (head_of_flag hline (by decide) h)⟩
  have hparts := parts_of_line hline
  obtain ⟨c, t, ht⟩ := List.exists_cons_of_ne_nil hparts.solid.ne
  intro hempty
  have hlist := congrArg String.toList (hparts.flag.symm.trans hempty)
  rw [String.toList_ofList, ht] at hlist
  cases hlist

theorem stated_of_not {l : ConfigLine} (h : l.isStatement = false) : stated [l] = [] := by
  rw [stated, List.filter_cons_of_neg (Bool.eq_false_iff.mp h)]
  rfl

theorem parseLine_grown {files : Files} {env : Environment} {inner : Include}
    {sts : Path → Chars → List Statement} (hinner : Goes env inner sts) {chain : List Path}
    {source : Path} {n : Nat} {raw : Chars} {p p' : Parsing} (henv : p.config.environment = env)
    (h : parseLine files inner chain source n raw p = .ok p') :
    Grown (rowStatements files env sts source raw) p p' := by
  replace h := mapError_ok h
  unfold rowStatements
  dsimp only
  split at h
  · next hblank =>
    obtain rfl := Except.ok.inj h
    rw [if_pos hblank]
    exact (Grown.refl p).listed rfl
  next hblank =>
  rw [if_neg hblank]
  obtain ⟨hline, _⟩ := not_or.mp hblank
  split at h
  · next htag =>
    obtain rfl := Except.ok.inj h
    rw [if_pos htag]
    refine ((Grown.refl p).warned _).listed (stated_of_not (decide_eq_false ?_))
    rintro ⟨_, _, hflag⟩
    have hparts := parts_of_line hline
    obtain ⟨c, t, ht⟩ := List.exists_cons_of_ne_nil hparts.solid.ne
    rw [hparts.head, ht] at htag
    obtain rfl := Option.some.inj htag
    refine hflag ?_
    change (readLine raw).flag.toList.head? = _
    rw [hparts.flag, String.toList_ofList, ht]
    rfl
  next htag =>
  rw [if_neg htag]
  split at h
  · next hat =>
    rw [if_pos hat]
    split at h
    · cases h
    obtain rfl := Except.ok.inj h
    have hof : (readLine raw).flag ≠ "-OF" := by
      rw [hat]
      decide
    have hflag := isStatement_of_read source n true hline htag hof
    have hoption : Statement.isOption ⟨source, (readLine raw).flag, (readLine raw).value⟩ =
        false := decide_eq_false (not_not.mpr hat)
    have hnone : optionFlags [⟨source, (readLine raw).flag, (readLine raw).value⟩] = [] := by
      rw [optionFlags, List.filter_cons_of_neg (Bool.eq_false_iff.mp hoption)]
      rfl
    refine ⟨?_, by rw [hnone]; rfl, by rw [hnone]; exact List.nodup_nil, by rw [hnone]; exact nofun,
      by rw [hnone]; exact nofun, ?_, ?_, rfl, rfl, rfl⟩
    · rw [List.foldl_cons, List.foldl_nil, Meaning.say, if_neg (Bool.eq_false_iff.mp hoption)]
      rfl
    · intro st hst hopt
      rw [List.mem_singleton.mp hst, hoption] at hopt
      cases hopt
    · change stated (p.config.lines ++ [_]) = _
      rw [stated_append]
      congr 1
      rw [stated, List.filter_cons_of_pos hflag]
      rfl
  next hat =>
  rw [if_neg hat]
  split at h
  · next hof =>
    rw [if_pos hof]
    obtain ⟨⟨path, key, text⟩, hincluded, hrest⟩ := Program.except_bind_ok h
    obtain ⟨htext, _, _⟩ := included_ok hincluded
    rw [henv] at htext
    rw [htext]
    refine ((Grown.refl p).listed (stated_of_not (decide_eq_false ?_))).trans
      (hinner _ _ _ _ _ henv hrest)
    exact fun hnot => hnot.2.1 hof
  next hof =>
  rw [if_neg hof]
  obtain ⟨⟨supported, q⟩, hoption, hrest⟩ := Program.except_bind_ok h
  cases supported with
  | true =>
    obtain rfl := Except.ok.inj hrest
    exact parseOption_grown true hat (isStatement_of_read _ _ _ hline htag hof) hoption
  | false =>
    obtain rfl := Except.ok.inj hrest
    exact (parseOption_grown false hat (isStatement_of_read _ _ _ hline htag hof) hoption).warned _

theorem parseRows_grown {files : Files} {env : Environment} {inner : Include}
    {sts : Path → Chars → List Statement} (hinner : Goes env inner sts) {chain : List Path}
    {source : Path} {rows : List (Row × Nat)} {p p' : Parsing} (henv : p.config.environment = env)
    (h : parseRows files inner chain source rows p = .ok p') :
    Grown (rows.flatMap fun r => rowStatements files env sts source r.1.1) p p' := by
  induction rows generalizing p with
  | nil =>
    obtain rfl := Except.ok.inj h
    exact Grown.refl p
  | cons r rows ih =>
    obtain ⟨q, hline, hrest⟩ := Program.except_bind_ok h
    have hfirst := parseLine_grown hinner henv hline
    exact hfirst.trans (ih (hfirst.environment.trans henv) hrest)

theorem scan_eq_zipIdx {β : Type} (g : Chars → List β) (text : Chars) :
    scan g text = (splitText text).zipIdx.flatMap fun r => g r.1.1 := by
  have hmap : (splitText text).zipIdx.map Prod.fst = splitText text := List.zipIdx_map_fst 0 _
  unfold scan
  conv_lhs => rw [← hmap]
  rw [List.flatMap_map]

/-- The parser goes through the statements of a text. -/
theorem parseInto_grown (files : Files) (env : Environment) (room : Nat) :
    Goes env (parseInto files room) (statementsOf files env room) := by
  induction room with
  | zero =>
    intro chain source text p p' henv h
    have hnone : Goes env (fun _ _ _ _ => .error "Recursive -OF reference") fun _ _ => [] := by
      intro _ _ _ _ _ _ h
      cases h
    have hrows := parseRows_grown hnone henv h
    rw [← scan_eq_zipIdx] at hrows
    exact hrows
  | succ room ih =>
    intro chain source text p p' henv h
    have hrows := parseRows_grown ih henv h
    rw [← scan_eq_zipIdx] at hrows
    exact hrows

/-! ## A configuration that is parsed -/

/-- The statements of the text at a path. -/
def textStatements (files : Files) (env : Environment) (path : Path) (text : Chars) :
    List Statement := statementsOf files env 15 path text

def defaultMeaning : Meaning := ⟨defaultSettings, "1.1".toList, ∅⟩

/-- What a configuration says, and where. -/
structure Said (files : Files) (env : Environment) (path : Path) (text : Chars)
    (c : Tech2WinConfig) : Prop where
  meaning : c.meaning = (textStatements files env path text).foldl (Meaning.say env) defaultMeaning
  fresh : (optionFlags (textStatements files env path text)).Nodup
  rivals : ∀ f ∈ optionFlags (textStatements files env path text), isBackend f = true →
    rival f ∉ optionFlags (textStatements files env path text)
  accepted : ∀ st ∈ textStatements files env path text, Accepted env st
  lines : stated c.lines = textStatements files env path text
  sourceText : c.sourceText = text
  sourcePath : c.sourcePath = path

theorem parse_said {files : Files} {env : Environment} {path : Path} {text : Chars}
    {c : Tech2WinConfig} (h : parseWithEnvironment files path text env = .ok c) :
    Said files env path text c := by
  obtain ⟨p, hparse, hc⟩ := Program.except_bind_ok h
  obtain rfl := Except.ok.inj hc
  have hgrown := parseInto_grown files env 15 _ _ _ _ _ rfl hparse
  refine ⟨hgrown.meaning, hgrown.fresh, fun f hf hbackend hmem => ?_, hgrown.accepted,
    hgrown.lines, hgrown.text, hgrown.path⟩
  exact hgrown.rivals f hf hbackend (List.mem_append_left _ hmem)

/-! ## Where a line stands -/

/-- A line of the file that is read, unless it is one of a file that is included. -/
def Stands (files : Files) (chain : List Path) (source : Path) (rows : List (Row × Nat))
    (l : ConfigLine) : Prop :=
  (l.source = source ∧ ∃ r ∈ rows, l.line = r.2 + 1 ∧ (l.flag = "" ∨
    (readLine r.1.1).line.head? ≠ some ';' ∧ l.flag = (readLine r.1.1).flag ∧
      l.value = (readLine r.1.1).value)) ∨
  files.normalized l.source ∉ chain

/-- The new lines all stand somewhere. -/
def Placed (files : Files) (chain : List Path) (source : Path) (rows : List (Row × Nat))
    (p p' : Parsing) : Prop :=
  ∃ ls, p'.config.lines = p.config.lines ++ ls ∧ ∀ l ∈ ls, Stands files chain source rows l

theorem placed_refl (files : Files) (chain : List Path) (source : Path) (rows : List (Row × Nat))
    (p : Parsing) : Placed files chain source rows p p :=
  ⟨[], (List.append_nil _).symm, nofun⟩

theorem Placed.trans {files : Files} {chain : List Path} {source : Path} {rows : List (Row × Nat)}
    {p p' p'' : Parsing} (h : Placed files chain source rows p p')
    (h' : Placed files chain source rows p' p'') : Placed files chain source rows p p'' := by
  obtain ⟨ls, hls, hall⟩ := h
  obtain ⟨ls', hls', hall'⟩ := h'
  refine ⟨ls ++ ls', by rw [hls', hls, List.append_assoc], fun l hl => ?_⟩
  rcases List.mem_append.mp hl with hl | hl
  · exact hall l hl
  · exact hall' l hl

theorem Placed.mono {files : Files} {chain : List Path} {source : Path}
    {rows rows' : List (Row × Nat)} {p p' : Parsing} (h : Placed files chain source rows p p')
    (hsub : ∀ r ∈ rows, r ∈ rows') : Placed files chain source rows' p p' := by
  obtain ⟨ls, hls, hall⟩ := h
  refine ⟨ls, hls, fun l hl => ?_⟩
  rcases hall l hl with ⟨hsource, r, hr, hread⟩ | hout
  · exact .inl ⟨hsource, r, hsub r hr, hread⟩
  · exact .inr hout

/-- The lines of an included file stand elsewhere. -/
def Elsewhere (files : Files) (inner : Include) : Prop :=
  ∀ chain path text p p', inner chain path text p = .ok p' →
    Placed files chain path (splitText text).zipIdx p p'

theorem parseLine_placed {files : Files} {inner : Include} (hinner : Elsewhere files inner)
    {chain : List Path} {source : Path} {n : Nat} {row : Row} {p p' : Parsing}
    (h : parseLine files inner chain source (n + 1) row.1 p = .ok p') :
    Placed files chain source [(row, n)] p p' := by
  have hone : ∀ l : ConfigLine, l.source = source → l.line = n + 1 → (l.flag = "" ∨
      (readLine row.1).line.head? ≠ some ';' ∧ l.flag = (readLine row.1).flag ∧
        l.value = (readLine row.1).value) → ∀ q : Parsing, q.config.lines = p.config.lines →
      Placed files chain source [(row, n)] p (q.listed l) := by
    intro l hsource hline hflag q hq
    refine ⟨[l], by rw [← hq]; rfl, fun m hm => ?_⟩
    obtain rfl := List.mem_singleton.mp hm
    exact .inl ⟨hsource, _, List.mem_singleton_self _, hline, hflag⟩
  replace h := mapError_ok h
  split at h
  · obtain rfl := Except.ok.inj h
    exact hone _ rfl rfl (.inl rfl) p rfl
  next hblank =>
  have hcomment : (readLine row.1).line.head? ≠ some ';' := (not_or.mp hblank).2
  have hrecord : ∀ (kept : Bool) (q : Parsing), q.config.lines = p.config.lines →
      Placed files chain source [(row, n)] p (q.listed
        ⟨source, n + 1, row.1, (readLine row.1).flag, (readLine row.1).value, kept⟩) :=
    fun kept q hq => hone _ rfl rfl (.inr ⟨hcomment, rfl, rfl⟩) q hq
  split at h
  · obtain rfl := Except.ok.inj h
    exact hrecord false _ rfl
  split at h
  · split at h
    · cases h
    obtain rfl := Except.ok.inj h
    exact hrecord _ _ rfl
  split at h
  · obtain ⟨⟨path, key, text⟩, hincluded, hrest⟩ := Program.except_bind_ok h
    obtain ⟨_, hkey, hnew⟩ := included_ok hincluded
    refine (hrecord true p rfl).trans ?_
    obtain ⟨ls, hls, hall⟩ := hinner _ _ _ _ _ hrest
    refine ⟨ls, hls, fun l hl => .inr ?_⟩
    rcases hall l hl with ⟨hsource, _⟩ | hout
    · rwa [hsource, ← hkey]
    · exact fun hmem => hout (List.mem_append_left _ hmem)
  obtain ⟨⟨supported, q⟩, hoption, hrest⟩ := Program.except_bind_ok h
  obtain ⟨_, _, r, warnings, _, rfl⟩ := parseOption_ok hoption
  cases supported with
  | true =>
    obtain rfl := Except.ok.inj hrest
    exact hrecord _ _ rfl
  | false =>
    obtain rfl := Except.ok.inj hrest
    exact hrecord _ _ rfl

theorem parseRows_placed {files : Files} {inner : Include} (hinner : Elsewhere files inner)
    {chain : List Path} {source : Path} {rows : List (Row × Nat)} {p p' : Parsing}
    (h : parseRows files inner chain source rows p = .ok p') :
    Placed files chain source rows p p' := by
  induction rows generalizing p with
  | nil =>
    obtain rfl := Except.ok.inj h
    exact placed_refl files chain source [] p
  | cons r rows ih =>
    obtain ⟨q, hline, hrest⟩ := Program.except_bind_ok h
    refine ((parseLine_placed hinner hline).mono fun s hs => ?_).trans
      ((ih hrest).mono fun s hs => List.mem_cons_of_mem r hs)
    rw [List.mem_singleton.mp hs]
    exact List.mem_cons_self

theorem parseInto_placed (files : Files) (room : Nat) :
    Elsewhere files (parseInto files room) := by
  induction room with
  | zero =>
    intro chain source text p p' h
    refine parseRows_placed ?_ h
    intro _ _ _ _ _ h
    cases h
  | succ room ih =>
    intro chain source text p p' h
    exact parseRows_placed ih h

/-- A line of the text itself is one of its rows. -/
theorem parse_placed {files : Files} {env : Environment} {path : Path} {text : Chars}
    {c : Tech2WinConfig} (h : parseWithEnvironment files path text env = .ok c) {l : ConfigLine}
    (hl : l ∈ c.lines) (hsource : files.normalized l.source = files.normalized path)
    (hflag : l.flag ≠ "") : l.source = path ∧ ∃ row, (splitText text)[l.line - 1]? = some row ∧
      (readLine row.1).line.head? ≠ some ';' ∧ l.flag = (readLine row.1).flag ∧
      l.value = (readLine row.1).value := by
  obtain ⟨p, hparse, hc⟩ := Program.except_bind_ok h
  obtain rfl := Except.ok.inj hc
  obtain ⟨ls, hls, hall⟩ := parseInto_placed files 15 _ _ _ _ _ hparse
  rw [hls] at hl
  rcases hall l hl with ⟨hpath, r, hr, hline, hread⟩ | hout
  · refine ⟨hpath, r.1, ?_, hread.resolve_left hflag⟩
    rw [hline, Nat.add_sub_cancel]
    exact List.mem_zipIdx_iff_getElem?.mp hr
  · exact absurd (List.mem_singleton.mpr hsource) hout

end OpenSaab.Config
