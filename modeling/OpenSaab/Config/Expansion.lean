import OpenSaab.Config.Effective

/-!
# Included files

The lines of a configuration are those of its file and of the files that it includes, each in its
place.
-/

namespace OpenSaab.Config

/-! ## Environment references -/

/-- Each name between two percent signs is replaced once; what is put in is not looked at again. -/
inductive Expanded (env : Environment) : Chars → Chars → Prop
  | plain {s : Chars} (h : '%' ∉ s) : Expanded env s s
  | lone {a b : Chars} (ha : '%' ∉ a) (hb : '%' ∉ b) :
    Expanded env (a ++ '%' :: b) (a ++ '%' :: b)
  | found {a name value rest rest' : Chars} (ha : '%' ∉ a) (hname : '%' ∉ name)
      (hvalue : lookup env name = some value) (hrest : Expanded env rest rest') :
    Expanded env (a ++ '%' :: (name ++ '%' :: rest)) (a ++ value ++ rest')
  | missing {a name rest rest' : Chars} (ha : '%' ∉ a) (hname : '%' ∉ name)
      (hnone : lookup env name = none) (hrest : Expanded env rest rest') :
    Expanded env (a ++ '%' :: (name ++ '%' :: rest)) (a ++ '%' :: (name ++ '%' :: rest'))

/-- A path as it stands in a file, resolved against the directory of that file. -/
structure Resolves (env : Environment) (source : Path) (value : Chars) (p : ConfigPath) : Prop where
  raw : p.raw = value
  expanded : ∃ plain, unquote value = .ok plain ∧ Expanded env plain p.expanded
  resolved : p.resolved = if absoluteReference (portable p.expanded) then portable p.expanded
    else join ((parent source).getD ['.']) (portable p.expanded)

theorem expand_named {env : Environment} {plain name : Chars} {rest : List Chars} (h : rest ≠ []) :
    (expand env (plain :: name :: rest)).1 = match lookup env name with
      | some value => plain ++ value ++ (expand env rest).1
      | none => plain ++ '%' :: (name ++ '%' :: (expand env rest).1) := by
  cases rest with
  | nil => exact absurd rfl h
  | cons part rest =>
    rw [expand]
    · cases lookup env name with
      | none => simp
      | some value => rfl
    · exact List.cons_ne_nil part rest

/-- Between its percent signs a value is expanded part by part. -/
theorem expand_expanded (env : Environment) (s : Chars) :
    Expanded env s (expand env (s.splitOn '%')).1 := by
  induction hlen : s.length using Nat.strong_induction_on generalizing s with
  | _ len ih =>
  by_cases hs : '%' ∈ s
  · obtain ⟨a, t, rfl, ha⟩ := List.eq_append_cons_of_mem hs
    rw [List.splitOn_append_cons_self_of_not_mem ha]
    by_cases ht : '%' ∈ t
    · obtain ⟨name, rest, rfl, hname⟩ := List.eq_append_cons_of_mem ht
      have hrest := ih rest.length (by simp at hlen; omega) rest rfl
      rw [List.splitOn_append_cons_self_of_not_mem hname,
        expand_named (List.splitOn_ne_nil '%' rest)]
      cases hlookup : lookup env name with
      | none => exact .missing ha hname hlookup hrest
      | some value => exact .found ha hname hlookup hrest
    · rw [List.splitOn_eq_singleton ht]
      exact .lone ha ht
  · rw [List.splitOn_eq_singleton hs]
    exact .plain hs

theorem resolvePath_resolves {env : Environment} {source : Path} {value : Chars} {p : ConfigPath}
    (h : resolvePath value source env = .ok p) : Resolves env source value p := by
  obtain ⟨plain, hplain, h⟩ := Program.except_bind_ok h
  split at h
  · cases h
  obtain rfl := Except.ok.inj h
  exact ⟨rfl, ⟨plain, hplain, expand_expanded env plain⟩, rfl⟩

/-! ## The lines of an expansion -/

def supportedFlags : List String :=
  pathFlags ++ ["@", "-OF", "-B0", "-B1", "-PP", "-PJ", "-KP", "-SS", "-SH", "-WR", "-CB", "-CT",
    "-KPBKC", "-PC", "-ATA", "-S", "-W", "-C", "-TP", "-TD", "-MS", "-L", "-H", "-W0", "-W1", "-US",
    "-WA"]

/-- The body of a line is empty, or a comment. -/
def isBlank (raw : Chars) : Bool :=
  (readLine raw).line = [] ∨ (readLine raw).line.head? = some ';'

/-- What is recorded of a line. -/
def recordOf (source : Path) (n : Nat) (raw : Chars) : ConfigLine :=
  let r := readLine raw
  ⟨source, n, raw, if isBlank raw then "" else r.flag, r.value,
    isBlank raw || decide (r.line.head? ≠ some '<' ∧ r.flag ∈ supportedFlags)⟩

/-- These lines are those of a file and of the files it includes, depth first. -/
inductive Expands (files : Files) (env : Environment) :
    Path → List (Row × Nat) → List ConfigLine → Prop
  | nil (source : Path) : Expands files env source [] []
  | line {source : Path} {row : Row} {n : Nat} {rest : List (Row × Nat)} {lines : List ConfigLine}
      (hrow : (readLine row.1).flag ≠ "-OF") (hrest : Expands files env source rest lines) :
    Expands files env source ((row, n) :: rest) (recordOf source (n + 1) row.1 :: lines)
  | file {source : Path} {row : Row} {n : Nat} {rest : List (Row × Nat)} {lines : List ConfigLine}
      {path : Path} {text : Chars} {inner : List ConfigLine} (hrow : (readLine row.1).flag = "-OF")
      (htext : includedText files env source (readLine row.1).value = some (path, text))
      (hinner : Expands files env path (splitText text).zipIdx inner)
      (hrest : Expands files env source rest lines) :
    Expands files env source ((row, n) :: rest)
      (recordOf source (n + 1) row.1 :: (inner ++ lines))

/-- A file, with its text, has a line that includes another one. -/
def Opens (files : Files) (env : Environment) (f g : Path × Chars) : Prop :=
  ∃ row ∈ splitText f.2, (readLine row.1).flag = "-OF" ∧
    includedText files env f.1 (readLine row.1).value = some g

/-! ## Supported options -/

/-- The option is taken, unless it is refused. -/
def Takes (r : Except String (Option Settings)) : Prop := ∀ o, r = .ok o → o.isSome = true

theorem Takes.some (s : Settings) : Takes (.ok (some s)) := by
  intro o ho
  obtain rfl := Except.ok.inj ho
  rfl

theorem Takes.error (e : String) : Takes (.error e) := by
  intro o ho
  cases ho

theorem Takes.bind {α : Type} {x : Except String α} {f : α → Except String (Option Settings)}
    (h : ∀ a, Takes (f a)) : Takes (x >>= f) := by
  intro o ho
  obtain ⟨a, -, ho⟩ := Program.except_bind_ok ho
  exact h a o ho

theorem Takes.map (x : Except String Settings) : Takes (Option.some <$> x) := by
  intro o ho
  cases x with
  | error e => cases ho
  | ok s =>
    obtain rfl := Except.ok.inj ho
    rfl

theorem Takes.ite {c : Prop} [Decidable c] {x y : Except String (Option Settings)}
    (hx : c → Takes x) (hy : ¬ c → Takes y) : Takes (if c then x else y) := by
  split
  · next h => exact hx h
  · next h => exact hy h

theorem settle_takes {flag : String} (hflag : flag ∈ supportedFlags) (hat : flag ≠ "@")
    (hof : flag ≠ "-OF") (env : Environment) (source : Path) (value : Chars) (s : Settings) :
    Takes (settle env source flag value s) := by
  unfold settle
  repeat' first
    | exact Takes.some _
    | exact Takes.error _
    | exact Takes.map _
    | refine Takes.ite (fun _ => ?_) fun _ => ?_
    | refine Takes.bind fun _ => ?_
  simp only [supportedFlags, List.mem_append, List.mem_cons, List.not_mem_nil, or_false,
    isBackend, decide_eq_true_eq] at *
  tauto

theorem settle_none {flag : String} (hflag : flag ∉ supportedFlags) (env : Environment)
    (source : Path) (value : Chars) (s : Settings) : settle env source flag value s = .ok none := by
  simp only [supportedFlags, List.mem_append, List.mem_cons, List.not_mem_nil, or_false, not_or]
    at hflag
  unfold settle
  simp [hflag, isBackend]

theorem settle_supported {env : Environment} {source : Path} {flag : String} {value : Chars}
    {s : Settings} {r : Option Settings} (h : settle env source flag value s = .ok r)
    (hat : flag ≠ "@") (hof : flag ≠ "-OF") : r.isSome = decide (flag ∈ supportedFlags) := by
  by_cases hflag : flag ∈ supportedFlags
  · rw [decide_eq_true hflag]
    exact settle_takes hflag hat hof env source value s r h
  · rw [decide_eq_false hflag]
    rw [settle_none hflag] at h
    rw [← Except.ok.inj h]
    rfl

theorem parseOption_supported {source : Path} {n : Nat} {flag : String} {value : Chars}
    {p q : Parsing} {supported : Bool} (hat : flag ≠ "@") (hof : flag ≠ "-OF")
    (h : parseOption source n flag value p = .ok (supported, q)) :
    supported = decide (flag ∈ supportedFlags) := by
  unfold parseOption at h
  split at h
  · cases h
  split at h
  · cases h
  obtain ⟨r, hsettle, hrest⟩ := Program.except_bind_ok h
  rw [← settle_supported hsettle hat hof]
  cases r with
  | none => exact (Prod.mk.inj (Except.ok.inj hrest)).1.symm
  | some settings => exact (Prod.mk.inj (Except.ok.inj hrest)).1.symm

/-! ## Nested files -/

/-- `parse_into`, with other code in the place of the calls that are nested this deep. -/
def nested (files : Files) (deeper : Include) : Nat → Include
  | 0 => deeper
  | depth + 1 => fun chain source text p =>
    parseRows files (nested files deeper depth) chain source (splitText text).zipIdx p

theorem included_room {files : Files} {env : Environment} {chain : List Path} {source : Path}
    {value : Chars} {path key : Path} {text : Chars}
    (h : included files env chain source value = .ok (path, key, text)) : chain.length < 16 := by
  obtain ⟨resolved, -, hrest⟩ := Program.except_bind_ok h
  split at hrest
  · cases hrest
  dsimp only at hrest
  split at hrest
  · cases hrest
  next hchain => exact Nat.lt_of_not_le fun hlong => hchain (.inl hlong)

theorem except_bind_congr {ε α β : Type} {r : Except ε α} {f g : α → Except ε β}
    (h : ∀ a, r = .ok a → f a = g a) : (r >>= f) = (r >>= g) := by
  cases r with
  | error e => rfl
  | ok a => exact h a rfl

section

variable {files : Files} {inner inner' : Include} {chain : List Path}

/-- Two parsers that agree where a file can still be opened. -/
def AgreeAfter (inner inner' : Include) (chain : List Path) : Prop :=
  chain.length < 16 → ∀ key path text p,
    inner (chain ++ [key]) path text p = inner' (chain ++ [key]) path text p

theorem parseLine_congr (h : AgreeAfter inner inner' chain) (source : Path) (n : Nat) (raw : Chars)
    (p : Parsing) : parseLine files inner chain source n raw p =
      parseLine files inner' chain source n raw p := by
  unfold parseLine
  dsimp only
  congr 1
  refine ite_congr rfl (fun _ => rfl) fun _ => ite_congr rfl (fun _ => rfl) fun _ =>
    ite_congr rfl (fun _ => rfl) fun _ => ite_congr rfl (fun _ => ?_) fun _ => rfl
  refine except_bind_congr fun ⟨path, key, text⟩ hincluded => ?_
  exact h (included_room hincluded) key path text _

theorem parseRows_congr (h : AgreeAfter inner inner' chain) (source : Path)
    (rows : List (Row × Nat)) (p : Parsing) : parseRows files inner chain source rows p =
      parseRows files inner' chain source rows p := by
  induction rows generalizing p with
  | nil => rfl
  | cons r rows ih =>
    rw [parseRows, parseRows, parseLine_congr h]
    exact except_bind_congr fun q _ => ih q

/-- What would be done deeper down than sixteen files is never done. -/
theorem nested_eq (files : Files) (deeper : Include) (room : Nat) (chain : List Path)
    (h : 16 ≤ chain.length + room) (source : Path) (text : Chars) (p : Parsing) :
    nested files deeper (room + 1) chain source text p = parseInto files room chain source text p := by
  induction room generalizing chain source text p with
  | zero =>
    refine parseRows_congr (fun hlt => ?_) source _ p
    omega
  | succ room ih =>
    refine parseRows_congr (fun _ key path text p => ?_) source _ p
    refine ih (chain ++ [key]) ?_ path text p
    rw [List.length_append, List.length_singleton]
    omega

/-! ## Parsed files -/

theorem isBlank_include {raw : Chars} (h : (readLine raw).flag = "-OF") :
    isBlank raw = false ∧ (readLine raw).line.head? ≠ some '<' := by
  have hdash : (readLine raw).flag.toList.head? = some '-' := by
    rw [h]
    rfl
  obtain ⟨hne, hhead⟩ := line_of_flag (by decide) hdash
  refine ⟨decide_eq_false fun hblank => ?_, ?_⟩
  · rcases hblank with hempty | hcomment
    · exact hne hempty
    · rw [hhead] at hcomment
      cases hcomment
  · rw [hhead]
    decide

theorem recordOf_blank {raw : Chars} (h : isBlank raw = true) (source : Path) (n : Nat) :
    recordOf source n raw = ⟨source, n, raw, "", (readLine raw).value, true⟩ := by
  unfold recordOf
  rw [h]
  rfl

theorem recordOf_flagged {raw : Chars} (h : isBlank raw = false) (source : Path) (n : Nat) :
    recordOf source n raw = ⟨source, n, raw, (readLine raw).flag, (readLine raw).value,
      decide ((readLine raw).line.head? ≠ some '<' ∧ (readLine raw).flag ∈ supportedFlags)⟩ := by
  unfold recordOf
  rw [h]
  rfl

/-- What the parser does with a line. -/
theorem parseLine_cases {source : Path} {n : Nat} {raw : Chars} {p p' : Parsing}
    (h : parseLine files inner chain source n raw p = .ok p') :
    (readLine raw).flag ≠ "-OF" ∧ p'.config.environment = p.config.environment ∧
        p'.config.lines = p.config.lines ++ [recordOf source n raw] ∨
      (readLine raw).flag = "-OF" ∧ ∃ path key text,
        included files p.config.environment chain source (readLine raw).value =
          .ok (path, key, text) ∧
        inner (chain ++ [key]) path text (p.listed (recordOf source n raw)) = .ok p' := by
  replace h := mapError_ok h
  split at h
  · next hblank =>
    have hblank : isBlank raw = true := decide_eq_true hblank
    obtain rfl := Except.ok.inj h
    rw [recordOf_blank hblank]
    refine .inl ⟨fun hof => ?_, rfl, rfl⟩
    rw [(isBlank_include hof).1] at hblank
    cases hblank
  next hblank =>
  rw [recordOf_flagged (decide_eq_false hblank)]
  split at h
  · next htag =>
    obtain rfl := Except.ok.inj h
    rw [decide_eq_false fun hsupported => hsupported.1 htag]
    exact .inl ⟨fun hof => (isBlank_include hof).2 htag, rfl, rfl⟩
  next htag =>
  split at h
  · next hat =>
    split at h
    · cases h
    obtain rfl := Except.ok.inj h
    rw [decide_eq_true ⟨htag, hat ▸ by decide⟩]
    exact .inl ⟨hat ▸ by decide, rfl, rfl⟩
  next hat =>
  split at h
  · next hof =>
    obtain ⟨⟨path, key, text⟩, hincluded, hinner⟩ := Program.except_bind_ok h
    rw [decide_eq_true ⟨htag, hof ▸ by decide⟩]
    exact .inr ⟨hof, path, key, text, hincluded, hinner⟩
  next hof =>
  obtain ⟨⟨supported, q⟩, hoption, hrest⟩ := Program.except_bind_ok h
  obtain ⟨_, _, r, warnings, _, rfl⟩ := parseOption_ok hoption
  have hsupported : decide ((readLine raw).line.head? ≠ some '<' ∧
      (readLine raw).flag ∈ supportedFlags) = supported := by
    rw [parseOption_supported hat hof hoption]
    exact decide_eq_decide.mpr (and_iff_right htag)
  rw [hsupported]
  cases supported with
  | true =>
    obtain rfl := Except.ok.inj hrest
    exact .inl ⟨hof, rfl, rfl⟩
  | false =>
    obtain rfl := Except.ok.inj hrest
    exact .inl ⟨hof, rfl, rfl⟩

/-- The parser of an included file adds the lines of its expansion. -/
def Records (files : Files) (env : Environment) (inner : Include) : Prop :=
  ∀ chain path text p p', p.config.environment = env → inner chain path text p = .ok p' →
    p'.config.environment = env ∧ ∃ lines, p'.config.lines = p.config.lines ++ lines ∧
      Expands files env path (splitText text).zipIdx lines

variable {env : Environment} {source : Path} {rows : List (Row × Nat)} {p p' : Parsing}

theorem parseLine_environment (hinner : Records files env inner) {n : Nat} {raw : Chars}
    (henv : p.config.environment = env) (h : parseLine files inner chain source n raw p = .ok p') :
    p'.config.environment = env := by
  rcases parseLine_cases h with ⟨_, hsame, _⟩ | ⟨_, path, key, text, _, hparse⟩
  · exact hsame.trans henv
  · have hlisted : (p.listed (recordOf source n raw)).config.environment = env := henv
    exact (hinner _ _ _ _ _ hlisted hparse).1

theorem parseRows_records (hinner : Records files env inner) (henv : p.config.environment = env)
    (h : parseRows files inner chain source rows p = .ok p') : p'.config.environment = env ∧
      ∃ lines, p'.config.lines = p.config.lines ++ lines ∧ Expands files env source rows lines := by
  induction rows generalizing p with
  | nil =>
    obtain rfl := Except.ok.inj h
    exact ⟨henv, [], (List.append_nil _).symm, .nil source⟩
  | cons r rows ih =>
    obtain ⟨q, hline, hrest⟩ := Program.except_bind_ok h
    have henv' := parseLine_environment hinner henv hline
    obtain ⟨hend, lines, hlines, hexpands⟩ := ih henv' hrest
    refine ⟨hend, ?_⟩
    rcases parseLine_cases hline with ⟨hrow, _, hq⟩ | ⟨hrow, path, key, text, hincluded, hparse⟩
    · refine ⟨recordOf source (r.2 + 1) r.1.1 :: lines, ?_, .line hrow hexpands⟩
      rw [hlines, hq, List.append_assoc]
      rfl
    · have hlisted : (p.listed (recordOf source (r.2 + 1) r.1.1)).config.environment = env := henv
      obtain ⟨_, inside, hinside, hexpands'⟩ := hinner _ _ _ _ _ hlisted hparse
      rw [henv] at hincluded
      refine ⟨recordOf source (r.2 + 1) r.1.1 :: (inside ++ lines), ?_,
        .file hrow (included_ok hincluded).1 hexpands' hexpands⟩
      rw [hlines, hinside]
      change p.config.lines ++ [_] ++ inside ++ lines = _
      simp only [List.append_assoc, List.cons_append, List.nil_append]

theorem parseInto_records (files : Files) (env : Environment) (room : Nat) :
    Records files env (parseInto files room) := by
  induction room with
  | zero =>
    intro chain path text p p' henv h
    refine parseRows_records ?_ henv h
    intro _ _ _ _ _ _ h
    cases h
  | succ room ih =>
    intro chain path text p p' henv h
    exact parseRows_records ih henv h

/-- Each line of a file that is parsed has been gone through. -/
theorem parseRows_line (hinner : Records files env inner) (henv : p.config.environment = env)
    (h : parseRows files inner chain source rows p = .ok p') {r : Row × Nat} (hr : r ∈ rows) :
    ∃ q q', q.config.environment = env ∧
      parseLine files inner chain source (r.2 + 1) r.1.1 q = .ok q' := by
  induction rows generalizing p with
  | nil => cases hr
  | cons s rows ih =>
    obtain ⟨q, hline, hrest⟩ := Program.except_bind_ok h
    rcases List.mem_cons.mp hr with rfl | hr
    · exact ⟨p, q, henv, hline⟩
    · exact ih (parseLine_environment hinner henv hline) hrest hr

/-- What a file that is parsed includes is parsed with one more file open. -/
theorem parseRows_opens (hinner : Records files env inner) (henv : p.config.environment = env)
    {text : Chars}
    (h : parseRows files inner chain source (splitText text).zipIdx p = .ok p') {g : Path × Chars}
    (hopens : Opens files env (source, text) g) : chain.length < 16 ∧
      files.normalized g.1 ∉ chain ∧ ∃ q q', q.config.environment = env ∧
        inner (chain ++ [files.normalized g.1]) g.1 g.2 q = .ok q' := by
  obtain ⟨row, hrow, hof, htext⟩ := hopens
  obtain ⟨i, hi⟩ := List.mem_iff_getElem?.mp hrow
  have hmem : (row, i) ∈ (splitText text).zipIdx := List.mem_zipIdx_iff_getElem?.mpr hi
  obtain ⟨q, q', hq, hline⟩ := parseRows_line hinner henv h hmem
  rcases parseLine_cases hline with ⟨hnot, _⟩ | ⟨_, path, key, text', hincluded, hparse⟩
  · exact absurd hof hnot
  · have hroom := included_room hincluded
    obtain ⟨hsome, rfl, hfresh⟩ := included_ok hincluded
    rw [hq] at hsome
    obtain rfl := Option.some.inj (hsome.symm.trans htext)
    refine ⟨hroom, hfresh, q.listed (recordOf source (i + 1) row.1), q', ?_, hparse⟩
    exact hq

/-- Files that include each other in turn are all different, and at most sixteen. -/
theorem parseInto_chain {room : Nat} {text : Chars} (henv : p.config.environment = env)
    (h : parseInto files room chain source text p = .ok p') (hfresh : chain.Nodup)
    (hlength : chain.length ≤ 16) {opened : List (Path × Chars)}
    (hopened : List.IsChain (Opens files env) ((source, text) :: opened)) :
    (chain ++ opened.map fun f => files.normalized f.1).Nodup ∧
      chain.length + opened.length ≤ 16 := by
  induction opened generalizing room chain source text p p' with
  | nil =>
    rw [List.map_nil, List.append_nil]
    exact ⟨hfresh, hlength⟩
  | cons g opened ih =>
    obtain ⟨hopens, hrest⟩ := List.isChain_cons_cons.mp hopened
    cases room with
    | zero =>
      have hnone : Records files env fun _ _ _ _ => .error "Recursive -OF reference" := by
        intro _ _ _ _ _ _ h
        cases h
      obtain ⟨_, _, q, q', _, hparse⟩ := parseRows_opens hnone henv h hopens
      cases hparse
    | succ room =>
      obtain ⟨hroom, hnew, q, q', hq, hparse⟩ :=
        parseRows_opens (parseInto_records files env room) henv h hopens
      have hnext : (chain ++ [files.normalized g.1]).Nodup := by
        refine List.nodup_append.mpr ⟨hfresh, List.nodup_singleton _, fun a ha b hb => ?_⟩
        rw [List.mem_singleton.mp hb]
        rintro rfl
        exact hnew ha
      have hend := ih hq hparse hnext (by rw [List.length_append, List.length_singleton]; omega) hrest
      rw [List.append_assoc, List.length_append, List.length_singleton] at hend
      refine ⟨hend.1, ?_⟩
      rw [List.length_cons]
      omega

end

theorem statement_of_path {l : ConfigLine} (h : l.flag ∈ pathFlags) :
    l.isStatement = true ∧ l.flag ≠ "@" := by
  unfold ConfigLine.isStatement
  generalize l.flag = flag at h ⊢
  simp only [pathFlags, List.mem_cons, List.not_mem_nil, or_false] at h
  rcases h with rfl | rfl | rfl | rfl | rfl | rfl | rfl <;> exact ⟨by decide, by decide⟩

/-- Parsing goes at most sixteen files deep. What it accepts includes no file within itself and says
no option twice, and is recorded line by line as it is expanded. -/
theorem parse_expands (files : Files) (path : Path) (text : Chars) (env : Environment) :
    (∀ deeper : Include, parseWithEnvironment files path text env = do
      let p ← nested files deeper 16 [files.normalized path] path text ⟨newConfig path text env, []⟩
      pure p.config) ∧
    ∀ c, parseWithEnvironment files path text env = .ok c →
      (∀ opened, List.IsChain (Opens files env) ((path, text) :: opened) →
        (((path, text) :: opened).map fun f => files.normalized f.1).Nodup ∧
          ((path, text) :: opened).length ≤ 16) ∧
      Expands files env path (splitText text).zipIdx c.lines ∧
      (optionFlags (stated c.lines)).Nodup ∧
      ∀ l ∈ c.lines, l.flag ∈ pathFlags →
        ∃ p, c.settings.paths[l.flag]? = some p ∧ Resolves env l.source l.value p := by
  constructor
  · intro deeper
    unfold parseWithEnvironment
    rw [nested_eq files deeper 15 [files.normalized path] (Nat.le_refl 16)]
  intro c h
  have hsaid := parse_said h
  obtain ⟨p, hparse, hc⟩ := Program.except_bind_ok h
  obtain rfl := Except.ok.inj hc
  have hlines : optionFlags (stated p.config.lines) =
      optionFlags (textStatements files env path text) := by rw [hsaid.lines]
  refine ⟨fun opened hopened => ?_, ?_, ?_, ?_⟩
  · obtain ⟨hfresh, hlength⟩ := parseInto_chain rfl hparse (List.nodup_singleton _)
      (by rw [List.length_singleton]; omega) hopened
    refine ⟨hfresh, ?_⟩
    rw [List.length_singleton] at hlength
    rw [List.length_cons]
    omega
  · obtain ⟨_, lines, hrecorded, hexpands⟩ := parseInto_records files env 15 _ _ _ _ _ rfl hparse
    rw [hrecorded]
    exact hexpands
  · rw [hlines]
    exact hsaid.fresh
  · intro l hl hflag
    obtain ⟨hstatement, hoption⟩ := statement_of_path hflag
    have hmem : l.statement ∈ textStatements files env path text := by
      rw [← hsaid.lines]
      exact List.mem_map_of_mem (List.mem_filter.mpr ⟨hl, hstatement⟩)
    have hshown := hsaid.shows.paths l.flag hflag
    have hfound : saidOf (textStatements files env path text) l.flag = some l.statement :=
      saidOf_of_mem hsaid.fresh hmem hoption
    rw [hfound] at hshown
    obtain ⟨resolved, hresolved, hshown⟩ := Program.except_bind_ok hshown.symm
    refine ⟨resolved, ?_, resolvePath_resolves hresolved⟩
    exact (Except.ok.inj hshown).symm

/-- A file next to the one that includes it. -/
def homeFiles : Files where
  read p := if p = "d/b".toList then .ok (utf8Bytes "-P1 %home%/y\n".toList)
    else .error "No such file or directory (os error 2)"
  normalized := id

def homeEnvironment : Environment := [("HOME".toList, "/h".toList)]

theorem parse_expands_home : ∃ c,
    parseWithEnvironment homeFiles "d/a".toList "; x\n-OF b\n-P0 z\n".toList homeEnvironment = .ok c ∧
    Expands homeFiles homeEnvironment "d/a".toList (splitText "; x\n-OF b\n-P0 z\n".toList).zipIdx
      c.lines := by
  have hparse : (parseWithEnvironment homeFiles "d/a".toList "; x\n-OF b\n-P0 z\n".toList
      homeEnvironment).toOption.isSome = true := by
    decide +kernel
  cases h : parseWithEnvironment homeFiles "d/a".toList "; x\n-OF b\n-P0 z\n".toList
      homeEnvironment with
  | error e =>
    rw [h] at hparse
    cases hparse
  | ok c => exact ⟨c, rfl, ((parse_expands homeFiles _ _ homeEnvironment).2 c h).2.1⟩

end OpenSaab.Config
