import OpenSaab.Config.Statements
import OpenSaab.Library.Table

/-!
# Effects of options

What an option comes to, whatever its spelling, and where the settings show it.
-/

namespace OpenSaab.Config

/-! ## Options that can be edited -/

inductive Effect
  | reference (text : Chars)
  | side (side : KeypadSide)
  | color (rgb : Nat)
  | size (size : ScreenSize)
  | backend (backend : ConfigBackend)
  | text (value : Chars)
  deriving DecidableEq

def colorFlags : List String := ["-CT", "-CB", "-KPBKC"]

/-- The backend of a flag. -/
def backendOf (flag : String) : ConfigBackend := if flag = "-PJ" then .j2534 else .pdu

/-- A path is what stands between its quotes, a colour its number and a backend its flag. -/
def effect (flag : String) (value : Chars) : Except String Effect :=
  if flag = "-KP" then Effect.side <$> side value
  else if flag = "-P0" ∨ flag = "-P1" then Effect.reference <$> unquote value
  else if flag ∈ colorFlags then Effect.color <$> color value
  else if flag = "-SS" then Effect.size <$> screenSize value
  else if isBackend flag then .ok (.backend (backendOf flag))
  else .ok (.text value)

theorem map_ok {α β : Type} {f : α → β} {r : Except String α} {b : β} (h : f <$> r = .ok b) :
    ∃ a, r = .ok a ∧ f a = b := by
  cases r with
  | error e => cases h
  | ok a => exact ⟨a, rfl, Except.ok.inj h⟩

/-- What two values are compared by decides whether they have one effect. -/
theorem compared {α : Type} [DecidableEq α] {wrap : α → Effect}
    (hwrap : Function.Injective wrap) {f : Chars → Except String α} {v w : Chars} {b : Bool}
    (h : (do
      let new ← f v
      let old ← f w
      pure (decide (new = old)) : Except String Bool) = .ok b) :
    b = true ↔ wrap <$> f v = wrap <$> f w := by
  obtain ⟨new, hnew, h⟩ := Program.except_bind_ok h
  obtain ⟨old, hold, h⟩ := Program.except_bind_ok h
  rw [hnew, hold, ← Except.ok.inj h, decide_eq_true_eq]
  constructor
  · rintro rfl
    rfl
  · exact fun heq => hwrap (Except.ok.inj heq)

theorem allowed_cases {flag : String} (h : flag ∈ allowed) (hkp : flag ≠ "-KP")
    (hpath : ¬ (flag = "-P0" ∨ flag = "-P1")) (hcolor : flag ∉ colorFlags) (hsize : flag ≠ "-SS") :
    isBackend flag = true := by
  simp only [allowed, List.mem_cons, List.not_mem_nil, or_false] at h
  rcases h with rfl | rfl | rfl | rfl | rfl | rfl | rfl | rfl | rfl
  · exact absurd (.inl rfl) hpath
  · exact absurd (.inr rfl) hpath
  · exact absurd rfl hkp
  · exact absurd (by decide) hcolor
  · exact absurd (by decide) hcolor
  · exact absurd (by decide) hcolor
  · exact absurd rfl hsize
  · decide
  · decide

theorem unchanged_iff {flag : String} {value : Chars} {owner : ConfigLine} {b : Bool}
    (hflag : flag ∈ allowed) (howner : owner.flag = flag ∨ isBackend flag = true ∧
      owner.flag = rival flag)
    (hbare : isBackend flag = true → value = owner.value)
    (h : unchanged flag value owner = .ok b) :
    b = true ↔ effect flag value = effect owner.flag owner.value := by
  unfold unchanged at h
  split at h
  · next hsame =>
    rw [← Except.ok.inj h, hsame.1, hsame.2]
    exact ⟨fun _ => rfl, fun _ => rfl⟩
  next hdiffer =>
  by_cases hbackend : isBackend flag = true
  · have hrival : owner.flag = rival flag :=
      (howner.resolve_left fun heq => hdiffer ⟨hbare hbackend, heq.symm⟩).2
    rw [hrival]
    rcases backend_cases hbackend with rfl | rfl
    · rw [← Except.ok.inj h]
      exact ⟨nofun, fun heq => by cases heq⟩
    · rw [← Except.ok.inj h]
      exact ⟨nofun, fun heq => by cases heq⟩
  obtain rfl := howner.resolve_right fun hr => hbackend hr.1
  unfold effect
  split at h
  · next hkp =>
    rw [if_pos hkp, if_pos hkp]
    obtain ⟨new, hnew, h⟩ := Program.except_bind_ok h
    obtain ⟨old, hold, h⟩ := Program.except_bind_ok h
    split at h
    · next heq =>
      rw [hnew, hold, heq, ← Except.ok.inj h]
      exact ⟨fun _ => rfl, fun _ => rfl⟩
    next hne =>
    -- values of two sides are not one value
    obtain ⟨newKey, hnewKey, h⟩ := Program.except_bind_ok h
    obtain ⟨oldKey, holdKey, h⟩ := Program.except_bind_ok h
    have hkeys : newKey ≠ oldKey := by
      rintro rfl
      unfold side at hnew hold
      rw [hnewKey] at hnew
      rw [holdKey] at hold
      exact hne (Except.ok.inj (hnew.symm.trans hold))
    rw [hnew, hold, ← Except.ok.inj h, decide_eq_true_eq]
    exact ⟨fun heq => absurd heq hkeys, fun heq => absurd (Effect.side.inj (Except.ok.inj heq)) hne⟩
  next hkp =>
  rw [if_neg hkp, if_neg hkp]
  split at h
  · next hpath =>
    rw [if_pos hpath, if_pos hpath]
    exact compared (fun _ _ => Effect.reference.inj) h
  next hpath =>
  rw [if_neg hpath, if_neg hpath]
  split at h
  · next hcolor =>
    have hmem : owner.flag ∈ colorFlags := by simpa [colorFlags] using hcolor
    rw [if_pos hmem, if_pos hmem]
    exact compared (fun _ _ => Effect.color.inj) h
  next hcolor =>
  have hmem : owner.flag ∉ colorFlags := by simpa [colorFlags] using hcolor
  rw [if_neg hmem, if_neg hmem]
  split at h
  · next hsize =>
    rw [if_pos hsize, if_pos hsize]
    exact compared (fun _ _ => Effect.size.inj) h
  next hsize =>
    exact absurd (allowed_cases hflag hkp hpath hmem hsize) hbackend

theorem unquote_bare {v : Chars} (hv : Text.Trimmed v) (hhead : v.head? ≠ some '"') :
    unquote v = .ok v := by
  unfold unquote
  rw [hv.trim]
  cases v with
  | nil => rfl
  | cons c v =>
    dsimp only
    split
    · next heq => exact absurd (congrArg List.head? heq) hhead
    · rfl

theorem unquote_wrapped (v : Chars) : unquote (['"'] ++ v ++ ['"']) = .ok v := by
  have hquote : Text.whitespace '"' = false := by decide
  have htrimmed : Text.Trimmed (['"'] ++ v ++ ['"']) := by
    constructor
    · intro c hc
      obtain rfl := Option.some.inj hc
      exact hquote
    · intro c hc
      rw [List.getLast?_append_of_ne_nil _ (List.cons_ne_nil _ _)] at hc
      obtain rfl := Option.some.inj hc
      exact hquote
  unfold unquote
  rw [htrimmed.trim]
  change (if (v ++ ['"']).getLast? = some '"' then Except.ok (v ++ ['"']).dropLast
    else .error "Unterminated quoted value") = _
  rw [if_pos List.getLast?_concat, List.dropLast_concat]

/-- Quotes do not change the effect. -/
theorem effect_quoted {flag : String} {v old : Chars} (hv : Text.Trimmed v) :
    effect flag (quoted flag v old) = effect flag v := by
  unfold quoted
  split
  · next h =>
    obtain ⟨_, hhead, hflag⟩ := h
    have hunquote : unquote (['"'] ++ v ++ ['"']) = unquote v := by
      rw [unquote_wrapped, unquote_bare hv hhead]
    unfold effect side
    rw [hunquote]
    rcases hflag with rfl | rfl | rfl <;> rfl
  · rfl

/-- Only the backends have no value. -/
theorem value_of_accepted {env : Environment} {st : Statement} (h : Accepted env st)
    (hflag : st.flag ∈ allowed) : isBackend st.flag = true ↔ st.value = [] := by
  obtain ⟨source, flag, value⟩ := st
  have hoption : Statement.isOption ⟨source, flag, value⟩ = true := by
    refine decide_eq_true ?_
    rintro rfl
    have hnot : "@" ∉ allowed := by decide
    exact hnot hflag
  obtain ⟨s, r, hsettle⟩ := h hoption
  constructor
  · intro hbackend
    by_contra hne
    rcases backend_cases hbackend with rfl | rfl
    · change (if value ≠ [] then Except.error _ else _) = _ at hsettle
      rw [if_pos hne] at hsettle
      cases hsettle
    · change (if value ≠ [] then Except.error _ else _) = _ at hsettle
      rw [if_pos hne] at hsettle
      cases hsettle
  · rintro rfl
    simp only [allowed, List.mem_cons, List.not_mem_nil, or_false] at hflag
    rcases hflag with rfl | rfl | rfl | rfl | rfl | rfl | rfl | rfl | rfl
    all_goals first | rfl | cases hsettle

/-! ## Where the settings show an option -/

/-- What an option leaves as it was. -/
structure Framed (flag : String) (s s' : Settings) : Prop where
  bgColor : flag ≠ "-CB" → s'.bgColor = s.bgColor
  fgColor : flag ≠ "-CT" → s'.fgColor = s.fgColor
  kpBkc : flag ≠ "-KPBKC" → s'.kpBkc = s.kpBkc
  keypadSide : flag ≠ "-KP" → s'.keypadSide = s.keypadSide
  sizes : flag ≠ "-SS" → s'.sizes = s.sizes
  backend : ¬ isBackend flag = true → s'.backend = s.backend
  cardPath : flag ≠ "-P0" → s'.cardPath = s.cardPath
  paths : ∀ f, f ≠ flag ∨ flag ∉ pathFlags → s'.paths[f]? = s.paths[f]?

theorem Framed.refl (flag : String) (s : Settings) : Framed flag s s :=
  ⟨fun _ => rfl, fun _ => rfl, fun _ => rfl, fun _ => rfl, fun _ => rfl, fun _ => rfl, fun _ => rfl,
    fun _ _ => rfl⟩

/-- Whatever comes of an option is framed. -/
def Frames (flag : String) (s : Settings) (r : Except String (Option Settings)) : Prop :=
  ∀ s', r = .ok (some s') → Framed flag s s'

section

variable {flag : String} {s : Settings}

theorem Frames.error (e : String) : Frames flag s (.error e) := by
  intro s' h
  cases h

theorem Frames.ok {s' : Settings} (h : Framed flag s s') : Frames flag s (.ok (some s')) := by
  intro t ht
  rwa [← Option.some.inj (Except.ok.inj ht)]

theorem Frames.none : Frames flag s (.ok none) := by
  intro s' h
  cases h

theorem Frames.bind {α : Type} {x : Except String α} {f : α → Except String (Option Settings)}
    (h : ∀ a, Frames flag s (f a)) : Frames flag s (x >>= f) := by
  intro s' hs'
  obtain ⟨a, _, ha⟩ := Program.except_bind_ok hs'
  exact h a s' ha

theorem Frames.ite {c : Prop} [Decidable c] {x y : Except String (Option Settings)}
    (hx : c → Frames flag s x) (hy : ¬ c → Frames flag s y) :
    Frames flag s (if c then x else y) := by
  split
  · next h => exact hx h
  · next h => exact hy h

theorem settlePath_framed {env : Environment} {source : Path} {value : Chars}
    (hflag : flag ∈ pathFlags) : Frames flag s (some <$> settlePath env source flag value s) := by
  intro s' hs'
  obtain ⟨t, ht, heq⟩ := map_ok hs'
  obtain rfl := Option.some.inj heq
  obtain ⟨path, _, hpure⟩ := Program.except_bind_ok ht
  rw [← Except.ok.inj hpure]
  have hbackend : ¬ isBackend flag = true := by
    simp only [pathFlags, List.mem_cons, List.not_mem_nil, or_false] at hflag
    rcases hflag with rfl | rfl | rfl | rfl | rfl | rfl | rfl <;> decide
  refine ⟨?_, ?_, ?_, ?_, ?_, ?_, ?_, ?_⟩
  all_goals first
    | (intro f hf
       have hne : f ≠ flag := hf.resolve_right fun h => h hflag
       split <;> exact Table.get_insert_ne _ _ hne)
    | (intro hcard; rw [if_neg hcard])
    | (intro _; split <;> rfl)

theorem settle_framed (env : Environment) (source : Path) (value : Chars) :
    Frames flag s (settle env source flag value s) := by
  have hrefl : Frames flag s (.ok (some s)) := Frames.ok (Framed.refl flag s)
  have hother : ∀ s' : Settings, s'.bgColor = s.bgColor → s'.fgColor = s.fgColor →
      s'.kpBkc = s.kpBkc → s'.keypadSide = s.keypadSide → s'.sizes = s.sizes →
      s'.backend = s.backend → s'.cardPath = s.cardPath → s'.paths = s.paths →
      Frames flag s (.ok (some s')) := fun s' h₁ h₂ h₃ h₄ h₅ h₆ h₇ h₈ =>
    Frames.ok ⟨fun _ => h₁, fun _ => h₂, fun _ => h₃, fun _ => h₄, fun _ => h₅, fun _ => h₆,
      fun _ => h₇, fun _ _ => by rw [h₈]⟩
  unfold settle
  refine Frames.ite settlePath_framed fun _ => ?_
  refine Frames.ite (fun _ => Frames.bind fun n => Frames.ite (fun _ => Frames.error _) fun _ => ?_)
    fun _ => ?_
  · split
    · exact hother _ rfl rfl rfl rfl rfl rfl rfl rfl
    · exact hrefl
  refine Frames.ite (fun h => Frames.ite (fun _ => Frames.error _) fun _ => Frames.ok ?_) fun _ => ?_
  · exact ⟨fun _ => rfl, fun _ => rfl, fun _ => rfl, fun _ => rfl, fun _ => rfl,
      fun hne => absurd h hne, fun _ => rfl, fun _ _ => rfl⟩
  refine Frames.ite (fun h => Frames.bind fun key => Frames.ite (fun _ => Frames.error _) fun _ =>
    Frames.bind fun keypadSide => Frames.ok ?_) fun _ => ?_
  · exact ⟨fun _ => rfl, fun _ => rfl, fun _ => rfl, fun hne => absurd h hne, fun _ => rfl,
      fun _ => rfl, fun _ => rfl, fun _ _ => rfl⟩
  refine Frames.ite (fun h => Frames.bind fun size => Frames.ok ?_) fun _ => ?_
  · split
    · exact Framed.refl flag s
    · exact ⟨fun _ => rfl, fun _ => rfl, fun _ => rfl, fun _ => rfl, fun hne => absurd h hne,
        fun _ => rfl, fun _ => rfl, fun _ _ => rfl⟩
  refine Frames.ite (fun _ => Frames.bind fun n => hother _ rfl rfl rfl rfl rfl rfl rfl rfl)
    fun _ => ?_
  refine Frames.ite (fun _ => Frames.bind fun n => hother _ rfl rfl rfl rfl rfl rfl rfl rfl)
    fun _ => ?_
  refine Frames.ite (fun h => Frames.bind fun n => Frames.ok ?_) fun _ => ?_
  · exact ⟨fun hne => absurd h hne, fun _ => rfl, fun _ => rfl, fun _ => rfl, fun _ => rfl,
      fun _ => rfl, fun _ => rfl, fun _ _ => rfl⟩
  refine Frames.ite (fun h => Frames.bind fun n => Frames.ok ?_) fun _ => ?_
  · exact ⟨fun _ => rfl, fun hne => absurd h hne, fun _ => rfl, fun _ => rfl, fun _ => rfl,
      fun _ => rfl, fun _ => rfl, fun _ _ => rfl⟩
  refine Frames.ite (fun h => Frames.bind fun n => Frames.ok ?_) fun _ => ?_
  · exact ⟨fun _ => rfl, fun _ => rfl, fun hne => absurd h hne, fun _ => rfl, fun _ => rfl,
      fun _ => rfl, fun _ => rfl, fun _ _ => rfl⟩
  refine Frames.ite (fun _ => hother _ rfl rfl rfl rfl rfl rfl rfl rfl) fun _ => ?_
  refine Frames.ite (fun _ => hother _ rfl rfl rfl rfl rfl rfl rfl rfl) fun _ => ?_
  refine Frames.ite (fun _ => hother _ rfl rfl rfl rfl rfl rfl rfl rfl) fun _ => ?_
  refine Frames.ite (fun _ => hother _ rfl rfl rfl rfl rfl rfl rfl rfl) fun _ => ?_
  refine Frames.ite (fun _ => Frames.bind fun n => Frames.ite (fun _ => Frames.error _) fun _ =>
    hrefl) fun _ => ?_
  refine Frames.ite (fun _ => Frames.bind fun _ => hrefl) fun _ => ?_
  refine Frames.ite (fun _ => Frames.bind fun _ => hrefl) fun _ => ?_
  exact Frames.ite (fun _ => hrefl) fun _ => Frames.none

theorem settled_framed (env : Environment) (st : Statement) :
    Framed st.flag s (st.settled env s) := by
  unfold Statement.settled
  split
  · next s' h => exact settle_framed env st.source st.value s' h
  · exact Framed.refl st.flag s

end

/-- The statement about a flag. -/
def saidOf (sts : List Statement) (flag : String) : Option Statement := sts.find? (·.flag = flag)

def Tech2WinConfig.statementOf (c : Tech2WinConfig) (flag : String) : Option Statement :=
  saidOf (stated c.lines) flag

theorem saidOf_isSome {sts : List Statement} {flag : String} (hflag : flag ≠ "@") :
    (saidOf sts flag).isSome = true ↔ flag ∈ optionFlags sts := by
  rw [saidOf, List.find?_isSome, optionFlags]
  simp only [List.mem_map, List.mem_filter, decide_eq_true_eq]
  constructor
  · rintro ⟨st, hst, rfl⟩
    exact ⟨st, ⟨hst, decide_eq_true hflag⟩, rfl⟩
  · rintro ⟨st, ⟨hst, _⟩, rfl⟩
    exact ⟨st, hst, rfl⟩

theorem saidOf_flag {sts : List Statement} {flag : String} {st : Statement}
    (h : saidOf sts flag = some st) : st ∈ sts ∧ st.flag = flag :=
  ⟨List.mem_of_find?_eq_some h, by simpa using List.find?_some h⟩

/-- What only the statement about one flag changes is what that statement makes of it. -/
theorem shown_fold {β : Type} {env : Environment} {flag : String} (hflag : flag ≠ "@")
    (view : Meaning → β) (shown : Statement → β → β) {sts : List Statement}
    (hother : ∀ m, ∀ st ∈ sts, st.flag ≠ flag → view (Meaning.say env m st) = view m)
    (hset : ∀ m st, st.flag = flag → Accepted env st →
      view (Meaning.say env m st) = shown st (view m))
    (hfresh : (optionFlags sts).Nodup) (haccepted : ∀ st ∈ sts, Accepted env st) (m : Meaning) :
    view (sts.foldl (Meaning.say env) m) = match saidOf sts flag with
      | some st => shown st (view m)
      | none => view m := by
  induction sts generalizing m with
  | nil => rfl
  | cons st sts ih =>
    have hrest : (optionFlags sts).Nodup := by
      have happend : optionFlags (st :: sts) = optionFlags [st] ++ optionFlags sts :=
        optionFlags_append [st] sts
      rw [happend] at hfresh
      exact (List.nodup_append.mp hfresh).2.1
    have ih := ih (fun m t ht => hother m t (List.mem_cons_of_mem st ht)) hrest
      (fun t ht => haccepted t (List.mem_cons_of_mem st ht)) (Meaning.say env m st)
    rw [List.foldl_cons, ih]
    by_cases hst : st.flag = flag
    · have hnone : saidOf sts flag = none := by
        rw [← Option.not_isSome_iff_eq_none, saidOf_isSome hflag]
        intro hmem
        have hoption : st.isOption = true := decide_eq_true (hst ▸ hflag)
        rw [optionFlags, List.filter_cons_of_pos hoption, List.map_cons, List.nodup_cons] at hfresh
        exact hfresh.1 (hst ▸ hmem)
      have hhead : saidOf (st :: sts) flag = some st := List.find?_cons_of_pos (decide_eq_true hst)
      rw [hnone, hhead]
      exact hset m st hst (haccepted st List.mem_cons_self)
    · have hskip : saidOf (st :: sts) flag = saidOf sts flag :=
        List.find?_cons_of_neg (by simpa using hst)
      rw [hskip, hother m st List.mem_cons_self hst]

/-- What the settings show of the statements. -/
structure Shows (env : Environment) (sts : List Statement) (m : Meaning) : Prop where
  options : ∀ flag, flag ≠ "@" → m.options[flag]? = (saidOf sts flag).map (·.value)
  bgColor : .ok m.settings.bgColor = (saidOf sts "-CB").elim (.ok 0xff) (color ·.value)
  fgColor : .ok m.settings.fgColor = (saidOf sts "-CT").elim (.ok 0xffffff) (color ·.value)
  kpBkc : .ok m.settings.kpBkc = (saidOf sts "-KPBKC").elim (.ok 0xffffff) (color ·.value)
  keypadSide : .ok m.settings.keypadSide = (saidOf sts "-KP").elim (.ok .off) (side ·.value)
  backend : m.settings.backend = if (saidOf sts "-PJ").isSome then .j2534 else .pdu
  sizes : .ok m.settings.sizes = (saidOf sts "-SS").elim (.ok defaultSettings.sizes) fun st => do
    let size ← screenSize st.value
    pure (if size.name = [] then defaultSettings.sizes else defaultSettings.sizes ++ [size])
  cardPath : .ok m.settings.cardPath = (saidOf sts "-P0").elim (.ok defaultSettings.cardPath)
    fun st => do
      let path ← resolvePath st.value st.source env
      pure path.resolved
  paths : ∀ flag ∈ pathFlags, .ok m.settings.paths[flag]? = (saidOf sts flag).elim (.ok none)
    fun st => some <$> resolvePath st.value st.source env

section

variable {env : Environment} {sts : List Statement}

theorem say_option {m : Meaning} {st : Statement} (h : st.flag ≠ "@") : Meaning.say env m st =
    { m with settings := st.settled env m.settings, options := m.options.insert st.flag st.value } :=
  if_pos (decide_eq_true h)

/-- The version is no setting. -/
theorem say_settings {β : Type} (view : Settings → β) {m : Meaning} {st : Statement}
    (h : view (st.settled env m.settings) = view m.settings) :
    view (Meaning.say env m st).settings = view m.settings := by
  unfold Meaning.say
  split
  · exact h
  · rfl

/-- A setting that is read off the value of one option. -/
theorem shown_read {β : Type} {flag : String} (hat : flag ≠ "@") (view : Settings → β)
    (read : Statement → β → Except String β)
    (hframe : ∀ s (st : Statement), st.flag ≠ flag → view (st.settled env s) = view s)
    (hset : ∀ st s s₀ r, st.flag = flag → settle env st.source st.flag st.value s₀ = .ok r →
      ∃ s', settle env st.source st.flag st.value s = .ok (some s') ∧
        read st (view s) = .ok (view s'))
    (hfresh : (optionFlags sts).Nodup) (haccepted : ∀ st ∈ sts, Accepted env st) (m : Meaning) :
    .ok (view (sts.foldl (Meaning.say env) m).settings) =
      (saidOf sts flag).elim (.ok (view m.settings)) (read · (view m.settings)) := by
  have hfold := shown_fold hat (fun m => (Except.ok (view m.settings) : Except String β))
    (fun st r => r >>= read st) ?_ ?_ hfresh haccepted m
  · rw [hfold]
    cases saidOf sts flag <;> rfl
  · intro m st _ hst
    exact congrArg Except.ok (say_settings view (hframe m.settings st hst))
  · intro m st hst haccept
    have hoption : st.flag ≠ "@" := hst ▸ hat
    obtain ⟨s₀, r, hsettle⟩ := haccept (decide_eq_true hoption)
    obtain ⟨s', hs', hread⟩ := hset st m.settings s₀ r hst hsettle
    rw [say_option hoption]
    change Except.ok (view (st.settled env m.settings)) = read st (view m.settings)
    rw [settled_of_ok hs', hread]
    rfl

end

theorem settlePath_some {env : Environment} {source : Path} {value : Chars} {path : ConfigPath}
    (h : resolvePath value source env = .ok path) (flag : String) (s : Settings) :
    ∃ s', settlePath env source flag value s = .ok s' ∧ s'.paths = s.paths.insert flag path ∧
      (flag = "-P0" → s'.cardPath = path.resolved) := by
  unfold settlePath
  rw [h]
  refine ⟨_, rfl, ?_, ?_⟩
  · split <;> rfl
  · intro hcard
    rw [if_pos hcard]

theorem settle_path {env : Environment} {source : Path} {flag : String} {value : Chars}
    (hflag : flag ∈ pathFlags) {s s₀ : Settings} {r : Option Settings}
    (h : settle env source flag value s₀ = .ok r) : ∃ path s',
      resolvePath value source env = .ok path ∧ settle env source flag value s = .ok (some s') ∧
      s'.paths = s.paths.insert flag path ∧ (flag = "-P0" → s'.cardPath = path.resolved) := by
  have hsettle : ∀ s, settle env source flag value s =
      some <$> settlePath env source flag value s := fun s => if_pos hflag
  rw [hsettle] at h
  obtain ⟨t, ht, _⟩ := map_ok h
  obtain ⟨path, hpath, _⟩ := Program.except_bind_ok ht
  obtain ⟨s', hs', hrest⟩ := settlePath_some hpath flag s
  refine ⟨path, s', hpath, ?_, hrest⟩
  rw [hsettle, hs']
  rfl

theorem say_backend {env : Environment} {m : Meaning} {st : Statement}
    (hbackend : isBackend st.flag = true) (haccept : Accepted env st) :
    (Meaning.say env m st).settings.backend = backendOf st.flag := by
  obtain ⟨source, flag, value⟩ := st
  have hallowed : flag ∈ allowed := by
    rcases backend_cases hbackend with rfl | rfl <;> decide
  have hvalue := (value_of_accepted haccept hallowed).mp hbackend
  dsimp only at hvalue
  subst hvalue
  rcases backend_cases hbackend with rfl | rfl <;> rfl

theorem shown_backend {files : Files} {env : Environment} {path : Path} {text : Chars}
    {c : Tech2WinConfig} (h : Said files env path text c) :
    ((textStatements files env path text).foldl (Meaning.say env) defaultMeaning).settings.backend =
      if (saidOf (textStatements files env path text) "-PJ").isSome then .j2534 else .pdu := by
  have hother : ∀ (flag : String), isBackend flag = true →
      rival flag ∉ optionFlags (textStatements files env path text) →
      ∀ m, ∀ st ∈ textStatements files env path text, st.flag ≠ flag →
        (Meaning.say env m st).settings.backend = m.settings.backend := by
    intro flag hbackend hrival m st hst hne
    refine say_settings Settings.backend ((settled_framed env st).backend ?_)
    intro hst'
    have hflag : st.flag = rival flag := by
      rcases backend_cases hbackend with rfl | rfl <;> rcases backend_cases hst' with h | h
      · exact absurd h hne
      · exact h
      · exact h
      · exact absurd h hne
    refine hrival ?_
    rw [← hflag, ← saidOf_isSome (by rcases backend_cases hst' with h | h <;> rw [h] <;> decide)]
    exact List.find?_isSome.mpr ⟨st, hst, decide_eq_true rfl⟩
  by_cases hsaid : (saidOf (textStatements files env path text) "-PJ").isSome = true
  · rw [if_pos hsaid]
    have hmem := (saidOf_isSome (by decide)).mp hsaid
    obtain ⟨st, hst⟩ := Option.isSome_iff_exists.mp hsaid
    rw [shown_fold (show "-PJ" ≠ "@" by decide) (fun m => m.settings.backend)
      (fun st _ => backendOf st.flag)
      (hother "-PJ" (by decide) (h.rivals "-PJ" hmem (by decide)))
      (fun m st hst haccept => say_backend (by rw [hst]; decide) haccept) h.fresh h.accepted, hst]
    change backendOf st.flag = _
    rw [(saidOf_flag hst).2]
    rfl
  · rw [if_neg hsaid]
    have hmem : "-PJ" ∉ optionFlags (textStatements files env path text) := fun hmem =>
      hsaid ((saidOf_isSome (by decide)).mpr hmem)
    rw [shown_fold (show "-PP" ≠ "@" by decide) (fun m => m.settings.backend)
      (fun st _ => backendOf st.flag) (hother "-PP" (by decide) hmem)
      (fun m st hst haccept => say_backend (by rw [hst]; decide) haccept) h.fresh h.accepted]
    cases hst : saidOf (textStatements files env path text) "-PP" with
    | none => rfl
    | some st =>
      change backendOf st.flag = _
      rw [(saidOf_flag hst).2]
      rfl

/-- A configuration that is parsed shows what it says. -/
theorem Said.shows {files : Files} {env : Environment} {path : Path} {text : Chars}
    {c : Tech2WinConfig} (h : Said files env path text c) :
    Shows env (textStatements files env path text) c.meaning := by
  rw [h.meaning]
  refine ⟨?_, ?_, ?_, ?_, ?_, ?_, ?_, ?_, ?_⟩
  · intro flag hflag
    rw [shown_fold hflag (fun m => m.options[flag]?) (fun st _ => some st.value) ?_ ?_ h.fresh
      h.accepted]
    · cases saidOf (textStatements files env path text) flag <;> rfl
    · intro m st _ hst
      unfold Meaning.say
      split
      · exact Table.get_insert_ne _ _ (Ne.symm hst)
      · rfl
    · rintro m st rfl _
      rw [say_option hflag]
      exact Std.TreeMap.getElem?_insert_self
  · refine shown_read (show "-CB" ≠ "@" by decide) Settings.bgColor (fun st _ => color st.value)
      (fun s st hst => (settled_framed env st).bgColor hst) ?_ h.fresh h.accepted _
    rintro ⟨source, flag, value⟩ s s₀ r rfl hok
    obtain ⟨n, hn, _⟩ := Program.except_bind_ok (show (color value >>= fun n =>
      pure (some { s₀ with bgColor := n })) = .ok r from hok)
    refine ⟨{ s with bgColor := n }, ?_, hn⟩
    change (color value >>= fun n => pure (some { s with bgColor := n })) = _
    rw [hn]
    rfl
  · refine shown_read (show "-CT" ≠ "@" by decide) Settings.fgColor (fun st _ => color st.value)
      (fun s st hst => (settled_framed env st).fgColor hst) ?_ h.fresh h.accepted _
    rintro ⟨source, flag, value⟩ s s₀ r rfl hok
    obtain ⟨n, hn, _⟩ := Program.except_bind_ok (show (color value >>= fun n =>
      pure (some { s₀ with fgColor := n })) = .ok r from hok)
    refine ⟨{ s with fgColor := n }, ?_, hn⟩
    change (color value >>= fun n => pure (some { s with fgColor := n })) = _
    rw [hn]
    rfl
  · refine shown_read (show "-KPBKC" ≠ "@" by decide) Settings.kpBkc (fun st _ => color st.value)
      (fun s st hst => (settled_framed env st).kpBkc hst) ?_ h.fresh h.accepted _
    rintro ⟨source, flag, value⟩ s s₀ r rfl hok
    obtain ⟨n, hn, _⟩ := Program.except_bind_ok (show (color value >>= fun n =>
      pure (some { s₀ with kpBkc := n })) = .ok r from hok)
    refine ⟨{ s with kpBkc := n }, ?_, hn⟩
    change (color value >>= fun n => pure (some { s with kpBkc := n })) = _
    rw [hn]
    rfl
  · refine shown_read (show "-KP" ≠ "@" by decide) Settings.keypadSide (fun st _ => side st.value)
      (fun s st hst => (settled_framed env st).keypadSide hst) ?_ h.fresh h.accepted _
    rintro ⟨source, flag, value⟩ s s₀ r rfl hok
    have hsettle : ∀ s, settle env source "-KP" value s = (do
        let key ← unquote value
        if key = [] then .error "-KP requires a value"
        else
          let keypadSide ← side value
          pure (some { s with kpKey := some key, keypadSide := keypadSide })) := fun _ => rfl
    obtain ⟨key, hkey, hok⟩ := Program.except_bind_ok ((hsettle s₀).symm.trans hok)
    split at hok
    · cases hok
    next hne =>
    obtain ⟨keypadSide, hside, _⟩ := Program.except_bind_ok hok
    refine ⟨{ s with kpKey := some key, keypadSide := keypadSide }, (hsettle s).trans ?_, hside⟩
    rw [hkey]
    change (if key = [] then _ else _) = _
    rw [if_neg hne, hside]
    rfl
  · exact shown_backend h
  · refine shown_read (show "-SS" ≠ "@" by decide) Settings.sizes
      (fun st sizes => do
        let size ← screenSize st.value
        pure (if size.name = [] then sizes else sizes ++ [size]))
      (fun s st hst => (settled_framed env st).sizes hst) ?_ h.fresh h.accepted _
    rintro ⟨source, flag, value⟩ s s₀ r rfl hok
    have hsettle : ∀ s, settle env source "-SS" value s = (do
        let size ← screenSize value
        pure (some (if size.name = [] then s else { s with sizes := s.sizes ++ [size] }))) :=
      fun _ => rfl
    obtain ⟨size, hsize, _⟩ := Program.except_bind_ok ((hsettle s₀).symm.trans hok)
    refine ⟨_, (hsettle s).trans (by rw [hsize]; rfl), ?_⟩
    rw [hsize]
    change Except.ok _ = Except.ok _
    split <;> rfl
  · refine shown_read (show "-P0" ≠ "@" by decide) Settings.cardPath
      (fun st _ => do
        let path ← resolvePath st.value st.source env
        pure path.resolved)
      (fun s st hst => (settled_framed env st).cardPath hst) ?_ h.fresh h.accepted _
    rintro ⟨source, flag, value⟩ s s₀ r rfl hok
    obtain ⟨resolved, s', hpath, hs', _, hcard⟩ := settle_path (s := s)
      (show "-P0" ∈ pathFlags by decide) hok
    refine ⟨s', hs', ?_⟩
    rw [hpath, hcard rfl]
    rfl
  · intro flag hflag
    have hat : flag ≠ "@" := by
      rintro rfl
      exact absurd hflag (by decide)
    refine shown_read hat (fun s => s.paths[flag]?)
      (fun st _ => some <$> resolvePath st.value st.source env)
      (fun s st hst => (settled_framed env st).paths flag (.inl (Ne.symm hst))) ?_ h.fresh
      h.accepted _
    rintro ⟨source, flag, value⟩ s s₀ r rfl hok
    obtain ⟨resolved, s', hpath, hs', hpaths, _⟩ := settle_path (s := s) hflag hok
    refine ⟨s', hs', ?_⟩
    rw [hpath, hpaths, Std.TreeMap.getElem?_insert_self]
    rfl

end OpenSaab.Config
