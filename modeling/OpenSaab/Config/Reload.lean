import OpenSaab.Config.Atomicity
import OpenSaab.Config.Effective
import OpenSaab.Config.Reading
import OpenSaab.Library.Runs

/-!
# Saved and loaded again

A configuration is loaded, edited any number of times, saved, and loaded again.
-/

namespace OpenSaab.Config

def loadWithEnvironment (files : Files) (path : Path) (env : Environment) :
    Except String Tech2WinConfig := do
  let bytes ← (files.read path).mapError fun e => s!"configuration {String.ofList path}: {e}"
  let (text, encoding) ← decode bytes
  let c ← parseWithEnvironment files path text env
  pure { c with
    encoding := encoding, loadedBytes := some bytes, loadedPath := some (files.normalized path) }

/-- The edit is accepted. -/
def Accepts (files : Files) (c : Tech2WinConfig) (changes : Edits) : Prop :=
  ∃ c', c.edited files changes = .ok c'

/-- The configuration after an edit; one that is refused changes nothing. -/
def revise (files : Files) (c : Tech2WinConfig) (changes : Edits) : Tech2WinConfig :=
  (c.edited files changes).toOption.getD c

/-- What is saved is read back. -/
def ReadBack (c : Tech2WinConfig) : Prop :=
  decode (encode c.sourceText c.encoding) = .ok (c.sourceText, c.encoding)

/-- The text begins with the byte order mark. -/
def marked (text : Chars) : Bool := text.head? = some mark

/-- The edit takes the row away. -/
def deletes (changes : Edits) (row : Row) : Bool :=
  changes.toList.any fun change =>
    erases (change.1.map Char.toUpper, Text.trim change.2) &&
      decide ((readLine row.1).flag = change.1.map Char.toUpper)

/-- The first row that the edit leaves. -/
def firstLeft (changes : Edits) (text : Chars) : Option Row :=
  (splitText text).find? fun row => !deletes changes row

/-! ## The first row -/

section

variable {files : Files} {changes requested : Edits} {row : Row}

theorem deletes_iff : deletes changes row = true ↔ ∃ r : String × Chars,
    Requested changes r.1 r.2 ∧ erases r = true ∧ (readLine row.1).flag = r.1 := by
  unfold deletes
  rw [List.any_eq_true]
  constructor
  · rintro ⟨change, hmem, hchange⟩
    obtain ⟨herases, hflag⟩ := Bool.and_eq_true_iff.mp hchange
    exact ⟨_, ⟨change, hmem, rfl, rfl⟩, herases, of_decide_eq_true hflag⟩
  · rintro ⟨r, ⟨change, hmem, hflag, hvalue⟩, herases, hsaid⟩
    refine ⟨change, hmem, Bool.and_eq_true_iff.mpr ⟨?_, decide_eq_true (hsaid.trans hflag.symm)⟩⟩
    rw [hflag, hvalue]
    exact herases

/-- No option that can be edited stands in a row that begins with the mark. -/
theorem not_marked_of_allowed {body : Chars} (h : (readLine body).flag ∈ allowed) :
    marked body = false := by
  obtain ⟨hne, hhead⟩ := line_of_allowed h
  refine decide_eq_false fun hmark => ?_
  change Text.trim body ≠ [] at hne
  change (Text.trim body).head? = some '-' at hhead
  obtain ⟨c, rest, rfl⟩ : ∃ c rest, body = c :: rest := List.exists_cons_of_ne_nil <| by
    rintro rfl
    cases hmark
  obtain rfl := Option.some.inj hmark
  have htrim := Text.trim_append_trailing (mark :: rest)
  rw [List.dropWhile_cons_of_neg (by decide)] at htrim
  have hfirst := congrArg List.head? htrim
  rw [List.head?_append_of_ne_nil _ hne, hhead] at hfirst
  exact absurd (Option.some.inj hfirst) (by decide)

theorem marked_append {body rest : Chars} (h : body ≠ []) : marked (body ++ rest) = marked body := by
  unfold marked
  rw [List.head?_append_of_ne_nil _ h]

theorem marked_row {body ending : Chars} (hending : ending = [] ∨ ending ∈ endings)
    (hbody : ending = [] → body ≠ []) :
    body ++ ending ≠ [] ∧ marked (body ++ ending) = marked body := by
  by_cases hempty : body = []
  · subst hempty
    simp only [endings, List.mem_cons, List.not_mem_nil, or_false] at hending
    rcases hending with rfl | rfl | rfl | rfl
    · exact absurd rfl (hbody rfl)
    · exact ⟨List.cons_ne_nil _ _, by decide⟩
    · exact ⟨List.cons_ne_nil _ _, by decide⟩
    · exact ⟨List.cons_ne_nil _ _, by decide⟩
  · exact ⟨List.append_ne_nil_of_left_ne_nil hempty ending, marked_append hempty⟩

/-- A row that is left begins with the mark if it did before. -/
theorem Revised.head (h : Requests changes requested) {text piece : Chars}
    (hrow : row ∈ splitText text) (hrevised : Revised changes row piece) :
    if deletes changes row then piece = [] else piece ≠ [] ∧ marked piece = marked row.1 := by
  have hending := (lined_splitText text).ending row hrow
  cases hrevised with
  | kept hkept =>
    have hnot : ¬ deletes changes row = true := by
      intro hdeletes
      obtain ⟨r, hr, herases, hflag⟩ := deletes_iff.mp hdeletes
      have hno := (hkept r hr (hflag ▸ about_self r.1)).1
      rw [herases] at hno
      cases hno
    rw [if_neg hnot]
    exact marked_row hending (body_of_unended hrow)
  | deleted r hr habout herases =>
    have hflag : (readLine row.1).flag = r.1 := by
      rcases of_decide_eq_true habout with hflag | ⟨hbackend, -⟩
      · exact hflag
      · exact absurd hbackend (of_decide_eq_true herases).1
    rw [if_pos (deletes_iff.mpr ⟨r, hr, herases, hflag⟩)]
  | replaced r hr habout herases hdiffer body hreplaced =>
    have hallowed := (h.editables r (h.mem_iff.mpr hr)).allowed
    have hnot : ¬ deletes changes row = true := by
      intro hdeletes
      obtain ⟨q, hq, hqerases, hflag⟩ := deletes_iff.mp hdeletes
      obtain rfl := h.same hq hr (hflag ▸ about_self q.1) habout
      rw [herases] at hqerases
      cases hqerases
    rw [if_neg hnot, not_marked_of_allowed (about_allowed hallowed habout)]
    have hnew : (readLine body).flag ∈ allowed := hreplaced.flag ▸ hallowed
    rw [← not_marked_of_allowed hnew]
    exact marked_row hending fun _ => body_ne_of_flag hnew

/-- What is left of the text begins as the first row that is left. -/
theorem pieces_head (h : Requests changes requested) {rows : List Row} {pieces : List Chars}
    {text : Chars} (hrows : ∀ row ∈ rows, row ∈ splitText text)
    (hpieces : List.Forall₂ (Revised changes) rows pieces) :
    marked pieces.flatten = (rows.find? fun row => !deletes changes row).any fun row =>
      marked row.1 := by
  induction hpieces with
  | nil => rfl
  | @cons row piece rows pieces hrevised _ ih =>
    obtain ⟨hrow, hrest⟩ := List.forall_mem_cons.mp hrows
    have hhead := hrevised.head h hrow
    rw [List.flatten_cons]
    cases hdeletes : deletes changes row with
    | true =>
      rw [hdeletes, if_pos rfl] at hhead
      rw [hhead, List.nil_append, ih hrest, List.find?_cons_of_neg]
      rw [hdeletes]
      exact Bool.false_ne_true
    | false =>
      rw [hdeletes, if_neg Bool.false_ne_true] at hhead
      rw [marked_append hhead.1, hhead.2, List.find?_cons_of_pos]
      · rfl
      · rw [hdeletes]
        rfl

theorem marked_added {rs : List (String × Chars)} (hrs : ∀ r ∈ rs, Editable r.1 r.2)
    (ending : Chars) (final : Bool) : marked (added ending final (rs.map addition)) = false := by
  cases rs with
  | nil => rfl
  | cons r rs =>
    have hallowed := (hrs r List.mem_cons_self).allowed
    have hflag : r.1.toList ≠ [] ∧ marked r.1.toList = false := by
      have hhead := allowed_head hallowed
      refine ⟨fun hnil => ?_, ?_⟩
      · rw [hnil] at hhead
        cases hhead
      · unfold marked
        rw [hhead]
        decide
    have haddition : addition r ≠ [] ∧ marked (addition r) = false := by
      unfold addition
      split
      · exact hflag
      · rw [List.append_assoc, marked_append hflag.1]
        exact ⟨List.append_ne_nil_of_left_ne_nil hflag.1 _, hflag.2⟩
    rw [List.map_cons]
    cases rs with
    | nil =>
      change marked (addition r ++ _) = false
      rw [marked_append haddition.1, haddition.2]
    | cons q rs =>
      change marked (addition r ++ ending ++ _) = false
      rw [List.append_assoc, marked_append haddition.1, haddition.2]

theorem marked_appended {rs : List (String × Chars)} (hrs : ∀ r ∈ rs, Editable r.1 r.2)
    (ending : Chars) (final : Bool) (kept : Chars) :
    marked (appended ending final kept rs) = marked kept := by
  unfold appended
  by_cases hkept : kept = []
  · subst hkept
    rw [if_neg fun h => h.2.1 rfl, List.nil_append, marked_added hrs]
    rfl
  · split
    · rw [List.append_assoc, marked_append hkept]
    · rw [marked_append hkept]

/-- An edit keeps the encoding, and the text begins as the first row that is left. -/
theorem edited_head {c c' : Tech2WinConfig} (h : c.edited files changes = .ok c') :
    c'.encoding = c.encoding ∧
      marked c'.sourceText = (firstLeft changes c.sourceText).any fun row => marked row.1 := by
  obtain ⟨requested, hrequests, h⟩ := Program.except_bind_ok h
  obtain ⟨base, hbase, h⟩ := Program.except_bind_ok h
  obtain ⟨d, hdraft, h⟩ := Program.except_bind_ok h
  obtain ⟨result, hresult, h⟩ := Program.except_bind_ok h
  obtain rfl := Except.ok.inj h
  have hreq := requests_ok hrequests
  have hd := edit_drafted hbase hrequests hdraft
  have hrs : ∀ r ∈ adding base requested.toList, Editable r.1 r.2 :=
    fun r hr => hreq.editables r (List.mem_of_mem_filter hr)
  obtain ⟨pieces, hpieces, hflat⟩ := (parse_said hbase).pieces hreq
  have htext : result.sourceText = appended (usualEnding (splitText c.sourceText))
      (endsLine c.sourceText) pieces.flatten (adding base requested.toList) := by
    rw [(parse_said hresult).sourceText, hd.text_eq, hflat, hd.additions, appended]
    simp only [ne_eq, List.map_eq_nil_iff]
  refine ⟨rfl, ?_⟩
  change marked result.sourceText = _
  rw [htext, marked_appended hrs]
  exact pieces_head hreq (fun _ hrow => hrow) hpieces

end

/-! ## Runs of edits -/

theorem readBack_iff (c : Tech2WinConfig) :
    ReadBack c ↔ ¬ (c.encoding = .utf8 ∧ marked c.sourceText = true) := by
  rw [ReadBack, decode_encode, marked, decide_eq_true_iff]

/-- The edit leaves a first line that begins with the mark, in a text that is saved without one. -/
def Bares (c : Tech2WinConfig) (changes : Edits) : Prop :=
  c.encoding = .utf8 ∧ ((firstLeft changes c.sourceText).any fun row => marked row.1) = true

theorem revise_readBack {files : Files} {c : Tech2WinConfig} {changes : Edits} (h : ReadBack c) :
    ReadBack (revise files c changes) ↔ (Accepts files c changes → ¬ Bares c changes) := by
  unfold revise
  cases hedit : c.edited files changes with
  | error e =>
    refine iff_of_true h fun ⟨c', hc'⟩ => ?_
    rw [hedit] at hc'
    cases hc'
  | ok c' =>
    obtain ⟨hencoding, hhead⟩ := edited_head hedit
    change ReadBack c' ↔ _
    rw [readBack_iff, hencoding, hhead]
    exact ⟨fun hnot _ => hnot, fun hnot => hnot ⟨c', hedit⟩⟩

theorem load_readBack {files : Files} {path : Path} {env : Environment} {c : Tech2WinConfig}
    (h : loadWithEnvironment files path env = .ok c) : ReadBack c := by
  obtain ⟨bytes, -, h⟩ := Program.except_bind_ok h
  obtain ⟨⟨text, encoding⟩, hdecode, h⟩ := Program.except_bind_ok h
  obtain ⟨parsed, hparsed, h⟩ := Program.except_bind_ok h
  obtain rfl := Except.ok.inj h
  change decode (encode parsed.sourceText encoding) = .ok (parsed.sourceText, encoding)
  rw [(parse_said hparsed).sourceText, encode_decode hdecode]
  exact hdecode

/-- A save that has written leaves the text in the encoding that it was read in. -/
theorem saved_bytes {files : Files} {c : Tech2WinConfig} {target : Path} {o : Outcomes}
    {saved : ConfigSaveResult} {s : Disk} (h : c.saveChecked files target o o.disk = (.ok saved, s))
    (hwritten : saved.written = true) :
    s.destination = some (.regular (encode c.sourceText c.encoding)) := by
  have htriple : Program.Triple (· = o.disk) (c.saveChecked files target o)
      (fun saved => Ended files c target o (.ok saved)) fun e => Ended files c target o (.error e) :=
    saveChecked_ended
  have hended := htriple o.disk rfl
  rw [h] at hended
  change Ended files c target o (.ok saved) s at hended
  cases hended with
  | early _ _ hr =>
    rw [hr saved rfl] at hwritten
    cases hwritten
  | unstaged _ _ _ hr => cases hr
  | abandoned _ _ _ hr => cases hr
  | placed _ _ _ _ _ hs => exact hs.destination

/-- Configurations that are loaded, edited and saved are read back as they are, as long as no edit
leaves a first line that begins with the mark in a text that is saved without one. -/
theorem saved_read_back_iff (files : Files) (path : Path) (env : Environment)
    {loaded : Tech2WinConfig} (hload : loadWithEnvironment files path env = .ok loaded)
    {edits : List Edits} (hedits : Runs.Each (revise files) (Accepts files) loaded edits) :
    (∀ bytes text encoding, decode bytes = .ok (text, encoding) → encode text encoding = bytes) ∧
    Runs.Always (revise files) (fun c => ∀ target o saved s,
      c.saveChecked files target o o.disk = (.ok saved, s) → saved.written = true →
        s.destination = some (.regular (encode c.sourceText c.encoding))) loaded edits ∧
    (Runs.Always (revise files) (fun c =>
        decode (encode c.sourceText c.encoding) = .ok (c.sourceText, c.encoding)) loaded edits ↔
      Runs.Each (revise files) (fun c changes => ¬ (c.encoding = .utf8 ∧
        ((firstLeft changes c.sourceText).any fun row => marked row.1) = true)) loaded edits) := by
  refine ⟨fun _ _ _ => encode_decode, ?_, ?_⟩
  · have hsaves : ∀ c : Tech2WinConfig, ∀ target o saved s,
        c.saveChecked files target o o.disk = (.ok saved, s) → saved.written = true →
          s.destination = some (.regular (encode c.sourceText c.encoding)) :=
      fun _ _ _ _ _ => saved_bytes
    exact Runs.always_invariant (fun _ c _ => hsaves _) edits (hsaves loaded)
  · have hruns : Runs.Always (revise files) ReadBack loaded edits ↔
        Runs.Each (revise files) (fun c changes => Accepts files c changes → ¬ Bares c changes)
          loaded edits :=
      Runs.always_iff_each (J := fun _ => True) (fun _ _ _ => trivial)
        (fun _ _ _ => revise_readBack) trivial (load_readBack hload)
    constructor
    · intro h
      exact ((hruns.mp h).and hedits).mono fun _ _ ⟨hnot, haccepted⟩ => hnot haccepted
    · intro h
      refine hruns.mpr (h.mono fun c changes hnot => ?_)
      exact fun _ => hnot

/-- A file whose second line begins with the mark. -/
def markedBytes : Contents := utf8Bytes "-P1 x\n\uFEFFy\n".toList

def markedFiles : Files := ⟨fun _ => .ok markedBytes, id⟩

def markedEdits (value : Chars) : Edits := (∅ : Edits).insert "-P1" value

def markedLoad : Except String Tech2WinConfig := loadWithEnvironment markedFiles "c".toList []

theorem exists_ok {α β : Type} {r : Except String α} {view : α → β} {b : β}
    (h : r.toOption.map view = some b) : ∃ a, r = .ok a ∧ view a = b := by
  cases r with
  | error e => cases h
  | ok a => exact ⟨a, rfl, Option.some.inj h⟩

theorem saved_read_back_value : ∃ loaded, markedLoad = .ok loaded ∧
    Runs.Always (revise markedFiles) (fun c =>
      decode (encode c.sourceText c.encoding) = .ok (c.sourceText, c.encoding)) loaded
        [markedEdits ['z']] := by
  have hload : markedLoad.toOption.map (·.sourceText) = some "-P1 x\n\uFEFFy\n".toList := by
    decide +kernel
  have hedit : (markedLoad.bind (·.edited markedFiles (markedEdits ['z']))).toOption.map
      (fun _ => ()) = some () := by
    decide +kernel
  obtain ⟨loaded, hload, htext⟩ := exists_ok hload
  rw [hload] at hedit
  obtain ⟨c', hc', -⟩ := exists_ok hedit
  have hedits : Runs.Each (revise markedFiles) (Accepts markedFiles) loaded [markedEdits ['z']] :=
    ⟨⟨c', hc'⟩, trivial⟩
  refine ⟨loaded, hload,
    (saved_read_back_iff markedFiles "c".toList [] hload hedits).2.2.mpr ⟨fun hbares => ?_, trivial⟩⟩
  rw [htext] at hbares
  exact absurd hbares.2 (by decide +kernel)

/-- A save over the file, in which nothing goes wrong. -/
def saving : Outcomes where
  atStart := some (.regular markedBytes)
  metadata := .ok ()
  atRead := some (.regular markedBytes)
  read := .stored
  staging := .done
  stagingRead := .stored
  backup := .done
  backupRead := .stored
  atCheck := some (.regular markedBytes)
  check := .ok ()
  atCompare := some (.regular markedBytes)
  compare := .stored
  permissions := .ok ()
  link := .ok ()
  unlink := .ok ()
  rename := .ok ()
  verify := .stored
  sync := .ok ()
  cleanup := .ok ()
  suffix := "1-1-0".toList

def savedBytes (c : Tech2WinConfig) : Option Contents :=
  (c.saveChecked markedFiles "c".toList saving saving.disk).2.destination.bind Node.reads

/-- Without its first line the file is saved as one with a byte order mark. -/
theorem mark_becomes_encoding : ∃ loaded c', markedLoad = .ok loaded ∧
    loaded.edited markedFiles (markedEdits []) = .ok c' ∧
    (c'.sourceText, c'.encoding) = ("\uFEFFy\n".toList, .utf8) ∧
    (savedBytes c').map decode = some (.ok ("y\n".toList, .utf8Bom)) := by
  have hedit : (markedLoad.bind (·.edited markedFiles (markedEdits []))).toOption.map
      (fun c => ((c.sourceText, c.encoding), (savedBytes c).map decode)) =
        some (("\uFEFFy\n".toList, .utf8), some (.ok ("y\n".toList, .utf8Bom))) := by
    decide +kernel
  cases hload : markedLoad with
  | error e =>
    rw [hload] at hedit
    cases hedit
  | ok loaded =>
    rw [hload] at hedit
    obtain ⟨c', hc', hc⟩ := exists_ok hedit
    obtain ⟨hread, hsaved⟩ := Prod.mk.inj hc
    exact ⟨loaded, c', rfl, hc', hread, hsaved⟩

end OpenSaab.Config
