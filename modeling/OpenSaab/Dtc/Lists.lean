import OpenSaab.Dtc.Capture
import OpenSaab.Library.Keyed

/-!
# What a report holds

As long as one report is open, its snapshots are the latest pages of the list, each at its position,
and its codes are those of the pages.
-/

namespace OpenSaab.Dtc

open Text Runs Keyed

/-! ## Snapshots -/

def Sorted (pages : List Page) : Prop := pages.Pairwise fun a b => a.selected < b.selected

theorem Sorted.distinct {pages : List Page} (h : Sorted pages) : Distinct Page.selected pages :=
  List.pairwise_map.mpr (h.imp fun hlt => Nat.ne_of_lt hlt)

theorem sorted_insertionSort {pages : List Page} (h : Distinct Page.selected pages) :
    Sorted (pages.insertionSort fun a b => a.selected ≤ b.selected) := by
  have : Std.Total fun a b : Page => a.selected ≤ b.selected := ⟨fun a b => Nat.le_total _ _⟩
  have : IsTrans Page fun a b => a.selected ≤ b.selected := ⟨fun _ _ _ => Nat.le_trans⟩
  have hle := List.pairwise_insertionSort (fun a b : Page => a.selected ≤ b.selected) pages
  have hne := h.perm (List.perm_insertionSort (fun a b : Page => a.selected ≤ b.selected) pages).symm
  exact (hle.and (List.pairwise_map.mp hne)).imp fun h => Nat.lt_of_le_of_ne h.1 h.2

theorem store_none {page : Page} {pages : List Page} (h : store page pages = none) :
    ∃ old ∈ pages, old.selected = page.selected ∧ old.screen = page.screen := by
  unfold store at h
  rw [Option.map_eq_none_iff] at h
  split at h
  · next old hold =>
    split at h
    · next hsame =>
      refine ⟨old, List.mem_of_getElem? hold, ?_, hsame⟩
      obtain ⟨hi, rfl⟩ := List.getElem?_eq_some_iff.mp hold
      exact of_decide_eq_true (List.findIdx_getElem (w := hi))
    · cases h
  · cases h

theorem store_some {page : Page} {pages new : List Page} (hpages : Sorted pages)
    (h : store page pages = some new) :
    Sorted new ∧ ∀ p, p ∈ new ↔ p = page ∨ p ∈ pages ∧ p.selected ≠ page.selected := by
  unfold store at h
  obtain ⟨stored, hstored, rfl⟩ := Option.map_eq_some_iff.mp h
  have hspec : Distinct Page.selected stored ∧
      ∀ p, p ∈ stored ↔ p = page ∨ p ∈ pages ∧ p.selected ≠ page.selected := by
    split at hstored
    · next old hold =>
      have hkey : old.selected = page.selected := by
        obtain ⟨hi, rfl⟩ := List.getElem?_eq_some_iff.mp hold
        exact of_decide_eq_true (List.findIdx_getElem (w := hi))
      split at hstored
      · cases hstored
      · obtain rfl := Option.some.inj hstored
        exact ⟨hpages.distinct.set hold hkey, hpages.distinct.mem_set hold hkey⟩
    · next hnone =>
      obtain rfl := Option.some.inj hstored
      have hnew : ∀ p ∈ pages, p.selected ≠ page.selected := by
        intro p hp hsame
        have hlt : pages.findIdx (fun q => decide (q.selected = page.selected)) < pages.length :=
          List.findIdx_lt_length_of_exists ⟨p, hp, decide_eq_true hsame⟩
        rw [List.getElem?_eq_getElem hlt] at hnone
        cases hnone
      refine ⟨hpages.distinct.append hnew, fun p => ?_⟩
      rw [List.mem_append, List.mem_singleton]
      constructor
      · rintro (hp | hp)
        · exact .inr ⟨hp, hnew p hp⟩
        · exact .inl hp
      · rintro (hp | ⟨hp, -⟩)
        · exact .inr hp
        · exact .inl hp
  refine ⟨sorted_insertionSort hspec.1, fun p => ?_⟩
  rw [List.mem_insertionSort]
  exact hspec.2 p

/-! ## Codes -/

theorem keys_addEntry (out : List (Chars × Row)) (row : Row) :
    (addEntry out row).map Prod.fst =
      if key row ∈ out.map Prod.fst then out.map Prod.fst else out.map Prod.fst ++ [key row] := by
  unfold addEntry
  cases hold : out.lookup (key row) with
  | none =>
    have hnot : key row ∉ out.map Prod.fst := by
      intro hmem
      obtain ⟨e, he, hkey⟩ := List.mem_map.mp hmem
      have hne := List.lookup_eq_none_iff.mp hold e he
      rw [hkey] at hne
      simp at hne
    rw [if_neg hnot]
    exact List.map_append
  | some old =>
    have hmem : key row ∈ out.map Prod.fst := by
      obtain ⟨front, back, rfl, -⟩ := List.lookup_eq_some_iff.mp hold
      exact List.mem_map.mpr ⟨(key row, old), by simp, rfl⟩
    rw [if_pos hmem]
    dsimp only
    split
    · rw [List.map_map]
      refine List.map_congr_left fun e _ => ?_
      dsimp only [Function.comp]
      split <;> rfl
    · rfl

theorem keys_foldl (rows : List Row) (out : List (Chars × Row))
    (hout : (out.map Prod.fst).Nodup) :
    ((rows.foldl addEntry out).map Prod.fst).Nodup ∧
      ∀ k, k ∈ (rows.foldl addEntry out).map Prod.fst ↔
        k ∈ out.map Prod.fst ∨ ∃ row ∈ rows, key row = k := by
  induction rows generalizing out with
  | nil => simpa using hout
  | cons row rows ih =>
    have hkeys := keys_addEntry out row
    have hnext : ((addEntry out row).map Prod.fst).Nodup ∧
        ∀ k, k ∈ (addEntry out row).map Prod.fst ↔ k ∈ out.map Prod.fst ∨ key row = k := by
      rw [hkeys]
      split
      · next hmem =>
        refine ⟨hout, fun k => ⟨.inl, ?_⟩⟩
        rintro (hk | rfl)
        · exact hk
        · exact hmem
      · next hmem =>
        refine ⟨List.Nodup.append hout (List.nodup_singleton _) ?_, fun k => ?_⟩
        · intro k hk hk'
          obtain rfl := List.mem_singleton.mp hk'
          exact hmem hk
        · rw [List.mem_append, List.mem_singleton, @eq_comm _ k]
    obtain ⟨hnodup, hiff⟩ := ih (addEntry out row) hnext.1
    refine ⟨hnodup, fun k => ?_⟩
    rw [List.foldl_cons, hiff, hnext.2, List.exists_mem_cons_iff, or_assoc]

theorem nodup_codes (report : Report) : (codes report).Nodup :=
  (keys_foldl _ [] List.nodup_nil).1

theorem mem_codes {report : Report} {k : Chars} :
    k ∈ codes report ↔ ∃ p ∈ report.snapshots, ∃ row ∈ p.rows, key row = k := by
  unfold codes entries
  rw [(keys_foldl _ [] List.nodup_nil).2]
  simp only [List.map_nil, List.not_mem_nil, false_or, List.mem_flatMap]
  constructor
  · rintro ⟨row, ⟨p, hp, hrow⟩, hkey⟩
    exact ⟨p, hp, row, hrow, hkey⟩
  · rintro ⟨p, hp, row, hrow, hkey⟩
    exact ⟨row, ⟨p, hp, hrow⟩, hkey⟩

/-! ## One session -/

/-- The page of the list that an observation shows. -/
def Observation.page (o : Observation) : Option Page := (parse o.text o.now).map Prod.snd

/-- What a page shows, whenever it is seen. -/
def Page.shown (p : Page) : Nat × Chars × List Row := (p.selected, p.screen, p.rows)

/-- What a report is to be after these pages of a list with this many positions. -/
structure Captured (seen : List Page) (total : Nat) (report : Report) : Prop where
  sorted : Sorted report.snapshots
  range : ∀ p ∈ report.snapshots, 1 ≤ p.selected ∧ p.selected ≤ total
  /-- At each position there is the page that was seen last. -/
  latest : ∀ k, (report.snapshots.find? fun p => p.selected = k).map Page.shown =
    (lastWith Page.selected seen k).map Page.shown
  complete : report.allCaptured = true ↔ ∀ k, 1 ≤ k → k ≤ total → ∃ p ∈ seen, p.selected = k
  positions : report.capturedPositions = report.snapshots.length
  keys : (codes report).Nodup ∧
    ∀ k, k ∈ codes report ↔ ∃ p ∈ report.snapshots, ∃ row ∈ p.rows, key row = k
  counted : report.uniqueCodes = (codes report).length

/-- The texts of a report change only for its own codes, and only by a page that is not of the list. -/
def Attaches (s : Session) (o : Observation) : Prop :=
  ∀ before ∈ s, ∀ after ∈ s.observed o, ∀ k,
    after.report.fullDescriptions.lookup k ≠ before.report.fullDescriptions.lookup k →
      k ∈ codes before.report ∧ o.page = none

/-- A screen that keeps the report open: a page of the same list, or a page about one of its codes. -/
def Continues (total : Nat) (s : Session) (o : Observation) : Prop :=
  (∃ page, parse o.text o.now = some (total, page)) ∨
    parse o.text o.now = none ∧ ∃ opened ∈ s, (detail opened.report o.text).isSome

/-- The report can be loaded. -/
def Small (s : Session) : Prop := ∀ opened ∈ s, opened.report.size ≤ maxReport

/-- A page of a list with this many positions begins a new report. -/
def Begins (total : Nat) (s : Session) : Prop := Small s ∧ ∀ opened ∈ s, opened.report.total ≠ total

theorem parse_some {text now : Chars} {total : Nat} {page : Page}
    (h : parse text now = some (total, page)) :
    utf8Length text ≤ maxScreen ∧ page.screen = text ∧ page.observed = now ∧
      (1 ≤ page.selected ∧ page.selected ≤ total) ∧
      ∀ later, parse text later = some (total, { page with observed := later }) := by
  unfold parse at h ⊢
  split at h
  · cases h
  · next hscreen =>
    split at h
    · next index total' hcounter =>
      split at h
      · cases h
      · next hrange =>
        dsimp only at h
        split at h
        · cases h
        · next hrows =>
          obtain ⟨rfl, rfl⟩ := Prod.mk.inj (Option.some.inj h)
          refine ⟨by omega, rfl, rfl, by dsimp only; omega, fun later => ?_⟩
          rw [if_neg hscreen]
          dsimp only
          rw [if_neg hrange, if_neg hrows]
    · cases h

theorem detail_some {report new : Report} {text : Chars} (h : detail report text = some new) :
    utf8Length text ≤ maxScreen ∧ ∃ k ∈ codes report, ∃ words,
      new = { report with fullDescriptions := setText report.fullDescriptions k words } := by
  unfold detail at h
  split at h
  · cases h
  · next hscreen =>
    split at h
    · split at h
      · cases h
      · split at h
        · split at h
          · next hcode =>
            obtain rfl := Option.some.inj h
            exact ⟨by omega, _, hcode.2.2, _, rfl⟩
          · cases h
        · cases h
    · cases h

theorem lookup_setText_ne {k key : Chars} (texts : List (Chars × Chars)) (words : Chars)
    (h : k ≠ key) : (setText texts key words).lookup k = texts.lookup k := by
  have hfilter : (texts.filter fun e => e.1 ≠ key).lookup k = texts.lookup k := by
    induction texts with
    | nil => rfl
    | cons e texts ih =>
      by_cases he : e.1 = key
      · have hk : (k == e.1) = false := beq_false_of_ne (he ▸ h)
        rw [List.filter_cons_of_neg (by simpa using he), List.lookup_cons, hk]
        exact ih
      · rw [List.filter_cons_of_pos (by simpa using he), List.lookup_cons, List.lookup_cons, ih]
  unfold setText
  rw [List.lookup_cons, beq_false_of_ne h]
  exact hfilter

/-- What is known of a report while it is open. -/
structure Kept (seen : List Page) (total : Nat) (report : Report) : Prop where
  many : report.total = total
  updated : update report = report
  sorted : Sorted report.snapshots
  member : ∀ p ∈ report.snapshots, p ∈ seen
  parsed : ∀ p ∈ report.snapshots, parse p.screen p.observed = some (total, p)
  latest : ∀ k q, lastWith Page.selected seen k = some q →
    ∃ p ∈ report.snapshots, p.shown = q.shown

theorem Kept.captured {seen : List Page} {total : Nat} {report : Report}
    (h : Kept seen total report) : Captured seen total report := by
  have hrange : ∀ p ∈ report.snapshots, 1 ≤ p.selected ∧ p.selected ≤ total :=
    fun p hp => (parse_some (h.parsed p hp)).2.2.2.1
  have hpositions : report.capturedPositions = report.snapshots.length := by
    rw [← h.updated]
    rfl
  have hall : report.allCaptured = decide (report.snapshots.length = report.total) := by
    rw [← h.updated]
    rfl
  have hcount : report.uniqueCodes = (codes report).length := by
    rw [← h.updated]
    rfl
  refine ⟨h.sorted, hrange, fun k => ?_, ?_, hpositions, ⟨nodup_codes report, fun k => mem_codes⟩, hcount⟩
  · cases hlast : lastWith Page.selected seen k with
    | none =>
      have hnone : (report.snapshots.find? fun p => p.selected = k) = none := by
        refine List.find?_eq_none.mpr fun p hp hk => ?_
        obtain ⟨q, hq⟩ := exists_lastWith (f := Page.selected) (h.member p hp)
        rw [of_decide_eq_true hk, hlast] at hq
        cases hq
      rw [hnone]
    | some q =>
      obtain ⟨p, hp, hshown⟩ := h.latest k q hlast
      have hk : p.selected = k := (congrArg Prod.fst hshown).trans (lastWith_mem hlast).2
      obtain ⟨p', hp'⟩ : ∃ p', (report.snapshots.find? fun p => p.selected = k) = some p' :=
        Option.isSome_iff_exists.mp (List.find?_isSome.mpr ⟨p, hp, decide_eq_true hk⟩)
      have hkey := List.find?_some hp'
      have hsame : p'.selected = p.selected := (of_decide_eq_true hkey).trans hk.symm
      obtain rfl := h.sorted.distinct.eq_of_mem (List.mem_of_find?_eq_some hp') hp hsame
      rw [hp']
      exact congrArg some hshown
  · rw [hall, decide_eq_true_iff, h.many, length_eq_iff h.sorted.distinct hrange]
    refine forall_congr' fun k => forall_congr' fun _ => forall_congr' fun _ => ?_
    constructor
    · rintro ⟨p, hp, hk⟩
      exact ⟨p, h.member p hp, hk⟩
    · rintro ⟨p, hp, hk⟩
      obtain ⟨q, hq⟩ := exists_lastWith (f := Page.selected) hp
      obtain ⟨p', hp', hshown⟩ := h.latest _ q hq
      exact ⟨p', hp', (congrArg Prod.fst hshown).trans ((lastWith_mem hq).2.trans hk)⟩

section Step

variable {seen : List Page} {total : Nat} {s : Session} {o : Observation} {page : Page}

theorem page_eq (h : parse o.text o.now = some (total, page)) : o.page = some page := by
  unfold Observation.page
  rw [h]
  rfl

theorem page_eq_none (h : parse o.text o.now = none) : o.page = none := by
  unfold Observation.page
  rw [h]
  rfl

/-- A page goes into the report for its list. -/
theorem observed_page (hsmall : Small s) (h : parse o.text o.now = some (total, page)) :
    s.observed o =
      match store page (reportFor s o total).report.snapshots with
      | none => s
      | some snapshots =>
        (save { reportFor s o total with
          report := { (reportFor s o total).report with snapshots } }).1 := by
  have hload : loadReport s = .ok s := by
    unfold loadReport
    cases s with
    | none => rfl
    | some opened => exact if_neg (Nat.not_lt.mpr (hsmall opened rfl))
  have htext := (parse_some h).1
  unfold Session.observed observe
  rw [if_neg (Nat.not_lt.mpr htext), hload]
  simp only [Except.map, h]
  cases store page (reportFor s o total).report.snapshots <;> rfl

/-- A page about one code. -/
theorem observed_detail (hsmall : Small s) (h : parse o.text o.now = none) {opened : Opened}
    (hs : s = some opened) {new : Report} (hdetail : detail opened.report o.text = some new) :
    s.observed o = (save { opened with report := new }).1 := by
  subst hs
  have hload : loadReport (some opened) = .ok (some opened) :=
    if_neg (Nat.not_lt.mpr (hsmall opened rfl))
  have htext := (detail_some hdetail).1
  unfold Session.observed observe
  rw [if_neg (Nat.not_lt.mpr htext), hload]
  simp only [Except.map, h, Option.bind_some, hdetail, Option.map_some]

/-- The page is seen again. -/
theorem Kept.again {report : Report} (h : Kept seen total report)
    (hpage : parse o.text o.now = some (total, page)) {old : Page} (hold : old ∈ report.snapshots)
    (hselected : old.selected = page.selected) (hscreen : old.screen = page.screen) :
    Kept (seen ++ [page]) total report where
  many := h.many
  updated := h.updated
  sorted := h.sorted
  member p hp := List.mem_append_left _ (h.member p hp)
  parsed := h.parsed
  latest k q hq := by
    rw [lastWith_snoc] at hq
    split at hq
    · obtain rfl := Option.some.inj hq
      refine ⟨old, hold, ?_⟩
      obtain ⟨-, htext, -, -, hlater⟩ := parse_some hpage
      have hsame := h.parsed old hold
      rw [hscreen, htext, hlater] at hsame
      have hrows := congrArg Page.rows (Prod.mk.inj (Option.some.inj hsame)).2
      exact Prod.ext hselected (Prod.ext hscreen hrows.symm)
    · exact h.latest k q hq

/-- The page is new at its position. -/
theorem Kept.stored {report : Report} (h : Kept seen total report)
    (hpage : parse o.text o.now = some (total, page)) {snapshots : List Page}
    (hstore : store page report.snapshots = some snapshots) :
    Kept (seen ++ [page]) total (update { report with snapshots }) := by
  obtain ⟨hsorted, hmem⟩ := store_some h.sorted hstore
  refine ⟨h.many, rfl, hsorted, fun p hp => ?_, fun p hp => ?_, fun k q hq => ?_⟩
  · rcases (hmem p).mp hp with rfl | ⟨hp, -⟩
    · exact List.mem_append_right _ (List.mem_singleton.mpr rfl)
    · exact List.mem_append_left _ (h.member p hp)
  · rcases (hmem p).mp hp with rfl | ⟨hp, -⟩
    · obtain ⟨-, htext, hnow, -⟩ := parse_some hpage
      rw [htext, hnow]
      exact hpage
    · exact h.parsed p hp
  · rw [lastWith_snoc] at hq
    split at hq
    · obtain rfl := Option.some.inj hq
      exact ⟨page, (hmem page).mpr (.inl rfl), rfl⟩
    · next hne =>
      obtain ⟨p, hp, hshown⟩ := h.latest k q hq
      have hselected : p.selected = k := (congrArg Prod.fst hshown).trans (lastWith_mem hq).2
      exact ⟨p, (hmem p).mpr (.inr ⟨hp, fun h => hne (h.symm.trans hselected)⟩), hshown⟩

/-- Another text for a code. -/
theorem Kept.detailed {report : Report} (h : Kept seen total report)
    (texts : List (Chars × Chars)) :
    Kept seen total (update { report with fullDescriptions := texts }) :=
  ⟨h.many, rfl, h.sorted, h.member, h.parsed, h.latest⟩

theorem kept_new (heading : Nat) : Kept [] total (update (.new heading total)) :=
  ⟨rfl, rfl, .nil, nofun, nofun, nofun⟩

/-- The report with this name is open. -/
def Holding (id : Chars) (total : Nat) (seen : List Page) (s : Session) : Prop :=
  ∃ opened, s = some opened ∧ opened.id = id ∧ Kept seen total opened.report

theorem step_holding {id : Chars} (h : Holding id total seen s) (hsmall : Small s)
    (hcontinues : Continues total s o) :
    Holding id total (seen ++ o.page.toList) (s.observed o) ∧ Attaches s o := by
  obtain ⟨opened, rfl, rfl, hkept⟩ := h
  rcases hcontinues with ⟨page, hpage⟩ | ⟨hpage, opened', hopened, hdetail⟩
  · have hfor : reportFor (some opened) o total = opened := if_pos hkept.many
    have hafter := observed_page hsmall hpage
    rw [hfor] at hafter
    rw [page_eq hpage]
    unfold Attaches
    rw [hafter]
    cases hstore : store page opened.report.snapshots with
    | none =>
      obtain ⟨old, hold, hselected, hscreen⟩ := store_none hstore
      refine ⟨⟨opened, rfl, rfl, hkept.again hpage hold hselected hscreen⟩, ?_⟩
      rintro before ⟨⟩ after ⟨⟩ k hne
      exact absurd rfl hne
    | some snapshots =>
      refine ⟨⟨_, rfl, rfl, hkept.stored hpage hstore⟩, ?_⟩
      rintro before ⟨⟩ after ⟨⟩ k hne
      exact absurd rfl hne
  · obtain rfl := Option.some.inj hopened
    obtain ⟨new, hnew⟩ := Option.isSome_iff_exists.mp hdetail
    have hafter := observed_detail hsmall hpage rfl hnew
    obtain ⟨-, key, hkey, words, rfl⟩ := detail_some hnew
    rw [page_eq_none hpage, Option.toList_none, List.append_nil]
    unfold Attaches
    rw [hafter]
    refine ⟨⟨_, rfl, rfl, hkept.detailed _⟩, ?_⟩
    rintro before ⟨⟩ after ⟨⟩ k hne
    refine ⟨?_, page_eq_none hpage⟩
    by_cases hk : k = key
    · rw [hk]
      exact hkey
    · exact absurd (lookup_setText_ne _ words hk) hne

theorem first_holding (hbegins : Begins total s) (hpage : parse o.text o.now = some (total, page)) :
    Holding o.id total [page] (s.observed o) ∧
      ∀ opened ∈ s.observed o, opened.report.fullDescriptions = [] := by
  obtain ⟨hsmall, hother⟩ := hbegins
  have hfor : reportFor s o total = ⟨o.id, .new o.heading total⟩ := by
    unfold reportFor
    cases s with
    | none => rfl
    | some opened => exact if_neg (hother opened rfl)
  have hafter := observed_page hsmall hpage
  rw [hfor] at hafter
  have hstore : store page (Report.new o.heading total).snapshots = some [page] := rfl
  dsimp only at hafter
  rw [hstore] at hafter
  rw [hafter]
  refine ⟨⟨_, rfl, rfl, (kept_new o.heading).stored hpage hstore⟩, ?_⟩
  rintro opened ⟨⟩
  rfl

end Step

/-! ## A whole list -/

/-- What is promised of a report: it holds the pages that have been seen, and it has no text but for
its own codes. -/
structure Promised (total : Nat) (s : Session) (o : Observation) (os : List Observation) : Prop where
  captured : ∃ opened, run Session.observed s (o :: os) = some opened ∧ opened.id = o.id ∧
    Captured ((o :: os).filterMap Observation.page) total opened.report
  bare : ∀ opened ∈ s.observed o, opened.report.fullDescriptions = []
  attaches : Each Session.observed Attaches (s.observed o) os

theorem log_page (s : Session) (os : List Observation) :
    log Session.observed (fun _ o => o.page.toList) s os = os.filterMap Observation.page := by
  induction os generalizing s with
  | nil => rfl
  | cons o os ih =>
    rw [log, ih, List.filterMap_cons]
    cases o.page <;> rfl

/-- As long as the report is open and its file can be loaded, it holds what has been seen of the list. -/
theorem list_captured (total : Nat) (s : Session) (o : Observation) (os : List Observation)
    (page : Page) (hbegins : Begins total s) (hfirst : parse o.text o.now = some (total, page))
    (hcontinues : Each Session.observed (Continues total) (s.observed o) os)
    (hsmall : Each Session.observed (fun s _ => Small s) (s.observed o) os) :
    Promised total s o os := by
  obtain ⟨hheld, hbare⟩ := first_holding hbegins hfirst
  have hboth := hcontinues.and hsmall
  refine ⟨?_, hbare, ?_⟩
  · have hrun : Holding o.id total
        ([page] ++ log Session.observed (fun _ o => o.page.toList) (s.observed o) os)
        (run Session.observed (s.observed o) os) :=
      log_keeps_of_each (R := fun s seen => Holding o.id total seen s)
        (fun _ _ _ hstep h => (step_holding h hstep.2 hstep.1).1) hboth hheld
    obtain ⟨opened, hopened, hid, hkept⟩ := hrun
    rw [log_page] at hkept
    refine ⟨opened, hopened, hid, ?_⟩
    rw [List.filterMap_cons, page_eq hfirst]
    exact hkept.captured
  · have halways : Always Session.observed (fun s => ∃ seen, Holding o.id total seen s)
        (s.observed o) os := by
      refine always_of_each ?_ hboth ⟨_, hheld⟩
      rintro s o' hstep ⟨seen, h⟩
      exact ⟨_, (step_holding h hstep.2 hstep.1).1⟩
    refine Each.of_always (J := fun _ => True) (fun _ _ _ => trivial) ?_ trivial halways hboth
    rintro s o' - ⟨seen, h⟩ hstep
    exact (step_holding h hstep.2 hstep.1).2

def firstScreen : Observation :=
  ⟨"DTC Information\n1/2\nECM P0100 00 Air flow".toList, "t1".toList, "a".toList, 300⟩

/-- The other position, and a text about the code of the first one. -/
def laterScreens : List Observation :=
  [⟨"DTC Information\n2/2\nTCM U2105 1F Bus".toList, "t2".toList, "b".toList, 300⟩,
    ⟨"DTC Information\nECM\nP0100 00\nMass air flow".toList, "t3".toList, "c".toList, 300⟩]

theorem list_captured_of_two : Promised 2 none firstScreen laterScreens := by
  refine list_captured 2 none firstScreen laterScreens _ ⟨nofun, nofun⟩ rfl ?_ ?_
  · exact ⟨.inl ⟨_, rfl⟩, .inr ⟨rfl, _, rfl, rfl⟩, trivial⟩
  · refine ⟨?_, ?_, trivial⟩
    · rintro opened ⟨⟩
      decide
    · rintro opened ⟨⟩
      decide

end OpenSaab.Dtc
