import Mathlib.Algebra.Group.Action.Defs
import Mathlib.Algebra.Order.BigOperators.Group.List
import Mathlib.Algebra.Order.Group.Nat
import OpenSaab.Dtc.Lists

/-!
# A report that is too large

A report is saved whatever its size, but it is loaded only up to a limit. A list of two hundred
positions with long descriptions goes beyond it, and the last pages are lost.
-/

namespace OpenSaab.Dtc

open Text Runs Keyed

/-! ## Sizes -/

theorem sum_le_listSize (items : List Nat) : items.sum ≤ listSize items := by
  unfold listSize
  omega

theorem mul_length_le_sum (items : List Nat) (n : Nat) (h : ∀ x ∈ items, n ≤ x) :
    items.length * n ≤ items.sum := by
  rw [← smul_eq_mul]
  exact List.card_nsmul_le_sum items n h

theorem one_le_escapedSize (c : Char) : 1 ≤ escapedSize c := by
  unfold escapedSize
  split
  · decide
  · split
    · decide
    · exact Char.utf8Size_pos c

theorem length_le_quotedSize (s : Chars) : s.length ≤ quotedSize s := by
  have hsum := mul_length_le_sum (s.map escapedSize) 1 fun n hn => by
    obtain ⟨c, -, rfl⟩ := List.mem_map.mp hn
    exact one_le_escapedSize c
  rw [List.length_map] at hsum
  unfold quotedSize
  omega

theorem description_le_size (r : Row) : quotedSize r.description ≤ r.size := by
  have hsum := sum_le_listSize
    [fieldSize "module".toList (quotedSize r.moduleName),
      fieldSize "dtc".toList (quotedSize r.dtc),
      fieldSize "suffix".toList (quotedSize r.suffix),
      fieldSize "description_as_displayed".toList (quotedSize r.description)]
  refine Nat.le_trans ?_ hsum
  simp only [List.sum_cons, fieldSize]
  omega

theorem shown_le_size (p : Page) :
    quotedSize p.screen + (p.rows.map Row.size).sum ≤ p.size := by
  have hsum := sum_le_listSize
    [fieldSize "selected_item".toList (numberSize p.selected),
      fieldSize "observed_utc".toList (quotedSize p.observed),
      fieldSize "screen".toList (quotedSize p.screen),
      fieldSize "visible_rows".toList (listSize (p.rows.map Row.size))]
  refine Nat.le_trans ?_ hsum
  have hrows := sum_le_listSize (p.rows.map Row.size)
  simp only [List.sum_cons, fieldSize]
  omega

theorem snapshots_le_size (r : Report) : (r.snapshots.map Page.size).sum ≤ r.size := by
  have hpages := sum_le_listSize (r.snapshots.map Page.size)
  unfold Report.size
  refine Nat.le_trans ?_ (Nat.add_le_add_left (sum_le_listSize _) _)
  simp only [List.sum_cons, fieldSize]
  omega

/-- A report that cannot be loaded stays as it is, whatever is on the screen. -/
theorem observed_large {opened : Opened} (h : maxReport < opened.report.size) (o : Observation) :
    Session.observed (some opened) o = some opened := by
  have hload : loadReport (some opened) = .error "Report too large" := if_pos h
  unfold Session.observed observe
  rw [hload]
  split
  · next heq =>
    split at heq <;> cases heq
  · rfl

/-! ## A long list -/

def longText : Chars := List.replicate 8000 'x'

def longRow : Row := ⟨"A".toList, "B0000".toList, "00".toList, longText⟩

def rowLine : Chars := Lines.join ' ' ["A".toList, "B0000".toList, "00".toList, longText]

def counterLine (i : Nat) : Chars := Lines.digits 10 i ++ "/200".toList

def longScreen (i : Nat) : Chars := title ++ '\n' :: (counterLine i ++ '\n' :: rowLine)

def longPage (i : Nat) : Page := ⟨i, "t".toList, longScreen i, [longRow]⟩

def longObservation (i : Nat) : Observation := ⟨longScreen i, "t".toList, "a".toList, 300⟩

theorem mem_longText {c : Char} (h : c ∈ longText) : c = 'x' := List.eq_of_mem_replicate h

theorem length_longText : longText.length = 8000 := List.length_replicate

theorem longText_ne_nil : longText ≠ [] := List.ne_nil_of_length_pos (by rw [length_longText]; decide)

theorem rowLine_eq : rowLine = "A B0000 00 ".toList ++ longText := by
  have hone : Lines.join ' ' [longText] = longText := by simp [Lines.join, List.intercalate]
  unfold rowLine
  rw [Lines.join_cons (by simp), Lines.join_cons (by simp), Lines.join_cons (by simp), hone]
  rfl

/-- The characters of the line are these and no others. -/
theorem mem_rowLine {c : Char} (h : c ∈ rowLine) : c ∈ "A B0000 00 x".toList := by
  rw [rowLine_eq] at h
  rcases List.mem_append.mp h with h | h
  · exact List.mem_append_left "x".toList h
  · rw [mem_longText h]
    decide

theorem counterLine_spec : ∀ i < 201, (counterLine i).all (· ≠ '\n') = true ∧
    stripReturn (counterLine i) = counterLine i ∧ counter (counterLine i) = some (i, 200) ∧
    rowOf (counterLine i) = none ∧ utf8Length (counterLine i) ≤ 7 := by
  decide +kernel

theorem lines_longScreen {i : Nat} (hi : i < 201) :
    lines (longScreen i) = [title, counterLine i, rowLine] := by
  obtain ⟨hbreak, hstrip, -⟩ := counterLine_spec i hi
  have hcounter : ∀ c ∈ counterLine i, (c == '\n') = false := by
    intro c hc
    exact beq_false_of_ne (of_decide_eq_true (List.all_eq_true.mp hbreak c hc))
  have hrow : ∀ c ∈ rowLine, (c == '\n') = false := by
    have hall : ∀ c ∈ "A B0000 00 x".toList, (c == '\n') = false := forall_of_all (by decide)
    exact fun c hc => hall c (mem_rowLine hc)
  have hparts : (longScreen i).splitOn '\n' = [title, counterLine i, rowLine] := by
    unfold longScreen
    rw [List.splitOn, List.splitOnP_append_cons_of_forall_mem (forall_of_all (by decide)) _ rfl,
      List.splitOnP_append_cons_of_forall_mem hcounter _ rfl, List.splitOnP_eq_singleton hrow]
  have hne : rowLine ≠ [] := by
    rw [rowLine_eq]
    exact List.append_ne_nil_of_right_ne_nil _ longText_ne_nil
  unfold lines
  rw [hparts]
  change [stripReturn title, stripReturn (counterLine i)] ++ [rowLine].filter (· ≠ []) = _
  rw [hstrip, List.filter_cons_of_pos (by simpa using hne)]
  rfl

theorem mem_trim {s : Chars} {c : Char} (h : c ∈ trim s) : c ∈ s := by
  unfold trim at h
  rw [List.mem_reverse] at h
  have hfront := List.dropWhile_subset _ h
  rw [List.mem_reverse] at hfront
  exact List.dropWhile_subset _ hfront

/-- A line without a slash has no counter. -/
theorem counter_eq_none {line : Chars} (h : '/' ∉ line) : counter line = none := by
  have hsplit : splitOnce '/' (trim line) = none := by
    unfold splitOnce
    rw [List.span_eq_takeWhile_dropWhile, List.dropWhile_eq_nil_iff.mpr]
    intro c hc
    refine decide_eq_true ?_
    rintro rfl
    exact h (mem_trim hc)
  unfold counter
  rw [hsplit]
  rfl

theorem counter_rowLine : counter rowLine = none :=
  counter_eq_none fun h => absurd (mem_rowLine h) (by decide)

theorem rowOf_rowLine : rowOf rowLine = some longRow := by
  have hwords : Lines.words whitespace rowLine = ["A".toList, "B0000".toList, "00".toList, longText] := by
    refine Lines.words_join rfl fun w hw => ?_
    simp only [List.mem_cons, List.not_mem_nil, or_false] at hw
    rcases hw with rfl | rfl | rfl | rfl
    · exact ⟨by decide, forall_of_all (by decide)⟩
    · exact ⟨by decide, forall_of_all (by decide)⟩
    · exact ⟨by decide, forall_of_all (by decide)⟩
    · refine ⟨longText_ne_nil, fun c hc => ?_⟩
      rw [mem_longText hc]
      decide
  have hone : Lines.join ' ' [longText] = longText := by simp [Lines.join, List.intercalate]
  unfold rowOf
  rw [hwords]
  dsimp only
  rw [hone, if_pos ⟨by decide, by decide, by decide, longText_ne_nil⟩]
  rfl

theorem utf8Length_append (s t : Chars) : utf8Length (s ++ t) = utf8Length s + utf8Length t := by
  unfold utf8Length
  rw [List.map_append, List.sum_append]

theorem utf8Length_longText : utf8Length longText = 8000 := by
  unfold utf8Length longText
  rw [List.map_replicate, List.sum_replicate]
  rfl

theorem parse_longScreen {i : Nat} (hlo : 1 ≤ i) (hhi : i ≤ 200) :
    parse (longScreen i) "t".toList = some (200, longPage i) := by
  obtain ⟨-, -, hcounter, hrow, hlength⟩ := counterLine_spec i (by omega)
  have hsize : utf8Length (longScreen i) ≤ maxScreen := by
    have hscreen : longScreen i = title ++ "\n".toList ++ counterLine i ++ "\nA B0000 00 ".toList ++
        longText := by
      unfold longScreen
      rw [rowLine_eq]
      simp
    have hfixed : utf8Length title + utf8Length "\n".toList = 16 ∧
        utf8Length "\nA B0000 00 ".toList = 12 := by decide
    rw [hscreen, utf8Length_append, utf8Length_append, utf8Length_append, utf8Length_append,
      utf8Length_longText]
    unfold maxScreen
    omega
  have hcounters : (lines (longScreen i)).filterMap counter = [(i, 200)] := by
    rw [lines_longScreen (by omega), List.filterMap_cons, show counter title = none by decide,
      List.filterMap_cons, hcounter, List.filterMap_cons, counter_rowLine]
    rfl
  have hrows : (lines (longScreen i)).filterMap rowOf = [longRow] := by
    rw [lines_longScreen (by omega), List.filterMap_cons, show rowOf title = none by decide,
      List.filterMap_cons, hrow, List.filterMap_cons, rowOf_rowLine]
    rfl
  have htitle : (lines (longScreen i)).head?.map trim = some title := by
    rw [lines_longScreen (by omega)]
    rfl
  unfold parse
  rw [if_neg (by rw [htitle]; simpa using hsize), hcounters]
  dsimp only
  rw [if_neg (by omega), hrows]
  rfl

/-! ## Beyond the limit -/

theorem long_size {p : Page} {i : Nat} (h : p.shown = (longPage i).shown) : 16000 ≤ p.size := by
  obtain ⟨-, hrest⟩ := Prod.mk.inj h
  obtain ⟨hscreen, hrows⟩ := Prod.mk.inj hrest
  have hsize := shown_le_size p
  have htext : longText.length ≤ quotedSize (longPage i).screen := by
    refine Nat.le_trans ?_ (length_le_quotedSize _)
    dsimp only [longPage, longScreen]
    rw [rowLine_eq]
    simp only [List.length_append, List.length_cons]
    omega
  have hrow : longText.length ≤ ((longPage i).rows.map Row.size).sum := by
    dsimp only [longPage]
    rw [List.map_singleton, List.sum_singleton]
    exact Nat.le_trans (length_le_quotedSize longText) (description_le_size longRow)
  rw [hscreen, hrows] at hsize
  rw [length_longText] at htext hrow
  omega

def longPages (n : Nat) : List Page := (List.range' 1 n).map longPage

theorem mem_longPages {n : Nat} {p : Page} (h : p ∈ longPages n) :
    p = longPage p.selected ∧ 1 ≤ p.selected ∧ p.selected ≤ n := by
  obtain ⟨i, hi, rfl⟩ := List.mem_map.mp h
  have hrange := List.mem_range'_1.mp hi
  exact ⟨rfl, hrange.1, by dsimp only [longPage]; omega⟩

theorem lastWith_longPages {n k : Nat} (hlo : 1 ≤ k) (hhi : k ≤ n) :
    lastWith Page.selected (longPages n) k = some (longPage k) := by
  have hmem : longPage k ∈ longPages n :=
    List.mem_map.mpr ⟨k, List.mem_range'_1.mpr ⟨hlo, by omega⟩, rfl⟩
  obtain ⟨q, hq⟩ := exists_lastWith (f := Page.selected) hmem
  obtain ⟨hmem', hkey⟩ := lastWith_mem hq
  have hq' : lastWith Page.selected (longPages n) k = some q := hq
  rw [hq', (mem_longPages hmem').1, hkey]
  rfl

theorem lastWith_longPages_eq_none {n k : Nat} (h : n < k) :
    lastWith Page.selected (longPages n) k = none := by
  refine Option.eq_none_iff_forall_ne_some.mpr fun q hq => ?_
  obtain ⟨hmem, hkey⟩ := lastWith_mem hq
  have hrange := (mem_longPages hmem).2.2
  omega

/-- A report with these pages takes so much room. -/
theorem Captured.large {n total : Nat} {report : Report}
    (h : Captured (longPages n) total report) : n * 16000 ≤ report.size := by
  have hshown : ∀ p ∈ report.snapshots, p.selected ≤ n ∧ p.shown = (longPage p.selected).shown := by
    intro p hp
    obtain ⟨p', hp'⟩ : ∃ p', (report.snapshots.find? fun q => q.selected = p.selected) = some p' :=
      Option.isSome_iff_exists.mp (List.find?_isSome.mpr ⟨p, hp, decide_eq_true rfl⟩)
    have hkey := List.find?_some hp'
    obtain rfl := h.sorted.distinct.eq_of_mem (List.mem_of_find?_eq_some hp') hp
      (of_decide_eq_true hkey)
    have hlatest := h.latest p'.selected
    rw [hp'] at hlatest
    have hrange : p'.selected ≤ n := by
      by_contra hnot
      rw [lastWith_longPages_eq_none (by omega)] at hlatest
      cases hlatest
    rw [lastWith_longPages (h.range p' hp).1 hrange] at hlatest
    exact ⟨hrange, Option.some.inj hlatest⟩
  have hlength : report.snapshots.length = n := by
    refine (length_eq_iff h.sorted.distinct fun p hp => ⟨(h.range p hp).1, (hshown p hp).1⟩).mpr ?_
    intro k hlo hhi
    have hlatest := h.latest k
    rw [lastWith_longPages hlo hhi] at hlatest
    obtain ⟨p, hp, hsame⟩ := Option.map_eq_some_iff.mp hlatest
    exact ⟨p, List.mem_of_find?_eq_some hp, congrArg Prod.fst hsame⟩
  have hsum := mul_length_le_sum (report.snapshots.map Page.size) 16000 fun m hm => by
    obtain ⟨p, hp, rfl⟩ := List.mem_map.mp hm
    exact long_size (hshown p hp).2
  rw [List.length_map, hlength] at hsum
  exact Nat.le_trans hsum (snapshots_le_size report)

theorem longObservation_page {i : Nat} (hlo : 1 ≤ i) (hhi : i ≤ 200) :
    (longObservation i).page = some (longPage i) :=
  page_eq (parse_longScreen hlo hhi)

def longObservations (n : Nat) : List Observation := (List.range' 2 n).map longObservation

theorem longObservations_succ (n : Nat) :
    longObservations (n + 1) = longObservations n ++ [longObservation (n + 2)] := by
  unfold longObservations
  rw [List.range'_1_concat, List.map_append, List.map_singleton, Nat.add_comm 2 n]

theorem mem_longObservations {n : Nat} {o : Observation} (h : o ∈ longObservations n) :
    ∃ i, 1 ≤ i ∧ i ≤ n + 1 ∧ o = longObservation i := by
  obtain ⟨i, hi, rfl⟩ := List.mem_map.mp h
  have hrange := List.mem_range'_1.mp hi
  exact ⟨i, by omega, by omega, rfl⟩

theorem filterMap_longObservations {n : Nat} (hn : n < 200) :
    (longObservation 1 :: longObservations n).filterMap Observation.page = longPages (n + 1) := by
  have hall : ∀ i ∈ List.range' 1 (n + 1), (longObservation i).page = some (longPage i) := by
    intro i hi
    have hrange := List.mem_range'_1.mp hi
    exact longObservation_page hrange.1 (by omega)
  have hlist : longObservation 1 :: longObservations n = (List.range' 1 (n + 1)).map longObservation := by
    rw [List.range'_succ, List.map_cons, longObservations]
  rw [hlist, longPages, List.filterMap_map, List.filterMap_eq_map_iff_forall_eq_some]
  simpa only [Function.comp_apply] using hall

/-- The pages of a list that is too long are not all in the report. -/
theorem not_always_captured :
    ¬ ∀ (total : Nat) (s : Session) (o : Observation) (os : List Observation) (page : Page),
      Begins total s → parse o.text o.now = some (total, page) →
        Each Session.observed (Continues total) (s.observed o) os → Promised total s o os := by
  intro hclaim
  have hpromised : ∀ n < 200, Promised 200 none (longObservation 1) (longObservations n) := by
    intro n hn
    refine hclaim 200 none (longObservation 1) _ (longPage 1) ⟨nofun, nofun⟩
      (parse_longScreen (Nat.le_refl 1) (by omega)) ?_
    refine Each.mono (fun _ _ h => .inl h) (each_of_forall fun o ho => ?_)
    obtain ⟨i, hlo, hhi, rfl⟩ := mem_longObservations ho
    exact ⟨longPage i, parse_longScreen hlo (by omega)⟩
  obtain ⟨before, hbefore, -, hfirst⟩ := (hpromised 198 (by omega)).captured
  obtain ⟨after, hafter, -, hsecond⟩ := (hpromised 199 (by omega)).captured
  rw [filterMap_longObservations (by omega)] at hfirst hsecond
  have hlarge : maxReport < before.report.size := Nat.lt_of_lt_of_le (by decide) hfirst.large
  have hsame : before = after := by
    rw [longObservations_succ, ← List.cons_append, run_append, hbefore, run_cons, run_nil,
      observed_large hlarge] at hafter
    exact Option.some.inj hafter
  -- The report is the same, and the page that is seen last is not in it.
  have hnone := hfirst.latest 200
  have hsome := hsecond.latest 200
  rw [lastWith_longPages_eq_none (by omega)] at hnone
  rw [lastWith_longPages (by omega) (Nat.le_refl 200), ← hsame, hnone] at hsome
  cases hsome

end OpenSaab.Dtc
