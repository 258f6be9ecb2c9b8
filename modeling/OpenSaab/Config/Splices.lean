import OpenSaab.Config.Drafts

/-!
# Splices of an edit

A row that is changed keeps all but its value or its flag, and is read as what was asked for.
-/

namespace OpenSaab.Config

open Text (whitespace Blank Trimmed)

/-! ## The value of a row -/

theorem parts_of_allowed {raw : Chars} (h : (readLine raw).flag ∈ allowed) : Parts raw :=
  parts_of_line (line_of_allowed h).1

/-- What is replaced of a body, between what stays. -/
structure Spliced (body old new body' : Chars) : Prop where
  splice : ∃ front back, body = front ++ old ++ back ∧ body' = front ++ new ++ back

theorem blank_no_head {g v w : Chars} (hg : Blank g) (hv : Trimmed v) (hvne : v ≠ []) :
    (g ++ (v ++ w)).takeWhile whitespace = g := by
  refine Text.takeWhile_blank hg fun c hc => ?_
  rw [List.head?_append_of_ne_nil _ hvne] at hc
  exact hv.head c hc

theorem replaceValue_spliced {raw v : Chars} (h : (readLine raw).flag ∈ allowed)
    (hvalue : (readLine raw).value ≠ []) (hv : Trimmed v) (hvne : v ≠ []) :
    Spliced raw (readLine raw).value v (replaceValue v raw) ∧
      (readLine (replaceValue v raw)).flag = (readLine raw).flag ∧
      (readLine (replaceValue v raw)).value = v := by
  have hparts := parts_of_allowed h
  obtain ⟨_, gap, hgne, hgap, htail⟩ := hparts.rest.resolve_left fun hnone => hvalue hnone.1
  have hgap' : (tail raw).takeWhile whitespace = gap := by
    rw [htail]
    exact blank_no_head hgap hparts.value hvalue
  have hnew : replaceValue v raw = blanks raw ++ token raw ++ gap ++ v ++ trailing raw := by
    unfold replaceValue
    simp only [hgap', if_neg hgne]
  have hread := readLine_value hparts.front hparts.solid hgap hgne hv hvne hparts.back
  rw [hnew]
  refine ⟨⟨blanks raw ++ token raw ++ gap, trailing raw, ?_, rfl⟩, ?_, ?_⟩
  · conv_lhs => rw [hparts.whole, htail]
    simp only [List.append_assoc]
  · rw [hread, hparts.flag]
  · rw [hread]

/-! ## The flag of a row -/

theorem upper_styled {flag : String} (hbackend : isBackend flag = true) {old : Chars}
    (hold : upper old = "-PP".toList ∨ upper old = "-PJ".toList) :
    IsToken (styled flag old) ∧ upper (styled flag old) = flag.toList := by
  have hthree : ∃ a b c, old = [a, b, c] ∧ a = '-' := by
    have hlength : old.length = 3 := by
      rw [show old.length = (upper old).length from List.length_map Char.toUpper |>.symm]
      rcases hold with h | h <;> exact congrArg List.length h
    obtain ⟨a, b, c, rfl⟩ := List.length_eq_three.mp hlength
    refine ⟨a, b, c, rfl, eq_of_toUpper ?_ (by decide)⟩
    rcases hold with h | h <;> exact (List.cons.inj h).1
  obtain ⟨a, b, c, rfl, rfl⟩ := hthree
  have hstyled : ∀ x y : Char, styled (String.ofList ['-', x, y]) ['-', b, c] =
      ['-', if b.isLower then x.toLower else x, if c.isLower then y.toLower else y] := by
    intro x y
    unfold styled
    rw [String.toList_ofList]
    rfl
  rcases backend_cases hbackend with rfl | rfl
  · change IsToken (styled (String.ofList ['-', 'P', 'P']) ['-', b, c]) ∧
      upper (styled (String.ofList ['-', 'P', 'P']) ['-', b, c]) = _
    rw [hstyled]
    cases b.isLower <;> cases c.isLower <;>
      exact ⟨⟨by decide, Text.forall_of_all (by decide)⟩, by decide⟩
  · change IsToken (styled (String.ofList ['-', 'P', 'J']) ['-', b, c]) ∧
      upper (styled (String.ofList ['-', 'P', 'J']) ['-', b, c]) = _
    rw [hstyled]
    cases b.isLower <;> cases c.isLower <;>
      exact ⟨⟨by decide, Text.forall_of_all (by decide)⟩, by decide⟩

theorem restyle_spliced {flag : String} {raw : Chars} (hbackend : isBackend flag = true)
    (hraw : isBackend (readLine raw).flag = true) (hvalue : (readLine raw).value = []) :
    Spliced raw (token raw) (styled flag (token raw)) (restyle flag raw) ∧
      (readLine (restyle flag raw)).flag = flag ∧ (readLine (restyle flag raw)).value = [] ∧
      upper (styled flag (token raw)) = flag.toList := by
  have hallowed : (readLine raw).flag ∈ allowed := by
    rcases backend_cases hraw with h | h <;> rw [h] <;> decide
  have hparts := parts_of_allowed hallowed
  have htail : tail raw = trailing raw := (hparts.rest.resolve_right fun hsome =>
    hsome.1 hvalue).2
  have hold : upper (token raw) = "-PP".toList ∨ upper (token raw) = "-PJ".toList := by
    have hlist : (readLine raw).flag.toList = upper (token raw) := by
      rw [hparts.flag, String.toList_ofList]
    rw [← hlist]
    rcases backend_cases hraw with h | h <;> rw [h]
    · exact .inl rfl
    · exact .inr rfl
  obtain ⟨htoken, hupper⟩ := upper_styled hbackend hold
  have hread : readLine (restyle flag raw) = ⟨styled flag (token raw), flag, []⟩ := by
    have hline := readLine_token hparts.front htoken hparts.back
    rw [hupper, String.ofList_toList] at hline
    unfold restyle
    rw [htail]
    exact hline
  refine ⟨⟨blanks raw, tail raw, hparts.whole, rfl⟩, ?_, ?_, hupper⟩
  · rw [hread]
  · rw [hread]

/-! ## A revised row -/

theorem quoted_cases (flag : String) (v old : Chars) :
    quoted flag v old = v ∨ quoted flag v old = ['"'] ++ v ++ ['"'] := by
  unfold quoted
  split
  · exact .inr rfl
  · exact .inl rfl

theorem quoted_fits (flag : String) {v : Chars} (old : Chars) (hv : Trimmed v) (hne : v ≠ [])
    (hplain : Plain v) :
    Trimmed (quoted flag v old) ∧ quoted flag v old ≠ [] ∧ Plain (quoted flag v old) := by
  rcases quoted_cases flag v old with h | h
  · rw [h]
    exact ⟨hv, hne, hplain⟩
  · rw [h]
    have hquote : Plain ['"'] := by
      intro c hc
      rw [List.mem_singleton.mp hc]
      decide
    refine ⟨⟨fun c hc => ?_, fun c hc => ?_⟩, List.cons_ne_nil _ _,
      (hquote.append hplain).append hquote⟩
    · obtain rfl := Option.some.inj hc
      decide
    · rw [List.getLast?_append_of_ne_nil _ (List.cons_ne_nil _ _)] at hc
      obtain rfl := Option.some.inj hc
      decide

theorem Spliced.plain {body old new body' : Chars} (h : Spliced body old new body')
    (hbody : Plain body) (hnew : Plain new) : Plain body' := by
  obtain ⟨front, back, rfl, rfl⟩ := h.splice
  have hfront : Plain front := hbody.of_subset fun c hc => by simp [hc]
  have hback : Plain back := hbody.of_subset fun c hc => by simp [hc]
  exact (hfront.append hnew).append hback

/-- The value that a request gives to an option. -/
def newValue (r : String × Chars) (old : Chars) : Chars :=
  if isBackend r.1 then [] else quoted r.1 r.2 old

/-- What a request replaces of a body, and by what. -/
structure Replaced (r : String × Chars) (body body' : Chars) : Prop where
  flag : (readLine body').flag = r.1
  value : (readLine body').value = newValue r (readLine body).value
  option : isBackend r.1 = false →
    Spliced body (readLine body).value (newValue r (readLine body).value) body'
  backend : isBackend r.1 = true → ∃ new, Spliced body (token body) new body' ∧
    upper new = r.1.toList
  plain : Plain body → Plain body'

theorem about_backend {flag said : String} (h : about flag said = true) :
    isBackend said = isBackend flag := by
  rcases of_decide_eq_true h with rfl | ⟨hbackend, rfl⟩
  · rfl
  · rw [hbackend, isBackend_rival hbackend]

theorem replaced_of_about {r : String × Chars} {raw : Chars} (hr : Editable r.1 r.2)
    (habout : about r.1 (readLine raw).flag = true)
    (hvalue : isBackend (readLine raw).flag = true ↔ (readLine raw).value = [])
    (herases : erases r = false) (hdiffer : ¬ Alike r (readLine raw).flag (readLine raw).value) :
    Replaced r raw (revisedBody r raw) := by
  have hallowed := about_allowed hr.allowed habout
  rw [about_backend habout] at hvalue
  unfold revisedBody
  rw [if_neg hdiffer]
  cases hbackend : isBackend r.1 with
  | true =>
    rw [if_pos rfl]
    have hempty := hvalue.mp hbackend
    obtain ⟨hspliced, hflag, hvalue', hupper⟩ := restyle_spliced hbackend
      ((about_backend habout).trans hbackend) hempty
    have hplain : Plain (styled r.1 (token raw)) := by
      intro c hc
      have hmem : c.toUpper ∈ r.1.toList := hupper ▸ List.mem_map_of_mem hc
      by_contra hend
      have hends := eq_true_of_ne_false hend
      have hchar : c = '\r' ∨ c = '\n' := of_decide_eq_true hends
      rcases backend_cases hbackend with hr' | hr' <;> rw [hr'] at hmem <;>
        rcases hchar with rfl | rfl <;> exact absurd hmem (by decide)
    refine ⟨hflag, ?_, fun hno => ?_, fun _ => ⟨_, hspliced, hupper⟩, fun hbody => ?_⟩
    · rw [hvalue', newValue, if_pos hbackend]
    · rw [hbackend] at hno
      cases hno
    · exact hspliced.plain hbody hplain
  | false =>
    rw [if_neg Bool.false_ne_true]
    have hne : (readLine raw).value ≠ [] := fun hempty => by
      rw [hvalue.mpr hempty] at hbackend
      cases hbackend
    have hrne : r.2 ≠ [] := fun hempty =>
      of_decide_eq_false herases ⟨by rw [hbackend]; exact Bool.false_ne_true, hempty⟩
    obtain ⟨htrimmed, hnonempty, hplain⟩ :=
      quoted_fits r.1 (readLine raw).value hr.trimmed hrne hr.plain
    have hnew : newValue r (readLine raw).value = quoted r.1 r.2 (readLine raw).value :=
      if_neg (by rw [hbackend]; exact Bool.false_ne_true)
    have hflag : (readLine raw).flag = r.1 :=
      (of_decide_eq_true habout).resolve_right fun hno =>
        Bool.false_ne_true (hbackend.symm.trans hno.1)
    obtain ⟨hspliced, hflag', hvalue'⟩ := replaceValue_spliced hallowed hne htrimmed hnonempty
    refine ⟨hflag'.trans hflag, hvalue'.trans hnew.symm, fun _ => hnew ▸ hspliced, fun hno => ?_,
      fun hbody => hspliced.plain hbody hplain⟩
    rw [hbackend] at hno
    cases hno

end OpenSaab.Config
