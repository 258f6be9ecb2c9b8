import Mathlib.Data.List.Basic
import OpenSaab.Config.Document

/-!
# Rows of a configuration

A text is its rows in turn, and a row that is put together from a flag and a value is read as these.
-/

namespace OpenSaab.Config

/-! ## Rows of a text -/

def joined (rows : List Row) : Chars := rows.flatMap fun r => r.1 ++ r.2

theorem joined_cons (r : Row) (rows : List Row) : joined (r :: rows) = r.1 ++ r.2 ++ joined rows :=
  rfl

theorem joined_append (rows rows' : List Row) : joined (rows ++ rows') = joined rows ++ joined rows' :=
  List.flatMap_append

/-- Nothing in it ends a line. -/
def Plain (body : Chars) : Prop := ∀ c ∈ body, lineEnd c = false

theorem plain_nil : Plain [] := nofun

theorem Plain.append {a b : Chars} (ha : Plain a) (hb : Plain b) : Plain (a ++ b) := by
  intro c hc
  rcases List.mem_append.mp hc with h | h
  · exact ha c h
  · exact hb c h

theorem Plain.of_subset {a b : Chars} (h : Plain a) (hsub : ∀ c ∈ b, c ∈ a) : Plain b :=
  fun c hc => h c (hsub c hc)

def endings : List Chars := [['\r'], ['\n'], ['\r', '\n']]

theorem splitText_cons {c : Char} {rest : Chars}
    (h : ∀ tail, c = '\r' → rest = '\n' :: tail → False) : splitText (c :: rest) =
      if lineEnd c then ([], [c]) :: splitText rest else push c (splitText rest) := by
  rw [splitText]
  exact h

theorem joined_push (c : Char) (rows : List Row) : joined (push c rows) = c :: joined rows := by
  cases rows with
  | nil => rfl
  | cons r rows => rfl

theorem joined_splitText (text : Chars) : joined (splitText text) = text := by
  induction text using splitText.induct with
  | case1 => rfl
  | case2 rest ih =>
    rw [splitText, joined_cons, ih]
    rfl
  | case3 c rest hcrlf hend ih =>
    rw [splitText_cons hcrlf, if_pos hend, joined_cons, ih]
    rfl
  | case4 c rest hcrlf hend ih =>
    rw [splitText_cons hcrlf, if_neg hend, joined_push, ih]

/-! ## What the rows of a text come to -/

section

variable {β : Type} {g : Chars → List β}

/-- What is made of the bodies, in turn. -/
def scan (g : Chars → List β) (text : Chars) : List β := (splitText text).flatMap fun r => g r.1

theorem scan_newline (hg : g [] = []) (rest : Chars) : scan g ('\n' :: rest) = scan g rest := by
  have hnot : ∀ tail, '\n' = '\r' → rest = '\n' :: tail → False := fun _ h => absurd h (by decide)
  have hend : lineEnd '\n' = true := by decide
  unfold scan
  rw [splitText_cons hnot, if_pos hend, List.flatMap_cons, hg]
  rfl

theorem scan_ending (hg : g [] = []) {e : Chars} (he : e ∈ endings) (rest : Chars) :
    scan g (e ++ rest) = scan g rest := by
  simp only [endings, List.mem_cons, List.not_mem_nil, or_false] at he
  rcases he with rfl | rfl | rfl
  · change scan g ('\r' :: rest) = scan g rest
    by_cases hrest : ∃ tail, rest = '\n' :: tail
    · obtain ⟨tail, rfl⟩ := hrest
      rw [scan_newline hg]
      unfold scan
      rw [splitText, List.flatMap_cons, hg]
      rfl
    · have hend : lineEnd '\r' = true := by decide
      unfold scan
      rw [splitText_cons fun tail _ h => hrest ⟨tail, h⟩, if_pos hend, List.flatMap_cons, hg]
      rfl
  · exact scan_newline hg rest
  · change scan g ('\r' :: '\n' :: rest) = scan g rest
    unfold scan
    rw [splitText, List.flatMap_cons, hg]
    rfl

/-- A body before an ending or the end of the text is the first row. -/
theorem splitText_body {b rest : Chars} (hb : Plain b) (hne : b ≠ [])
    (hrest : ∀ c, rest.head? = some c → lineEnd c = true) : ∃ e rows,
      splitText (b ++ rest) = (b, e) :: rows ∧
        ((rest = [] ∧ rows = []) ∨ splitText rest = ([], e) :: rows) := by
  induction b with
  | nil => exact absurd rfl hne
  | cons c b ih =>
    have hc : lineEnd c = false := hb c List.mem_cons_self
    have hcons : splitText (c :: (b ++ rest)) = push c (splitText (b ++ rest)) := by
      rw [splitText_cons, if_neg (by rw [hc]; exact Bool.false_ne_true)]
      rintro tail rfl -
      cases hc
    by_cases hempty : b = []
    · subst hempty
      rw [List.cons_append, hcons, List.nil_append]
      cases rest with
      | nil => exact ⟨[], [], rfl, .inl ⟨rfl, rfl⟩⟩
      | cons d rest =>
        have hd : lineEnd d = true := hrest d rfl
        by_cases hcrlf : ∃ tail, d = '\r' ∧ rest = '\n' :: tail
        · obtain ⟨tail, rfl, rfl⟩ := hcrlf
          rw [splitText]
          exact ⟨_, _, rfl, .inr rfl⟩
        · rw [splitText_cons fun tail h h' => hcrlf ⟨tail, h, h'⟩, if_pos hd]
          exact ⟨_, _, rfl, .inr rfl⟩
    · obtain ⟨e, rows, hrows, hend⟩ := ih (fun d hd => hb d (List.mem_cons_of_mem c hd)) hempty
      rw [List.cons_append, hcons, hrows]
      exact ⟨e, rows, rfl, hend⟩

theorem scan_body (hg : g [] = []) {b rest : Chars} (hb : Plain b)
    (hrest : ∀ c, rest.head? = some c → lineEnd c = true) :
    scan g (b ++ rest) = g b ++ scan g rest := by
  by_cases hne : b = []
  · rw [hne, hg]
    rfl
  · obtain ⟨e, rows, hrows, hend⟩ := splitText_body hb hne hrest
    unfold scan
    rw [hrows, List.flatMap_cons]
    rcases hend with ⟨rfl, rfl⟩ | hend
    · rfl
    · rw [hend, List.flatMap_cons, hg]
      rfl

/-- Rows that end their lines, all but the last one perhaps. -/
structure Lined (rows : List Row) : Prop where
  plain : ∀ r ∈ rows, Plain r.1
  ending : ∀ r ∈ rows, r.2 = [] ∨ r.2 ∈ endings
  ended : rows.Pairwise fun r _ => r.2 ∈ endings

theorem Lined.tail {r : Row} {rows : List Row} (h : Lined (r :: rows)) : Lined rows :=
  ⟨fun s hs => h.plain s (List.mem_cons_of_mem r hs),
    fun s hs => h.ending s (List.mem_cons_of_mem r hs), (List.pairwise_cons.mp h.ended).2⟩

theorem head_ending {e : Chars} (he : e ∈ endings) (rest : Chars) {c : Char}
    (hc : (e ++ rest).head? = some c) : lineEnd c = true := by
  simp only [endings, List.mem_cons, List.not_mem_nil, or_false] at he
  rcases he with rfl | rfl | rfl <;> (obtain rfl := Option.some.inj hc; rfl)

theorem scan_joined (hg : g [] = []) {rows : List Row} (h : Lined rows) :
    scan g (joined rows) = rows.flatMap fun r => g r.1 := by
  induction rows with
  | nil => rfl
  | cons r rows ih =>
    have hr := h.plain r List.mem_cons_self
    by_cases he : r.2 ∈ endings
    · rw [joined_cons, List.append_assoc, scan_body hg hr fun c => head_ending he _,
        scan_ending hg he, ih h.tail, List.flatMap_cons]
    · have hlast : rows = [] := by
        rw [List.eq_nil_iff_forall_not_mem]
        exact fun s hs => he ((List.pairwise_cons.mp h.ended).1 s hs)
      have hnone := (h.ending r List.mem_cons_self).resolve_right he
      subst hlast
      have hjoined : joined [r] = r.1 ++ [] := by
        rw [joined_cons, hnone, List.append_assoc]
        rfl
      rw [hjoined, scan_body hg hr (fun c hc => by cases hc), List.flatMap_cons]
      rfl

end

theorem lined_push {c : Char} (hc : lineEnd c = false) {rows : List Row} (h : Lined rows) :
    Lined (push c rows) := by
  cases rows with
  | nil =>
    refine ⟨?_, ?_, List.pairwise_singleton _ _⟩ <;> intro r hr <;> obtain rfl := List.mem_singleton.mp hr
    · intro d hd
      obtain rfl := List.mem_singleton.mp hd
      exact hc
    · exact .inl rfl
  | cons s rows =>
    refine ⟨?_, ?_, ?_⟩
    · intro r hr
      rcases List.mem_cons.mp hr with rfl | hr
      · intro d hd
        rcases List.mem_cons.mp hd with rfl | hd
        · exact hc
        · exact h.plain s List.mem_cons_self d hd
      · exact h.plain r (List.mem_cons_of_mem s hr)
    · intro r hr
      rcases List.mem_cons.mp hr with rfl | hr
      · exact h.ending s List.mem_cons_self
      · exact h.ending r (List.mem_cons_of_mem s hr)
    · have hends := List.pairwise_cons.mp h.ended
      exact List.pairwise_cons.mpr ⟨hends.1, hends.2⟩

theorem lined_cons {e : Chars} (he : e ∈ endings) {rows : List Row} (h : Lined rows) :
    Lined (([], e) :: rows) := by
  refine ⟨?_, ?_, List.pairwise_cons.mpr ⟨fun _ _ => he, h.ended⟩⟩
  · intro r hr
    rcases List.mem_cons.mp hr with rfl | hr
    · exact plain_nil
    · exact h.plain r hr
  · intro r hr
    rcases List.mem_cons.mp hr with rfl | hr
    · exact .inr he
    · exact h.ending r hr

theorem lined_splitText (text : Chars) : Lined (splitText text) := by
  induction text using splitText.induct with
  | case1 => exact ⟨nofun, nofun, List.Pairwise.nil⟩
  | case2 rest ih =>
    rw [splitText]
    exact lined_cons (by simp [endings]) ih
  | case3 c rest hcrlf hend ih =>
    rw [splitText_cons hcrlf, if_pos hend]
    refine lined_cons ?_ ih
    have hc : c = '\r' ∨ c = '\n' := by simpa [lineEnd] using hend
    rcases hc with rfl | rfl <;> simp [endings]
  | case4 c rest hcrlf hend ih =>
    rw [splitText_cons hcrlf, if_neg hend]
    exact lined_push (Bool.eq_false_iff.mpr hend) ih

/-- Only a line that is not empty is left without an ending. -/
theorem body_of_unended {text : Chars} {r : Row} (h : r ∈ splitText text) (hend : r.2 = []) :
    r.1 ≠ [] := by
  induction text using splitText.induct generalizing r with
  | case1 => cases h
  | case2 rest ih =>
    rw [splitText] at h
    rcases List.mem_cons.mp h with rfl | h
    · cases hend
    · exact ih h hend
  | case3 c rest hcrlf hc ih =>
    rw [splitText_cons hcrlf, if_pos hc] at h
    rcases List.mem_cons.mp h with rfl | h
    · cases hend
    · exact ih h hend
  | case4 c rest hcrlf hc ih =>
    rw [splitText_cons hcrlf, if_neg hc] at h
    cases hrest : splitText rest with
    | nil =>
      rw [hrest] at h
      obtain rfl := List.mem_singleton.mp h
      exact List.cons_ne_nil _ _
    | cons s rows =>
      rw [hrest] at h ih
      rcases List.mem_cons.mp h with rfl | h
      · exact List.cons_ne_nil _ _
      · exact ih (List.mem_cons_of_mem _ h) hend

/-! ## How many rows a text has -/

theorem length_push (c : Char) {rows : List Row} (h : rows ≠ []) :
    (push c rows).length = rows.length := by
  cases rows with
  | nil => exact absurd rfl h
  | cons r rows => rfl

theorem splitText_ne_nil {text : Chars} (h : text ≠ []) : splitText text ≠ [] := by
  intro hnil
  have hjoined := joined_splitText text
  rw [hnil] at hjoined
  exact h hjoined.symm

/-- Two texts have no more rows together than one by one. -/
theorem length_splitText_append (a b : Chars) :
    (splitText (a ++ b)).length ≤ (splitText a).length + (splitText b).length := by
  induction a using splitText.induct with
  | case1 => exact Nat.le_add_left _ _
  | case2 rest ih =>
    change (splitText ('\r' :: '\n' :: (rest ++ b))).length ≤ _
    rw [splitText, splitText, List.length_cons, List.length_cons]
    omega
  | case3 c rest hcrlf hend ih =>
    rw [splitText_cons hcrlf, if_pos hend, List.length_cons]
    by_cases hmerge : ∃ tail, c = '\r' ∧ rest ++ b = '\n' :: tail
    · obtain ⟨tail, rfl, htail⟩ := hmerge
      have hnl : lineEnd '\n' = true := by decide
      have hrest : rest = [] := by
        cases rest with
        | nil => rfl
        | cons d rest =>
          exact absurd (congrArg (· :: rest) (List.cons.inj htail).1) (hcrlf rest rfl)
      subst hrest
      rw [List.nil_append] at htail
      subst htail
      have hnot : ∀ rest, '\n' = '\r' → tail = '\n' :: rest → False := fun _ h =>
        absurd h (by decide)
      have hmerged : splitText ('\r' :: '\n' :: tail) = ([], ['\r', '\n']) :: splitText tail := by
        rw [splitText]
      change (splitText ('\r' :: '\n' :: tail)).length ≤ _
      rw [hmerged, splitText_cons hnot, if_pos hnl]
      simp only [List.length_cons]
      omega
    · rw [List.cons_append, splitText_cons fun tail h h' => hmerge ⟨tail, h, h'⟩, if_pos hend,
        List.length_cons]
      omega
  | case4 c rest hcrlf hend ih =>
    have happend : splitText (c :: rest ++ b) = push c (splitText (rest ++ b)) := by
      rw [List.cons_append, splitText_cons, if_neg hend]
      rintro tail rfl -
      exact hend (by decide)
    rw [happend, splitText_cons hcrlf, if_neg hend]
    cases rest with
    | nil =>
      cases hb : splitText b with
      | nil => simp [push, splitText, hb]
      | cons r rows =>
        simp only [List.nil_append, hb, push, splitText, List.length_cons, List.length_nil]
        omega
    | cons d rest =>
      have hne : d :: rest ++ b ≠ [] := List.cons_ne_nil d (rest ++ b)
      rw [length_push c (splitText_ne_nil hne),
        length_push c (splitText_ne_nil (List.cons_ne_nil d rest))]
      exact ih

theorem length_splitText_ending {e : Chars} (he : e = [] ∨ e ∈ endings) :
    (splitText e).length ≤ 1 := by
  simp only [endings, List.mem_cons, List.not_mem_nil, or_false] at he
  rcases he with rfl | rfl | rfl | rfl <;> decide

theorem length_splitText_row {r : Row} (hplain : Plain r.1) (he : r.2 = [] ∨ r.2 ∈ endings) :
    (splitText (r.1 ++ r.2)).length ≤ 1 := by
  have hend := length_splitText_ending he
  by_cases hne : r.1 = []
  · rw [hne]
    exact hend
  · have hhead : ∀ c, r.2.head? = some c → lineEnd c = true := by
      intro c hc
      rcases he with he | he
      · rw [he] at hc
        cases hc
      · refine head_ending he [] ?_
        rwa [List.append_nil]
    obtain ⟨e, rows, hrows, hrest⟩ := splitText_body hplain hne hhead
    rw [hrows, List.length_cons]
    rcases hrest with ⟨_, rfl⟩ | hrest
    · exact Nat.le_refl 1
    · rw [hrest, List.length_cons] at hend
      exact hend

theorem length_splitText_joined {rows : List Row} (h : Lined rows) :
    (splitText (joined rows)).length ≤ rows.length := by
  induction rows with
  | nil => exact Nat.le_refl 0
  | cons r rows ih =>
    have hrow := length_splitText_row (h.plain r List.mem_cons_self) (h.ending r List.mem_cons_self)
    have happend := length_splitText_append (r.1 ++ r.2) (joined rows)
    have hrest := ih h.tail
    rw [joined_cons, List.length_cons]
    omega

/-! ## Reading a row -/

/-- Only small letters are changed, and these to letters. -/
theorem toUpper_cases (c : Char) : c.toUpper = c ∨ 65 ≤ c.toUpper.toNat ∧ c.toUpper.toNat ≤ 90 := by
  unfold Char.toUpper
  split
  · next h =>
    right
    have hlow : 97 ≤ c.val.toNat := UInt32.le_iff_toNat_le.mp h.1
    have hhigh : c.val.toNat ≤ 122 := UInt32.le_iff_toNat_le.mp h.2
    have hgap : ('A'.val - 'a'.val).toNat = 2 ^ 32 - 32 := by decide
    change 65 ≤ (c.val + ('A'.val - 'a'.val)).toNat ∧ (c.val + ('A'.val - 'a'.val)).toNat ≤ 90
    rw [UInt32.toNat_add, hgap]
    omega
  · exact .inl rfl

theorem eq_of_toUpper {c d : Char} (h : c.toUpper = d) (hd : d.toNat < 65) : c = d := by
  rcases toUpper_cases c with hc | hc
  · rw [← hc, h]
  · rw [h] at hc
    omega

open Text (whitespace Blank Trimmed)

/-- A flag in the text: not empty, and without white space. -/
structure IsToken (t : Chars) : Prop where
  ne : t ≠ []
  solid : ∀ c ∈ t, whitespace c = false

theorem IsToken.head {t rest : Chars} (h : IsToken t) {c : Char}
    (hc : (t ++ rest).head? = some c) : whitespace c = false := by
  rw [List.head?_append_of_ne_nil _ h.ne] at hc
  exact h.solid c (List.mem_of_mem_head? hc)

theorem IsToken.take {t : Chars} (h : IsToken t) (rest : Chars)
    (hrest : ∀ c, rest.head? = some c → whitespace c = true) :
    (t ++ rest).takeWhile (fun c => !whitespace c) = t ∧
      (t ++ rest).dropWhile (fun c => !whitespace c) = rest := by
  have hall : ∀ c ∈ t, (!whitespace c) = true := fun c hc => by rw [h.solid c hc]; rfl
  rw [List.takeWhile_append_of_pos hall, List.dropWhile_append_of_pos hall]
  cases rest with
  | nil => exact ⟨by rw [List.takeWhile_nil, List.append_nil], rfl⟩
  | cons c rest =>
    have hc : ¬ (!whitespace c) = true := by
      rw [hrest c rfl]
      exact Bool.false_ne_true
    rw [List.takeWhile_cons_of_neg (p := fun c => !whitespace c) hc, List.append_nil,
      List.dropWhile_cons_of_neg (p := fun c => !whitespace c) hc]
    exact ⟨rfl, rfl⟩

theorem head_blank {g rest : Chars} (hne : g ≠ []) (hg : Blank g) {c : Char}
    (hc : (g ++ rest).head? = some c) : whitespace c = true := by
  rw [List.head?_append_of_ne_nil _ hne] at hc
  exact hg c (List.mem_of_mem_head? hc)

theorem trim_blank_append {g v : Chars} (hg : Blank g) (hv : Trimmed v) : Text.trim (g ++ v) = v := by
  have hpad := Text.trim_padded hg hv (b := []) nofun
  rwa [List.append_nil] at hpad

/-- A flag alone in its row. -/
theorem readLine_token {b t w : Chars} (hb : Blank b) (ht : IsToken t) (hw : Blank w) :
    readLine (b ++ t ++ w) = ⟨t, String.ofList (upper t), []⟩ := by
  have htrimmed : Trimmed t :=
    ⟨fun c hc => ht.solid c (List.mem_of_mem_head? hc),
      fun c hc => ht.solid c (List.mem_of_getLast? hc)⟩
  have htake := ht.take [] nofun
  rw [List.append_nil] at htake
  unfold readLine
  simp only [Text.trim_padded hb htrimmed hw, htake.1, htake.2]
  rfl

/-- A flag with a value. -/
theorem readLine_value {b t g v w : Chars} (hb : Blank b) (ht : IsToken t) (hg : Blank g)
    (hgne : g ≠ []) (hv : Trimmed v) (hvne : v ≠ []) (hw : Blank w) :
    readLine (b ++ t ++ g ++ v ++ w) = ⟨t ++ (g ++ v), String.ofList (upper t), v⟩ := by
  have htrimmed : Trimmed (t ++ (g ++ v)) := by
    refine ⟨fun c hc => ht.head hc, fun c hc => hv.last c ?_⟩
    rwa [← List.append_assoc, List.getLast?_append_of_ne_nil _ hvne] at hc
  have htake := ht.take (g ++ v) fun c => head_blank hgne hg
  have hline : b ++ t ++ g ++ v ++ w = b ++ (t ++ (g ++ v)) ++ w := by
    simp only [List.append_assoc]
  obtain ⟨c, g, rfl⟩ := List.exists_cons_of_ne_nil hgne
  have hvalue : Text.trim (((c :: g) ++ v).drop 1) = v :=
    trim_blank_append (fun d hd => hg d (List.mem_cons_of_mem c hd)) hv
  unfold readLine
  simp only [hline, Text.trim_padded hb htrimmed hw, htake.1, htake.2, hvalue]

theorem isToken_takeWhile {line : Chars} (hne : line ≠ []) (h : Trimmed line) :
    IsToken (line.takeWhile fun c => !whitespace c) := by
  obtain ⟨c, rest, rfl⟩ := List.exists_cons_of_ne_nil hne
  constructor
  · rw [List.takeWhile_cons_of_pos (p := fun c => !whitespace c) (by rw [h.head c rfl]; rfl)]
    exact List.cons_ne_nil _ _
  · intro d hd
    simpa using List.mem_takeWhile_imp hd

theorem head_dropWhile_solid (line : Chars) {c : Char}
    (h : (line.dropWhile fun c => !whitespace c).head? = some c) : whitespace c = true := by
  have hnot := List.head?_dropWhile_not (fun c => !whitespace c) line
  rw [h] at hnot
  simpa using hnot

theorem trailing_append {a line w : Chars} (hne : line ≠ []) (hline : Trimmed line) (hw : Blank w) :
    trailing (a ++ line ++ w) = w := by
  unfold trailing
  rw [List.append_assoc, ← List.append_assoc, List.reverse_append, Text.takeWhile_blank hw.reverse,
    List.reverse_reverse]
  intro c hc
  rw [List.head?_reverse, List.getLast?_append_of_ne_nil _ hne] at hc
  exact hline.last c hc

/-- The parts of a row: blanks, the flag, and the value between more blanks. -/
structure Parts (raw : Chars) : Prop where
  whole : raw = blanks raw ++ token raw ++ tail raw
  solid : IsToken (token raw)
  flag : (readLine raw).flag = String.ofList (upper (token raw))
  head : (readLine raw).line.head? = (token raw).head?
  rest : (readLine raw).value = [] ∧ tail raw = trailing raw ∨ (readLine raw).value ≠ [] ∧
    ∃ gap, gap ≠ [] ∧ Blank gap ∧ tail raw = gap ++ ((readLine raw).value ++ trailing raw)
  front : Blank (blanks raw)
  back : Blank (trailing raw)
  value : Trimmed (readLine raw).value

theorem parts_of_line {raw : Chars} (h : (readLine raw).line ≠ []) : Parts raw := by
  have hx : Text.trim raw ++ (raw.dropWhile whitespace).rtakeWhile whitespace =
      raw.dropWhile whitespace := Text.trim_append_trailing raw
  generalize hw : (raw.dropWhile whitespace).rtakeWhile whitespace = w at hx
  have hwblank : Blank w := by
    intro c hc
    rw [← hw] at hc
    exact List.mem_takeWhile_imp (List.mem_reverse.mp hc)
  have hline : Trimmed (Text.trim raw) := Text.trimmed_trim raw
  change Text.trim raw ≠ [] at h
  have htoken := isToken_takeWhile h hline
  have hsplit := List.takeWhile_append_dropWhile (p := fun c => !whitespace c) (l := Text.trim raw)
  generalize ht : (Text.trim raw).takeWhile (fun c => !whitespace c) = t at htoken hsplit
  generalize hu : (Text.trim raw).dropWhile (fun c => !whitespace c) = u at hsplit
  have huhead : ∀ c, u.head? = some c → whitespace c = true := fun c hc =>
    head_dropWhile_solid (Text.trim raw) (by rw [hu]; exact hc)
  have hrest : ∀ c, (u ++ w).head? = some c → whitespace c = true := by
    intro c hc
    by_cases hnil : u = []
    · subst hnil
      exact hwblank c (List.mem_of_mem_head? hc)
    · rw [List.head?_append_of_ne_nil _ hnil] at hc
      exact huhead c hc
  have htake := htoken.take _ hrest
  have hbody : raw.dropWhile whitespace = t ++ (u ++ w) := by
    rw [← hx, ← hsplit, List.append_assoc]
  have htok : token raw = t := by
    unfold token
    rw [hbody, htake.1]
  have htail : tail raw = u ++ w := by
    unfold tail
    rw [hbody, htake.2]
  have hraw : raw = blanks raw ++ (t ++ (u ++ w)) := by
    rw [← hbody]
    exact List.takeWhile_append_dropWhile.symm
  have htrail : trailing raw = w := by
    have hassoc : raw = blanks raw ++ Text.trim raw ++ w := by
      rw [← hsplit, List.append_assoc, List.append_assoc]
      exact hraw
    rw [hassoc]
    exact trailing_append h hline hwblank
  have hflag : (readLine raw).flag = String.ofList (upper t) := by rw [← ht]; rfl
  have hvalue : (readLine raw).value = Text.trim (u.drop 1) := by rw [← hu]; rfl
  refine ⟨?_, htok ▸ htoken, htok ▸ hflag, ?_, ?_, Text.blank_takeWhile raw, htrail ▸ hwblank, ?_⟩
  · rw [htok, htail, List.append_assoc]
    exact hraw
  · change (Text.trim raw).head? = _
    rw [htok, ← hsplit, List.head?_append_of_ne_nil _ htoken.ne]
  · rw [htail, htrail, hvalue]
    cases u with
    | nil => exact .inl ⟨rfl, rfl⟩
    | cons c u =>
      have hc := huhead c rfl
      have hlast : ∀ d, (c :: u).getLast? = some d → whitespace d = false := by
        intro d hd
        refine hline.last d ?_
        rw [← hsplit, List.getLast?_append_of_ne_nil _ (List.cons_ne_nil c u)]
        exact hd
      generalize hg : u.takeWhile whitespace = g
      generalize hy : u.dropWhile whitespace = y
      have hu' : u = g ++ y := by
        rw [← hg, ← hy]
        exact List.takeWhile_append_dropWhile.symm
      have hgblank : Blank g := hg ▸ Text.blank_takeWhile u
      have hcg : Blank (c :: g) := by
        intro d hd
        rcases List.mem_cons.mp hd with rfl | hd
        · exact hc
        · exact hgblank d hd
      have hyne : y ≠ [] := by
        rintro rfl
        rw [List.append_nil] at hu'
        have hcu : c :: u ≠ [] := List.cons_ne_nil c u
        have hsolid := hlast _ (List.getLast?_eq_some_getLast hcu)
        rw [hcg _ (hu' ▸ List.getLast_mem hcu)] at hsolid
        cases hsolid
      have hytrim : Trimmed y := by
        refine ⟨fun d hd => Text.head_dropWhile (s := u) (by rw [hy]; exact hd), fun d hd => ?_⟩
        refine hlast d ?_
        rw [hu', ← List.cons_append, List.getLast?_append_of_ne_nil _ hyne]
        exact hd
      have hval : Text.trim ((c :: u).drop 1) = y := by
        rw [List.drop_succ_cons, List.drop_zero, hu', trim_blank_append hgblank hytrim]
      rw [hval]
      exact .inr ⟨hyne, c :: g, List.cons_ne_nil c g, hcg, by
        rw [hu', ← List.cons_append, List.append_assoc]⟩
  · rw [hvalue]
    exact Text.trimmed_trim _

end OpenSaab.Config
