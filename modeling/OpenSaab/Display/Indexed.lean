import OpenSaab.Display.Rows
import OpenSaab.Library.Bytes
import OpenSaab.Library.Checked

/-!
# Indices into the card

The functions of `firmware_display.rs` with each index that they do not check themselves. None of them
is outside, and what is found is what the tables say, for every card and after every order of loads.
-/

namespace OpenSaab.Display

open Bytes Checked

inductive Outside where
  | card (p : Nat)
  | table (n : Nat)
  | character (byte : UInt8)
  deriving DecidableEq, Repr

abbrev Read (α : Type) := Checked Outside α

namespace Indexed

/-! ## Loads -/

def scan (card : List UInt8) : Nat → Nat → Directory → Read Directory
  | 0, _, d => pure d
  | n + 1, k, d =>
    let p := 24 + k * 38
    if card.length < p + 38 ∨ 0x20000 ≤ p ∨ c16 card p = some 0xffff then pure d
    else do
      let name ← demand (.card p) (part card p (p + 14))
      let bank ← ofOption (c16 card (p + 14))
      let within ← ofOption (c32 card (p + 16))
      let size := (c32 card (p + 20)).getD 0xffffffff
      let offset := bankOffset bank within
      scan card n (k + 1)
        (if card.length < offset + size then d else d.add (entryName name) (offset, size))

def load (card : List UInt8) (newExtracts : Bool) : Read Tables := do
  let d ← scan card 1001 0 ⟨fun _ => none, false⟩
  let datadisp ← ofOption (d.files .datadisp)
  let _ ← ofOption (tables card datadisp datadispWidths)
  let dispconv ← ofOption (d.files .dispconv)
  let definitions ← ofOption (tables card dispconv [16, 4, 4])
  let sev ← ofOption (d.files .sev)
  let enums ← ofOption (tables card sev [10, 2, 4])
  let strhdr ← ofOption (d.files .strhdr)
  let strings ← ofOption (tables card strhdr [4, 2, 4, 2, 1])
  let (base, size) ← ofOption (d.files .strngs)
  if !d.font ∨ size < (if newExtracts then 12 else 8) then absent
  else do
    let first ← demand (.card base) card[base]?
    if first ≠ 0 then absent
    else do
      let common ← ofOption (if newExtracts then c32 card (base + 4) else c16 card (base + 4))
      let extended ← ofOption (if newExtracts then c32 card (base + 8) else c16 card (base + 6))
      if common = 0 then absent
      else pure ⟨definitions, enums, strings, base, common, extended⟩

/-- Tables that cannot be loaded leave those that were there. -/
def loadTables (s : Source) (newExtracts : Bool) : Except Outside Source :=
  (load s.card newExtracts).run.map fun loaded =>
    match loaded with
    | none => { s with valid := false }
    | some tables => ⟨s.card, tables, true⟩

/-! ## Strings -/

def character (byte : UInt8) : Read Char :=
  if 0x80 ≤ byte ∧ byte < 0xa0 then
    Char.ofNat <$> demand (.character byte) Source.cp1252[(byte - 0x80).toNat]?
  else pure (Char.ofNat byte.toNat)

variable (s : Source)

/-- What one token adds, and where the next one is. -/
def token (word : Nat → Read (List Char)) (byte : UInt8) (p : Nat) (out : List Char) :
    Read (List Char × Nat) :=
  if byte = 3 then do
    let index ← ofOption (c16 s.card (p + 1))
    let target ← word index
    pure (out ++ target, p + 3)
  else do
    let c ← character byte
    pure (out ++ [c], p + 1)

def expand (word : Nat → Read (List Char)) : Nat → Nat → List Char → Read (List Char)
  | 0, _, _ => absent
  | n + 1, p, out => do
    let byte ← ofOption s.card[p]?
    if byte = 0 ∨ byte = 0xff then pure out
    else do
      let (out, p) ← token s word byte p out
      if 2048 < (out.map Char.utf8Size).sum then absent else expand word n p out

def compressed : Nat → Nat → Read (List Char)
  | 0, _ => absent
  | depth + 1, p =>
    expand s (fun index => do
      let table ← demand (.table 2) s.tables.strings[2]?
      let offsets ← demand (.table 3) s.tables.strings[3]?
      let data ← demand (.table 4) s.tables.strings[4]?
      let target ← ofOption (s.wordAt table offsets data index)
      compressed depth target) 256 p []

def firmwareString (reference : UInt32) : Read String :=
  if !s.valid ∨ s.tables.strings.length ≠ 5 then absent
  else do
    let index ← ofOption (s.stringIndex reference)
    let starts ← demand (.table 1) s.tables.strings[1]?
    let blocks ← demand (.table 0) s.tables.strings[0]?
    if starts.rows ≤ index ∨ blocks.rows ≤ index / 250 then absent
    else do
      let offset ← ofOption (c16 s.card (starts.offset + index * 2))
      if offset = 0xffff then absent
      else do
        let block ← ofOption (c32 s.card (blocks.offset + index / 250 * 4))
        String.ofList <$> compressed s 25 (s.tables.stringBase + block + offset % 0x8000)

def stringAt (p : Nat) : Read String := do
  let reference ← ofOption (c32 s.card p)
  firmwareString s (UInt32.ofNat reference)

/-! ## Values -/

def searchEnum (values texts : Table) (fallback value : UInt32) : Nat → Nat → Read String
  | 0, _ => firmwareString s fallback
  | n + 1, k => do
    let v ← ofOption (c16 s.card (values.offset + k * 2))
    if v = value.toNat then stringAt s (texts.offset + k * 4)
    else searchEnum values texts fallback value n (k + 1)

def enumText (group : UInt16) (value : UInt32) : Read String :=
  if s.tables.enums.length ≠ 3 then absent
  else do
    let groups ← demand (.table 0) s.tables.enums[0]?
    if groups.rows ≤ group.toNat + 1 then absent
    else do
      let p := groups.offset + group.toNat * 10
      let first ← ofOption (c32 s.card p)
      let last ← ofOption (c32 s.card (p + 10))
      let fallback ← ofOption (c32 s.card (p + 4))
      let texts ← demand (.table 2) s.tables.enums[2]?
      if last < first ∨ texts.rows < last then firmwareString s (UInt32.ofNat fallback)
      else do
        let direct ← ofOption (c16 s.card (p + 8))
        if direct ≠ 0 then
          if value.toNat < last - first then stringAt s (texts.offset + (first + value.toNat) * 4)
          else firmwareString s (UInt32.ofNat fallback)
        else do
          let values ← demand (.table 1) s.tables.enums[1]?
          searchEnum s values texts (UInt32.ofNat fallback) value (min last values.rows - first)
            first

/-! ## Parameters -/

def unitText (conversions : Table) (unit : Nat) : Read String :=
  if unit < conversions.rows then do
    let reference ← ofOption (c32 s.card (conversions.offset + unit * 4))
    orElseDefault (firmwareString s (UInt32.ofNat reference)) ""
  else pure ""

def rowAt (units : UInt32) (category : UInt8) (epid : UInt32) (flags : UInt8) (p : Nat) :
    Read DataRow := do
  let kind := flags &&& 31
  let enumGroup ← ofOption (c16 s.card (p + 8))
  let plain ← ofOption (c16 s.card (p + 6))
  let conversions ← demand (.table 1) s.tables.definitions[1]?
  let unit ← unitText s conversions
    (if units ≠ 0 ∧ flags &&& 0x40 ≠ 0 then plain + 1 else plain)
  let precision ← demand (.card (p + 5)) s.card[p + 5]?
  let conversion ←
    if kind = 5 then pure (UInt16.ofNat enumGroup)
    else UInt8.toUInt16 <$> demand (.card (p + 9)) s.card[p + 9]?
  let name ← ofOption (c32 s.card (p + 10))
  let name ← orElseDefault (firmwareString s (UInt32.ofNat name)) ""
  pure
    { category, epid, kind, unit, conversion, name
      enumGroup := UInt16.ofNat enumGroup
      precision := precision >>> 4
      rawBits := 0
      valueKnown := false
      lastObserved := false
      formatSupported := true
      value := "*" }

def search (units : UInt32) (category : UInt8) (epid : UInt32) (definitions : Table) :
    Nat → Nat → Read DataRow
  | 0, _ => absent
  | n + 1, k => do
    let p := definitions.offset + k * 16
    let flags ← demand (.card (p + 4)) s.card[p + 4]?
    let id ← ofOption (c32 s.card p)
    if id ≠ epid.toNat ∨ flags &&& 0x20 ≠ (if category = 2 then 0x20 else 0) then
      search units category epid definitions n (k + 1)
    else rowAt s units category epid flags p

def describe (units : UInt32) (category : UInt8) (epid : UInt32) : Read DataRow :=
  if !s.valid ∨ s.tables.definitions.length ≠ 3 then absent
  else do
    let definitions ← demand (.table 0) s.tables.definitions[0]?
    search s units category epid definitions definitions.rows 0

/-! ## Nothing is outside -/

theorem scan_meets (card : List UInt8) (n k : Nat) (d : Directory) :
    Meets (scan card n k d) (Display.scan card n k d) := by
  induction n generalizing k d with
  | zero => exact meets_pure d
  | succ n ih =>
    unfold scan Display.scan
    refine meets_ite (fun _ => meets_pure d) fun hinside => ?_
    have hroom : 24 + k * 38 + 14 ≤ card.length := by omega
    refine meets_bind_some (meets_demand _ (part_eq hroom)) ?_
    refine meets_bind (meets_ofOption _) fun bank _ => ?_
    exact meets_bind (meets_ofOption _) fun within _ => ih (k + 1) _

/-- The files of a directory are on the card. -/
def Held (card : List UInt8) (d : Directory) : Prop :=
  ∀ e file, d.files e = some file → file.1 + file.2 ≤ card.length

theorem scan_held {card : List UInt8} {n k : Nat} {d d' : Directory} (h : Held card d)
    (hscan : Display.scan card n k d = some d') : Held card d' := by
  induction n generalizing k d with
  | zero =>
    obtain rfl := Option.some.inj hscan
    exact h
  | succ n ih =>
    unfold Display.scan at hscan
    dsimp only at hscan
    split at hscan
    · obtain rfl := Option.some.inj hscan
      exact h
    · obtain ⟨bank, -, hscan⟩ := Option.bind_eq_some_iff.mp hscan
      obtain ⟨within, -, hscan⟩ := Option.bind_eq_some_iff.mp hscan
      refine ih ?_ hscan
      split
      · exact h
      · next hroom =>
        intro e file hfile
        unfold Directory.add at hfile
        dsimp only at hfile
        split at hfile
        · obtain rfl := Option.some.inj hfile
          exact Nat.not_lt.mp hroom
        · exact h e file hfile

theorem load_meets (card : List UInt8) (newExtracts : Bool) :
    Meets (load card newExtracts) (Display.load card newExtracts) := by
  unfold load Display.load
  refine meets_bind (scan_meets _ _ _ _) fun d hscan => ?_
  have hheld : Held card d := scan_held (fun _ _ h => by cases h) hscan
  refine meets_bind (meets_ofOption _) fun datadisp _ => ?_
  refine meets_bind (meets_ofOption _) fun _ _ => ?_
  refine meets_bind (meets_ofOption _) fun dispconv _ => ?_
  refine meets_bind (meets_ofOption _) fun definitions _ => ?_
  refine meets_bind (meets_ofOption _) fun sev _ => ?_
  refine meets_bind (meets_ofOption _) fun enums _ => ?_
  refine meets_bind (meets_ofOption _) fun strhdr _ => ?_
  refine meets_bind (meets_ofOption _) fun strings _ => ?_
  refine meets_bind (meets_ofOption _) fun file hfile => ?_
  obtain ⟨base, size⟩ := file
  have hroom := hheld _ _ hfile
  dsimp only at hroom ⊢
  by_cases hshort : (!d.font) = true ∨ size < if newExtracts then 12 else 8
  · rw [if_pos hshort, if_pos (or_assoc.mp (.inl hshort))]
    exact meets_absent
  · have hsize : 8 ≤ size := by
      have hmin := (not_or.mp hshort).2
      split at hmin <;> omega
    have hfirst := List.getElem?_eq_getElem (by omega : base < card.length)
    rw [if_neg hshort]
    refine meets_bind_some (meets_demand _ hfirst) ?_
    by_cases hzero : card[base] = 0
    · have hgood : ¬ ((!d.font) = true ∨ size < (if newExtracts then 12 else 8) ∨
          card[base]? ≠ some 0) := by
        rw [hfirst, hzero]
        simpa using hshort
      rw [if_neg (not_not_intro hzero), if_neg hgood]
      cases newExtracts <;>
      · refine meets_bind (meets_ofOption _) fun common _ => ?_
        refine meets_bind (meets_ofOption _) fun extended _ => ?_
        exact meets_ite (fun _ => meets_absent) fun _ => meets_pure _
    · have hbad : (!d.font) = true ∨ size < (if newExtracts then 12 else 8) ∨
          card[base]? ≠ some 0 := by
        rw [hfirst]
        exact .inr (.inr fun hsame => hzero (Option.some.inj hsame))
      rw [if_pos hzero, if_pos hbad]
      exact meets_absent

/-! ## Strings -/

theorem character_meets (byte : UInt8) : Meets (character byte) (some (Source.character byte)) := by
  unfold character Source.character
  split
  · next hhigh =>
    have hindex : (byte - 0x80).toNat < Source.cp1252.length := by
      have hsub : (byte - 0x80).toNat = byte.toNat - 128 := UInt8.toNat_sub_of_le _ _ hhigh.1
      have hlt : byte.toNat < 160 := UInt8.lt_iff_toNat_lt.mp hhigh.2
      rw [hsub]
      change _ < 32
      omega
    have hitem := List.getElem?_eq_getElem hindex
    rw [hitem, List.getD_eq_getElem?_getD, hitem]
    rfl
  · exact meets_pure _

section Strings

variable {s : Source}

/-- What one token adds on the card, and where the next one is. -/
def added (s : Source) (text : Nat → Option (List Char)) (byte : UInt8) (p : Nat)
    (out : List Char) : Option (List Char × Nat) :=
  if byte = 3 then do
    let target ← text (← c16 s.card (p + 1))
    pure (out ++ target, p + 3)
  else pure (out ++ [Source.character byte], p + 1)

theorem expand_succ (text : Nat → Option (List Char)) (n p : Nat) (out : List Char) :
    s.expand text (n + 1) p out =
      s.card[p]?.bind fun byte =>
        if byte = 0 ∨ byte = 0xff then some out
        else
          (added s text byte p out).bind fun next =>
            if 2048 < (next.1.map Char.utf8Size).sum then none
            else s.expand text n next.2 next.1 := by
  conv_lhs => unfold Source.expand
  refine congrArg (s.card[p]?.bind) (funext fun byte => ?_)
  by_cases hend : byte = 0 ∨ byte = 0xff
  · rw [if_pos hend, if_pos hend]
  · rw [if_neg hend, if_neg hend]
    unfold added
    by_cases hword : byte = 3
    · rw [if_pos hword, if_pos hword]
      simp only [Option.bind_eq_bind, Option.bind_assoc, Option.pure_def, Option.bind_some]
    · rw [if_neg hword, if_neg hword]
      rfl

theorem token_meets {word : Nat → Read (List Char)} {text : Nat → Option (List Char)}
    (hword : ∀ index, Meets (word index) (text index)) (byte : UInt8) (p : Nat) (out : List Char) :
    Meets (token s word byte p out) (added s text byte p out) := by
  unfold token added
  refine meets_ite (fun _ => ?_) fun _ => ?_
  · refine meets_bind (meets_ofOption _) fun index _ => ?_
    exact meets_bind (hword index) fun target _ => meets_pure _
  · exact meets_bind_some (character_meets byte) (meets_pure _)

theorem expand_meets {word : Nat → Read (List Char)} {text : Nat → Option (List Char)}
    (hword : ∀ index, Meets (word index) (text index)) (n p : Nat) (out : List Char) :
    Meets (expand s word n p out) (s.expand text n p out) := by
  induction n generalizing p out with
  | zero => exact meets_absent
  | succ n ih =>
    rw [expand_succ]
    unfold expand
    refine meets_bind (meets_ofOption _) fun byte _ => ?_
    refine meets_ite (fun _ => meets_pure out) fun _ => ?_
    refine meets_bind (token_meets hword byte p out) fun next _ => ?_
    exact meets_ite (fun _ => meets_absent) fun _ => ih _ _

theorem compressed_meets {blocks starts table offsets data : Table}
    (h : s.tables.strings = [blocks, starts, table, offsets, data]) (depth p : Nat) :
    Meets (compressed s depth p) (s.compressed table offsets data depth p) := by
  induction depth generalizing p with
  | zero => exact meets_absent
  | succ depth ih =>
    unfold compressed Source.compressed
    refine expand_meets (fun index => ?_) 256 p []
    refine meets_bind_some (meets_demand _ (by rw [h]; rfl)) ?_
    refine meets_bind_some (meets_demand _ (by rw [h]; rfl)) ?_
    refine meets_bind_some (meets_demand _ (by rw [h]; rfl)) ?_
    exact meets_bind (meets_ofOption _) fun target _ => ih target

theorem firmwareString_meets (s : Source) (reference : UInt32) :
    Meets (firmwareString s reference) (s.firmwareString reference) := by
  unfold firmwareString
  by_cases hbad : (!s.valid) = true ∨ s.tables.strings.length ≠ 5
  · have hnone : s.firmwareString reference = none := by
      unfold Source.firmwareString
      split
      · next h =>
        rw [h] at hbad
        rw [if_pos (hbad.resolve_right fun hlength => hlength rfl)]
      · rfl
    rw [if_pos hbad, hnone]
    exact meets_absent
  · obtain ⟨hvalid, hlength⟩ := not_or.mp hbad
    obtain ⟨blocks, rest, h⟩ := List.exists_cons_of_length_eq_add_one (not_not.mp hlength)
    rw [h] at hlength
    obtain ⟨starts, table, offsets, data, rfl⟩ :=
      List.length_eq_four.mp (Nat.succ.inj (not_not.mp hlength))
    unfold Source.firmwareString
    rw [if_neg hbad]
    simp only [h]
    rw [if_neg hvalid]
    refine meets_bind (meets_ofOption _) fun index _ => ?_
    refine meets_bind_some (meets_demand _ rfl) ?_
    refine meets_bind_some (meets_demand _ rfl) ?_
    refine meets_ite (fun _ => meets_absent) fun _ => ?_
    refine meets_bind (meets_ofOption _) fun offset _ => ?_
    refine meets_ite (fun _ => meets_absent) fun _ => ?_
    refine meets_bind (meets_ofOption _) fun block _ => ?_
    exact meets_map (compressed_meets h 25 _)

theorem stringAt_meets (s : Source) (p : Nat) : Meets (stringAt s p) (s.stringAt p) := by
  refine meets_bind (meets_ofOption _) fun reference _ => ?_
  exact firmwareString_meets s _

theorem searchEnum_meets (s : Source) (values texts : Table) (fallback value : UInt32) (n k : Nat) :
    Meets (searchEnum s values texts fallback value n k)
      (s.searchEnum values texts fallback value n k) := by
  induction n generalizing k with
  | zero => exact firmwareString_meets s fallback
  | succ n ih =>
    unfold searchEnum Source.searchEnum
    refine meets_bind (meets_ofOption _) fun v _ => ?_
    exact meets_ite (fun _ => stringAt_meets s _) fun _ => ih (k + 1)

theorem enumText_meets (s : Source) (group : UInt16) (value : UInt32) :
    Meets (enumText s group value) (s.enumText group value) := by
  unfold enumText
  by_cases hlength : s.tables.enums.length = 3
  · obtain ⟨groups, values, texts, h⟩ := List.length_eq_three.mp hlength
    unfold Source.enumText
    rw [if_neg (not_not_intro hlength)]
    simp only [h]
    refine meets_bind_some (meets_demand _ rfl) ?_
    refine meets_ite (fun _ => meets_absent) fun _ => ?_
    refine meets_bind (meets_ofOption _) fun first _ => ?_
    refine meets_bind (meets_ofOption _) fun last _ => ?_
    refine meets_bind (meets_ofOption _) fun fallback _ => ?_
    refine meets_bind_some (meets_demand _ rfl) ?_
    refine meets_ite (fun _ => firmwareString_meets s _) fun _ => ?_
    refine meets_bind (meets_ofOption _) fun direct _ => ?_
    refine meets_ite (fun _ => ?_) fun _ => ?_
    · exact meets_ite (fun _ => stringAt_meets s _) fun _ => firmwareString_meets s _
    · exact meets_bind_some (meets_demand _ rfl) (searchEnum_meets s _ _ _ _ _ _)
  · have hnone : s.enumText group value = none := by
      unfold Source.enumText
      split
      · next h => exact absurd (congrArg List.length h) hlength
      · rfl
    rw [if_pos hlength, hnone]
    exact meets_absent

/-! ## Parameters -/

theorem unitText_meets (s : Source) (conversions : Table) (unit : Nat) :
    Meets (unitText s conversions unit) (s.unitText conversions unit) := by
  unfold unitText Source.unitText
  refine meets_ite (fun _ => ?_) fun _ => meets_pure ""
  rw [Option.map_eq_bind]
  refine meets_bind (meets_ofOption _) fun reference _ => ?_
  exact meets_orElseDefault (firmwareString_meets s _) ""

/-- A row is on the card. -/
theorem rowAt_meets {definitions conversions rest : Table} {p : Nat}
    (h : s.tables.definitions = [definitions, conversions, rest]) (hp : p + 16 ≤ s.card.length)
    (units : UInt32) (category : UInt8) (epid : UInt32) (flags : UInt8) :
    Meets (rowAt s units category epid flags p)
      (s.rowAt units category epid flags conversions p) := by
  have hprecision := List.getElem?_eq_getElem (by omega : p + 5 < s.card.length)
  have hconversion := List.getElem?_eq_getElem (by omega : p + 9 < s.card.length)
  have hname : c32 s.card (p + 10) = some _ := if_pos (by omega : p + 10 + 4 ≤ s.card.length)
  unfold rowAt Source.rowAt
  refine meets_bind (meets_ofOption _) fun enumGroup _ => ?_
  refine meets_bind (meets_ofOption _) fun plain _ => ?_
  refine meets_bind_some (meets_demand _ (by rw [h]; rfl)) ?_
  refine meets_bind (unitText_meets s conversions _) fun unit _ => ?_
  refine meets_bind_some (meets_demand _ hprecision) ?_
  rw [hprecision, hconversion, hname]
  by_cases hkind : flags &&& 31 = 5
  · rw [if_pos hkind]
    refine meets_bind_some (meets_pure _) ?_
    refine meets_bind_some (meets_ofOption _) ?_
    refine meets_bind_some (meets_orElseDefault (firmwareString_meets s _) "") ?_
    simp only [if_pos hkind]
    exact meets_pure _
  · have hread : Meets (UInt8.toUInt16 <$> demand (Outside.card (p + 9)) (some s.card[p + 9]))
        (some s.card[p + 9].toUInt16) := meets_map (meets_demand _ rfl)
    rw [if_neg hkind]
    refine meets_bind_some hread ?_
    refine meets_bind_some (meets_ofOption _) ?_
    refine meets_bind_some (meets_orElseDefault (firmwareString_meets s _) "") ?_
    simp only [if_neg hkind]
    exact meets_pure _

theorem search_meets {definitions conversions rest : Table}
    (h : s.tables.definitions = [definitions, conversions, rest]) (units : UInt32)
    (category : UInt8) (epid : UInt32) (n k : Nat)
    (hroom : definitions.offset + (k + n) * 16 ≤ s.card.length) :
    Meets (search s units category epid definitions n k)
      (s.search units category epid definitions conversions n k) := by
  induction n generalizing k with
  | zero => exact meets_absent
  | succ n ih =>
    have hrow : definitions.offset + k * 16 + 16 ≤ s.card.length := by omega
    have hflags := List.getElem?_eq_getElem
      (by omega : definitions.offset + k * 16 + 4 < s.card.length)
    unfold search Source.search
    dsimp only
    rw [hflags]
    refine meets_bind_some (meets_demand _ rfl) ?_
    refine meets_bind (meets_ofOption _) fun id _ => ?_
    refine meets_ite (fun _ => ih (k + 1) (by omega)) fun _ => ?_
    exact rowAt_meets h hrow units category epid _

/-- The definitions are on the card. -/
def Sound (s : Source) : Prop :=
  ∀ t ∈ s.tables.definitions.head?, t.offset + t.rows * 16 ≤ s.card.length

theorem describe_meets (hs : Sound s) (units : UInt32) (category : UInt8) (epid : UInt32) :
    Meets (describe s units category epid) (s.describe units category epid) := by
  unfold describe
  by_cases hbad : (!s.valid) = true ∨ s.tables.definitions.length ≠ 3
  · have hnone : s.describe units category epid = none := by
      unfold Source.describe
      split
      · next h =>
        rw [h] at hbad
        have hvalid := hbad.resolve_right fun hlength => hlength rfl
        rw [if_neg (by simpa using hvalid)]
      · rfl
    rw [if_pos hbad, hnone]
    exact meets_absent
  · obtain ⟨hvalid, hlength⟩ := not_or.mp hbad
    obtain ⟨definitions, conversions, rest, h⟩ := List.length_eq_three.mp (not_not.mp hlength)
    have hroom : definitions.offset + definitions.rows * 16 ≤ s.card.length := by
      apply hs
      rw [h]
      rfl
    unfold Source.describe
    rw [if_neg hbad]
    simp only [h]
    rw [if_pos (by simpa using hvalid)]
    refine meets_bind_some (meets_demand _ rfl) ?_
    exact search_meets h units category epid _ 0 (by omega)

/-! ## Every order of loads -/

theorem tables_first {card : List UInt8} {file : Nat × Nat} {w : Nat} {widths : List Nat}
    {ts : List Table} (h : tables card file (w :: widths) = some ts) :
    ∀ t ∈ ts.head?, t.offset + t.rows * w ≤ card.length := by
  obtain ⟨base, size⟩ := file
  unfold tables at h
  dsimp only at h
  split at h
  · cases h
  · next hroom =>
    obtain ⟨n, -, h⟩ := Option.bind_eq_some_iff.mp h
    split at h
    · cases h
    · rw [List.zipIdx_cons, List.mapM_cons] at h
      obtain ⟨first, hfirst, h⟩ := Option.bind_eq_some_iff.mp h
      obtain ⟨rest, -, h⟩ := Option.bind_eq_some_iff.mp h
      obtain rfl := Option.some.inj h
      rintro t ⟨⟩
      obtain ⟨at', -, hfirst⟩ := Option.bind_eq_some_iff.mp hfirst
      obtain ⟨rows, -, hfirst⟩ := Option.bind_eq_some_iff.mp hfirst
      obtain ⟨width, -, hfirst⟩ := Option.bind_eq_some_iff.mp hfirst
      split at hfirst
      · cases hfirst
      · obtain rfl := Option.some.inj hfirst
        dsimp only at *
        omega

theorem load_first {card : List UInt8} {newExtracts : Bool} {tables : Tables}
    (h : Display.load card newExtracts = some tables) :
    ∀ t ∈ tables.definitions.head?, t.offset + t.rows * 16 ≤ card.length := by
  unfold Display.load at h
  obtain ⟨d, -, h⟩ := Option.bind_eq_some_iff.mp h
  obtain ⟨datadisp, -, h⟩ := Option.bind_eq_some_iff.mp h
  obtain ⟨_, -, h⟩ := Option.bind_eq_some_iff.mp h
  obtain ⟨dispconv, -, h⟩ := Option.bind_eq_some_iff.mp h
  obtain ⟨definitions, hdefinitions, h⟩ := Option.bind_eq_some_iff.mp h
  obtain ⟨sev, -, h⟩ := Option.bind_eq_some_iff.mp h
  obtain ⟨enums, -, h⟩ := Option.bind_eq_some_iff.mp h
  obtain ⟨strhdr, -, h⟩ := Option.bind_eq_some_iff.mp h
  obtain ⟨strings, -, h⟩ := Option.bind_eq_some_iff.mp h
  obtain ⟨⟨base, size⟩, -, h⟩ := Option.bind_eq_some_iff.mp h
  have hsame : tables.definitions = definitions := by
    cases newExtracts <;>
    · simp only [Bool.false_eq_true, if_true, if_false] at h
      split at h
      · cases h
      · obtain ⟨common, -, h⟩ := Option.bind_eq_some_iff.mp h
        obtain ⟨extended, -, h⟩ := Option.bind_eq_some_iff.mp h
        split at h
        · cases h
        · obtain rfl := Option.some.inj h
          rfl
  rw [hsame]
  exact tables_first hdefinitions

theorem loadTables_sound (hs : Sound s) (newExtracts : Bool) :
    ∃ s', loadTables s newExtracts = .ok s' ∧ Sound s' := by
  unfold loadTables
  rw [load_meets]
  cases hload : Display.load s.card newExtracts with
  | none => exact ⟨_, rfl, hs⟩
  | some tables => exact ⟨_, rfl, load_first hload⟩

theorem loads_sound (hs : Sound s) (loads : List Bool) :
    ∃ s', loads.foldlM loadTables s = .ok s' ∧ Sound s' := by
  induction loads generalizing s with
  | nil => exact ⟨s, rfl, hs⟩
  | cons newExtracts loads ih =>
    obtain ⟨s₁, hload, hs₁⟩ := loadTables_sound hs newExtracts
    obtain ⟨s', hrest, hs'⟩ := ih hs₁
    refine ⟨s', ?_, hs'⟩
    rw [List.foldlM_cons, hload]
    exact hrest

/-- After every order of loads, whatever the card: no index is outside, of the card or of the tables
that a function relies on, and what is found is what the tables say. -/
theorem parsing_stays_inside (card : List UInt8) (loads : List Bool) :
    ∃ s, loads.foldlM loadTables ⟨card, .empty, false⟩ = .ok s ∧
      (∀ units category epid,
        (describe s units category epid).run = .ok (s.describe units category epid)) ∧
      (∀ reference, (firmwareString s reference).run = .ok (s.firmwareString reference)) ∧
      (∀ group value, (enumText s group value).run = .ok (s.enumText group value)) := by
  have hempty : Sound ⟨card, .empty, false⟩ := by rintro t ⟨⟩
  obtain ⟨s, hs, hsound⟩ := loads_sound hempty loads
  exact ⟨s, hs, describe_meets hsound, firmwareString_meets s, enumText_meets s⟩

end Strings

end Indexed

end OpenSaab.Display
