import Mathlib.Data.Nat.Digits.Defs
import OpenSaab.Text

/-!
# Records of a trace

`trace.rs`, `artifacts.rs`: an event is written as one line of JSON. One that is too long is replaced
by a line that says so.
-/

namespace OpenSaab.Tracing

/-! ## Texts -/

def utf8 (s : List Char) : List UInt8 := s.flatMap String.utf8EncodeChar

/-- A text that can be held in memory. -/
structure Str where
  chars : List Char
  small : (utf8 chars).length < 2 ^ 64

def decimal (n : Nat) : List Char := Nat.toDigits 10 n

/-- The digits of a number in base sixteen, with zeros in front. -/
def hexPadded (width n : Nat) : List Char :=
  (List.range width).reverse.map fun i => Text.hexDigit false (n / 16 ^ i % 16)

def escaped (c : Char) : List Char :=
  if c = '"' then ['\\', '"']
  else if c = '\\' then ['\\', '\\']
  else if c < ' ' then ['\\', 'u'] ++ hexPadded 4 c.toNat
  else [c]

def jsonString (s : List Char) : List Char := ['"'] ++ s.flatMap escaped ++ ['"']

/-! ## Events -/

structure Event where
  insns : UInt64
  pc : UInt32
  kind : Str
  detail : Str

def contains (s part : List Char) : Bool := s.tails.any fun t => part.isPrefixOf t

def linkDetails : List String :=
  ["CAN register write ", "CAN transceiver GPIO write ", "UART write ", "UART receive read ",
    "Tech2->CANdi bytes=", "CANdi->Tech2 events="]

def lowLevelDetail (kind detail : List Char) : Bool :=
  match String.ofList kind with
  | "guest_os_call" | "guest_dispatch_entry" | "guest_message_arg2"
  | "guest_communication_boundary" | "guest_communication_path" | "guest_timer_suspend" => true
  | "cs6_write" => contains detail "backend=raw-register-write".toList
  | "candi_uart_timer" => "host_service=".toList.isPrefixOf detail
  | "candi_native_link" => linkDetails.any fun start => start.toList.isPrefixOf detail
  | _ => false

/-- An event with its number and the keys that have been pressed before it. -/
structure Entry where
  seq : UInt64
  navigation : UInt64
  event : Event

namespace Entry

def head (e : Entry) : List Char :=
  "\x7b\"seq\":".toList ++ decimal e.seq.toNat ++ ",\"insns\":".toList ++
    decimal e.event.insns.toNat ++ ",\"pc\":\"0x".toList ++ hexPadded 8 e.event.pc.toNat ++
    "\",\"navigation\":".toList ++ decimal e.navigation.toNat ++ ",\"kind\":".toList

def full (e : Entry) : List Char :=
  e.head ++ jsonString e.event.kind.chars ++ ",\"detail\":".toList ++
    jsonString e.event.detail.chars ++ ['\x7d', '\n']

def omission (e : Entry) (limit : Nat) : List Char :=
  e.head ++ "\"trace_record_omitted\",\"detail\":\"record exceeded ".toList ++ decimal limit ++
    " bytes; original encoded length=".toList ++ decimal (utf8 e.full).length ++ ['"', '\x7d', '\n']

end Entry

def maxRecordBytes : Nat := 64 * 1024

def recordLimit (segmentLimit : Nat) : Nat := min maxRecordBytes segmentLimit

/-- What is written of an entry. -/
def Entry.record (segmentLimit : Nat) (e : Entry) : List Char :=
  if recordLimit segmentLimit < (utf8 e.full).length then e.omission (recordLimit segmentLimit)
  else e.full

@[irreducible] def Entry.bytes (segmentLimit : Nat) (e : Entry) : List UInt8 := utf8 (e.record segmentLimit)

/-! ## Lengths -/

theorem utf8_append (s t : List Char) : utf8 (s ++ t) = utf8 s ++ utf8 t := List.flatMap_append

/-- The text is written with one byte for each character. -/
def Ascii (s : List Char) : Prop := ∀ c ∈ s, c.val.toNat < 128

theorem Ascii.append {s t : List Char} (hs : Ascii s) (ht : Ascii t) : Ascii (s ++ t) := by
  intro c hc
  rcases List.mem_append.mp hc with hc | hc
  · exact hs c hc
  · exact ht c hc

theorem utf8_ascii {s : List Char} (h : Ascii s) : (utf8 s).length = s.length := by
  induction s with
  | nil => rfl
  | cons c s ih =>
    obtain ⟨hc, hs⟩ := List.forall_mem_cons.mp h
    have hone : (String.utf8EncodeChar c).length = 1 := by
      unfold String.utf8EncodeChar
      dsimp only
      rw [if_pos (by omega)]
      rfl
    unfold utf8 at ih ⊢
    rw [List.flatMap_cons, List.length_append, hone, ih hs, List.length_cons, Nat.add_comm]

theorem utf8_pos (c : Char) : 0 < (String.utf8EncodeChar c).length := by
  unfold String.utf8EncodeChar
  dsimp only
  split
  · exact Nat.one_pos
  · split
    · exact Nat.two_pos
    · split <;> exact Nat.succ_pos _

/-- No control characters. -/
def Printed (s : List Char) : Prop := ∀ c ∈ s, 32 ≤ c.val.toNat

theorem Printed.append {s t : List Char} (hs : Printed s) (ht : Printed t) : Printed (s ++ t) := by
  intro c hc
  rcases List.mem_append.mp hc with hc | hc
  · exact hs c hc
  · exact ht c hc

theorem decimal_range (n : Nat) : ∀ c ∈ decimal n, 32 ≤ c.val.toNat ∧ c.val.toNat < 128 := by
  intro c hc
  have hdigit : c.isDigit = true := Nat.isDigit_of_mem_toDigits (by omega) (by omega) hc
  obtain ⟨hlow, hhigh⟩ := Bool.and_eq_true_iff.mp hdigit
  have hlow : 48 ≤ c.val.toNat := UInt32.le_iff_toNat_le.mp (of_decide_eq_true hlow)
  have hhigh : c.val.toNat ≤ 57 := UInt32.le_iff_toNat_le.mp (of_decide_eq_true hhigh)
  omega

theorem hexPadded_range (width n : Nat) :
    ∀ c ∈ hexPadded width n, 32 ≤ c.val.toNat ∧ c.val.toNat < 128 := by
  intro c hc
  obtain ⟨i, -, rfl⟩ := List.mem_map.mp hc
  have hall : ∀ m : Fin 16, 32 ≤ (Text.hexDigit false m).val.toNat ∧
      (Text.hexDigit false m).val.toNat < 128 := by decide
  exact hall ⟨n / 16 ^ i % 16, Nat.mod_lt _ (by omega)⟩

theorem ascii_decimal (n : Nat) : Ascii (decimal n) := fun c hc => (decimal_range n c hc).2

theorem ascii_hexPadded (width n : Nat) : Ascii (hexPadded width n) :=
  fun c hc => (hexPadded_range width n c hc).2

theorem printed_decimal (n : Nat) : Printed (decimal n) := fun c hc => (decimal_range n c hc).1

theorem printed_hexPadded (width n : Nat) : Printed (hexPadded width n) :=
  fun c hc => (hexPadded_range width n c hc).1

theorem length_decimal {n width : Nat} (hwidth : 0 < width) (h : n < 10 ^ width) :
    (decimal n).length ≤ width := Nat.toDigits_length 10 n width hwidth h

theorem length_word (n : UInt64) : (decimal n.toNat).length ≤ 20 := by
  have hn := n.toNat_lt
  exact length_decimal (by omega) (by omega)

theorem length_hexPadded (width n : Nat) : (hexPadded width n).length = width := by
  unfold hexPadded
  rw [List.length_map, List.length_reverse, List.length_range]

theorem ascii_literal {s : List Char} (h : s.all (fun c => c.val.toNat < 128) = true) : Ascii s :=
  Text.forall_of_all h

theorem printed_literal {s : List Char} (h : s.all (fun c => 32 ≤ c.val.toNat) = true) : Printed s :=
  Text.forall_of_all h

theorem printed_escaped (d : Char) : Printed (escaped d) := by
  unfold escaped
  split
  · exact printed_literal (by decide)
  · split
    · exact printed_literal (by decide)
    · split
      · exact (printed_literal (by decide)).append (printed_hexPadded 4 _)
      · next hlow =>
        intro c hc
        obtain rfl := List.mem_singleton.mp hc
        exact Nat.le_of_not_lt fun hlt => hlow (UInt32.lt_iff_toNat_lt.mpr hlt)

theorem printed_jsonString (s : List Char) : Printed (jsonString s) := by
  have hbody : Printed (s.flatMap escaped) := by
    intro c hc
    obtain ⟨d, -, hc⟩ := List.mem_flatMap.mp hc
    exact printed_escaped d c hc
  exact ((printed_literal (by decide)).append hbody).append (printed_literal (by decide))

namespace Entry

variable (e : Entry)

theorem ascii_head : Ascii e.head := by
  unfold head
  refine ((((((((?_ : Ascii _).append (ascii_decimal _)).append ?_).append
    (ascii_decimal _)).append ?_).append (ascii_hexPadded _ _)).append ?_).append
    (ascii_decimal _)).append ?_ <;> exact ascii_literal (by decide)

theorem printed_head : Printed e.head := by
  unfold head
  refine ((((((((?_ : Printed _).append (printed_decimal _)).append ?_).append
    (printed_decimal _)).append ?_).append (printed_hexPadded _ _)).append ?_).append
    (printed_decimal _)).append ?_ <;> exact printed_literal (by decide)

/-- Each record is one line, with the number of its entry in front. -/
theorem record_line (segmentLimit : Nat) :
    ∃ rest, e.record segmentLimit = e.head ++ rest ++ ['\n'] ∧ Printed (e.head ++ rest) := by
  unfold record
  split
  · refine ⟨"\"trace_record_omitted\",\"detail\":\"record exceeded ".toList ++
      decimal (recordLimit segmentLimit) ++ " bytes; original encoded length=".toList ++
      decimal (utf8 e.full).length ++ ['"', '\x7d'], ?_, ?_⟩
    · unfold omission
      simp only [List.append_assoc]
      rfl
    · refine (printed_head e).append (((((?_ : Printed _).append (printed_decimal _)).append
        ?_).append (printed_decimal _)).append ?_) <;> exact printed_literal (by decide)
  · refine ⟨jsonString e.event.kind.chars ++ ",\"detail\":".toList ++
      jsonString e.event.detail.chars ++ ['\x7d'], ?_, ?_⟩
    · unfold full
      simp only [List.append_assoc]
      rfl
    · refine (printed_head e).append ((((printed_jsonString _).append ?_).append
        (printed_jsonString _)).append ?_) <;> exact printed_literal (by decide)

theorem length_head : e.head.length ≤ 130 := by
  have hseq := length_word e.seq
  have hinsns := length_word e.event.insns
  have hnavigation := length_word e.navigation
  unfold head
  simp only [List.length_append, length_hexPadded]
  have hfixed : "\x7b\"seq\":".toList.length + ",\"insns\":".toList.length +
      ",\"pc\":\"0x".toList.length + "\",\"navigation\":".toList.length +
      ",\"kind\":".toList.length = 48 := by decide
  omega

theorem length_escaped (c : Char) :
    (utf8 (escaped c)).length ≤ 6 * (String.utf8EncodeChar c).length := by
  have hpos := utf8_pos c
  unfold escaped
  split
  · have htwo : (utf8 ['\\', '"']).length = 2 := by decide
    omega
  · split
    · have htwo : (utf8 ['\\', '\\']).length = 2 := by decide
      omega
    · split
      · have hascii : Ascii (['\\', 'u'] ++ hexPadded 4 c.toNat) :=
          (ascii_literal (by decide)).append (ascii_hexPadded 4 _)
        rw [utf8_ascii hascii, List.length_append, length_hexPadded]
        simp only [List.length_cons, List.length_nil]
        omega
      · have hone : (utf8 [c]).length = (String.utf8EncodeChar c).length := by
          unfold utf8
          rw [List.flatMap_singleton]
        omega

theorem length_jsonString (s : List Char) : (utf8 (jsonString s)).length ≤ 6 * (utf8 s).length + 2 := by
  have hquote : (utf8 ['"']).length = 1 := by decide
  have hbody : (utf8 (s.flatMap escaped)).length ≤ 6 * (utf8 s).length := by
    induction s with
    | nil => exact Nat.le_refl 0
    | cons c s ih =>
      have hfirst := length_escaped c
      have hcons : utf8 (c :: s) = String.utf8EncodeChar c ++ utf8 s := rfl
      rw [List.flatMap_cons, utf8_append, List.length_append, hcons, List.length_append]
      omega
  unfold jsonString
  rw [utf8_append, utf8_append, List.length_append, List.length_append]
  omega

theorem length_full : (utf8 e.full).length < 10 ^ 22 := by
  have hhead := e.length_head
  have hkind := length_jsonString e.event.kind.chars
  have hdetail := length_jsonString e.event.detail.chars
  have hkind' := e.event.kind.small
  have hdetail' := e.event.detail.small
  have hname : (utf8 ",\"detail\":".toList).length = 10 := by decide
  have hend : (utf8 ['\x7d', '\n']).length = 2 := by decide
  unfold full
  simp only [utf8_append, List.length_append]
  rw [utf8_ascii e.ascii_head, hname, hend]
  omega

theorem length_omission {limit : Nat} (h : limit ≤ maxRecordBytes) :
    (utf8 (e.omission limit)).length ≤ 512 := by
  have hascii : Ascii (e.omission limit) := by
    unfold omission
    refine (((((ascii_head e).append ?_).append (ascii_decimal _)).append ?_).append
      (ascii_decimal _)).append ?_ <;> exact ascii_literal (by decide)
  have hhead := e.length_head
  have hlimit : (decimal limit).length ≤ 5 := by
    refine length_decimal (by omega) ?_
    unfold maxRecordBytes at h
    omega
  have hfull : (decimal (utf8 e.full).length).length ≤ 22 := length_decimal (by omega) e.length_full
  rw [utf8_ascii hascii]
  unfold omission
  simp only [List.length_append]
  have hfixed : "\"trace_record_omitted\",\"detail\":\"record exceeded ".toList.length +
      " bytes; original encoded length=".toList.length + ['"', '\x7d', '\n'].length ≤ 90 := by decide
  omega

/-- What is written of an entry fits. -/
theorem length_bytes {segmentLimit : Nat} (h : 512 ≤ segmentLimit) :
    (e.bytes segmentLimit).length ≤ recordLimit segmentLimit := by
  have hlimit : 512 ≤ recordLimit segmentLimit := le_min (by decide) h
  unfold bytes record
  split
  · exact (e.length_omission (Nat.min_le_left _ _)).trans hlimit
  · next hfits => exact Nat.le_of_not_lt hfits

end Entry

end OpenSaab.Tracing
