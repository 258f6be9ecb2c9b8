import Mathlib.Data.List.Infix
import OpenSaab.Library.Bytes
import OpenSaab.Library.Words
import OpenSaab.Text

/-!
# Records of the device

`wire.rs`: the requests that are sent to the device, as an opcode and a body of little-endian words,
flags and counted bytes.
-/

namespace OpenSaab.OpenMdi

def maxRecord : Nat := 65536

/-- `u32::to_le_bytes`. -/
def word (n : UInt32) : List UInt8 := Words.little 4 n.toNat

/-- `u32::from_le_bytes`. -/
def ofWord (bytes : List UInt8) : UInt32 := UInt32.ofNat (Words.ofLittle bytes)

def words (values : List UInt32) : List UInt8 := values.flatMap word

def blob (value : List UInt8) : List UInt8 := words [UInt32.ofNat value.length] ++ value

structure Record where
  opcode : UInt32
  body : List UInt8
  deriving DecidableEq, Repr

def Record.encoded (r : Record) : Except String (List UInt8) :=
  if maxRecord - 8 < r.body.length then .error "MDI record size limit"
  else .ok (words [UInt32.ofNat (r.body.length + 8), r.opcode] ++ r.body)

/-- The status of a reply has to be 0; what follows it is the tail. -/
def Record.reply (r : Record) (expected : UInt32) : Except String (List UInt8) :=
  if r.opcode ≠ expected ∨ r.body.length < 4 then .error "Unexpected MDI reply"
  else
    let status := ofWord (r.body.take 4)
    if status ≠ 0 then .error ("MDI RPC status " ++ Text.hexWord status)
    else .ok (r.body.drop 4)

/-! ## Sessions -/

def register (sessionToken : UInt32) : Record := ⟨0x884, words [1, sessionToken, 5000]⟩

def registrationReply (record : Record) (expectedToken : Option UInt32) : Except String UInt32 := do
  let tail ← record.reply 0x885
  if tail.length ≠ 12 then .error "Registration reply length"
  else
    let token := ofWord (tail.drop 8)
    if ofWord (tail.take 4) ≠ 1 ∨ ofWord ((tail.drop 4).take 4) ≠ 0 ∨ token = 0 ∨
        expectedToken.any (· ≠ token) then
      .error "Registration module/token mismatch"
    else .ok token

def heartbeat : Record := ⟨0x888, []⟩

def heartbeatReply (record : Record) : Except String Unit := do
  let tail ← record.reply 0x889
  if tail.isEmpty then .ok () else .error "Heartbeat reply has unexpected tail"

def releaseSession (token : UInt32) : Record := ⟨0x886, words [1, token]⟩

def sessionReleased (record : Record) : Except String Unit := do
  let tail ← record.reply 0x887
  if tail = word 1 then .ok () else .error "Session release tail differs"

/-- The next link and the next primitive of a session. -/
structure Tags where
  nextLink : UInt32
  nextPrimitive : UInt32
  deriving DecidableEq, Repr

def Tags.forSession (token : UInt32) : Tags :=
  let seed := (token &&& 0xfff) <<< 4
  ⟨0x02000000 ||| seed ||| 1, 0x02100000 ||| seed ||| 1⟩

def Tags.link (t : Tags) : UInt32 × Tags := (t.nextLink, { t with nextLink := t.nextLink + 1 })

def Tags.primitive (t : Tags) : UInt32 × Tags :=
  (t.nextPrimitive, { t with nextPrimitive := t.nextPrimitive + 1 })

/-! ## Links -/

def createHsIso15765 (link : UInt32) : Record :=
  ⟨0x44f, words [link] ++ [1] ++ words [3, 36, 2, 6, 1, 14, 2, 0xfffffffe] ++ [1] ++
    blob [0xa0, 1, 0, 0]⟩

def createSwIso15765 (link : UInt32) : Record :=
  ⟨0x44f, words [link] ++ [1] ++ words [14, 16, 1, 1, 9, 0xfffffffe] ++ [1] ++
    blob [0x80, 0, 0, 0]⟩

def createSwRaw (link : UInt32) : Record :=
  let r := createSwIso15765 link
  let body := Bytes.overwrite r.body 9 (word 6)
  { r with body := Bytes.overwrite body (body.length - 4) [0xa0, 1, 0, 0] }

def createHsRaw (link : UInt32) : Record :=
  let r := createHsIso15765 link
  { r with body := Bytes.overwrite r.body 9 (word 6) }

def linkOperation (op link : UInt32) : Except String Record :=
  if op = 0x45f ∨ op = 0x461 ∨ op = 0x451 then .ok ⟨op, words [link]⟩
  else .error "Unsupported link operation"

def setUnum32 (link id cls value : UInt32) : Record :=
  ⟨0x459, words [link, 0x105, 0x1200] ++ [1] ++ words [0x1200, id, 0x105, cls] ++ [1] ++
    words [value]⟩

structure Parameter where
  id : UInt32
  cls : UInt32
  value : UInt32
  deriving DecidableEq, Repr

def tableParameter (p : Parameter) : List UInt8 :=
  words [0x105, 0x1200, p.id, 0x105, p.cls] ++ [1] ++ words [p.value]

def tableEntry (e : UInt32 × List Parameter) : List UInt8 :=
  words [e.1, UInt32.ofNat e.2.length] ++ e.2.flatMap tableParameter

def responseTable (link : UInt32) (entries : List (UInt32 × List Parameter)) :
    Except String Record :=
  if 4096 < entries.length ∨ entries.any (fun e => 4096 < e.2.length) then
    .error "Response table size limit"
  else
    .ok ⟨0x45d, words [link, 0x1700, 0x1700, UInt32.ofNat entries.length] ++
      entries.flatMap tableEntry⟩

/-! ## Primitives -/

/-- Original bytes of a frame, and the wake pulse. -/
def rawFrame (link token id : UInt32) (data : List UInt8) (wake : Bool) : Except String Record :=
  if 0x7ff < id ∨ 8 < data.length ∨ wake ∧ (id ≠ 0x100 ∨ ¬ data.isEmpty) then
    .error "Raw CAN frame/electrical boundary"
  else
    .ok ⟨0x463, words [link, token, 0x8004] ++ blob (Words.big 4 id.toNat ++ data) ++ [1] ++
      words [0, 1, 0, if wake then 1 else 0] ++ blob [if wake then 0x20 else 0, 0, 0, 0] ++
      words [0]⟩

def primitive (link token kind : UInt32) (data flags : List UInt8) (send receive : Int32)
    (acceptance : Option UInt32) : Except String Record :=
  if ¬ (kind = 0x8001 ∨ kind = 0x8003 ∨ kind = 0x8004) ∨ 4128 < data.length ∨ 4 < flags.length ∨
      send < 0 ∨ receive < -1 then
    .error "Unsupported scoped primitive"
  else
    .ok ⟨0x463, words [link, token, kind] ++ blob data ++ [1] ++
      words [0, send.toUInt32, receive.toUInt32, 0] ++ blob flags ++
      words [if acceptance.isSome then 1 else 0] ++
      match acceptance with
      | some id => words [0, id, 0, 0]
      | none => []⟩

def cancel (link token : UInt32) : Record := ⟨0x465, words [link, token]⟩

def receiveOnId (link token id : UInt32) : Except String Record :=
  if 0x7ff < id then .error "Standard receive ID bounds"
  else
    .ok ⟨0x463, words [link, token, 0x8004] ++ blob [] ++ [1] ++ words [0, 0, 0xffffffff, 0] ++
      blob [] ++ words [1, 0, 0, 4] ++ Words.big 4 0x1fffffff ++ Words.big 4 id.toNat ++ words [0]⟩

def spaPreconditions (link token : UInt32) : Record :=
  ⟨0x463, words [link, token, 0x8004] ++ blob [0, 0, 2, 0x5b, 0x1a, 0x9a] ++ [1] ++
    words [500, 1, 0, 0] ++ blob [0, 0, 0, 0x40] ++ words [0]⟩

def spaRawPreconditions (link token : UInt32) : Record :=
  ⟨0x463, words [link, token, 0x8004] ++ blob [0, 0, 2, 0x5b, 2, 0x1a, 0x9a, 0, 0, 0, 0, 0] ++
    [1] ++ words [500, 1, 0, 0] ++ blob [0, 0, 0, 0] ++ words [0]⟩

def startCommunication (link token : UInt32) : Record :=
  ⟨0x463, words [link, token, 0x8001] ++ blob [] ++ [1] ++ words [100, 0, 0, 0] ++ blob [] ++
    words [0]⟩

/-! ## Lengths and words -/

@[simp] theorem length_word (n : UInt32) : (word n).length = 4 := Words.length_little 4 _

theorem ofWord_word (n : UInt32) : ofWord (word n) = n := by
  rw [ofWord, word, Words.ofLittle_little n.toNat_lt, UInt32.ofNat_toNat]

theorem word_ofWord {bytes : List UInt8} (h : bytes.length = 4) : word (ofWord bytes) = bytes := by
  have hlt : Words.ofLittle bytes < 2 ^ 32 := by
    have := Words.ofLittle_lt bytes
    rwa [h] at this
  rw [word, ofWord, UInt32.toNat_ofNat', Nat.mod_eq_of_lt hlt]
  exact h ▸ Words.little_ofLittle bytes

@[simp] theorem words_nil : words [] = [] := rfl

theorem words_cons (n : UInt32) (ns : List UInt32) : words (n :: ns) = word n ++ words ns :=
  List.flatMap_cons

@[simp] theorem length_words (values : List UInt32) : (words values).length = 4 * values.length := by
  induction values with
  | nil => rfl
  | cons n ns ih =>
    rw [words_cons, List.length_append, ih, length_word, List.length_cons]
    omega

theorem word_injective : Function.Injective word := fun a b h => by
  rw [← ofWord_word a, h, ofWord_word]

/-- The first word of a body is the only one that it starts with. -/
theorem word_prefix {a b : UInt32} {rest : List UInt8} (h : word a <+: word b ++ rest) : a = b := by
  have hle := List.prefix_of_prefix_length_le h (List.prefix_append _ _) (by simp)
  exact word_injective (hle.eq_of_length (by simp))

theorem words_isPrefix {a b c : UInt32} {rest : List UInt8}
    (h : words [a, b] <+: words [a, c] ++ rest) : b = c := by
  simp only [words_cons, words_nil, List.append_nil, List.append_assoc] at h
  exact word_prefix ((List.prefix_append_right_inj _).mp h)

/-- The tokens of a session are far from the largest one. -/
theorem Tags.forSession_lt (token : UInt32) :
    (Tags.forSession token).nextPrimitive.toNat < 2 ^ 26 := by
  have hand : (token &&& 0xfff).toNat < 2 ^ 12 := by
    rw [UInt32.toNat_and]
    exact Nat.and_lt_two_pow _ (by decide)
  have hfour : (4 : UInt32).toNat % 32 = 4 := rfl
  have hseed : ((token &&& 0xfff) <<< 4).toNat < 2 ^ 26 := by
    rw [UInt32.toNat_shiftLeft, Nat.shiftLeft_eq, hfour]
    exact Nat.lt_of_le_of_lt (Nat.mod_le _ _) (by omega)
  unfold Tags.forSession
  dsimp only
  rw [UInt32.toNat_or, UInt32.toNat_or]
  exact Nat.or_lt_two_pow (Nat.or_lt_two_pow (by decide) hseed) (by decide)

theorem primitive_ok {link token kind : UInt32} {data flags : List UInt8} {send receive : Int32}
    {acceptance : Option UInt32} {r : Record}
    (h : primitive link token kind data flags send receive acceptance = .ok r) :
    ∃ rest, r = ⟨0x463, words [link, token] ++ rest⟩ := by
  unfold primitive at h
  split at h
  · cases h
  · rw [← Except.ok.inj h]
    simp only [words_cons, words_nil, List.append_nil, List.append_assoc]
    exact ⟨_, rfl⟩

theorem Record.encoded_ok {r : Record} {wire : List UInt8} (h : r.encoded = .ok wire) :
    r.body.length ≤ maxRecord - 8 ∧
      wire = word (UInt32.ofNat (r.body.length + 8)) ++ (word r.opcode ++ r.body) := by
  unfold encoded at h
  split_ifs at h with hlong
  refine ⟨Nat.le_of_not_lt hlong, ?_⟩
  rw [← Except.ok.inj h, words_cons, words_cons, words_nil, List.append_nil, List.append_assoc]

end OpenSaab.OpenMdi
