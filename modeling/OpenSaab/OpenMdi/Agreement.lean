import Mathlib.Data.List.Forall2
import OpenSaab.Library.Bits
import OpenSaab.OpenMdi.Trace

/-!
# The decoder reads what is sent

Each request has one layout. The constructors of the requests write it and the decoder reads it, on
its own and in a stream.
-/

namespace OpenSaab.OpenMdi

open Bits Json Reader

/-! ## Fields -/

theorem hexDigit_lower_inj {m n : Nat} (hm : m < 16) (hn : n < 16)
    (h : Text.hexDigit false m = Text.hexDigit false n) : m = n := by
  have hall : ∀ m n : Fin 16, Text.hexDigit false m = Text.hexDigit false n → m = n := by decide
  exact Fin.mk.inj_iff.mp (hall ⟨m, hm⟩ ⟨n, hn⟩ h)

/-- The text of a payload determines the payload. -/
theorem hex_injective : Function.Injective hex := by
  intro xs ys h
  have hchars := String.ofList_injective h
  clear h
  induction xs generalizing ys with
  | nil =>
    cases ys with
    | nil => rfl
    | cons y ys => simp at hchars
  | cons x xs ih =>
    cases ys with
    | nil => simp at hchars
    | cons y ys =>
      simp only [List.flatMap_cons, List.cons_append, List.nil_append,
        List.cons.injEq] at hchars
      obtain ⟨hhigh, hlow, hrest⟩ := hchars
      rw [toNat_high, toNat_high] at hhigh
      rw [toNat_low, toNat_low] at hlow
      have hx := x.toNat_lt
      have hy := y.toNat_lt
      have hdiv := hexDigit_lower_inj (by omega) (by omega) hhigh
      have hmod := hexDigit_lower_inj (by omega) (by omega) hlow
      have hbyte : x = y := UInt8.toNat_inj.mp (by omega)
      rw [hbyte, ih hrest]

namespace Decoder

theorem reads_u32 (n : UInt32) : Reads u32 (word n) n := by
  refine (reads_take (length_word n) "truncated field").last ?_
  rw [ofWord_word]
  exact Reads.pure n

theorem reads_true : Reads boolean [1] true := by
  refine (reads_take (n := 1) rfl "truncated field").last ?_
  exact Reads.pure true

theorem reads_expect (n : UInt32) : Reads (expect n) (word n) () := by
  refine (reads_u32 n).last ?_
  rw [if_neg (by simp)]
  exact Reads.pure ()

theorem reads_present (reason : String) : Reads (present reason) [1] () :=
  reads_true.last (Reads.pure ())

theorem toNat_length {n : Nat} (h : n < 2 ^ 32) : (UInt32.ofNat n).toNat = n := by
  rw [UInt32.toNat_ofNat', Nat.mod_eq_of_lt h]

theorem reads_count {n : Nat} (h : n ≤ maxArrayItems) : Reads count (word (UInt32.ofNat n)) n := by
  have hn : (UInt32.ofNat n).toNat = n := toNat_length (by unfold maxArrayItems at h; omega)
  refine (reads_u32 _).last ?_
  rw [if_neg (by omega), hn]
  exact Reads.pure n

theorem reads_blob {bytes : List UInt8} (h : bytes.length < 2 ^ 32) :
    Reads Decoder.blob (OpenMdi.blob bytes) bytes := by
  rw [OpenMdi.blob, words_cons, words_nil, List.append_nil]
  refine (reads_u32 (UInt32.ofNat bytes.length)).bind ?_
  exact reads_take (toNat_length h).symm "truncated field"

end Decoder

/-! ## Layouts -/

open Decoder

def resourceLayout (bus protocol : UInt32) (pins : List (UInt32 × UInt32)) : List UInt8 :=
  word bus ++ (word protocol ++ (word (UInt32.ofNat pins.length) ++
    pins.flatMap fun p => word p.1 ++ word p.2))

def createLinkLayout (link bus protocol : UInt32) (pins : List (UInt32 × UInt32))
    (resourceId : UInt32) (flags : List UInt8) : List UInt8 :=
  word link ++ (([1] ++ resourceLayout bus protocol pins) ++
    (word resourceId ++ ([1] ++ OpenMdi.blob flags)))

/-- What the decoder makes of a link that is created with a resource and flags. -/
def createdLink (link bus protocol : UInt32) (pins : List (UInt32 × UInt32)) (resourceId : UInt32)
    (flags : List UInt8) : Value :=
  createLinkValue link (resourceValue bus protocol (pins.map fun p => pinValue p.1 p.2)) resourceId
    (.string (hex flags))

theorem reads_optional {field : Decoder Value} {xs : List UInt8} {v : Value}
    (h : Reads field xs v) : Reads (readOptional field) ([1] ++ xs) v :=
  reads_true.bind h

theorem reads_resource (bus protocol : UInt32) {pins : List (UInt32 × UInt32)}
    (h : pins.length ≤ maxArrayItems) :
    Reads readResource (resourceLayout bus protocol pins)
      (resourceValue bus protocol (pins.map fun p => pinValue p.1 p.2)) := by
  have hpin : ∀ p ∈ pins, Reads readPin (word p.1 ++ word p.2) (pinValue p.1 p.2) := fun p _ =>
    (reads_u32 p.1).bind ((reads_u32 p.2).last (Reads.pure _))
  refine (reads_u32 bus).bind ?_
  refine (reads_u32 protocol).bind ?_
  refine (reads_count h).bind ?_
  exact (Reads.times hpin).last (Reads.pure _)

theorem reads_hex {bytes : List UInt8} (h : bytes.length < 2 ^ 32) :
    Reads readHex (OpenMdi.blob bytes) (.string (hex bytes)) :=
  (reads_blob h).last (Reads.pure _)

theorem reads_createLink (link bus protocol resourceId : UInt32) {pins : List (UInt32 × UInt32)}
    {flags : List UInt8} (hpins : pins.length ≤ maxArrayItems) (hflags : flags.length < 2 ^ 32) :
    Reads readCreateLink (createLinkLayout link bus protocol pins resourceId flags)
      (createdLink link bus protocol pins resourceId flags) := by
  refine (reads_u32 link).bind ?_
  refine (reads_optional (reads_resource bus protocol hpins)).bind ?_
  refine (reads_u32 resourceId).bind ?_
  exact (reads_optional (reads_hex hflags)).last (Reads.pure _)

theorem reads_unum32 (link id cls value : UInt32) :
    Reads readUnum32 (setUnum32 link id cls value).body (unum32Value link id cls value) := by
  simp only [setUnum32, words_cons, words_nil, List.append_assoc, List.nil_append]
  refine (reads_u32 link).bind ?_
  refine (reads_expect 0x105).bind ?_
  refine (reads_expect 0x1200).bind ?_
  refine (reads_present _).bind ?_
  refine (reads_expect 0x1200).bind ?_
  refine (reads_u32 id).bind ?_
  refine (reads_expect 0x105).bind ?_
  refine (reads_u32 cls).bind ?_
  refine (reads_present _).bind ?_
  exact (reads_u32 value).bind (Reads.pure _)

theorem reads_parameter (p : Parameter) :
    Reads readParameter (tableParameter p) (parameterValue p.id p.cls p.value) := by
  simp only [tableParameter, words_cons, words_nil, List.append_assoc, List.nil_append]
  refine (reads_expect 0x105).bind ?_
  refine (reads_expect 0x1200).bind ?_
  refine (reads_u32 p.id).bind ?_
  refine (reads_expect 0x105).bind ?_
  refine (reads_u32 p.cls).bind ?_
  refine (reads_present _).bind ?_
  exact (reads_u32 p.value).bind (Reads.pure _)

def tableEntryValue (e : UInt32 × List Parameter) : Value :=
  entryValue e.1 (e.2.map fun p => parameterValue p.id p.cls p.value)

theorem reads_entry {e : UInt32 × List Parameter} (h : e.2.length ≤ maxArrayItems) :
    Reads readEntry (tableEntry e) (tableEntryValue e) := by
  simp only [tableEntry, words_cons, words_nil, List.append_assoc, List.nil_append]
  refine (reads_u32 e.1).bind ?_
  refine (reads_count h).bind ?_
  exact (Reads.times fun p _ => reads_parameter p).last (Reads.pure _)

theorem reads_table (link : UInt32) {entries : List (UInt32 × List Parameter)}
    (h : entries.length ≤ maxArrayItems) (hparams : ∀ e ∈ entries, e.2.length ≤ maxArrayItems) :
    Reads readTable (words [link, 0x1700, 0x1700, UInt32.ofNat entries.length] ++
      entries.flatMap tableEntry) (tableValue link (entries.map tableEntryValue)) := by
  simp only [words_cons, words_nil, List.append_assoc, List.nil_append]
  refine (reads_u32 link).bind ?_
  refine (reads_expect 0x1700).bind ?_
  refine (reads_expect 0x1700).bind ?_
  refine (reads_count h).bind ?_
  exact (Reads.times fun e he => reads_entry (hparams e he)).last (Reads.pure _)

/-- An expected response of a primitive, with a mask and a pattern for its first bytes. -/
structure Expected where
  acceptanceId : UInt32
  mask : List UInt8
  pattern : List UInt8

def Expected.layout (e : Expected) : List UInt8 :=
  word 0 ++ (word e.acceptanceId ++ (word (UInt32.ofNat e.mask.length) ++
    (e.mask ++ (e.pattern ++ word 0))))

def Expected.value (e : Expected) : Value := expectedValue 0 e.acceptanceId e.mask e.pattern []

theorem Expected.reads {e : Expected} (hmask : e.mask.length < 2 ^ 32)
    (hpattern : e.pattern.length = e.mask.length) : Reads readExpected e.layout e.value := by
  have hlen := (toNat_length hmask).symm
  refine (reads_u32 0).bind ?_
  refine (reads_u32 e.acceptanceId).bind ?_
  refine (reads_u32 _).bind ?_
  refine (reads_take hlen _).bind ?_
  refine (reads_take (hpattern.trans hlen) _).bind ?_
  refine (reads_count (Nat.zero_le maxArrayItems)).last ?_
  exact (Reads.pure []).skip (Reads.pure _)

/-- How a primitive is run. -/
structure Control where
  timeMs : UInt32
  sendCycles : Int32
  receiveCycles : Int32
  temporaryParams : UInt32
  flags : List UInt8
  expected : List Expected

namespace Control

def layout (c : Control) : List UInt8 :=
  word c.timeMs ++ (word c.sendCycles.toUInt32 ++ (word c.receiveCycles.toUInt32 ++
    (word c.temporaryParams ++ (OpenMdi.blob c.flags ++ (word (UInt32.ofNat c.expected.length) ++
      c.expected.flatMap Expected.layout)))))

def value (c : Control) : Value :=
  controlValue c.timeMs c.sendCycles c.receiveCycles c.temporaryParams c.flags
    (c.expected.map Expected.value)

/-- The sizes that the counts and length words of the layout can hold. -/
structure Sized (c : Control) : Prop where
  flags : c.flags.length < 2 ^ 32
  expected : c.expected.length ≤ maxArrayItems
  masks : ∀ e ∈ c.expected, e.mask.length < 2 ^ 32
  patterns : ∀ e ∈ c.expected, e.pattern.length = e.mask.length

theorem Sized.reads {c : Control} (h : c.Sized) : Reads readControl c.layout c.value := by
  refine (reads_u32 c.timeMs).bind ?_
  refine (reads_u32 _).bind ?_
  refine (reads_u32 _).bind ?_
  refine (reads_u32 c.temporaryParams).bind ?_
  refine (reads_blob h.flags).bind ?_
  refine (reads_count h.expected).bind ?_
  refine (Reads.times fun e he => Expected.reads (h.masks e he) (h.patterns e he)).last ?_
  rw [Int32.toInt32_toUInt32, Int32.toInt32_toUInt32]
  exact Reads.pure _

end Control

def primitiveLayout (link token kind : UInt32) (data : List UInt8) (c : Control) : List UInt8 :=
  word link ++ (word token ++ (word kind ++ (OpenMdi.blob data ++ ([1] ++ c.layout))))

theorem reads_primitive (link token kind : UInt32) {data : List UInt8} {c : Control}
    (hdata : data.length < 2 ^ 32) (hc : c.Sized) :
    Reads readPrimitive (primitiveLayout link token kind data c)
      (primitiveValue link token kind data c.value) := by
  refine (reads_u32 link).bind ?_
  refine (reads_u32 token).bind ?_
  refine (reads_u32 kind).bind ?_
  refine (reads_blob hdata).bind ?_
  exact (reads_optional hc.reads).last (Reads.pure _)

/-! ## Requests -/

/-- A call of one of the constructors. -/
inductive Command where
  | register (sessionToken : UInt32)
  | heartbeat
  | releaseSession (token : UInt32)
  | createHsIso15765 (link : UInt32)
  | createSwIso15765 (link : UInt32)
  | createSwRaw (link : UInt32)
  | createHsRaw (link : UInt32)
  | rawFrame (link token id : UInt32) (data : List UInt8) (wake : Bool)
  | linkOperation (op link : UInt32)
  | setUnum32 (link id cls value : UInt32)
  | responseTable (link : UInt32) (entries : List (UInt32 × List Parameter))
  | primitive (link token kind : UInt32) (data flags : List UInt8) (send receive : Int32)
      (acceptance : Option UInt32)
  | cancel (link token : UInt32)
  | receiveOnId (link token id : UInt32)
  | spaPreconditions (link token : UInt32)
  | spaRawPreconditions (link token : UInt32)
  | startCommunication (link token : UInt32)
  deriving DecidableEq, Repr

namespace Command

def record : Command → Except String Record
  | register sessionToken => .ok (OpenMdi.register sessionToken)
  | heartbeat => .ok OpenMdi.heartbeat
  | releaseSession token => .ok (OpenMdi.releaseSession token)
  | createHsIso15765 link => .ok (OpenMdi.createHsIso15765 link)
  | createSwIso15765 link => .ok (OpenMdi.createSwIso15765 link)
  | createSwRaw link => .ok (OpenMdi.createSwRaw link)
  | createHsRaw link => .ok (OpenMdi.createHsRaw link)
  | rawFrame link token id data wake => OpenMdi.rawFrame link token id data wake
  | linkOperation op link => OpenMdi.linkOperation op link
  | setUnum32 link id cls value => .ok (OpenMdi.setUnum32 link id cls value)
  | responseTable link entries => OpenMdi.responseTable link entries
  | primitive link token kind data flags send receive acceptance =>
    OpenMdi.primitive link token kind data flags send receive acceptance
  | cancel link token => .ok (OpenMdi.cancel link token)
  | receiveOnId link token id => OpenMdi.receiveOnId link token id
  | spaPreconditions link token => .ok (OpenMdi.spaPreconditions link token)
  | spaRawPreconditions link token => .ok (OpenMdi.spaRawPreconditions link token)
  | startCommunication link token => .ok (OpenMdi.startCommunication link token)

/-- The bytes that are sent. -/
def encoded (c : Command) : Except String (List UInt8) := c.record.bind Record.encoded

/-- The opcode of the request that a constructor makes. -/
def opcode : Command → UInt32
  | register _ => 0x884
  | heartbeat => 0x888
  | releaseSession _ => 0x886
  | createHsIso15765 _ | createSwIso15765 _ | createSwRaw _ | createHsRaw _ => 0x44f
  | linkOperation op _ => op
  | setUnum32 .. => 0x459
  | responseTable .. => 0x45d
  | cancel .. => 0x465
  | rawFrame .. | primitive .. | receiveOnId .. | spaPreconditions .. | spaRawPreconditions ..
  | startCommunication .. => 0x463

/-- The values that were given to the constructor, as the decoder shows them. -/
def decoded : Command → Value
  | register sessionToken => unknownValue (words [1, sessionToken, 5000])
  | heartbeat => unknownValue []
  | releaseSession token => unknownValue (words [1, token])
  | createHsIso15765 link =>
    createdLink link 3 36 [(6, 1), (14, 2)] 0xfffffffe [0xa0, 1, 0, 0]
  | createSwIso15765 link => createdLink link 14 16 [(1, 9)] 0xfffffffe [0x80, 0, 0, 0]
  | createSwRaw link => createdLink link 14 6 [(1, 9)] 0xfffffffe [0xa0, 1, 0, 0]
  | createHsRaw link => createdLink link 3 6 [(6, 1), (14, 2)] 0xfffffffe [0xa0, 1, 0, 0]
  | rawFrame link token id data wake =>
    primitiveValue link token 0x8004 (Words.big 4 id.toNat ++ data)
      (Control.mk 0 1 0 (if wake then 1 else 0) [if wake then 0x20 else 0, 0, 0, 0] []).value
  | linkOperation op link =>
    linkValue (if op = 0x451 then "destroy_link" else if op = 0x45f then "connect" else "disconnect")
      link
  | setUnum32 link id cls value => unum32Value link id cls value
  | responseTable link entries => tableValue link (entries.map tableEntryValue)
  | primitive link token kind data flags send receive acceptance =>
    primitiveValue link token kind data
      (Control.mk 0 send receive 0 flags (acceptance.toList.map fun id => ⟨id, [], []⟩)).value
  | cancel link token => cancelValue link token
  | receiveOnId link token id =>
    primitiveValue link token 0x8004 []
      (Control.mk 0 0 (-1) 0 [] [⟨0, Words.big 4 0x1fffffff, Words.big 4 id.toNat⟩]).value
  | spaPreconditions link token =>
    primitiveValue link token 0x8004 [0, 0, 2, 0x5b, 0x1a, 0x9a]
      (Control.mk 500 1 0 0 [0, 0, 0, 0x40] []).value
  | spaRawPreconditions link token =>
    primitiveValue link token 0x8004 [0, 0, 2, 0x5b, 2, 0x1a, 0x9a, 0, 0, 0, 0, 0]
      (Control.mk 500 1 0 0 [0, 0, 0, 0] []).value
  | startCommunication link token =>
    primitiveValue link token 0x8001 [] (Control.mk 100 0 0 0 [] []).value

end Command

/-! ## One record -/

/-- The decoder makes `v` of a record, wherever it is in the stream. -/
def Record.Decodes (r : Record) (opcode : UInt32) (v : Value) : Prop :=
  r.opcode = opcode ∧ ∀ base, decodeBody r.opcode r.body base = .ok v

theorem Record.Decodes.of_reads {opcode : UInt32} {read : Decoder Value} {body : List UInt8}
    {v : Value} (hread : readBody opcode = read) (h : Reads read body v) :
    Decodes ⟨opcode, body⟩ opcode v := by
  refine ⟨rfl, ?_⟩
  intro base
  rw [decodeBody, hread, h.whole]
  rfl

theorem unknown_decodes {opcode : UInt32} (hread : readBody opcode = readUnknown)
    (body : List UInt8) : Record.Decodes ⟨opcode, body⟩ opcode (unknownValue body) := by
  refine ⟨rfl, ?_⟩
  intro base
  rw [decodeBody, hread]
  rfl

theorem createLink_decodes {r : Record} {link bus protocol resourceId : UInt32}
    {pins : List (UInt32 × UInt32)} {flags : List UInt8}
    (hr : r = ⟨0x44f, createLinkLayout link bus protocol pins resourceId flags⟩)
    (hpins : pins.length ≤ maxArrayItems) (hflags : flags.length < 2 ^ 32) :
    r.Decodes 0x44f (createdLink link bus protocol pins resourceId flags) := by
  have hread : readBody 0x44f = readCreateLink := rfl
  subst hr
  exact .of_reads hread (reads_createLink link bus protocol resourceId hpins hflags)

theorem primitive_decodes {r : Record} {link token kind : UInt32} {data : List UInt8} {c : Control}
    (hr : r = ⟨0x463, primitiveLayout link token kind data c⟩) (hdata : data.length < 2 ^ 32)
    (hc : c.Sized) : r.Decodes 0x463 (primitiveValue link token kind data c.value) := by
  have hread : readBody 0x463 = readPrimitive := rfl
  subst hr
  exact .of_reads hread (reads_primitive link token kind hdata hc)

theorem link_decodes {op : UInt32} (link : UInt32) (h : op = 0x45f ∨ op = 0x461 ∨ op = 0x451) :
    Record.Decodes ⟨op, words [link]⟩ op (linkValue
      (if op = 0x451 then "destroy_link" else if op = 0x45f then "connect" else "disconnect") link) := by
  have hread : readBody op = readLink op := by rcases h with rfl | rfl | rfl <;> rfl
  exact .of_reads hread ((reads_u32 link).bind (Reads.pure _))

theorem cancel_decodes (link token : UInt32) :
    (cancel link token).Decodes 0x465 (cancelValue link token) := by
  have hread : readBody 0x465 = readCancel := rfl
  exact .of_reads hread ((reads_u32 link).bind ((reads_u32 token).bind (Reads.pure _)))

theorem unum32_decodes (link id cls value : UInt32) :
    (setUnum32 link id cls value).Decodes 0x459 (unum32Value link id cls value) := by
  have hread : readBody 0x459 = readUnum32 := rfl
  exact .of_reads hread (reads_unum32 link id cls value)

theorem table_decodes {r : Record} {link : UInt32} {entries : List (UInt32 × List Parameter)}
    (h : responseTable link entries = .ok r) :
    r.Decodes 0x45d (tableValue link (entries.map tableEntryValue)) := by
  have hread : readBody 0x45d = readTable := rfl
  unfold responseTable at h
  split_ifs at h with hlong
  obtain rfl := Except.ok.inj h
  simp only [List.any_eq_true, decide_eq_true_eq, not_or, not_exists, not_and, Nat.not_lt] at hlong
  exact .of_reads hread (reads_table link hlong.1 hlong.2)

/-- Without an expected response there is only the length of the flags. -/
theorem Control.Sized.plain {timeMs temporaryParams : UInt32} {send receive : Int32}
    {flags : List UInt8} (h : flags.length < 2 ^ 32) :
    (Control.mk timeMs send receive temporaryParams flags []).Sized :=
  ⟨h, Nat.zero_le _, fun _ he => absurd he List.not_mem_nil, fun _ he => absurd he List.not_mem_nil⟩

/-- With one it has a mask as long as its pattern. -/
theorem Control.Sized.single {timeMs temporaryParams : UInt32} {send receive : Int32}
    {flags : List UInt8} {e : Expected} (h : flags.length < 2 ^ 32) (hmask : e.mask.length < 2 ^ 32)
    (hpattern : e.pattern.length = e.mask.length) :
    (Control.mk timeMs send receive temporaryParams flags [e]).Sized := by
  refine ⟨h, Nat.le_of_ble_eq_true rfl, ?_, ?_⟩ <;> intro e' he' <;> rwa [List.mem_singleton.mp he']

/-! ## Calls of the constructors -/

theorem createHsIso15765_layout (link : UInt32) : createHsIso15765 link =
    ⟨0x44f, createLinkLayout link 3 36 [(6, 1), (14, 2)] 0xfffffffe [0xa0, 1, 0, 0]⟩ := rfl

theorem createSwIso15765_layout (link : UInt32) : createSwIso15765 link =
    ⟨0x44f, createLinkLayout link 14 16 [(1, 9)] 0xfffffffe [0x80, 0, 0, 0]⟩ := rfl

/-- The bytes that are patched in are the protocol and the flags. -/
theorem createSwRaw_layout (link : UInt32) : createSwRaw link =
    ⟨0x44f, createLinkLayout link 14 6 [(1, 9)] 0xfffffffe [0xa0, 1, 0, 0]⟩ := rfl

theorem createHsRaw_layout (link : UInt32) : createHsRaw link =
    ⟨0x44f, createLinkLayout link 3 6 [(6, 1), (14, 2)] 0xfffffffe [0xa0, 1, 0, 0]⟩ := rfl

theorem spaPreconditions_layout (link token : UInt32) : spaPreconditions link token =
    ⟨0x463, primitiveLayout link token 0x8004 [0, 0, 2, 0x5b, 0x1a, 0x9a]
      ⟨500, 1, 0, 0, [0, 0, 0, 0x40], []⟩⟩ := rfl

theorem spaRawPreconditions_layout (link token : UInt32) : spaRawPreconditions link token =
    ⟨0x463, primitiveLayout link token 0x8004 [0, 0, 2, 0x5b, 2, 0x1a, 0x9a, 0, 0, 0, 0, 0]
      ⟨500, 1, 0, 0, [0, 0, 0, 0], []⟩⟩ := rfl

theorem startCommunication_layout (link token : UInt32) : startCommunication link token =
    ⟨0x463, primitiveLayout link token 0x8001 [] ⟨100, 0, 0, 0, [], []⟩⟩ := rfl

theorem rawFrame_layout {link token id : UInt32} {data : List UInt8} {wake : Bool} {r : Record}
    (h : rawFrame link token id data wake = .ok r) :
    data.length ≤ 8 ∧ r = ⟨0x463, primitiveLayout link token 0x8004 (Words.big 4 id.toNat ++ data)
      ⟨0, 1, 0, if wake then 1 else 0, [if wake then 0x20 else 0, 0, 0, 0], []⟩⟩ := by
  unfold rawFrame at h
  split at h
  · cases h
  rename_i hbad
  refine ⟨by omega, ?_⟩
  rw [← Except.ok.inj h]
  simp only [primitiveLayout, Control.layout, words_cons, words_nil, List.append_assoc,
    List.nil_append]
  rfl

theorem primitive_layout {link token kind : UInt32} {data flags : List UInt8} {send receive : Int32}
    {acceptance : Option UInt32} {r : Record}
    (h : primitive link token kind data flags send receive acceptance = .ok r) :
    data.length ≤ 4128 ∧ flags.length ≤ 4 ∧ r = ⟨0x463, primitiveLayout link token kind data
      ⟨0, send, receive, 0, flags, acceptance.toList.map fun id => ⟨id, [], []⟩⟩⟩ := by
  unfold primitive at h
  split at h
  · cases h
  rename_i hbad
  refine ⟨by omega, by omega, ?_⟩
  rw [← Except.ok.inj h]
  simp only [primitiveLayout, Control.layout, words_cons, words_nil, List.append_assoc,
    List.nil_append]
  cases acceptance <;> rfl

theorem receiveOnId_layout {link token id : UInt32} {r : Record}
    (h : receiveOnId link token id = .ok r) :
    r = ⟨0x463, primitiveLayout link token 0x8004 []
      ⟨0, 0, -1, 0, [], [⟨0, Words.big 4 0x1fffffff, Words.big 4 id.toNat⟩]⟩⟩ := by
  unfold receiveOnId at h
  split_ifs at h with hid
  rw [← Except.ok.inj h]
  simp only [primitiveLayout, Control.layout, words_cons, words_nil, List.append_assoc,
    List.nil_append]
  rfl

/-- The decoder gets the values of an accepted call back. -/
theorem Command.decodes {c : Command} {r : Record} (h : c.record = .ok r) :
    r.Decodes c.opcode c.decoded := by
  cases c with
  | register _ | heartbeat | releaseSession _ =>
    obtain rfl := Except.ok.inj h
    exact unknown_decodes rfl _
  | createHsIso15765 link =>
    obtain rfl := Except.ok.inj h
    exact createLink_decodes (createHsIso15765_layout link) (by decide) (by decide)
  | createSwIso15765 link =>
    obtain rfl := Except.ok.inj h
    exact createLink_decodes (createSwIso15765_layout link) (by decide) (by decide)
  | createSwRaw link =>
    obtain rfl := Except.ok.inj h
    exact createLink_decodes (createSwRaw_layout link) (by decide) (by decide)
  | createHsRaw link =>
    obtain rfl := Except.ok.inj h
    exact createLink_decodes (createHsRaw_layout link) (by decide) (by decide)
  | setUnum32 link id cls value =>
    obtain rfl := Except.ok.inj h
    exact unum32_decodes link id cls value
  | cancel link token =>
    obtain rfl := Except.ok.inj h
    exact cancel_decodes link token
  | spaPreconditions link token =>
    obtain rfl := Except.ok.inj h
    exact primitive_decodes (spaPreconditions_layout link token) (by decide) (.plain (by decide))
  | spaRawPreconditions link token =>
    obtain rfl := Except.ok.inj h
    exact primitive_decodes (spaRawPreconditions_layout link token) (by decide) (.plain (by decide))
  | startCommunication link token =>
    obtain rfl := Except.ok.inj h
    exact primitive_decodes (startCommunication_layout link token) (by decide) (.plain (by decide))
  | linkOperation op link =>
    unfold record at h
    dsimp only at h
    unfold OpenMdi.linkOperation at h
    split_ifs at h with hop
    obtain rfl := Except.ok.inj h
    exact link_decodes link hop
  | responseTable link entries => exact table_decodes h
  | rawFrame link token id data wake =>
    obtain ⟨hlen, hr⟩ := rawFrame_layout h
    have hdata : (Words.big 4 id.toNat ++ data).length < 2 ^ 32 := by
      rw [List.length_append, Words.length_big]
      omega
    exact primitive_decodes hr hdata (.plain (by simp))
  | primitive link token kind data flags send receive acceptance =>
    obtain ⟨hdata, hflags, hr⟩ := primitive_layout h
    refine primitive_decodes hr (by omega) ?_
    cases acceptance with
    | none => exact .plain (by omega)
    | some id => exact .single (by omega) (by simp) rfl
  | receiveOnId link token id =>
    exact primitive_decodes (receiveOnId_layout h) (by decide) (.single (by decide)
      (by simp) ((Words.length_big 4 _).trans (Words.length_big 4 _).symm))

/-! ## Streams -/

/-- The value of one record of the stream. -/
def Command.entry (offset : Nat) (c : Command) (wire : List UInt8) : Value :=
  recordValue offset wire.length c.opcode c.decoded

/-- The values of the records of a stream, one after another. -/
def entries : Nat → List Command → List (List UInt8) → List Value
  | offset, c :: cs, wire :: wires =>
    c.entry offset wire :: entries (offset + wire.length) cs wires
  | _, _, _ => []

theorem reads_record {r : Record} {wire : List UInt8} (h : r.encoded = .ok wire) :
    Reads readRecord wire (wire.length, r.opcode, r.body) := by
  obtain ⟨hbody, hwire⟩ := Record.encoded_ok h
  have hfits : (UInt32.ofNat (r.body.length + 8)).toNat = r.body.length + 8 :=
    toNat_length (by unfold maxRecord at hbody; omega)
  have hlen : wire.length = r.body.length + 8 := by
    rw [hwire]
    simp only [List.length_append, length_word]
    omega
  have hbounds : 8 ≤ r.body.length + 8 ∧ r.body.length + 8 ≤ maxRecordBytes := by
    unfold maxRecord at hbody
    unfold maxRecordBytes
    omega
  rw [hlen, hwire]
  refine (reads_u32 _).bind ?_
  refine (reads_u32 _).bind ?_
  rw [hfits, if_pos hbounds]
  exact (reads_take (Nat.add_sub_cancel _ 8).symm _).last (Reads.pure _)

theorem Command.encoded_record {c : Command} {wire : List UInt8} (h : c.encoded = .ok wire) :
    ∃ r, c.record = .ok r ∧ r.encoded = .ok wire := by
  unfold encoded at h
  cases hr : c.record with
  | error e => rw [hr] at h; cases h
  | ok r => rw [hr] at h; exact ⟨r, rfl, h⟩

theorem Command.encoded_isEmpty {c : Command} {wire : List UInt8} (h : c.encoded = .ok wire)
    (rest : List UInt8) : (wire ++ rest).isEmpty = false := by
  obtain ⟨r, -, hwire⟩ := encoded_record h
  rw [(Record.encoded_ok hwire).2]
  rfl

/-- One record off the front of the stream. -/
theorem decodeRecords_cons {c : Command} {wire : List UInt8} (h : c.encoded = .ok wire) (left : Nat)
    (rest : List UInt8) (offset : Nat) :
    decodeRecords (left + 1) (wire ++ rest) offset =
      (decodeRecords left rest (offset + wire.length)).map (c.entry offset wire :: ·) := by
  obtain ⟨r, hr, hwire⟩ := Command.encoded_record h
  obtain ⟨hop, hdecoded⟩ := Command.decodes hr
  rw [decodeRecords, Command.encoded_isEmpty h]
  dsimp only
  rw [if_neg (by simp), reads_record hwire rest offset]
  change (decodeBody r.opcode r.body (offset + 8) >>= _) = _
  rw [hdecoded, List.drop_left]
  change (decodeRecords left rest (offset + wire.length) >>= _) = _
  cases decodeRecords left rest (offset + wire.length) with
  | error e => rfl
  | ok records =>
    rw [Command.entry, hop]
    rfl

/-- As many records as may come. -/
theorem decodeRecords_append {commands : List Command} {wires : List (List UInt8)}
    (h : List.Forall₂ (fun c wire => c.encoded = .ok wire) commands wires) (left : Nat)
    (rest : List UInt8) (offset : Nat) :
    decodeRecords (left + commands.length) (wires.flatten ++ rest) offset =
      (decodeRecords left rest (offset + wires.flatten.length)).map
        (entries offset commands wires ++ ·) := by
  induction h generalizing offset with
  | nil =>
    change decodeRecords left rest offset = (decodeRecords left rest offset).map ([] ++ ·)
    cases decodeRecords left rest offset <;> rfl
  | @cons c wire cs wires hwire _ ih =>
    rw [List.length_cons, ← Nat.add_assoc, List.flatten_cons, List.append_assoc,
      decodeRecords_cons hwire, ih, List.length_append, ← Nat.add_assoc, entries]
    cases decodeRecords left rest (offset + wire.length + wires.flatten.length) <;> rfl

theorem decodeRecords_nil (left offset : Nat) : decodeRecords left [] offset = .ok [] := by
  cases left <;> rfl

/-- A stream of at most 65,536 records and 32 MiB is decoded into the values that were given to the
constructors, with the offsets and the lengths of the records. -/
theorem decode_agrees {commands : List Command} {wires : List (List UInt8)}
    (h : List.Forall₂ (fun c wire => c.encoded = .ok wire) commands wires)
    (hcount : commands.length ≤ maxRecords) (hsize : wires.flatten.length ≤ maxStreamBytes) :
    decodeStream wires.flatten = .ok (entries 0 commands wires) ∧ Function.Injective hex := by
  refine ⟨?_, hex_injective⟩
  have happend := decodeRecords_append h (maxRecords - commands.length) [] 0
  rw [Nat.sub_add_cancel hcount, List.append_nil, decodeRecords_nil] at happend
  rw [decodeStream, if_neg (Nat.not_lt.mpr hsize), happend]
  exact congrArg Except.ok (List.append_nil _)

theorem decode_agrees_two :
    ∃ wires, decodeStream wires.flatten = .ok (entries 0 [.heartbeat, .cancel 3 5] wires) :=
  ⟨[[8, 0, 0, 0, 0x88, 8, 0, 0], [16, 0, 0, 0, 0x65, 4, 0, 0, 3, 0, 0, 0, 5, 0, 0, 0]],
    (decode_agrees (.cons (by decide) (.cons (by decide) .nil)) (by decide) (by decide)).1⟩

/-! ## The limits of the decoder -/

theorem encoded_replicate {c : Command} {wire : List UInt8} (h : c.encoded = .ok wire) (n : Nat) :
    List.Forall₂ (fun c wire => c.encoded = .ok wire) (List.replicate n c)
      (List.replicate n wire) := by
  induction n with
  | zero => exact .nil
  | succ n ih => exact .cons h ih

theorem length_flatten_replicate {α : Type} (n : Nat) (xs : List α) :
    (List.replicate n xs).flatten.length = n * xs.length := by
  induction n with
  | zero => rw [Nat.zero_mul]; rfl
  | succ n ih => rw [List.replicate_succ, List.flatten_cons, List.length_append, ih, Nat.succ_mul,
      Nat.add_comm]

/-- One record more than the decoder takes. -/
theorem decode_counts {c : Command} {wire : List UInt8} (h : c.encoded = .ok wire)
    (hsize : (maxRecords + 1) * wire.length ≤ maxStreamBytes) :
    decodeStream (List.replicate (maxRecords + 1) wire).flatten =
      .error ⟨maxRecords * wire.length, "record count limit exceeded"⟩ := by
  have happend := decodeRecords_append (encoded_replicate h maxRecords) 0 wire 0
  have hlast : (List.replicate (maxRecords + 1) wire).flatten =
      (List.replicate maxRecords wire).flatten ++ wire := by
    rw [List.replicate_succ', List.flatten_append, List.flatten_singleton]
  have hne := Command.encoded_isEmpty h []
  rw [List.append_nil] at hne
  rw [List.length_replicate, Nat.zero_add, Nat.zero_add, length_flatten_replicate, decodeRecords,
    hne] at happend
  rw [decodeStream, if_neg (by rw [length_flatten_replicate]; omega), hlast, happend]
  rfl

/-- A primitive with as much data as fits. -/
def longPrimitive : Command := .primitive 0 0 0x8001 (List.replicate 4128 0) [] 0 0 none

theorem longPrimitive_encoded :
    ∃ wire, longPrimitive.encoded = .ok wire ∧ wire.length = 4177 := by
  have hr : longPrimitive.record = .ok ⟨0x463, words [0, 0, 0x8001] ++
      OpenMdi.blob (List.replicate 4128 0) ++ [1] ++ words [0, 0, 0, 0] ++ OpenMdi.blob [] ++
      words [0] ++ []⟩ := by
    unfold longPrimitive Command.record OpenMdi.primitive
    dsimp only
    rw [if_neg (by rw [List.length_replicate]; decide)]
    rfl
  have hdata : (List.replicate 4128 (0 : UInt8)).length = 4128 := List.length_replicate
  unfold Command.encoded
  rw [hr]
  generalize List.replicate 4128 (0 : UInt8) = data at hdata
  unfold Except.bind Record.encoded
  dsimp only
  rw [if_neg (by simp [OpenMdi.blob, maxRecord, hdata])]
  exact ⟨_, rfl, by simp [OpenMdi.blob, hdata]⟩

theorem limits_refuse :
    (∃ wires, List.Forall₂ (fun c wire => c.encoded = .ok wire)
        (List.replicate 65537 Command.heartbeat) wires ∧
      decodeStream wires.flatten = .error ⟨524288, "record count limit exceeded"⟩) ∧
    ∃ wires, List.Forall₂ (fun c wire => c.encoded = .ok wire)
        (List.replicate 8034 longPrimitive) wires ∧
      decodeStream wires.flatten = .error ⟨0, "stream limit exceeded"⟩ := by
  have hbeat : Command.heartbeat.encoded = .ok [8, 0, 0, 0, 0x88, 8, 0, 0] := by decide
  constructor
  · exact ⟨_, encoded_replicate hbeat 65537, decode_counts hbeat (by decide)⟩
  · obtain ⟨wire, hwire, hlen⟩ := longPrimitive_encoded
    refine ⟨_, encoded_replicate hwire 8034, ?_⟩
    rw [decodeStream, if_pos]
    rw [length_flatten_replicate, hlen]
    decide

end OpenSaab.OpenMdi
