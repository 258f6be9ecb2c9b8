import OpenSaab.Library.Programs
import OpenSaab.Library.Runs
import OpenSaab.Library.Words
import Mathlib.Tactic.SplitIfs

/-!
# Ethernet frames over USB

The RNDIS carrier of `adapters/mdi/native/src/lib.rs`. A transfer holds one message after another, and
ends with padding. What reads out of bounds panics; that is the outer `none` here.
-/

namespace OpenSaab.Rndis

/-- The size of `usize`. -/
structure Machine where
  bits : Nat
  wide : 32 ≤ bits

def Machine.checkedAdd (m : Machine) (a b : Nat) : Option Nat :=
  if a + b < 2 ^ m.bits then some (a + b) else none

theorem Machine.checkedAdd_eq {m : Machine} {a b c : Nat} (h : m.checkedAdd a b = some c) :
    c = a + b := by
  unfold checkedAdd at h
  split_ifs at h
  exact (Option.some.inj h).symm

theorem Machine.checkedAdd_small (m : Machine) {a b : Nat} (h : a + b < 2 ^ 32) :
    m.checkedAdd a b = some (a + b) :=
  if_pos (Nat.lt_of_lt_of_le h (Nat.pow_le_pow_right (by decide) m.wide))

def word (b : List UInt8) (n : Nat) : Except String UInt32 :=
  if n + 4 ≤ b.length then .ok (UInt32.ofNat (Words.ofLittle ((b.drop n).take 4)))
  else .error "Truncated RNDIS word"

def words (w : List UInt32) : List UInt8 := w.flatMap fun x => Words.little 4 x.toNat

/-- The header, and the frame after it. -/
def bundled (frame : List UInt8) : List UInt8 :=
  words [1, UInt32.ofNat (44 + frame.length), 36, UInt32.ofNat frame.length, 0, 0, 0, 0, 0, 0, 0] ++
    frame

def packet (frame : List UInt8) : Except String (List UInt8) :=
  if 14 ≤ frame.length ∧ frame.length ≤ 1514 then .ok (bundled frame)
  else .error "Ethernet frame size boundary"

/-- `b[lo..hi]` -/
def slice (b : List UInt8) (lo hi : Nat) : Option (List UInt8) :=
  if lo ≤ hi ∧ hi ≤ b.length then some ((b.drop lo).take (hi - lo)) else none

/-! ## Messages -/

/-- A message at the front of `q`, and where its data are. -/
structure Message (q : List UInt8) where
  total : Nat
  offset : Nat
  len : Nat
  whole : 44 ≤ total ∧ total ≤ q.length
  behind : 44 ≤ offset
  held : offset + len ≤ total

def invalidHeader : String := "Invalid RNDIS packet header"

def invalidBounds : String := "RNDIS packet bounds/unsupported metadata"

/-- The total, the offset and the length. -/
def Message.fields (m : Machine) (q : List UInt8) : Except String (Nat × Nat × Nat) :=
  if q.length < 44 then .error invalidHeader
  else do
    let kind ← word q 0
    if kind ≠ 1 then .error invalidHeader
    else do
      let total ← word q 4
      let offset ← word q 8
      match m.checkedAdd offset.toNat 8 with
      | none => .error "Data offset overflow"
      | some offset => do
        let len ← word q 12
        .ok (total.toNat, offset, len.toNat)

def Message.read (m : Machine) (q : List UInt8) : Option (Except String (Message q)) :=
  match Message.fields m q with
  | .error e => some (.error e)
  | .ok (total, offset, len) =>
    if hbounds : total < 44 ∨ q.length < total ∨ offset < 44 ∨ offset % 4 ≠ 0 ∨
        ¬ (14 ≤ len ∧ len ≤ 1514) then
      some (.error invalidBounds)
    else
      match hlast : m.checkedAdd offset len with
      | none => some (.error "Data length overflow")
      | some last =>
        if hheld : total < last then some (.error invalidBounds)
        else
          match slice q 16 44 with
          | none => none
          | some metadata =>
            if metadata.any (· ≠ 0) then some (.error invalidBounds)
            else
              have hsum := Machine.checkedAdd_eq hlast
              some (.ok ⟨total, offset, len, by omega, by omega, by omega⟩)

/-- One byte after a full USB packet, or zeros only. -/
def finished (b : List UInt8) (p : Nat) : Prop :=
  0 < p ∧ p % 64 = 0 ∧ b.length - p = 1 ∨ ∀ x ∈ b.drop p, x = 0

instance decidableFinished (b : List UInt8) (p : Nat) : Decidable (finished b p) :=
  @instDecidableOr _ _ inferInstance (List.decidableBAll (· = 0) (b.drop p))

abbrev Frames := Except String (List (List UInt8))

/-- The loop of `frames` from `p` on. -/
def framesFrom (m : Machine) (b : List UInt8) (p : Nat) (result : List (List UInt8)) :
    Option Frames :=
  if _hp : p < b.length then
    if finished b p then some (.ok result)
    else
      match Message.read m (b.drop p) with
      | none => none
      | some (.error e) => some (.error e)
      | some (.ok message) =>
        match slice (b.drop p) message.offset (message.offset + message.len) with
        | none => none
        | some frame =>
          if 32 < (result ++ [frame]).length then some (.error "RNDIS bundle boundary")
          else framesFrom m b (p + message.total) (result ++ [frame])
  else some (.ok result)
termination_by b.length - p
decreasing_by
  have htotal := message.whole
  omega

def frames (m : Machine) (b : List UInt8) : Option Frames := framesFrom m b 0 []

/-! ## The two ways to receive a transfer -/

structure BulkInput where
  pending : List UInt8
  deriving DecidableEq

def BulkInput.default : BulkInput := ⟨[]⟩

def BulkInput.push (m : Machine) (s : BulkInput) (chunk : List UInt8) :
    BulkInput × Option Frames :=
  if 64 < chunk.length ∨ 1580 < s.pending.length + chunk.length then
    (s, some (.error "USB input assembly boundary"))
  else if chunk.length = 64 then (⟨s.pending ++ chunk⟩, some (.ok []))
  else (⟨[]⟩, frames m (s.pending ++ chunk))

def completeTransferFrames (m : Machine) (bytes : List UInt8) : Option Frames :=
  if 1580 < bytes.length then some (.error "Whole USB transfer exceeds negotiated size")
  else frames m bytes

/-! ## Nothing is read out of bounds -/

theorem slice_some {b : List UInt8} {lo hi : Nat} (h : lo ≤ hi) (h' : hi ≤ b.length) :
    slice b lo hi = some ((b.drop lo).take (hi - lo)) := if_pos ⟨h, h'⟩

/-- What a header says, when it is read. -/
theorem fields_ok {m : Machine} {q : List UInt8} {total offset len : Nat}
    (h : Message.fields m q = .ok (total, offset, len)) :
    44 ≤ q.length ∧ word q 0 = .ok 1 ∧ ∃ t o l : UInt32, word q 4 = .ok t ∧ word q 8 = .ok o ∧
      word q 12 = .ok l ∧ total = t.toNat ∧ offset = o.toNat + 8 ∧ len = l.toNat := by
  unfold Message.fields at h
  split_ifs at h with hshort
  obtain ⟨kind, hkind, h⟩ := Program.except_bind_ok h
  split_ifs at h with hone
  rw [not_not] at hone
  obtain ⟨t, ht, h⟩ := Program.except_bind_ok h
  obtain ⟨o, ho, h⟩ := Program.except_bind_ok h
  split at h
  · cases h
  · rename_i sum hsum
    obtain ⟨l, hl, h⟩ := Program.except_bind_ok h
    have hfields := Except.ok.inj h
    simp only [Prod.mk.injEq] at hfields
    obtain ⟨rfl, rfl, rfl⟩ := hfields
    exact ⟨Nat.le_of_not_lt hshort, hone ▸ hkind, t, o, l, ht, ho, hl, rfl,
      Machine.checkedAdd_eq hsum, rfl⟩

/-- A read never panics. -/
theorem read_some (m : Machine) (q : List UInt8) : ∃ r, Message.read m q = some r := by
  unfold Message.read
  split
  · exact ⟨_, rfl⟩
  · rename_i total offset len hfields
    split_ifs
    · exact ⟨_, rfl⟩
    · split
      · exact ⟨_, rfl⟩
      · split_ifs
        · exact ⟨_, rfl⟩
        · rw [slice_some (by decide) (fields_ok hfields).1]
          dsimp only
          split_ifs
          · exact ⟨_, rfl⟩
          · exact ⟨_, rfl⟩

theorem read_fields {m : Machine} {q : List UInt8} {message : Message q}
    (h : Message.read m q = some (.ok message)) :
    Message.fields m q = .ok (message.total, message.offset, message.len) := by
  unfold Message.read at h
  split at h
  · cases h
  · rename_i total offset len hfields
    split_ifs at h
    · cases h
    · split at h
      · cases h
      · split_ifs at h
        · cases h
        · split at h
          · cases h
          · split_ifs at h
            · cases h
            · rw [← Except.ok.inj (Option.some.inj h)]
              exact hfields

/-- Each frame is the data that the header of a message declares, inside that message, and each message
starts where the one before it ends. -/
inductive Declared (b : List UInt8) : Nat → List (List UInt8) → Prop where
  | nil (p : Nat) : Declared b p []
  | cons {p : Nat} {total offset len : UInt32} {rest : List (List UInt8)}
      (kind : word (b.drop p) 0 = .ok 1)
      (htotal : word (b.drop p) 4 = .ok total)
      (hoffset : word (b.drop p) 8 = .ok offset)
      (hlen : word (b.drop p) 12 = .ok len)
      (behind : 44 ≤ offset.toNat + 8)
      (held : offset.toNat + 8 + len.toNat ≤ total.toNat)
      (inside : p + total.toNat ≤ b.length)
      (next : Declared b (p + total.toNat) rest) :
      Declared b p ((b.drop (p + (offset.toNat + 8))).take len.toNat :: rest)

theorem framesFrom_declared (m : Machine) (b : List UInt8) (p : Nat) (result : List (List UInt8))
    (hresult : result.length ≤ 32) :
    ∃ r, framesFrom m b p result = some r ∧ ∀ out, r = .ok out →
      out.length ≤ 32 ∧ ∃ fs, out = result ++ fs ∧ Declared b p fs := by
  have hdone : ∀ out, (.ok result : Frames) = .ok out →
      out.length ≤ 32 ∧ ∃ fs, out = result ++ fs ∧ Declared b p fs := by
    intro out h
    obtain rfl := Except.ok.inj h
    exact ⟨hresult, [], (List.append_nil _).symm, .nil p⟩
  have hfailed : ∀ e : String, ∀ out, (.error e : Frames) = .ok out →
      out.length ≤ 32 ∧ ∃ fs, out = result ++ fs ∧ Declared b p fs := fun e out h => nomatch h
  rw [framesFrom]
  split_ifs with hp hfinished
  · exact ⟨_, rfl, hdone⟩
  · obtain ⟨r, hread⟩ := read_some m (b.drop p)
    split
    · rename_i hnone
      rw [hread] at hnone
      cases hnone
    · exact ⟨_, rfl, hfailed _⟩
    · rename_i message hmessage
      have hwhole := message.whole
      have hheld := message.held
      have hbehind := message.behind
      have hlength : (b.drop p).length = b.length - p := List.length_drop
      rw [slice_some (by omega) (by omega)]
      dsimp only
      split_ifs with hmany
      · exact ⟨_, rfl, hfailed _⟩
      · obtain ⟨r, hr, hout⟩ := framesFrom_declared m b (p + message.total) _ (Nat.le_of_not_lt hmany)
        refine ⟨r, hr, fun out h => ?_⟩
        obtain ⟨hcount, fs, hfs, hdeclared⟩ := hout out h
        obtain ⟨-, hkind, t, o, l, ht, ho, hl, htotal, hoffset, hlen⟩ :=
          fields_ok (read_fields hmessage)
        refine ⟨hcount, _ :: fs, by rw [hfs, List.append_assoc]; rfl, ?_⟩
        rw [htotal] at hdeclared
        rw [hoffset, hlen, Nat.add_sub_cancel_left, List.drop_drop]
        exact .cons hkind ht ho hl (by omega) (by omega) (by omega) hdeclared
  · exact ⟨_, rfl, hdone⟩
termination_by b.length - p

/-! ## What is packed is found again -/

/-- The packets of a list of frames, one after another. -/
def transfer (list : List (List UInt8)) : Except String (List UInt8) :=
  (list.mapM packet).map List.flatten

/-- What may follow the packets. -/
def Padding (bytes tail : List UInt8) : Prop :=
  (∃ n, tail = List.replicate n 0) ∨ bytes ≠ [] ∧ bytes.length % 64 = 0 ∧ tail.length = 1

theorem transfer_eq {list : List (List UInt8)}
    (h : ∀ f ∈ list, 14 ≤ f.length ∧ f.length ≤ 1514) :
    transfer list = .ok (list.flatMap bundled) := by
  have hall : list.mapM packet = .ok (list.map bundled) := by
    induction list with
    | nil => rfl
    | cons f fs ih =>
      have hf : packet f = .ok (bundled f) := if_pos (h f List.mem_cons_self)
      rw [List.mapM_cons, hf, ih fun g hg => h g (List.mem_cons_of_mem f hg)]
      rfl
  rw [transfer, hall]
  rfl

theorem word_append {a b : List UInt8} {n : Nat} (k : Nat) (h : a.length = n) :
    word (a ++ b) (n + k) = word b k := by
  subst h
  unfold word
  simp only [List.drop_length_add_append, List.length_append, Nat.add_assoc,
    Nat.add_le_add_iff_left]

theorem word_words {w : List UInt32} {x : UInt32} {i : Nat} (rest : List UInt8) (h : w[i]? = some x) :
    word (words w ++ rest) (4 * i) = .ok x := by
  induction w generalizing i with
  | nil => cases h
  | cons y ys ih =>
    have hfirst : (Words.little 4 y.toNat).length = 4 := Words.length_little 4 _
    have hcons : words (y :: ys) ++ rest = Words.little 4 y.toNat ++ (words ys ++ rest) := by
      rw [words, List.flatMap_cons, List.append_assoc]
      rfl
    rw [hcons]
    cases i with
    | zero =>
      obtain rfl := Option.some.inj h
      unfold word
      rw [Nat.mul_zero, List.drop_zero, List.take_append_of_le_length (Nat.le_of_eq hfirst.symm),
        List.take_of_length_le (Nat.le_of_eq hfirst), if_pos,
        Words.ofLittle_little (by exact y.toNat_lt), UInt32.ofNat_toNat]
      rw [List.length_append, hfirst]
      omega
    | succ i =>
      rw [Nat.mul_succ, Nat.add_comm, word_append _ hfirst]
      exact ih h

theorem length_words (w : List UInt32) : (words w).length = 4 * w.length := by
  induction w with
  | nil => rfl
  | cons y ys ih =>
    rw [words, List.flatMap_cons, List.length_append, Words.length_little, List.length_cons]
    rw [words] at ih
    omega

theorem length_bundled (f : List UInt8) : (bundled f).length = 44 + f.length := by
  rw [bundled, List.length_append, length_words]
  rfl

variable {f : List UInt8}

theorem bundled_fields (m : Machine) (h : f.length ≤ 1514) (rest : List UInt8) :
    Message.fields m (bundled f ++ rest) = .ok (44 + f.length, 44, f.length) := by
  have hlong : ¬ (bundled f ++ rest).length < 44 := by
    rw [List.length_append, length_bundled]
    omega
  have hword {i : Nat} {x : UInt32} (hi : [1, UInt32.ofNat (44 + f.length), 36,
      UInt32.ofNat f.length, 0, 0, 0, 0, 0, 0, 0][i]? = some x) :
      word (bundled f ++ rest) (4 * i) = .ok x := by
    rw [bundled, List.append_assoc]
    exact word_words _ hi
  have h0 : word (bundled f ++ rest) 0 = .ok 1 := hword (i := 0) rfl
  have h4 : word (bundled f ++ rest) 4 = .ok (UInt32.ofNat (44 + f.length)) := hword (i := 1) rfl
  have h8 : word (bundled f ++ rest) 8 = .ok 36 := hword (i := 2) rfl
  have h12 : word (bundled f ++ rest) 12 = .ok (UInt32.ofNat f.length) := hword (i := 3) rfl
  have hsum : m.checkedAdd (36 : UInt32).toNat 8 = some 44 := m.checkedAdd_small (by decide)
  have htotal : (UInt32.ofNat (44 + f.length)).toNat = 44 + f.length := by
    rw [UInt32.toNat_ofNat']
    exact Nat.mod_eq_of_lt (by omega)
  have hlen : (UInt32.ofNat f.length).toNat = f.length := by
    rw [UInt32.toNat_ofNat']
    exact Nat.mod_eq_of_lt (by omega)
  unfold Message.fields
  rw [if_neg hlong, h0, h4, h8, h12]
  simp only [bind, Except.bind, ne_eq, not_true_eq_false, if_false, hsum, htotal, hlen]

theorem bundled_metadata (f rest : List UInt8) :
    slice (bundled f ++ rest) 16 44 = some (List.replicate 28 0) := by
  have hlong : 44 ≤ (bundled f ++ rest).length := by
    rw [List.length_append, length_bundled]
    omega
  rw [slice_some (by decide) hlong, bundled, List.append_assoc, List.drop_append_of_le_length,
    List.take_append_of_le_length]
  · rfl
  · simp [length_words]
  · simp [length_words]

theorem bundled_data (f rest : List UInt8) :
    slice (bundled f ++ rest) 44 (44 + f.length) = some f := by
  have hheader : (words [1, UInt32.ofNat (44 + f.length), 36, UInt32.ofNat f.length, 0, 0, 0, 0,
    0, 0, 0]).length = 44 := length_words _
  rw [slice_some (Nat.le_add_right 44 _), bundled, List.append_assoc, List.drop_left' hheader,
    Nat.add_sub_cancel_left, List.take_left]
  rw [List.length_append, length_bundled]
  exact Nat.le_add_right _ _

/-- The message of a packet. -/
theorem read_bundled (m : Machine) (h : 14 ≤ f.length ∧ f.length ≤ 1514) (rest : List UInt8) :
    ∃ message : Message (bundled f ++ rest), Message.read m (bundled f ++ rest) = some (.ok message) ∧
      message.total = 44 + f.length ∧
      slice (bundled f ++ rest) message.offset (message.offset + message.len) = some f := by
  have hlength : (bundled f ++ rest).length = 44 + f.length + rest.length := by
    rw [List.length_append, length_bundled]
  have hsum : m.checkedAdd 44 f.length = some (44 + f.length) := m.checkedAdd_small (by omega)
  unfold Message.read
  rw [bundled_fields m h.2 rest]
  dsimp only
  rw [dif_neg (by omega)]
  split
  · rename_i hnone
    rw [hsum] at hnone
    cases hnone
  · rename_i last hlast
    obtain rfl := Option.some.inj (hsum.symm.trans hlast)
    rw [dif_neg (Nat.lt_irrefl _), bundled_metadata]
    exact ⟨_, rfl, rfl, bundled_data f rest⟩

/-- The loop at the start of a packet takes its frame. -/
theorem framesFrom_bundled (m : Machine) (h : 14 ≤ f.length ∧ f.length ≤ 1514)
    (done rest : List UInt8) {result : List (List UInt8)} (hroom : result.length + 1 ≤ 32) :
    framesFrom m (done ++ (bundled f ++ rest)) done.length result =
      framesFrom m (done ++ (bundled f ++ rest)) (done.length + (bundled f).length)
        (result ++ [f]) := by
  have hlength : (bundled f ++ rest).length = 44 + f.length + rest.length := by
    rw [List.length_append, length_bundled]
  have hmore : ¬ finished (done ++ (bundled f ++ rest)) done.length := by
    rintro (⟨-, -, hone⟩ | hzero)
    · rw [List.length_append] at hone
      omega
    · rw [List.drop_left] at hzero
      exact absurd (hzero 1 (by simp [bundled, words, Words.little])) (by decide)
  obtain ⟨message, hread, htotal, hslice⟩ :
      ∃ message : Message ((done ++ (bundled f ++ rest)).drop done.length),
        Message.read m ((done ++ (bundled f ++ rest)).drop done.length) = some (.ok message) ∧
          message.total = 44 + f.length ∧
          slice ((done ++ (bundled f ++ rest)).drop done.length) message.offset
            (message.offset + message.len) = some f := by
    rw [List.drop_left]
    exact read_bundled m h rest
  conv_lhs => rw [framesFrom]
  rw [dif_pos (by rw [List.length_append]; omega), if_neg hmore, hread]
  dsimp only
  rw [hslice]
  dsimp only
  rw [if_neg (by rw [List.length_append, List.length_singleton]; omega), htotal, length_bundled]

theorem framesFrom_packets (m : Machine) {list : List (List UInt8)}
    (h : ∀ f ∈ list, 14 ≤ f.length ∧ f.length ≤ 1514) (done tail : List UInt8)
    (htail : Padding (done ++ list.flatMap bundled) tail) {result : List (List UInt8)}
    (hroom : result.length + list.length ≤ 32) :
    framesFrom m (done ++ (list.flatMap bundled ++ tail)) done.length result =
      some (.ok (result ++ list)) := by
  induction list generalizing done result with
  | nil =>
    rw [List.flatMap_nil, List.append_nil] at htail
    rw [List.flatMap_nil, List.nil_append, List.append_nil, framesFrom]
    split_ifs with hp hfinished
    · rfl
    · refine absurd ?_ hfinished
      rcases htail with ⟨n, rfl⟩ | ⟨hdone, hfull, hone⟩
      · right
        rw [List.drop_left]
        exact fun x hx => List.eq_of_mem_replicate hx
      · left
        exact ⟨List.length_pos_iff.mpr hdone, hfull, by rw [List.length_append]; omega⟩
    · rfl
  | cons f fs ih =>
    rw [List.length_cons] at hroom
    have hf := h f List.mem_cons_self
    have hfs : ∀ g ∈ fs, 14 ≤ g.length ∧ g.length ≤ 1514 := fun g hg =>
      h g (List.mem_cons_of_mem f hg)
    rw [List.flatMap_cons] at htail
    rw [List.flatMap_cons, List.append_assoc, framesFrom_bundled m hf done _ (by omega),
      ← List.append_assoc done, ← List.length_append,
      ih hfs (done ++ bundled f) (by rwa [List.append_assoc])
        (by rw [List.length_append, List.length_singleton]; omega), List.append_assoc]
    rfl

theorem frames_packets (m : Machine) {list : List (List UInt8)} {bytes tail : List UInt8}
    (hlist : list.length ≤ 32) (h : ∀ f ∈ list, 14 ≤ f.length ∧ f.length ≤ 1514)
    (hbytes : transfer list = .ok bytes) (htail : Padding bytes tail) :
    frames m (bytes ++ tail) = some (.ok list) := by
  rw [transfer_eq h] at hbytes
  obtain rfl := Except.ok.inj hbytes
  exact framesFrom_packets m h [] tail htail (by rwa [List.length_nil, Nat.zero_add])

/-! ## Packet by packet -/

/-- Full USB packets are kept, and the short one after them ends the transfer. -/
theorem push_transfer (m : Machine) {fulls : List (List UInt8)} {last : List UInt8}
    (hfulls : ∀ c ∈ fulls, c.length = 64) (hlast : last.length < 64) (s : BulkInput)
    (hfits : (s.pending ++ fulls.flatten ++ last).length ≤ 1580) :
    Runs.log (fun s c => (BulkInput.push m s c).1) (fun s c => [(s.push m c).2]) s
        (fulls ++ [last]) =
      List.replicate fulls.length (some (.ok [])) ++
        [frames m (s.pending ++ fulls.flatten ++ last)] ∧
      Runs.run (fun s c => (BulkInput.push m s c).1) s (fulls ++ [last]) = .default := by
  induction fulls generalizing s with
  | nil =>
    rw [List.flatten_nil, List.append_nil, List.length_append] at hfits
    have hpush : s.push m last = (⟨[]⟩, frames m (s.pending ++ last)) := by
      unfold BulkInput.push
      rw [if_neg (by omega), if_neg (by omega)]
    simp only [List.nil_append, Runs.log, Runs.run, hpush, List.flatten_nil, List.append_nil]
    exact ⟨rfl, rfl⟩
  | cons c cs ih =>
    have hc := hfulls c List.mem_cons_self
    have happend : s.pending ++ (c :: cs).flatten = s.pending ++ c ++ cs.flatten := by
      rw [List.flatten_cons, List.append_assoc]
    rw [happend] at hfits ⊢
    have hpush : s.push m c = (⟨s.pending ++ c⟩, some (.ok [])) := by
      unfold BulkInput.push
      simp only [List.length_append] at hfits
      rw [if_neg (by omega), if_pos hc]
    obtain ⟨hlog, hrun⟩ := ih (fun d hd => hfulls d (List.mem_cons_of_mem c hd)) _ hfits
    simp only [List.cons_append, Runs.log, Runs.run, hpush, hlog, hrun, List.length_cons,
      List.replicate_succ]
    exact ⟨rfl, trivial⟩

/-! ## The carrier -/

/-- Frames that have been packed come back from a padded transfer, whole or in USB packets. From any
transfer only data are taken that a message in it declares. -/
theorem carrier_round_trip (m : Machine) (list : List (List UInt8)) (hlist : list.length ≤ 32)
    (hsize : ∀ f ∈ list, 14 ≤ f.length ∧ f.length ≤ 1514) :
    (∃ bytes, transfer list = .ok bytes ∧ ∀ tail, Padding bytes tail →
      frames m (bytes ++ tail) = some (.ok list) ∧
      ((bytes ++ tail).length ≤ 1580 →
        completeTransferFrames m (bytes ++ tail) = some (.ok list) ∧
        ∀ fulls last, (∀ c ∈ fulls, c.length = 64) → last.length < 64 →
          fulls.flatten ++ last = bytes ++ tail →
          Runs.log (fun s c => (BulkInput.push m s c).1) (fun s c => [(s.push m c).2]) .default
              (fulls ++ [last]) =
            List.replicate fulls.length (some (.ok [])) ++ [some (.ok list)] ∧
          Runs.run (fun s c => (BulkInput.push m s c).1) .default (fulls ++ [last]) = .default)) ∧
    ∀ b, ∃ r, frames m b = some r ∧
      ∀ out, r = .ok out → out.length ≤ 32 ∧ Declared b 0 out := by
  refine ⟨⟨_, transfer_eq hsize, fun tail htail => ?_⟩, fun b => ?_⟩
  · have hframes := frames_packets m hlist hsize (transfer_eq hsize) htail
    refine ⟨hframes, fun hfits => ⟨?_, fun fulls last hfulls hlast hcut => ?_⟩⟩
    · rw [completeTransferFrames, if_neg (Nat.not_lt.mpr hfits), hframes]
    · have hpending : BulkInput.default.pending ++ fulls.flatten ++ last =
          list.flatMap bundled ++ tail := hcut
      have hpush := push_transfer m hfulls hlast .default (by rw [hpending]; exact hfits)
      rwa [hpending, hframes] at hpush
  · obtain ⟨r, hr, hout⟩ := framesFrom_declared m b 0 [] (Nat.zero_le 32)
    refine ⟨r, hr, fun out h => ?_⟩
    obtain ⟨hcount, fs, rfl, hdeclared⟩ := hout out h
    exact ⟨hcount, hdeclared⟩

def machine64 : Machine := ⟨64, by decide⟩

theorem carrier_round_trip_pair :
    ∃ bytes, transfer [List.replicate 60 0x41, List.replicate 14 0] = .ok bytes ∧
      frames machine64 (bytes ++ [0, 0, 0]) =
        some (.ok [List.replicate 60 0x41, List.replicate 14 0]) := by
  obtain ⟨bytes, hbytes, h⟩ := (carrier_round_trip machine64
    [List.replicate 60 0x41, List.replicate 14 0] (by decide) (by decide)).1
  exact ⟨bytes, hbytes, (h [0, 0, 0] (Or.inl ⟨3, rfl⟩)).1⟩

/-- One byte that follows no packet is no padding. -/
theorem lone_byte_rejected : transfer [] = .ok [] ∧ ([] : List UInt8).length % 64 = 0 ∧
    frames machine64 ([] ++ [0xb8]) ≠ some (.ok []) := by
  refine ⟨rfl, rfl, ?_⟩
  have hread : Message.read machine64 (([0xb8] : List UInt8).drop 0) =
      some (.error invalidHeader) := rfl
  rw [List.nil_append, frames, framesFrom, dif_pos (by decide), if_neg (by decide), hread]
  nofun

end OpenSaab.Rndis
