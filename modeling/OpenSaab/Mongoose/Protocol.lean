import OpenSaab.Library.Stream
import OpenSaab.Library.Words

/-!
# Mongoose records

`adapters/mongoose/protocol.rs`: records on the USB stream. The header starts with the length of what
follows the first four bytes, and with that length once more under a mask.
-/

namespace OpenSaab.Mongoose

def headerBytes : Nat := 16

def lengthXor : UInt16 := 0x51e6

def maxRecordBytes : Nat := 0x1800 + 4

structure Record where
  destination : UInt16
  source : UInt16
  opcode : UInt16
  sequence : UInt16
  auxiliary : List UInt8
  body : List UInt8
  fixed : auxiliary.length = 4
  deriving DecidableEq

def u16le (b : List UInt8) (p : Nat) : UInt16 := UInt16.ofNat (Words.ofLittle ((b.drop p).take 2))

/-- `u16::to_le_bytes`. -/
def half (n : UInt16) : List UInt8 := Words.little 2 n.toNat

def Record.decode (bytes : List UInt8) : Except String Record :=
  if h : headerBytes ≤ bytes.length ∧ bytes.length ≤ maxRecordBytes then
    let length := u16le bytes 0
    if length.toNat + 4 ≠ bytes.length ∨ u16le bytes 2 ≠ length ^^^ lengthXor then
      .error "Mongoose length/XOR mismatch"
    else
      .ok { destination := u16le bytes 4, source := u16le bytes 6, opcode := u16le bytes 8,
            sequence := u16le bytes 10, auxiliary := (bytes.drop 12).take 4, body := bytes.drop 16,
            fixed := by
              have hheader : headerBytes = 16 := rfl
              rw [List.length_take, List.length_drop]
              omega }
  else .error "Mongoose record size outside bounds"

def Record.encode (r : Record) : Except String (List UInt8) :=
  let size := headerBytes + r.body.length
  if maxRecordBytes < size then .error "Mongoose record size outside bounds"
  else
    let length := UInt16.ofNat (size - 4)
    .ok (half length ++ half (length ^^^ lengthXor) ++ half r.destination ++ half r.source ++
      half r.opcode ++ half r.sequence ++ r.auxiliary ++ r.body)

/-! ## The decoder -/

def invalidHeader : String := "Invalid Mongoose stream header"

/-- How long the pending bytes are to become, as far as they show. -/
def target (pending : List UInt8) : Except String Nat :=
  if pending.length < 4 then .ok 4
  else
    let length := u16le pending 0
    if u16le pending 2 ≠ length ^^^ lengthXor ∨
        ¬ (headerBytes ≤ length.toNat + 4 ∧ length.toNat + 4 ≤ maxRecordBytes) then
      .error invalidHeader
    else .ok (length.toNat + 4)

def Unfinished (pending : List UInt8) : Prop := ∀ t, target pending = .ok t → pending.length < t

structure Decoder where
  pending : List UInt8
  failed : Bool
  unfinished : Unfinished pending

theorem target_ok {pending : List UInt8} {t : Nat} (h : target pending = .ok t) :
    pending.length < 4 ∧ t = 4 ∨ 4 ≤ pending.length ∧ headerBytes ≤ t ∧ t ≤ maxRecordBytes ∧
      t = (u16le pending 0).toNat + 4 ∧ u16le pending 2 = u16le pending 0 ^^^ lengthXor := by
  unfold target at h
  dsimp only at h
  split_ifs at h with hshort hbad
  · exact Or.inl ⟨hshort, (Except.ok.inj h).symm⟩
  · rw [not_or, not_not, not_not] at hbad
    obtain ⟨hmask, hmin, hmax⟩ := hbad
    obtain rfl := Except.ok.inj h
    exact Or.inr ⟨Nat.le_of_not_lt hshort, hmin, hmax, rfl, hmask⟩

theorem unfinished_nil : Unfinished [] := by
  intro t h
  rcases target_ok h with ⟨-, rfl⟩ | ⟨h, -⟩
  · decide
  · exact absurd h (by decide)

theorem u16le_append {pending : List UInt8} (xs : List UInt8) {p : Nat} (h : p + 2 ≤ pending.length) :
    u16le (pending ++ xs) p = u16le pending p := by
  unfold u16le
  rw [List.drop_append_of_le_length (by omega), List.take_append_of_le_length]
  rw [List.length_drop]
  omega

/-- More bytes do not change what a header has shown. -/
theorem target_append {pending : List UInt8} (xs : List UInt8) (h : 4 ≤ pending.length) :
    target (pending ++ xs) = target pending := by
  have hlong : ¬ pending.length < 4 := Nat.not_lt.mpr h
  have hmore : ¬ (pending ++ xs).length < 4 := by
    rw [List.length_append]
    omega
  have hlength := u16le_append xs (show 0 + 2 ≤ pending.length by omega)
  have hmask := u16le_append xs (show 2 + 2 ≤ pending.length by omega)
  rw [target, target, if_neg hlong, if_neg hmore, hlength, hmask]

theorem target_short {pending xs : List UInt8} {t : Nat} (h : target pending = .ok t)
    (hlt : pending.length + xs.length < t) : target (pending ++ xs) = .ok t := by
  rcases target_ok h with ⟨hshort, rfl⟩ | ⟨hlong, -⟩
  · exact if_pos (by rwa [List.length_append])
  · rw [target_append xs hlong, h]

/-- The part of a chunk that is taken does not complete a record, or it completes the length only. -/
theorem unfinished_append {pending xs : List UInt8} {t : Nat} (h : target pending = .ok t)
    (hle : pending.length + xs.length ≤ t) (hmore : pending.length + xs.length = t → t = 4) :
    Unfinished (pending ++ xs) := by
  intro t' h'
  have hheader : headerBytes = 16 := rfl
  rw [List.length_append]
  by_cases hlt : pending.length + xs.length < t
  · rw [target_short h hlt] at h'
    rw [← Except.ok.inj h']
    exact hlt
  · have ht : t = 4 := hmore (by omega)
    rcases target_ok h' with ⟨hshort, -⟩ | ⟨-, hmin, -⟩
    · rw [List.length_append] at hshort
      omega
    · omega

def Decoder.default : Decoder := ⟨[], false, unfinished_nil⟩

theorem length_taken {pending : List UInt8} {t : Nat} (h : pending.length < t) (bytes : List UInt8) :
    pending.length + (bytes.take (min (t - pending.length) bytes.length)).length ≤ t := by
  rw [List.length_take]
  omega

/-- The loop over the bytes of a chunk: the decoder after it and the records. -/
def consume (pending : List UInt8) (h : Unfinished pending) (bytes : List UInt8) :
    Except String (Decoder × List Record) :=
  if _hbytes : bytes = [] then .ok (⟨pending, false, h⟩, [])
  else
    match ht : target pending with
    | .error e => .error e
    | .ok t =>
      let n := min (t - pending.length) bytes.length
      if hwhole : (pending ++ bytes.take n).length = t ∧ t ≠ 4 then do
        let record ← Record.decode (pending ++ bytes.take n)
        let (d, records) ← consume [] unfinished_nil (bytes.drop n)
        .ok (d, record :: records)
      else
        consume (pending ++ bytes.take n)
          (unfinished_append ht (length_taken (h t ht) bytes) fun heq => by
            rw [List.length_append, not_and_not_right] at hwhole
            exact hwhole heq)
          (bytes.drop n)
termination_by bytes.length
decreasing_by
  all_goals
    have hpos : bytes.length ≠ 0 := fun h0 => _hbytes (List.length_eq_zero_iff.mp h0)
    have hlt := h t ht
    rw [List.length_drop]
    omega

def terminal : String := "Mongoose decoder is terminal"

def Decoder.stop (_ : Decoder) : Decoder := ⟨[], true, unfinished_nil⟩

def Decoder.push (d : Decoder) (bytes : List UInt8) : Decoder × Except String (List Record) :=
  if d.failed then (d, .error terminal)
  else
    match consume d.pending d.unfinished bytes with
    | .ok (d', records) => (d', .ok records)
    | .error e => (d.stop, .error e)

def Decoder.finish (d : Decoder) : Except String Unit :=
  if d.failed ∨ d.pending ≠ [] then .error "Failed or incomplete Mongoose stream" else .ok ()

def Decoder.next (d : Decoder) (bytes : List UInt8) : Decoder := (d.push bytes).1

/-! ## Byte by byte -/

/-- What the loop makes of one byte. -/
def Decoder.byte (d : Decoder) (b : UInt8) : Decoder × Except String (List Record) :=
  match ht : target d.pending with
  | .error e => (d, .error e)
  | .ok t =>
    if hwhole : (d.pending ++ [b]).length = t ∧ t ≠ 4 then
      (⟨[], d.failed, unfinished_nil⟩, (Record.decode (d.pending ++ [b])).map fun r => [r])
    else
      (⟨d.pending ++ [b], d.failed, unfinished_append ht (d.unfinished t ht) fun heq => by
        rw [List.length_append, not_and_not_right] at hwhole
        exact hwhole heq⟩, .ok [])

variable {pending xs : List UInt8} {f : Bool} {h : Unfinished pending} {t : Nat}

theorem byte_error {e : String} (ht : target pending = .error e) (b : UInt8) :
    Decoder.byte ⟨pending, f, h⟩ b = (⟨pending, f, h⟩, .error e) := by
  unfold Decoder.byte
  split
  · rename_i e' he
    rw [ht] at he
    rw [Except.error.inj he]
  · rename_i t' ht'
    rw [ht] at ht'
    cases ht'

theorem byte_more (ht : target pending = .ok t) {b : UInt8} (hmore : pending.length + 1 = t → t = 4)
    (h' : Unfinished (pending ++ [b])) :
    Decoder.byte ⟨pending, f, h⟩ b = (⟨pending ++ [b], f, h'⟩, .ok []) := by
  unfold Decoder.byte
  split
  · rename_i e he
    rw [ht] at he
    cases he
  · rename_i t' ht'
    obtain rfl := Except.ok.inj (ht.symm.trans ht')
    rw [dif_neg (by rw [List.length_append, not_and_not_right]; exact hmore)]

theorem byte_whole (ht : target pending = .ok t) {b : UInt8} (hwhole : pending.length + 1 = t)
    (hrecord : t ≠ 4) : Decoder.byte ⟨pending, f, h⟩ b =
      (⟨[], f, unfinished_nil⟩, (Record.decode (pending ++ [b])).map fun r => [r]) := by
  unfold Decoder.byte
  split
  · rename_i e he
    rw [ht] at he
    cases he
  · rename_i t' ht'
    obtain rfl := Except.ok.inj (ht.symm.trans ht')
    rw [dif_pos ⟨by rw [List.length_append]; exact hwhole, hrecord⟩]

/-- Bytes that do not complete a record are kept. -/
theorem feed_more (ht : target pending = .ok t) (hle : pending.length + xs.length ≤ t)
    (hmore : pending.length + xs.length = t → t = 4) (h' : Unfinished (pending ++ xs)) :
    Stream.feed Decoder.byte ⟨pending, f, h⟩ xs = (⟨pending ++ xs, f, h'⟩, .ok []) := by
  induction xs generalizing pending with
  | nil => simp only [Stream.feed, List.append_nil]
  | cons x xs ih =>
    rw [List.length_cons] at hle hmore
    have hfirst : pending.length + 1 = t → t = 4 := fun heq => hmore (by omega)
    have hone : Unfinished (pending ++ [x]) :=
      unfinished_append ht (by rw [List.length_singleton]; omega) hfirst
    have hbyte := byte_more (f := f) (h := h) ht hfirst hone
    by_cases hlast : xs = []
    · subst hlast
      exact Stream.feed_single hbyte
    · have hpos : xs.length ≠ 0 := fun h0 => hlast (List.length_eq_zero_iff.mp h0)
      have hsame : target (pending ++ [x]) = .ok t :=
        target_short ht (by rw [List.length_singleton]; omega)
      have hlen : (pending ++ [x]).length = pending.length + 1 := by simp
      have happend : pending ++ (x :: xs) = pending ++ [x] ++ xs := by simp
      have hrest := ih (h := hone) hsame (by omega) (fun heq => hmore (by omega)) (happend ▸ h')
      rw [Stream.feed_cons_ok hbyte, hrest]
      simp only [happend]
      rfl

/-- The bytes that complete a record. -/
theorem feed_whole (ht : target pending = .ok t) (hwhole : pending.length + xs.length = t)
    (hrecord : t ≠ 4) : Stream.feed Decoder.byte ⟨pending, f, h⟩ xs =
      (⟨[], f, unfinished_nil⟩, (Record.decode (pending ++ xs)).map fun r => [r]) := by
  rcases List.eq_nil_or_concat xs with rfl | ⟨ys, b, rfl⟩
  · exact absurd hwhole (Nat.ne_of_lt (h t ht))
  · rw [List.concat_eq_append, List.length_append, List.length_singleton] at hwhole
    have hys : Unfinished (pending ++ ys) := unfinished_append ht (by omega) fun heq => by omega
    have hfeed := feed_more (f := f) (h := h) ht (by omega) (fun heq => by omega) hys
    have hsame : target (pending ++ ys) = .ok t := target_short ht (by omega)
    have hbyte := byte_whole (f := f) (h := hys) (b := b) hsame
      (by rw [List.length_append]; omega) hrecord
    rw [List.concat_eq_append, Stream.feed_append_ok hfeed, ← List.append_assoc]
    cases hdecode : Record.decode (pending ++ ys ++ [b]) with
    | error e =>
      rw [hdecode] at hbyte
      rw [Stream.feed_cons_error hbyte]
      rfl
    | ok r =>
      rw [hdecode] at hbyte
      rw [Stream.feed_single hbyte]
      rfl

/-- The loop reads byte by byte. -/
theorem consume_eq (pending : List UInt8) (h : Unfinished pending) (bytes : List UInt8) :
    consume pending h bytes =
      (Stream.feed Decoder.byte ⟨pending, false, h⟩ bytes).2.map
        ((Stream.feed Decoder.byte ⟨pending, false, h⟩ bytes).1, ·) := by
  induction hn : bytes.length using Nat.strongRecOn generalizing pending bytes with
  | ind n ih =>
    rw [consume]
    split
    · rename_i hnil
      subst hnil
      rfl
    rename_i hbytes
    have hpos : bytes.length ≠ 0 := fun h0 => hbytes (List.length_eq_zero_iff.mp h0)
    split
    · rename_i e he
      obtain ⟨b, bs, rfl⟩ := List.exists_cons_of_ne_nil hbytes
      rw [Stream.feed_cons_error (byte_error he b)]
      rfl
    · rename_i t ht
      have hlt := h t ht
      have htaken := length_taken hlt bytes
      have hrest : (bytes.drop (min (t - pending.length) bytes.length)).length < n := by
        rw [List.length_drop]
        omega
      conv_rhs => rw [← List.take_append_drop (min (t - pending.length) bytes.length) bytes]
      dsimp only
      split
      · rename_i hwhole
        rw [List.length_append] at hwhole
        have hxs := feed_whole (f := false) (h := h) ht hwhole.1 hwhole.2
        cases hdecode : Record.decode
            (pending ++ bytes.take (min (t - pending.length) bytes.length)) with
        | error e =>
          rw [hdecode] at hxs
          rw [Stream.feed_append_error hxs]
          rfl
        | ok r =>
          rw [hdecode] at hxs
          rw [Stream.feed_append_ok hxs, ih _ hrest [] unfinished_nil _ rfl]
          generalize Stream.feed Decoder.byte ⟨[], false, unfinished_nil⟩ _ = last
          obtain ⟨d, _ | out⟩ := last
          · rfl
          · rfl
      · rename_i hmore
        rw [List.length_append, not_and_not_right] at hmore
        have hxs := feed_more (f := false) (h := h) ht htaken hmore
          (unfinished_append ht htaken hmore)
        rw [Stream.feed_append_ok hxs, Stream.map_nil_append]
        exact ih _ hrest _ _ _ rfl

/-- A decoder is a reader that remembers a failure. -/
theorem push_eq : Decoder.push = Stream.latch Decoder.byte Decoder.failed Decoder.stop terminal := by
  funext d bytes
  obtain ⟨pending, failed, h⟩ := d
  unfold Decoder.push Stream.latch
  cases failed with
  | true => rfl
  | false =>
    rw [consume_eq]
    generalize Stream.feed Decoder.byte ⟨pending, false, h⟩ bytes = r
    obtain ⟨d, _ | out⟩ := r
    · rfl
    · rfl

theorem next_eq : Decoder.next = Stream.next Decoder.byte Decoder.failed Decoder.stop terminal := by
  funext d bytes
  rw [Decoder.next, push_eq, Stream.next]

/-- The records of a chunk. -/
def Decoder.records (d : Decoder) (bytes : List UInt8) : List Record :=
  match (d.push bytes).2 with
  | .ok records => records
  | .error _ => []

theorem records_eq :
    Decoder.records = Stream.produced Decoder.byte Decoder.failed Decoder.stop terminal := by
  funext d bytes
  rw [Decoder.records, push_eq, Stream.produced]
  cases (Stream.latch Decoder.byte Decoder.failed Decoder.stop terminal d bytes).2 with
  | ok out => rfl
  | error e => rfl

theorem byte_failed (d : Decoder) (b : UInt8) : (d.byte b).1.failed = d.failed := by
  unfold Decoder.byte
  split
  · rfl
  · split
    · rfl
    · rfl

theorem stop_failed (d : Decoder) : d.stop.failed = true := rfl

/-- The state after a stream does not depend on its cuts. -/
theorem run_chunks (d : Decoder) (chunks : List (List UInt8)) :
    Runs.run Decoder.next d chunks = d.next chunks.flatten := by
  rw [next_eq, Stream.run_next byte_failed stop_failed]

/-- Nor do the records of a stream that is read to its end. -/
theorem log_chunks (d : Decoder) (chunks : List (List UInt8))
    (h : (d.next chunks.flatten).failed = false) :
    Runs.log Decoder.next Decoder.records d chunks = d.records chunks.flatten := by
  rw [next_eq] at h ⊢
  rw [records_eq, Stream.log_produced byte_failed stop_failed d chunks h]

/-! ## What the encoder writes is read back -/

theorem length_half (n : UInt16) : (half n).length = 2 := Words.length_little 2 n.toNat

theorem ofLittle_half (n : UInt16) : UInt16.ofNat (Words.ofLittle (half n)) = n := by
  rw [half, Words.ofLittle_little n.toNat_lt, UInt16.ofNat_toNat]

/-- The fields of a header, by their places. -/
theorem header_slices {a b c d e f g : List UInt8} (body : List UInt8) (ha : a.length = 2) (hb : b.length = 2)
    (hc : c.length = 2) (hd : d.length = 2) (he : e.length = 2) (hf : f.length = 2)
    (hg : g.length = 4) :
    let wire := a ++ b ++ c ++ d ++ e ++ f ++ g ++ body
    (wire.drop 0).take 2 = a ∧ (wire.drop 2).take 2 = b ∧ (wire.drop 4).take 2 = c ∧
      (wire.drop 6).take 2 = d ∧ (wire.drop 8).take 2 = e ∧ (wire.drop 10).take 2 = f ∧
      (wire.drop 12).take 4 = g ∧ wire.drop 16 = body ∧ wire.length = 16 + body.length := by
  match a, b, c, d, e, f, g, ha, hb, hc, hd, he, hf, hg with
  | [_, _], [_, _], [_, _], [_, _], [_, _], [_, _], [_, _, _, _], _, _, _, _, _, _, _ =>
    refine ⟨rfl, rfl, rfl, rfl, rfl, rfl, rfl, rfl, ?_⟩
    simp only [List.cons_append, List.nil_append, List.length_cons]
    omega

theorem encode_fields {r : Record} {wire : List UInt8} (h : r.encode = .ok wire) :
    wire.length = headerBytes + r.body.length ∧ wire.length ≤ maxRecordBytes ∧
      (u16le wire 0).toNat + 4 = wire.length ∧ u16le wire 2 = u16le wire 0 ^^^ lengthXor ∧
      u16le wire 4 = r.destination ∧ u16le wire 6 = r.source ∧ u16le wire 8 = r.opcode ∧
      u16le wire 10 = r.sequence ∧ (wire.drop 12).take 4 = r.auxiliary ∧
      wire.drop 16 = r.body := by
  unfold Record.encode at h
  dsimp only at h
  split_ifs at h with hlong
  obtain rfl := Except.ok.inj h
  have hheader : headerBytes = 16 := rfl
  have hmax : maxRecordBytes = 6148 := rfl
  obtain ⟨h0, h2, h4, h6, h8, h10, h12, h16, hlen⟩ := header_slices r.body
    (length_half (UInt16.ofNat (headerBytes + r.body.length - 4)))
    (length_half (UInt16.ofNat (headerBytes + r.body.length - 4) ^^^ lengthXor))
    (length_half r.destination) (length_half r.source) (length_half r.opcode)
    (length_half r.sequence) r.fixed
  have hfits : (UInt16.ofNat (headerBytes + r.body.length - 4)).toNat =
      headerBytes + r.body.length - 4 := by
    rw [UInt16.toNat_ofNat']
    exact Nat.mod_eq_of_lt (by omega)
  unfold u16le
  rw [h0, h2, h4, h6, h8, h10, h12, h16, hlen, ofLittle_half, ofLittle_half, ofLittle_half,
    ofLittle_half, ofLittle_half, ofLittle_half, hfits]
  exact ⟨rfl, by omega, by omega, rfl, rfl, rfl, rfl, rfl, rfl, rfl⟩

theorem decode_encode {r : Record} {wire : List UInt8} (h : r.encode = .ok wire) :
    Record.decode wire = .ok r := by
  obtain ⟨hlen, hmax, hlength, hmask, hdestination, hsource, hopcode, hsequence, haux, hbody⟩ :=
    encode_fields h
  unfold Record.decode
  rw [dif_pos ⟨by omega, hmax⟩]
  dsimp only
  rw [if_neg (by rw [not_or, not_not, not_not]; exact ⟨hlength, hmask⟩)]
  congr 1
  obtain ⟨destination, source, opcode, sequence, auxiliary, body, fixed⟩ := r
  dsimp only at hdestination hsource hopcode hsequence haux hbody
  subst hdestination hsource hopcode hsequence haux hbody
  rfl

theorem half_u16le {bytes : List UInt8} {p : Nat} (h : p + 2 ≤ bytes.length) :
    half (u16le bytes p) = (bytes.drop p).take 2 := by
  have hlen : ((bytes.drop p).take 2).length = 2 := by
    rw [List.length_take, List.length_drop]
    omega
  have hlt := Words.ofLittle_lt ((bytes.drop p).take 2)
  rw [hlen] at hlt
  have hback := Words.little_ofLittle ((bytes.drop p).take 2)
  rw [hlen] at hback
  have hfits : Words.ofLittle ((bytes.drop p).take 2) % 2 ^ 16 =
      Words.ofLittle ((bytes.drop p).take 2) := Nat.mod_eq_of_lt hlt
  rw [half, u16le, UInt16.toNat_ofNat', hfits, hback]

theorem take_drop_cut (bytes : List UInt8) (p m : Nat) :
    (bytes.drop p).take m ++ bytes.drop (p + m) = bytes.drop p := by
  rw [← List.drop_drop]
  exact List.take_append_drop m (bytes.drop p)

/-- Only what a record encodes to is decoded as this record. -/
theorem encode_decode {r : Record} {bytes : List UInt8} (h : Record.decode bytes = .ok r) :
    r.encode = .ok bytes := by
  have hheader : headerBytes = 16 := rfl
  unfold Record.decode at h
  split at h
  · rename_i hsize
    dsimp only at h
    split at h
    · cases h
    rename_i hwords
    rw [not_or, not_not, not_not] at hwords
    obtain ⟨hlength, hmask⟩ := hwords
    obtain rfl := Except.ok.inj h
    have hbody : (bytes.drop 16).length = bytes.length - 16 := List.length_drop
    have hlengthWord : UInt16.ofNat (headerBytes + (bytes.drop 16).length - 4) = u16le bytes 0 := by
      apply UInt16.toNat_inj.mp
      have hlt := (u16le bytes 0).toNat_lt
      rw [UInt16.toNat_ofNat', Nat.mod_eq_of_lt (by omega)]
      omega
    unfold Record.encode
    dsimp only
    rw [if_neg (by omega), hlengthWord, ← hmask]
    congr 1
    have hcut (p : Nat) (hp : p + 2 ≤ bytes.length) :
        half (u16le bytes p) ++ bytes.drop (p + 2) = bytes.drop p := by
      rw [half_u16le hp, take_drop_cut]
    simp only [List.append_assoc]
    rw [take_drop_cut bytes 12 4, hcut 10 (by omega), hcut 8 (by omega), hcut 6 (by omega),
      hcut 4 (by omega), hcut 2 (by omega), hcut 0 (by omega), List.drop_zero]
  · cases h

theorem feed_encode {r : Record} {wire : List UInt8} (h : r.encode = .ok wire) :
    Stream.feed Decoder.byte .default wire = (.default, .ok [r]) := by
  obtain ⟨hlen, hmax, hlength, hmask, -⟩ := encode_fields h
  have hheader : headerBytes = 16 := rfl
  have hfour : (wire.take 4).length = 4 := by
    rw [List.length_take]
    omega
  have htarget : target wire = .ok wire.length := by
    unfold target
    dsimp only
    rw [if_neg (by omega), if_neg, hlength]
    rw [not_or, not_not, not_not, hlength]
    exact ⟨hmask, by omega, hmax⟩
  have hstart : target (wire.take 4) = .ok wire.length := by
    rw [← target_append (wire.drop 4) (Nat.le_of_eq hfour.symm), List.take_append_drop, htarget]
  have hempty : target [] = .ok 4 := rfl
  have hle : ([] : List UInt8).length + (wire.take 4).length ≤ 4 := by
    rw [hfour]
    decide
  have hfirst := feed_more (f := false) (h := unfinished_nil) hempty hle (fun _ => rfl)
    (unfinished_append hempty hle fun _ => rfl)
  have hlast : ([] ++ wire.take 4).length + (wire.drop 4).length = wire.length := by
    rw [List.nil_append, List.length_drop]
    omega
  have hrest := feed_whole (f := false) (h := unfinished_append hempty hle fun _ => rfl) hstart
    hlast (by omega)
  have hwire : [] ++ wire.take 4 ++ wire.drop 4 = wire := List.take_append_drop 4 wire
  rw [hwire, decode_encode h] at hrest
  have hboth := Stream.feed_append_eq hfirst hrest
  rwa [List.take_append_drop] at hboth

theorem feed_all {records : List Record} {wires : List (List UInt8)}
    (h : records.map Record.encode = wires.map .ok) :
    Stream.feed Decoder.byte .default wires.flatten = (.default, .ok records) := by
  induction records generalizing wires with
  | nil =>
    cases wires with
    | nil => rfl
    | cons wire wires => cases h
  | cons r records ih =>
    cases wires with
    | nil => cases h
    | cons wire wires =>
      obtain ⟨hwire, hrest⟩ := List.cons.inj h
      exact Stream.feed_append_eq (feed_encode hwire) (ih hrest)

theorem push_failed {d : Decoder} (h : d.failed = true) (bytes : List UInt8) :
    d.push bytes = (d, .error terminal) := if_pos h

theorem push_error {d : Decoder} {chunk : List UInt8} {e : String}
    (h : (d.push chunk).2 = .error e) : (d.next chunk).failed = true := by
  unfold Decoder.next
  unfold Decoder.push at h ⊢
  by_cases hfailed : d.failed = true
  · rw [if_pos hfailed]
    exact hfailed
  · rw [if_neg hfailed] at h ⊢
    cases hconsume : consume d.pending d.unfinished chunk with
    | error e => rfl
    | ok r =>
      rw [hconsume] at h
      cases h

theorem run_failed {d : Decoder} (h : d.failed = true) (chunks : List (List UInt8)) :
    Runs.run Decoder.next d chunks = d := by
  induction chunks with
  | nil => rfl
  | cons c cs ih =>
    have hnext : d.next c = d := by rw [Decoder.next, push_failed h]
    rw [Runs.run_cons, hnext, ih]

theorem each_ok {d : Decoder} {chunks : List (List UInt8)}
    (h : (Runs.run Decoder.next d chunks).failed = false) :
    Runs.Each Decoder.next (fun d chunk => ∃ out, (d.push chunk).2 = .ok out) d chunks := by
  induction chunks generalizing d with
  | nil => trivial
  | cons c cs ih =>
    refine ⟨?_, ih h⟩
    cases hpush : (d.push c).2 with
    | ok out => exact ⟨out, hpush⟩
    | error e =>
      have hfailed := push_error hpush
      rw [Runs.run_cons, run_failed hfailed, hfailed] at h
      cases h

/-- A header that has been let through is that of a record. -/
theorem decode_whole {pending : List UInt8} {t : Nat} (bytes : List UInt8)
    (h : target pending = .ok t) (hrecord : t ≠ 4) (hlen : (pending ++ bytes).length = t) : ∃ r, Record.decode (pending ++ bytes) = .ok r := by
  rcases target_ok h with ⟨-, hfour⟩ | ⟨hlong, hmin, hmax, ht, hmask⟩
  · exact absurd hfour hrecord
  · unfold Record.decode
    rw [dif_pos ⟨by omega, by omega⟩]
    dsimp only
    rw [u16le_append bytes (show 0 + 2 ≤ pending.length by omega),
      u16le_append bytes (show 2 + 2 ≤ pending.length by omega), if_neg]
    · exact ⟨_, rfl⟩
    · rw [not_or, not_not, not_not]
      exact ⟨by omega, hmask⟩

theorem byte_failure {d : Decoder} {b : UInt8} {e : String} (h : (d.byte b).2 = .error e) :
    e = invalidHeader := by
  obtain ⟨pending, failed, hpending⟩ := d
  cases ht : target pending with
  | error e' =>
    rw [byte_error ht] at h
    obtain rfl := Except.error.inj h
    unfold target at ht
    dsimp only at ht
    split_ifs at ht
    exact (Except.error.inj ht).symm
  | ok t =>
    by_cases hwhole : pending.length + 1 = t ∧ t ≠ 4
    · obtain ⟨r, hr⟩ := decode_whole [b] ht hwhole.2
        (by rw [List.length_append]; exact hwhole.1)
      rw [byte_whole ht hwhole.1 hwhole.2, hr] at h
      cases h
    · rw [not_and_not_right] at hwhole
      have hlt := hpending t ht
      have hone : Unfinished (pending ++ [b]) :=
        unfinished_append ht (by rw [List.length_singleton]; omega) hwhole
      rw [byte_more ht hwhole hone] at h
      cases h

/-- All streams fail for the same reason. -/
theorem push_failure {d : Decoder} {chunk : List UInt8} {e : String} (hd : d.failed = false)
    (h : (d.push chunk).2 = .error e) : e = invalidHeader := by
  have hfeed (d : Decoder) (bytes : List UInt8) {e : String}
      (h : (Stream.feed Decoder.byte d bytes).2 = .error e) : e = invalidHeader := by
    induction bytes generalizing d with
    | nil => cases h
    | cons b bs ih =>
      rcases hbyte : d.byte b with ⟨d', e' | out⟩
      · rw [Stream.feed_cons_error hbyte] at h
        rw [← Except.error.inj h]
        exact byte_failure (congrArg Prod.snd hbyte)
      · rw [Stream.feed_cons_ok hbyte] at h
        cases hrest : (Stream.feed Decoder.byte d' bs).2 with
        | error e'' =>
          rw [hrest] at h
          obtain rfl := Except.error.inj h
          exact ih d' hrest
        | ok more =>
          rw [hrest] at h
          cases h
  rw [push_eq] at h
  rcases hrun : Stream.feed Decoder.byte d chunk with ⟨d', e' | out⟩
  · rw [Stream.latch_error hd hrun] at h
    rw [← Except.error.inj h]
    exact hfeed d chunk (congrArg Prod.snd hrun)
  · rw [Stream.latch_ok hd hrun] at h
    cases h

/-! ## The codec -/

/-- Records come back from their encodings and from nothing else, a list of them in any chunks, and
what becomes of a stream does not depend on its cuts. -/
theorem records_in_any_chunks :
    (∀ (r : Record) (bytes : List UInt8), r.encode = .ok bytes ↔ Record.decode bytes = .ok r) ∧
    (∀ (records : List Record) (wires : List (List UInt8)),
      records.map Record.encode = wires.map .ok →
        ∀ chunks : List (List UInt8), chunks.flatten = wires.flatten →
          Runs.Each Decoder.next (fun d chunk => ∃ out, (d.push chunk).2 = .ok out) .default chunks ∧
          Runs.log Decoder.next Decoder.records .default chunks = records ∧
          (Runs.run Decoder.next .default chunks).finish = .ok ()) ∧
    (∀ (d : Decoder) (chunks chunks' : List (List UInt8)), chunks.flatten = chunks'.flatten →
      Runs.run Decoder.next d chunks = Runs.run Decoder.next d chunks') ∧
    (∀ (d : Decoder) (chunk : List UInt8) (e : String), d.failed = false →
      (d.push chunk).2 = .error e → e = invalidHeader ∧ (d.next chunk).failed = true) ∧
    (∀ d : Decoder, d.failed = true → ∀ chunks : List (List UInt8),
      Runs.run Decoder.next d chunks = d ∧
      Runs.Each Decoder.next (fun d chunk => (d.push chunk).2 = .error terminal) d chunks) := by
  refine ⟨fun r bytes => ⟨decode_encode, encode_decode⟩, ?_, ?_, ?_, ?_⟩
  · intro records wires hwires chunks hchunks
    have hlatch : Decoder.default.push chunks.flatten = (.default, .ok records) := by
      rw [push_eq, hchunks, Stream.latch_ok rfl (feed_all hwires)]
    have hnext : Decoder.default.next chunks.flatten = .default := by rw [Decoder.next, hlatch]
    refine ⟨?_, ?_, ?_⟩
    · exact each_ok (by rw [run_chunks, hnext]; rfl)
    · rw [log_chunks _ _ (by rw [hnext]; rfl), Decoder.records, hlatch]
    · rw [run_chunks, hnext]
      rfl
  · intro d chunks chunks' h
    rw [run_chunks, run_chunks, h]
  · intro d chunk e hd h
    exact ⟨push_failure hd h, push_error h⟩
  · intro d hd chunks
    refine ⟨run_failed hd chunks, ?_⟩
    refine Runs.Each.of_invariant (I := fun d => d.failed = true) (fun d c h => ?_) (fun d c h => ?_)
      chunks hd
    · rw [Decoder.next, push_failed h]
      exact h
    · rw [push_failed h]

end OpenSaab.Mongoose
