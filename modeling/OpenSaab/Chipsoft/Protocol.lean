import OpenSaab.Library.Runs
import OpenSaab.Library.Words
import OpenSaab.Text

/-!
# Chipsoft framing

`adapters/chipsoft/protocol.rs`: frames on the serial stream, each with a header of four words. Reads
of the stream need not end where frames do.
-/

namespace OpenSaab.Chipsoft

open Text

def headerSize : Nat := 8

def maxPayload : Nat := 65535

structure Frame where
  opcode : UInt16
  status : UInt16
  payload : List UInt8
  deriving DecidableEq, Repr

inductive DecodeError where
  | payloadTooLarge (n : Nat)
  | checksum (expected actual : UInt16)
  | truncated (buffered needed : Nat)
  | desynchronized
  deriving DecidableEq, Repr

/-- `{:04X}`. -/
def hexHalf (n : UInt16) : String := hexUpper (n >>> 8).toUInt8 ++ hexUpper n.toUInt8

def DecodeError.text : DecodeError → String
  | .payloadTooLarge n => "payload " ++ toString n ++ " exceeds " ++ toString maxPayload ++ " bytes"
  | .checksum expected actual =>
    "checksum mismatch: header=" ++ hexHalf expected ++ ", calculated=" ++ hexHalf actual
  | .truncated buffered needed =>
    "incomplete frame: " ++ toString buffered ++ " bytes buffered, " ++ toString needed ++ " required"
  | .desynchronized => "decoder stopped after corrupt framing; reset session"

/-- The sum of the bytes, modulo 2^16. -/
def checksum (payload : List UInt8) : UInt16 := payload.foldl (fun sum b => sum + b.toUInt16) 0

/-- `u16::to_le_bytes`. -/
def half (n : UInt16) : List UInt8 := Words.little 2 n.toNat

/-- The word at an offset of a header. -/
def halfAt (bytes : List UInt8) (offset : Nat) : UInt16 :=
  UInt16.ofNat (Words.ofLittle ((bytes.drop offset).take 2))

def Frame.encode (f : Frame) : Except DecodeError (List UInt8) :=
  if maxPayload < f.payload.length then .error (.payloadTooLarge f.payload.length)
  else
    .ok (half f.opcode ++ half (UInt16.ofNat f.payload.length) ++ half f.status ++
      half (checksum f.payload) ++ f.payload)

/-! ## The decoder -/

/-- How long the pending frame is, as far as its header shows. -/
def needed (pending : List UInt8) : Nat :=
  if pending.length < headerSize then headerSize else headerSize + (halfAt pending 2).toNat

/-- A decoder holds an unfinished frame, or a whole one that it has stopped at. -/
structure Decoder where
  pending : List UInt8
  failed : Bool
  held : pending.length ≤ needed pending
  unfinished : failed = false → pending.length < needed pending
  deriving DecidableEq

theorem nil_unfinished : ([] : List UInt8).length < needed [] := by decide

def Decoder.reading (pending : List UInt8) (h : pending.length < needed pending) : Decoder :=
  ⟨pending, false, Nat.le_of_lt h, fun _ => h⟩

def Decoder.default : Decoder := .reading [] nil_unfinished

theorem halfAt_append {pending : List UInt8} (xs : List UInt8) (h : headerSize ≤ pending.length) :
    halfAt (pending ++ xs) 2 = halfAt pending 2 := by
  have hlen : headerSize = 8 := rfl
  unfold halfAt
  rw [List.drop_append_of_le_length (by omega), List.take_append_of_le_length]
  rw [List.length_drop]
  omega

/-- More bytes do not change what a header has shown. -/
theorem needed_append {pending : List UInt8} (xs : List UInt8) (h : headerSize ≤ pending.length) :
    needed (pending ++ xs) = needed pending := by
  unfold needed
  rw [if_neg (by rw [List.length_append]; omega), if_neg (by omega), halfAt_append xs h]

theorem headerSize_le_needed (pending : List UInt8) : headerSize ≤ needed pending := by
  unfold needed
  split <;> omega

/-- A chunk is cut so that it does not go beyond the frame. -/
theorem held_append {pending : List UInt8} (h : pending.length < needed pending) (bytes : List UInt8) :
    (pending ++ bytes.take (min (needed pending - pending.length) bytes.length)).length ≤
      needed (pending ++ bytes.take (min (needed pending - pending.length) bytes.length)) := by
  by_cases hheader : headerSize ≤ pending.length
  · rw [needed_append _ hheader, List.length_append, List.length_take]
    omega
  · refine Nat.le_trans ?_ (headerSize_le_needed _)
    have hneeded : needed pending = headerSize := if_pos (by omega)
    rw [List.length_append, List.length_take]
    omega

def Frame.ofPending (pending : List UInt8) : Frame :=
  ⟨halfAt pending 0, halfAt pending 4, pending.drop headerSize⟩

/-- The loop of `feed`, from an unfinished frame: what is left, what has come out, and the failure. -/
def feedLoop (pending : List UInt8) (h : pending.length < needed pending) (bytes : List UInt8) :
    (Decoder × List Frame) × Except DecodeError Unit :=
  if _hbytes : bytes = [] then ((.reading pending h, []), .ok ())
  else
    let n := min (needed pending - pending.length) bytes.length
    let pending' := pending ++ bytes.take n
    if hmore : pending'.length < headerSize ∨ pending'.length < needed pending' then
      feedLoop pending' (hmore.elim (fun hh => Nat.lt_of_lt_of_le hh (headerSize_le_needed _)) id)
        (bytes.drop n)
    else
      let expected := halfAt pending' 6
      let actual := checksum (pending'.drop headerSize)
      if expected ≠ actual then
        ((⟨pending', true, held_append h bytes, fun h => nomatch h⟩, []),
          .error (.checksum expected actual))
      else
        let r := feedLoop [] nil_unfinished (bytes.drop n)
        ((r.1.1, .ofPending pending' :: r.1.2), r.2)
termination_by bytes.length
decreasing_by
  all_goals
    have hpos : bytes.length ≠ 0 := fun h0 => _hbytes (List.length_eq_zero_iff.mp h0)
    rw [List.length_drop]
    omega

def Decoder.feed (d : Decoder) (bytes : List UInt8) :
    (Decoder × List Frame) × Except DecodeError Unit :=
  if h : d.failed then ((d, []), .error .desynchronized)
  else feedLoop d.pending (d.unfinished (by simpa using h)) bytes

def Decoder.finish (d : Decoder) : Except DecodeError Unit :=
  if d.failed then .error .desynchronized
  else if d.pending = [] then .ok ()
  else .error (.truncated d.pending.length (needed d.pending))

def Decoder.next (d : Decoder) (chunk : List UInt8) : Decoder := (d.feed chunk).1.1

def Decoder.frames (d : Decoder) (chunk : List UInt8) : List Frame := (d.feed chunk).1.2

/-! ## Cuts -/

/-- As long as the frame is not whole, what it needs is settled. -/
theorem needed_short {pending xs : List UInt8} (h : pending.length + xs.length < needed pending) :
    needed (pending ++ xs) = needed pending := by
  by_cases hheader : headerSize ≤ pending.length
  · exact needed_append xs hheader
  · have hneeded : needed pending = headerSize := if_pos (by omega)
    rw [hneeded] at h ⊢
    exact if_pos (by rwa [List.length_append])

theorem feedLoop_nil (pending : List UInt8) (h : pending.length < needed pending) :
    feedLoop pending h [] = ((.reading pending h, []), .ok ()) := by
  rw [feedLoop, dif_pos rfl]

theorem short_append {pending xs : List UInt8} (h : pending.length + xs.length < needed pending) :
    (pending ++ xs).length < needed (pending ++ xs) := by
  rwa [needed_short h, List.length_append]

/-- The step of the loop depends on what it makes of the pending bytes only. -/
theorem feedLoop_congr {pending pending' bytes bytes' : List UInt8}
    (h : pending.length < needed pending) (h' : pending'.length < needed pending')
    (hbytes : bytes ≠ []) (hbytes' : bytes' ≠ [])
    (htake : pending ++ bytes.take (min (needed pending - pending.length) bytes.length) =
      pending' ++ bytes'.take (min (needed pending' - pending'.length) bytes'.length))
    (hdrop : bytes.drop (min (needed pending - pending.length) bytes.length) =
      bytes'.drop (min (needed pending' - pending'.length) bytes'.length)) :
    feedLoop pending h bytes = feedLoop pending' h' bytes' := by
  rw [feedLoop, dif_neg hbytes]
  conv_rhs => rw [feedLoop, dif_neg hbytes']
  simp only [htake, hdrop]

/-- A chunk that does not complete the frame is part of a longer one. -/
theorem feedLoop_short {pending xs : List UInt8} (h : pending.length < needed pending)
    (hxs : pending.length + xs.length < needed pending) (ys : List UInt8) :
    feedLoop pending h (xs ++ ys) = feedLoop (pending ++ xs) (short_append hxs) ys := by
  by_cases hnil : xs = []
  · subst hnil
    simp only [List.nil_append, List.append_nil]
  · have hlen : xs.length ≠ 0 := fun h0 => hnil (List.length_eq_zero_iff.mp h0)
    by_cases hys : ys = []
    · subst hys
      rw [feedLoop_nil, List.append_nil, feedLoop, dif_neg hnil]
      have hmin : min (needed pending - pending.length) xs.length = xs.length := by omega
      simp only [hmin, List.take_length, List.drop_length]
      rw [dif_pos (Or.inr (short_append hxs)), feedLoop_nil]
    · refine feedLoop_congr h (short_append hxs) (by simp [hnil]) hys ?_ ?_
      · rw [needed_short hxs, List.length_append, List.length_append, List.take_append,
          List.append_assoc]
        rw [List.take_of_length_le (by omega)]
        congr 3
        omega
      · rw [needed_short hxs, List.length_append, List.length_append, List.drop_append,
          List.drop_of_length_le (by omega), List.nil_append]
        congr 1
        omega

theorem feed_reading {pending : List UInt8} (h : pending.length < needed pending)
    (bytes : List UInt8) : (Decoder.reading pending h).feed bytes = feedLoop pending h bytes := by
  rw [Decoder.feed, dif_neg (by simp [Decoder.reading])]
  rfl

theorem feed_failed {d : Decoder} (h : d.failed = true) (bytes : List UInt8) :
    d.feed bytes = ((d, []), .error .desynchronized) := by
  rw [Decoder.feed, dif_pos h]

theorem next_failed {d : Decoder} (h : d.failed = true) (bytes : List UInt8) : d.next bytes = d := by
  rw [Decoder.next, feed_failed h]

theorem frames_failed {d : Decoder} (h : d.failed = true) (bytes : List UInt8) :
    d.frames bytes = [] := by
  rw [Decoder.frames, feed_failed h]

/-- A chunk in two parts: the second part is read from where the first has ended. -/
theorem feedLoop_append {pending : List UInt8} (h : pending.length < needed pending)
    (xs ys : List UInt8) :
    (feedLoop pending h (xs ++ ys)).1 =
      ((feedLoop pending h xs).1.1.next ys,
        (feedLoop pending h xs).1.2 ++ (feedLoop pending h xs).1.1.frames ys) := by
  induction hn : xs.length using Nat.strongRecOn generalizing pending xs with
  | ind n ih =>
    by_cases hshort : pending.length + xs.length < needed pending
    · have hxs := feedLoop_short h hshort []
      rw [List.append_nil, feedLoop_nil] at hxs
      rw [feedLoop_short h hshort, hxs]
      simp only [Decoder.next, Decoder.frames, feed_reading, List.nil_append]
    · have hxs : xs ≠ [] := by
        rintro rfl
        exact hshort h
      have hcut : ∀ m, min (needed pending - pending.length) (xs.length + m) =
          needed pending - pending.length := by
        intro m
        omega
      have hle : needed pending - pending.length ≤ xs.length := by omega
      have hrest : (xs.drop (needed pending - pending.length)).length < n := by
        rw [List.length_drop]
        omega
      rw [feedLoop, dif_neg (by simp [hxs] : xs ++ ys ≠ [])]
      conv_rhs => rw [feedLoop, dif_neg hxs]
      simp only [List.length_append, hcut, Nat.min_eq_left hle, List.take_append_of_le_length hle,
        List.drop_append_of_le_length hle]
      split
      · exact ih _ hrest _ _ rfl
      · split
        · rw [next_failed rfl, frames_failed rfl]
          rfl
        · rw [ih _ hrest nil_unfinished _ rfl]
          rfl

theorem feed_append (d : Decoder) (xs ys : List UInt8) :
    d.next (xs ++ ys) = (d.next xs).next ys ∧
      d.frames (xs ++ ys) = d.frames xs ++ (d.next xs).frames ys := by
  cases hd : d.failed with
  | true =>
    simp only [next_failed hd, frames_failed hd, List.append_nil, and_self]
  | false =>
    have h := feedLoop_append (d.unfinished hd) xs ys
    simp only [Decoder.next, Decoder.frames, Decoder.feed, hd, Bool.false_eq_true, dite_false] at h ⊢
    rw [h]
    exact ⟨rfl, rfl⟩

theorem feed_nil (d : Decoder) : d.next [] = d ∧ d.frames [] = [] := by
  cases hd : d.failed with
  | true => exact ⟨next_failed hd [], frames_failed hd []⟩
  | false =>
    simp only [Decoder.next, Decoder.frames, Decoder.feed, hd, Bool.false_eq_true, dite_false,
      feedLoop_nil, and_true]
    cases d with
    | mk pending failed held unfinished =>
      simp only at hd
      subst hd
      rfl

/-- The decoder after a stream and the frames that it has put out depend on its bytes only. -/
theorem run_chunks (d : Decoder) (chunks : List (List UInt8)) :
    Runs.run Decoder.next d chunks = d.next chunks.flatten ∧
      Runs.log Decoder.next Decoder.frames d chunks = d.frames chunks.flatten := by
  induction chunks generalizing d with
  | nil => exact ⟨(feed_nil d).1.symm, (feed_nil d).2.symm⟩
  | cons c cs ih =>
    obtain ⟨hrun, hlog⟩ := ih (d.next c)
    obtain ⟨hnext, hframes⟩ := feed_append d c cs.flatten
    rw [Runs.run_cons, Runs.log, List.flatten_cons, hrun, hlog, hnext, hframes]
    exact ⟨rfl, rfl⟩

/-! ## What the encoder writes is read back -/

/-- The bytes of a whole frame whose sum is right. -/
def Whole (wire : List UInt8) : Prop :=
  headerSize ≤ wire.length ∧ wire.length = needed wire ∧
    halfAt wire 6 = checksum (wire.drop headerSize)

/-- The bytes that a frame is still short of complete it. -/
theorem feedLoop_complete {pending bytes : List UInt8} (h : pending.length < needed pending)
    (hbytes : bytes.length = needed pending - pending.length) (hw : Whole (pending ++ bytes)) :
    feedLoop pending h bytes = ((.default, [.ofPending (pending ++ bytes)]), .ok ()) := by
  obtain ⟨hheader, hlen, hsum⟩ := hw
  have hne : bytes ≠ [] := by
    rintro rfl
    rw [List.length_nil] at hbytes
    omega
  have hmin : min (needed pending - pending.length) bytes.length = bytes.length := by omega
  rw [feedLoop, dif_neg hne]
  simp only [hmin, List.take_length, List.drop_length]
  rw [dif_neg (by omega), if_neg (by rw [hsum]; exact fun hn => hn rfl), feedLoop_nil]
  rfl

theorem feedLoop_whole {wire : List UInt8} (hw : Whole wire) :
    feedLoop [] nil_unfinished wire = ((.default, [.ofPending wire]), .ok ()) := by
  have hsize : needed [] = headerSize := rfl
  obtain ⟨hheader, hlen, hsum⟩ := hw
  by_cases hempty : wire.length = headerSize
  · exact feedLoop_complete nil_unfinished (by rw [hsize]; exact hempty) ⟨hheader, hlen, hsum⟩
  · have htake : (wire.take headerSize).length = headerSize := by
      rw [List.length_take]
      omega
    have hsame : needed (wire.take headerSize) = needed wire := by
      have h := needed_append (wire.drop headerSize) (Nat.le_of_eq htake.symm)
      rwa [List.take_append_drop, eq_comm] at h
    have hpos : headerSize ≠ 0 := by decide
    have hne : wire ≠ [] := by
      rintro rfl
      rw [List.length_nil] at hheader
      omega
    have hunfinished : (wire.take headerSize).length < needed (wire.take headerSize) := by omega
    have hmin : min (needed [] - ([] : List UInt8).length) wire.length = headerSize := by
      rw [hsize, List.length_nil]
      omega
    rw [feedLoop, dif_neg hne]
    simp only [hmin, List.nil_append]
    rw [dif_pos (Or.inr hunfinished), feedLoop_complete hunfinished]
    · rw [List.take_append_drop]
    · rw [List.length_drop, hsame]
      omega
    · rw [List.take_append_drop]
      exact ⟨hheader, hlen, hsum⟩

theorem length_half (n : UInt16) : (half n).length = 2 := Words.length_little 2 n.toNat

theorem ofLittle_half (n : UInt16) : UInt16.ofNat (Words.ofLittle (half n)) = n := by
  rw [half, Words.ofLittle_little n.toNat_lt, UInt16.ofNat_toNat]

/-- The words of a header, by their places. -/
theorem header_slices {a b c d payload : List UInt8} (ha : a.length = 2) (hb : b.length = 2)
    (hc : c.length = 2) (hd : d.length = 2) :
    let wire := a ++ b ++ c ++ d ++ payload
    (wire.drop 0).take 2 = a ∧ (wire.drop 2).take 2 = b ∧ (wire.drop 4).take 2 = c ∧
      (wire.drop 6).take 2 = d ∧ wire.drop headerSize = payload ∧
      wire.length = headerSize + payload.length := by
  match a, b, c, d, ha, hb, hc, hd with
  | [_, _], [_, _], [_, _], [_, _], _, _, _, _ =>
    refine ⟨rfl, rfl, rfl, rfl, rfl, ?_⟩
    simp only [List.cons_append, List.nil_append, List.length_cons, headerSize]
    omega

theorem header_words (a b c d : UInt16) (payload : List UInt8) :
    let wire := half a ++ half b ++ half c ++ half d ++ payload
    halfAt wire 0 = a ∧ halfAt wire 2 = b ∧ halfAt wire 4 = c ∧ halfAt wire 6 = d ∧
      wire.drop headerSize = payload ∧ wire.length = headerSize + payload.length := by
  obtain ⟨ha, hb, hc, hd, hpayload, hlen⟩ := @header_slices (half a) (half b) (half c) (half d) payload
    (length_half a) (length_half b) (length_half c) (length_half d)
  unfold halfAt
  dsimp only
  rw [ha, hb, hc, hd]
  exact ⟨ofLittle_half a, ofLittle_half b, ofLittle_half c, ofLittle_half d, hpayload, hlen⟩

theorem encode_whole {f : Frame} {wire : List UInt8} (h : f.encode = .ok wire) :
    Whole wire ∧ Frame.ofPending wire = f := by
  unfold Frame.encode at h
  split_ifs at h with hlong
  obtain rfl := Except.ok.inj h
  obtain ⟨hopcode, hsize, hstatus, hsum, hpayload, hlen⟩ := header_words f.opcode
    (UInt16.ofNat f.payload.length) f.status (checksum f.payload) f.payload
  have hfits : (UInt16.ofNat f.payload.length).toNat = f.payload.length := by
    rw [UInt16.toNat_ofNat']
    unfold maxPayload at hlong
    exact Nat.mod_eq_of_lt (by omega)
  refine ⟨⟨by omega, ?_, ?_⟩, ?_⟩
  · unfold needed
    rw [hsize, hfits, if_neg (by omega), hlen]
  · rw [hsum, hpayload]
  · rw [Frame.ofPending, hopcode, hstatus, hpayload]

theorem feed_frames {frames : List Frame} {wires : List (List UInt8)}
    (h : frames.map Frame.encode = wires.map .ok) :
    Decoder.default.next wires.flatten = .default ∧
      Decoder.default.frames wires.flatten = frames := by
  induction frames generalizing wires with
  | nil =>
    obtain rfl := List.map_eq_nil_iff.mp h.symm
    exact feed_nil _
  | cons f frames ih =>
    cases wires with
    | nil => cases h
    | cons wire wires =>
      obtain ⟨hwire, hrest⟩ := List.cons.inj h
      obtain ⟨hwhole, hf⟩ := encode_whole hwire
      have hfeed : Decoder.default.feed wire = ((.default, [f]), .ok ()) := by
        rw [Decoder.default, feed_reading, feedLoop_whole hwhole, hf]
        rfl
      have hnext : Decoder.default.next wire = .default := by rw [Decoder.next, hfeed]
      have hframes : Decoder.default.frames wire = [f] := by rw [Decoder.frames, hfeed]
      obtain ⟨hn, hfs⟩ := feed_append .default wire wires.flatten
      rw [List.flatten_cons, hn, hfs, hnext, hframes, (ih hrest).1, (ih hrest).2]
      exact ⟨rfl, rfl⟩

theorem encode_all {frames : List Frame} (h : ∀ f ∈ frames, f.payload.length ≤ maxPayload) :
    ∃ wires : List (List UInt8), frames.map Frame.encode = wires.map .ok := by
  induction frames with
  | nil => exact ⟨[], rfl⟩
  | cons f frames ih =>
    obtain ⟨wires, hwires⟩ := ih fun g hg => h g (List.mem_cons_of_mem f hg)
    have hf : f.encode = .ok (half f.opcode ++ half (UInt16.ofNat f.payload.length) ++
        half f.status ++ half (checksum f.payload) ++ f.payload) :=
      if_neg (Nat.not_lt.mpr (h f (by simp)))
    exact ⟨_ :: wires, by rw [List.map_cons, List.map_cons, hf, hwires]⟩

/-- A chunk is refused exactly when the decoder has failed by its end. -/
theorem feedLoop_ok_iff {pending : List UInt8} (h : pending.length < needed pending)
    (bytes : List UInt8) :
    (feedLoop pending h bytes).2 = .ok () ↔ (feedLoop pending h bytes).1.1.failed = false := by
  induction hn : bytes.length using Nat.strongRecOn generalizing pending bytes with
  | ind n ih =>
    by_cases hnil : bytes = []
    · subst hnil
      rw [feedLoop_nil]
      exact ⟨fun _ => rfl, fun _ => rfl⟩
    · have hlen : bytes.length ≠ 0 := fun h0 => hnil (List.length_eq_zero_iff.mp h0)
      have hdrop : (bytes.drop (min (needed pending - pending.length) bytes.length)).length < n := by
        rw [List.length_drop]
        omega
      rw [feedLoop, dif_neg hnil]
      dsimp only
      split
      · exact ih _ hdrop _ _ rfl
      · split
        · simp
        · exact ih _ hdrop _ _ rfl

theorem feed_ok_iff (d : Decoder) (bytes : List UInt8) :
    (d.feed bytes).2 = .ok () ↔ (d.next bytes).failed = false := by
  cases hd : d.failed with
  | true =>
    rw [next_failed hd, feed_failed hd, hd]
    simp
  | false =>
    rw [Decoder.next, Decoder.feed, dif_neg (by simp [hd])]
    exact feedLoop_ok_iff _ bytes

theorem needed_le (pending : List UInt8) : needed pending ≤ headerSize + maxPayload := by
  have hlt := (halfAt pending 2).toNat_lt
  unfold needed maxPayload
  split <;> omega

/-- The codec: frames come back from their encodings in any chunks; what a stream yields, before a
corrupt frame too, does not depend on its cuts; a failure is final; no more than one frame is held. -/
theorem chunks_do_not_matter :
    (∀ frames : List Frame, (∀ f ∈ frames, f.payload.length ≤ maxPayload) →
      ∃ wires : List (List UInt8), frames.map Frame.encode = wires.map .ok ∧
        ∀ chunks : List (List UInt8), chunks.flatten = wires.flatten →
          Runs.log Decoder.next Decoder.frames .default chunks = frames ∧
          (Runs.run Decoder.next .default chunks).finish = .ok ()) ∧
    (∀ (d : Decoder) (chunks chunks' : List (List UInt8)), chunks.flatten = chunks'.flatten →
      Runs.log Decoder.next Decoder.frames d chunks = Runs.log Decoder.next Decoder.frames d chunks' ∧
      (Runs.run Decoder.next d chunks).failed = (Runs.run Decoder.next d chunks').failed ∧
      (Runs.run Decoder.next d chunks).finish = (Runs.run Decoder.next d chunks').finish) ∧
    (∀ (d : Decoder) (chunk : List UInt8),
      (d.feed chunk).2 = .ok () ↔ (d.next chunk).failed = false) ∧
    (∀ d : Decoder, d.failed = true → ∀ chunks : List (List UInt8),
      Runs.run Decoder.next d chunks = d ∧ Runs.log Decoder.next Decoder.frames d chunks = []) ∧
    ∀ d : Decoder, d.pending.length ≤ needed d.pending ∧
      needed d.pending ≤ headerSize + maxPayload := by
  refine ⟨?_, ?_, feed_ok_iff, ?_, fun d => ⟨d.held, needed_le d.pending⟩⟩
  · intro frames hframes
    obtain ⟨wires, hwires⟩ := encode_all hframes
    refine ⟨wires, hwires, ?_⟩
    intro chunks hchunks
    obtain ⟨hrun, hlog⟩ := run_chunks .default chunks
    obtain ⟨hnext, hout⟩ := feed_frames hwires
    rw [hrun, hlog, hchunks, hnext, hout]
    exact ⟨rfl, rfl⟩
  · intro d chunks chunks' h
    rw [(run_chunks d chunks).1, (run_chunks d chunks).2, (run_chunks d chunks').1,
      (run_chunks d chunks').2, h]
    exact ⟨rfl, rfl, rfl⟩
  · intro d hd chunks
    rw [(run_chunks d chunks).1, (run_chunks d chunks).2]
    exact ⟨next_failed hd _, frames_failed hd _⟩

end OpenSaab.Chipsoft
