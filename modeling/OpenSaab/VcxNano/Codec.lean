import OpenSaab.Library.Stream

/-!
# VCX Nano framing

`adapters/vcx_nano/protocol.rs`: frames on the serial wire, between delimiters and with escapes.
-/

namespace OpenSaab.VcxNano

/-! ## The encoder -/

def maxBody : Nat := 4096

structure Frame where
  header : Vector UInt8 4
  payload : List UInt8
  deriving DecidableEq, Repr

def checksum (bytes : List UInt8) : UInt8 := bytes.foldl (· + ·) 0

/-- Header, payload and their checksum. -/
def Frame.body (f : Frame) : List UInt8 :=
  f.header.toList ++ f.payload ++ [checksum (f.header.toList ++ f.payload)]

def escape (b : UInt8) : List UInt8 :=
  if b = 0xbb then [0xdd, 0x44]
  else if b = 0xdd then [0xdd, 0x22]
  else if b = 0xee then [0xdd, 0x11]
  else [b]

def Frame.encode (f : Frame) : Except String (List UInt8) :=
  if maxBody < f.payload.length + 5 then .error "Nano frame exceeds bounded body size"
  else .ok (0xbb :: f.body.flatMap escape ++ [0xbb])

/-! ## The decoder -/

structure Decoder where
  started : Bool
  escaped : Bool
  body : List UInt8
  failed : Bool
  deriving DecidableEq, Repr

def Decoder.default : Decoder := ⟨false, false, [], false⟩

theorem header_size {body : List UInt8} (h : ¬ body.length < 5) : (body.take 4).toArray.size = 4 := by
  simp only [List.size_toArray, List.length_take]
  omega

def Frame.ofBody (body : List UInt8) (h : ¬ body.length < 5) : Frame :=
  ⟨⟨(body.take 4).toArray, header_size h⟩, body.dropLast.drop 4⟩

def Decoder.delimiter (d : Decoder) : Decoder × Except String (List Frame) :=
  if d.escaped then (d, .error "Nano delimiter inside escape")
  else if d.body = [] then ({ d with started := true }, .ok [])
  else
    let rest : Decoder := { d with started := true, body := [] }
    if h : d.body.length < 5 then (rest, .error "Nano frame shorter than header/checksum")
    else if d.body.getLast? ≠ some (checksum d.body.dropLast) then
      (rest, .error "Nano checksum mismatch")
    else (rest, .ok [Frame.ofBody d.body h])

def unescape (b : UInt8) : Option UInt8 :=
  if b = 0x44 then some 0xbb
  else if b = 0x22 then some 0xdd
  else if b = 0x11 then some 0xee
  else none

def Decoder.push (d : Decoder) (b : UInt8) : Decoder × Except String (List Frame) :=
  if maxBody ≤ d.body.length then (d, .error "Nano frame exceeds bounded body size")
  else ({ d with body := d.body ++ [b] }, .ok [])

/-- The body of the loop of `feed_chunk`. -/
def Decoder.byte (d : Decoder) (b : UInt8) : Decoder × Except String (List Frame) :=
  if b = 0xbb then d.delimiter
  else if ¬ d.started then (d, .error "Nano bytes before start delimiter")
  else if d.escaped then
    match unescape b with
    | some b => { d with escaped := false }.push b
    | none => ({ d with escaped := false }, .error "Unknown Nano escape")
  else if b = 0xdd then ({ d with escaped := true }, .ok [])
  else d.push b

def Decoder.feedChunk (d : Decoder) (bytes : List UInt8) : Decoder × Except String (List Frame) :=
  Stream.feed Decoder.byte d bytes

def Decoder.stop (d : Decoder) : Decoder := { d with failed := true, body := [], escaped := false }

def freshStream : String := "Nano decoder requires a fresh stream after framing error"

def Decoder.feed (d : Decoder) (bytes : List UInt8) : Decoder × Except String (List Frame) :=
  if d.failed then (d, .error freshStream)
  else
    match d.feedChunk bytes with
    | (d', .ok frames) => (d', .ok frames)
    | (d', .error e) => (d'.stop, .error e)

def Decoder.finish (d : Decoder) : Except String Unit :=
  if d.failed then .error freshStream
  else if d.escaped ∨ d.body ≠ [] then .error "Truncated Nano frame"
  else .ok ()

/-- The decoder after a chunk, whatever came of it. -/
def Decoder.next (d : Decoder) (chunk : List UInt8) : Decoder := (d.feed chunk).1

/-- The frames that a chunk yields. -/
def Decoder.frames (d : Decoder) (chunk : List UInt8) : List Frame :=
  match (d.feed chunk).2 with
  | .ok frames => frames
  | .error _ => []

/-! ## Cuts -/

theorem push_failed (d : Decoder) (b : UInt8) : (d.push b).1.failed = d.failed := by
  unfold Decoder.push
  split <;> rfl

theorem delimiter_failed (d : Decoder) : d.delimiter.1.failed = d.failed := by
  unfold Decoder.delimiter
  split_ifs <;> rfl

theorem byte_failed (d : Decoder) (b : UInt8) : (d.byte b).1.failed = d.failed := by
  unfold Decoder.byte
  split_ifs
  · exact delimiter_failed d
  · split
    · exact push_failed _ _
    · rfl
  · rfl
  · exact push_failed d b
  · rfl

theorem feed_eq_latch :
    Decoder.feed = Stream.latch Decoder.byte Decoder.failed Decoder.stop freshStream := by
  funext d bytes
  unfold Decoder.feed Stream.latch Decoder.feedChunk
  split_ifs
  · rfl
  · cases Stream.feed Decoder.byte d bytes with
    | mk d' out => cases out <;> rfl

theorem next_eq_next :
    Decoder.next = Stream.next Decoder.byte Decoder.failed Decoder.stop freshStream := by
  funext d chunk
  rw [Decoder.next, feed_eq_latch, Stream.next]

theorem frames_eq_produced :
    Decoder.frames = Stream.produced Decoder.byte Decoder.failed Decoder.stop freshStream := by
  funext d chunk
  rw [Decoder.frames, feed_eq_latch, Stream.produced]
  cases (Stream.latch Decoder.byte Decoder.failed Decoder.stop freshStream d chunk).2 <;> rfl

/-- The decoder after a stream depends on its bytes only. -/
theorem run_chunks (d : Decoder) (chunks : List (List UInt8)) :
    Runs.run Decoder.next d chunks = d.next chunks.flatten := by
  rw [next_eq_next]
  exact Stream.run_next byte_failed (fun _ => rfl) d chunks

theorem log_chunks (d : Decoder) (chunks : List (List UInt8))
    (h : (d.next chunks.flatten).failed = false) :
    Runs.log Decoder.next Decoder.frames d chunks = d.frames chunks.flatten := by
  rw [next_eq_next] at h ⊢
  rw [frames_eq_produced]
  exact Stream.log_produced byte_failed (fun _ => rfl) d chunks h

theorem run_failed {d : Decoder} (h : d.failed = true) (chunks : List (List UInt8)) :
    Runs.run Decoder.next d chunks = d := by
  rw [run_chunks, next_eq_next, Stream.next_failed h]

theorem log_failed {d : Decoder} (h : d.failed = true) (chunks : List (List UInt8)) :
    Runs.log Decoder.next Decoder.frames d chunks = [] := by
  induction chunks with
  | nil => rfl
  | cons c cs ih =>
    have hnext : d.next c = d := by rw [next_eq_next, Stream.next_failed h]
    rw [Runs.log, hnext, ih, frames_eq_produced, Stream.produced_failed h]
    rfl

/-! ## What the encoder writes is read back -/

/-- Between delimiters, with the bytes of a frame read so far. -/
def reading (body : List UInt8) : Decoder := ⟨true, false, body, false⟩

theorem byte_plain {body : List UInt8} {b : UInt8} (hlen : body.length < maxBody) (h1 : b ≠ 0xbb)
    (h2 : b ≠ 0xdd) : (reading body).byte b = (reading (body ++ [b]), .ok []) := by
  rw [Decoder.byte, if_neg h1, if_neg (by simp [reading]), if_neg (by simp [reading]), if_neg h2]
  exact if_neg (Nat.not_le.mpr hlen)

theorem feed_escaped {body : List UInt8} {b c : UInt8} (hlen : body.length < maxBody)
    (hc : unescape c = some b) (h1 : c ≠ 0xbb) :
    (reading body).feedChunk [0xdd, c] = (reading (body ++ [b]), .ok []) := by
  have hfirst : (reading body).byte 0xdd = ({ reading body with escaped := true }, .ok []) := rfl
  have hsecond : Decoder.byte { reading body with escaped := true } c =
      (reading (body ++ [b]), .ok []) := by
    rw [Decoder.byte, if_neg h1, if_neg (by simp [reading]), if_pos rfl, hc]
    exact if_neg (Nat.not_le.mpr hlen)
  exact Stream.feed_append_eq (Stream.feed_single hfirst) (Stream.feed_single hsecond)

theorem feed_escape {body : List UInt8} (b : UInt8) (hlen : body.length < maxBody) :
    (reading body).feedChunk (escape b) = (reading (body ++ [b]), .ok []) := by
  unfold escape
  split_ifs with h1 h2 h3
  · exact feed_escaped hlen (h1 ▸ rfl) (by decide)
  · exact feed_escaped hlen (h2 ▸ rfl) (by decide)
  · exact feed_escaped hlen (h3 ▸ rfl) (by decide)
  · exact Stream.feed_single (byte_plain hlen h1 h2)

theorem feed_body (rest body : List UInt8) (hlen : body.length + rest.length ≤ maxBody) :
    (reading body).feedChunk (rest.flatMap escape) = (reading (body ++ rest), .ok []) := by
  induction rest generalizing body with
  | nil => simp [Decoder.feedChunk, Stream.feed]
  | cons b rest ih =>
    rw [List.length_cons] at hlen
    have hrest := ih (body ++ [b]) (by rw [List.length_append, List.length_singleton]; omega)
    rw [List.append_assoc, List.singleton_append] at hrest
    rw [List.flatMap_cons]
    exact Stream.feed_append_eq (feed_escape b (by omega)) hrest

theorem length_body (f : Frame) : f.body.length = f.payload.length + 5 := by
  simp only [Frame.body, List.length_append, Vector.length_toList, List.length_singleton]
  omega

theorem body_dropLast (f : Frame) : f.body.dropLast = f.header.toList ++ f.payload :=
  List.dropLast_concat

theorem ofBody_body (f : Frame) (h : ¬ f.body.length < 5) : Frame.ofBody f.body h = f := by
  have hheader : f.body.take 4 = f.header.toList := by
    rw [Frame.body, List.append_assoc, List.take_left' (Vector.length_toList)]
  have hpayload : f.body.dropLast.drop 4 = f.payload := by
    rw [body_dropLast, List.drop_left' (Vector.length_toList)]
  unfold Frame.ofBody
  cases f with
  | mk header payload =>
    simp only [hpayload, Frame.mk.injEq, and_true]
    apply Vector.toList_inj.mp
    simpa [Vector.toList] using hheader

theorem byte_close (f : Frame) : (reading f.body).byte 0xbb = (reading [], .ok [f]) := by
  have hlen : ¬ f.body.length < 5 := by rw [length_body]; omega
  have hne : f.body ≠ [] := fun h => hlen (by rw [h]; decide)
  have hsum : f.body.getLast? = some (checksum f.body.dropLast) := by
    rw [body_dropLast, Frame.body, List.getLast?_concat]
  rw [Decoder.byte, if_pos rfl, Decoder.delimiter, if_neg (by simp [reading])]
  simp only [reading, hne, hlen, hsum, dite_false, ne_eq, not_true_eq_false, if_false, ofBody_body]

/-- Either state in which a frame may start leads to the state after it. -/
theorem feed_frame {f : Frame} {wire : List UInt8} {d : Decoder} (h : f.encode = .ok wire)
    (hd : d.byte 0xbb = (reading [], .ok [])) : d.feedChunk wire = (reading [], .ok [f]) := by
  unfold Frame.encode at h
  split_ifs at h with hlen
  obtain rfl := Except.ok.inj h
  have hbody := feed_body f.body [] (by rw [length_body, List.length_nil]; omega)
  rw [List.nil_append] at hbody
  have hopen := Stream.feed_append_eq (Stream.feed_single hd) hbody
  exact Stream.feed_append_eq hopen (Stream.feed_single (byte_close f))

theorem feed_frames {frames : List Frame} {wires : List (List UInt8)}
    (h : frames.map Frame.encode = wires.map .ok) :
    (reading []).feedChunk wires.flatten = (reading [], .ok frames) := by
  induction frames generalizing wires with
  | nil =>
    obtain rfl := List.map_eq_nil_iff.mp h.symm
    rfl
  | cons f frames ih =>
    cases wires with
    | nil => cases h
    | cons wire wires =>
      obtain ⟨hwire, hrest⟩ := List.cons.inj h
      exact Stream.feed_append_eq (feed_frame hwire rfl) (ih hrest)

/-- The decoder after the frames: where it started, if there are none. -/
theorem feed_default {frames : List Frame} {wires : List (List UInt8)}
    (h : frames.map Frame.encode = wires.map .ok) :
    ∃ d : Decoder, d.failed = false ∧ d.finish = .ok () ∧
      Decoder.default.feedChunk wires.flatten = (d, .ok frames) := by
  cases frames with
  | nil =>
    obtain rfl := List.map_eq_nil_iff.mp h.symm
    exact ⟨.default, rfl, rfl, rfl⟩
  | cons f frames =>
    cases wires with
    | nil => cases h
    | cons wire wires =>
      obtain ⟨hwire, hrest⟩ := List.cons.inj h
      exact ⟨reading [], rfl, rfl, Stream.feed_append_eq (feed_frame hwire rfl) (feed_frames hrest)⟩

theorem encode_all {frames : List Frame} (h : ∀ f ∈ frames, f.payload.length + 5 ≤ maxBody) :
    ∃ wires : List (List UInt8), frames.map Frame.encode = wires.map .ok := by
  refine ⟨frames.map fun f => 0xbb :: f.body.flatMap escape ++ [0xbb], ?_⟩
  rw [List.map_map]
  apply List.map_congr_left
  intro f hf
  exact if_neg (Nat.not_lt.mpr (h f hf))

/-- The codec: frames come back from their encodings in any chunks, the state and the frames of a
stream do not depend on its cuts, and a failure is final. -/
theorem frames_in_any_chunks :
    (∀ frames : List Frame, (∀ f ∈ frames, f.payload.length + 5 ≤ maxBody) →
      ∃ wires : List (List UInt8), frames.map Frame.encode = wires.map .ok ∧
        ∀ chunks : List (List UInt8), chunks.flatten = wires.flatten →
          Runs.log Decoder.next Decoder.frames .default chunks = frames ∧
          (Runs.run Decoder.next .default chunks).finish = .ok ()) ∧
    (∀ (d : Decoder) (chunks chunks' : List (List UInt8)), chunks.flatten = chunks'.flatten →
      (Runs.run Decoder.next d chunks).failed = (Runs.run Decoder.next d chunks').failed ∧
      (Runs.run Decoder.next d chunks).finish = (Runs.run Decoder.next d chunks').finish ∧
      ((Runs.run Decoder.next d chunks).failed = false →
        Runs.log Decoder.next Decoder.frames d chunks =
          Runs.log Decoder.next Decoder.frames d chunks')) ∧
    (∀ d : Decoder, d.failed = true → ∀ chunks : List (List UInt8),
      (Runs.run Decoder.next d chunks).failed = true ∧
      Runs.log Decoder.next Decoder.frames d chunks = [] ∧
      ∀ chunk : List UInt8, ∃ e, (d.feed chunk).2 = .error e) := by
  refine ⟨?_, ?_, ?_⟩
  · intro frames hframes
    obtain ⟨wires, hwires⟩ := encode_all hframes
    refine ⟨wires, hwires, ?_⟩
    intro chunks hchunks
    obtain ⟨d, hd, hfinish, hfeed⟩ := feed_default hwires
    have hall : Decoder.default.feed wires.flatten = (d, .ok frames) := by
      rw [Decoder.feed, hfeed]
      rfl
    have hnext : Decoder.default.next chunks.flatten = d := by rw [hchunks, Decoder.next, hall]
    rw [log_chunks _ _ (by rw [hnext, hd]), run_chunks, hnext, hchunks, Decoder.frames, hall]
    exact ⟨rfl, hfinish⟩
  · intro d chunks chunks' h
    have hrun : Runs.run Decoder.next d chunks = Runs.run Decoder.next d chunks' := by
      rw [run_chunks, run_chunks, h]
    rw [hrun]
    refine ⟨rfl, rfl, ?_⟩
    intro hfailed
    rw [run_chunks] at hfailed
    rw [log_chunks d chunks' hfailed, log_chunks d chunks (h ▸ hfailed), h]
  · intro d hd chunks
    rw [run_failed hd, log_failed hd]
    refine ⟨hd, rfl, ?_⟩
    intro chunk
    exact ⟨freshStream, by rw [Decoder.feed, if_pos hd]⟩

end OpenSaab.VcxNano
