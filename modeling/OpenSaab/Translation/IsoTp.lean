import OpenSaab.Library.Bits
import OpenSaab.Library.Runs
import OpenSaab.Text
import Mathlib.Data.List.Infix

/-!
# Receiving ISO-TP

`isotp.rs`: the receiver puts the payload of a diagnostic message together from classical CAN
frames.
-/

namespace OpenSaab.Translation

open Bits Runs Text

namespace IsoTp

inductive Step where
  | firstFrame
  | consecutiveFrame
  | complete (payload : List UInt8)
  deriving DecidableEq, Repr

structure Receiver where
  limit : Nat
  length : Option Nat
  bytes : List UInt8
  next : UInt8
  failed : Bool
  complete : Bool
  deriving DecidableEq, Repr

namespace Receiver

def new (limit : Nat) : Except String Receiver :=
  if limit < 1 ∨ 4095 < limit then .error "ISO-TP limit must be 1..4095"
  else
    .ok { limit, length := none, bytes := [], next := 1, failed := false, complete := false }

def started (r : Receiver) : Bool := r.length.isSome

def single (r : Receiver) (data : List UInt8) : Except String (Step × Receiver) :=
  let length := (data.headD 0 &&& 15).toNat
  if length = 0 ∨ 7 < length ∨ r.limit < length ∨ data.length < length + 1 then
    .error "Invalid ISO-TP single-frame length"
  else
    .ok (.complete ((data.drop 1).take length), { r with length := some length, complete := true })

def first (r : Receiver) (data : List UInt8) : Except String (Step × Receiver) :=
  if data.length ≠ 8 then .error "Truncated ISO-TP first frame"
  else
    let length := ((data.headD 0 &&& 15).toNat <<< 8) ||| (data.getD 1 0).toNat
    if length < 8 ∨ r.limit < length then .error "Invalid ISO-TP multi-frame length"
    else
      .ok (.firstFrame, { r with length := some length, bytes := r.bytes ++ data.drop 2 })

def consecutive (r : Receiver) (length : Nat) (data : List UInt8) :
    Except String (Step × Receiver) :=
  let remaining := length - r.bytes.length
  let count := min remaining 7
  if data.length < count + 1 then .error "Truncated ISO-TP consecutive frame"
  else
    let bytes := r.bytes ++ (data.drop 1).take count
    let next := (r.next + 1) &&& 15
    if bytes.length = length then
      .ok (.complete bytes, { r with bytes := [], next, complete := true })
    else .ok (.consecutiveFrame, { r with bytes, next })

def consume (r : Receiver) (data : List UInt8) : Except String (Step × Receiver) :=
  if data = [] ∨ 8 < data.length then .error "Invalid ISO-TP CAN size"
  else
    let pci := data.headD 0
    match r.length with
    | none =>
      if pci >>> 4 = 0 then r.single data
      else if pci >>> 4 = 1 then r.first data
      else .error "Unexpected, duplicate or out-of-sequence ISO-TP frame"
    | some length =>
      if pci >>> 4 = 2 ∧ pci &&& 15 = r.next then r.consecutive length data
      else .error "Unexpected, duplicate or out-of-sequence ISO-TP frame"

/-- The first error is final, and so is a complete payload. -/
def push (r : Receiver) (data : List UInt8) : Except String Step × Receiver :=
  if r.failed ∨ r.complete then (.error "ISO-TP receiver is terminal", r)
  else
    match r.consume data with
    | .error e => (.error e, { r with failed := true, bytes := [] })
    | .ok (step, r) => (.ok step, r)

end Receiver

/-- The reply to a request for the VIN, with the receiver of its payload. -/
structure VinReply where
  receiver : Receiver
  vin : Option String
  deriving DecidableEq, Repr

namespace VinReply

/-- `VinReply::default`. -/
def default : VinReply where
  receiver := { limit := 19, length := none, bytes := [], next := 1, failed := false, complete := false }
  vin := none

example : Receiver.new 19 = .ok default.receiver := rfl

/-- Digits and capital letters, but for three. -/
def vinByte (b : UInt8) : Bool :=
  0x30 ≤ b && b ≤ 0x39 || 0x41 ≤ b && b ≤ 0x5a && !"IOQ".toList.contains (Char.ofNat b.toNat)

def feed (v : VinReply) (data : List UInt8) : Except String Bool × VinReply :=
  if data.length ≠ 8 then (.error "VIN CAN response must contain eight bytes", v)
  else if data.take 3 = [3, 0x7f, 0x1a] then
    (.error ("ECU rejected VIN request: NRC " ++ hexUpper (data.getD 3 0)), v)
  else if ¬ v.receiver.started ∧ data.take 4 ≠ [0x10, 19, 0x5a, 0x90] then
    (.error "Unexpected VIN first frame", v)
  else
    match v.receiver.push data with
    | (.error e, receiver) => (.error e, { v with receiver })
    | (.ok .firstFrame, receiver) => (.ok true, { v with receiver })
    | (.ok .consecutiveFrame, receiver) => (.ok false, { v with receiver })
    | (.ok (.complete bytes), receiver) =>
      if bytes.length ≠ 19 ∨ bytes.take 2 ≠ [0x5a, 0x90] then
        (.error "Invalid VIN payload", { v with receiver })
      else if ¬ (bytes.drop 2).all vinByte then
        (.error "Invalid VIN characters", { v with receiver })
      else
        (.ok false,
          { receiver, vin := some (String.ofList ((bytes.drop 2).map fun b => Char.ofNat b.toNat)) })

end VinReply

/-! ## Segmentations -/

/-- The frames that carry the rest of a payload, numbered from `n` on. -/
inductive Consecutive : UInt8 → List UInt8 → List (List UInt8) → Prop where
  | last {n : UInt8} {rest padding : List UInt8} (hrest : rest ≠ [])
      (hfit : rest.length + padding.length ≤ 7) :
      Consecutive n rest [(0x20 + n) :: (rest ++ padding)]
  | more {n : UInt8} {part rest : List UInt8} {frames : List (List UInt8)}
      (hpart : part.length = 7) (hrest : rest ≠ [])
      (h : Consecutive ((n + 1) &&& 15) rest frames) :
      Consecutive n (part ++ rest) (((0x20 + n) :: part) :: frames)

/-- The frames that carry a payload: a single one, or a first frame and those that follow it. -/
inductive Segmentation : List UInt8 → List (List UInt8) → Prop where
  | single {p padding : List UInt8} (hp : p ≠ []) (hfit : p.length + padding.length ≤ 7) :
      Segmentation p [UInt8.ofNat p.length :: (p ++ padding)]
  | multi {part rest : List UInt8} {frames : List (List UInt8)} {length : Nat}
      (hpart : part.length = 6) (hlength : length = (part ++ rest).length) (hmin : 8 ≤ length)
      (hmax : length ≤ 4095) (h : Consecutive 1 rest frames) :
      Segmentation (part ++ rest)
        ((UInt8.ofNat (0x10 + length / 256) :: UInt8.ofNat (length % 256) :: part) :: frames)

theorem Segmentation.length_pos {p : List UInt8} {frames : List (List UInt8)}
    (h : Segmentation p frames) : 1 ≤ p.length := by
  cases h with
  | single hp _ => exact List.length_pos_iff.mpr hp
  | multi _ hlength hmin _ _ => omega

theorem Segmentation.ne_nil {p : List UInt8} {frames : List (List UInt8)}
    (h : Segmentation p frames) : frames ≠ [] := by
  cases h <;> simp

theorem Consecutive.size {n : UInt8} {rest : List UInt8} {frames : List (List UInt8)}
    (h : Consecutive n rest frames) : ∀ data ∈ frames, data.length ≤ 8 := by
  induction h with
  | last _ hfit =>
    simp only [List.forall_mem_singleton, List.length_cons, List.length_append]
    omega
  | more hpart _ _ ih =>
    rw [List.forall_mem_cons]
    exact ⟨by rw [List.length_cons]; omega, ih⟩

theorem Segmentation.size {p : List UInt8} {frames : List (List UInt8)}
    (h : Segmentation p frames) :
    ∀ data ∈ frames, data.length ≤ 8 := by
  cases h with
  | single _ hfit =>
    simp only [List.forall_mem_singleton, List.length_cons, List.length_append]
    omega
  | multi hpart _ _ _ h =>
    rw [List.forall_mem_cons]
    exact ⟨by simp only [List.length_cons]; omega, h.size⟩

/-- The frames for the rest of a payload, the last one padded. -/
def consecutiveFrames (pad n : UInt8) (rest : List UInt8) : List (List UInt8) :=
  if rest.length ≤ 7 then [(0x20 + n) :: (rest ++ List.replicate (7 - rest.length) pad)]
  else
    ((0x20 + n) :: rest.take 7) :: consecutiveFrames pad ((n + 1) &&& 15) (rest.drop 7)
termination_by rest.length
decreasing_by rw [List.length_drop]; omega

def segment (pad : UInt8) (p : List UInt8) : List (List UInt8) :=
  if p.length ≤ 7 then [UInt8.ofNat p.length :: (p ++ List.replicate (7 - p.length) pad)]
  else
    (UInt8.ofNat (0x10 + p.length / 256) :: UInt8.ofNat (p.length % 256) :: p.take 6) ::
      consecutiveFrames pad 1 (p.drop 6)

theorem consecutiveFrames_spec (pad n : UInt8) {rest : List UInt8} (h : rest ≠ []) :
    Consecutive n rest (consecutiveFrames pad n rest) := by
  induction hk : rest.length using Nat.strongRecOn generalizing n rest with
  | _ k ih =>
    unfold consecutiveFrames
    split
    · next hfit =>
      refine .last h ?_
      rw [List.length_replicate]
      omega
    · next hlong =>
      have hdrop : rest.drop 7 ≠ [] := by
        rw [← List.length_pos_iff, List.length_drop]
        omega
      have hlt : (rest.drop 7).length < k := by
        rw [List.length_drop]
        omega
      have hpart : (rest.take 7).length = 7 := by
        rw [List.length_take]
        omega
      have hmore := @Consecutive.more n _ _ _ hpart hdrop (ih _ hlt ((n + 1) &&& 15) hdrop rfl)
      rwa [List.take_append_drop] at hmore

theorem segment_spec (pad : UInt8) {p : List UInt8} (hp : p ≠ []) (hmax : p.length ≤ 4095) :
    Segmentation p (segment pad p) := by
  unfold segment
  split
  · next hfit =>
    refine .single hp ?_
    rw [List.length_replicate]
    omega
  · next hlong =>
    have hdrop : p.drop 6 ≠ [] := by
      rw [← List.length_pos_iff, List.length_drop]
      omega
    have hpart : (p.take 6).length = 6 := by
      rw [List.length_take]
      omega
    have hlength : p.length = (p.take 6 ++ p.drop 6).length := by rw [List.take_append_drop]
    have hmulti := Segmentation.multi hpart hlength (by omega) hmax
      (consecutiveFrames_spec pad 1 hdrop)
    rwa [List.take_append_drop] at hmulti

/-! ## One frame -/

theorem high_eq_iff (b k : UInt8) : b >>> 4 = k ↔ b.toNat / 16 = k.toNat := by
  rw [← toNat_high, UInt8.toNat_inj]

/-- The first byte of a consecutive frame. -/
theorem consecutive_pci (b : UInt8) {n : UInt8} (hn : n.toNat < 16) :
    b >>> 4 = 2 ∧ b &&& 15 = n ↔ b = 0x20 + n := by
  have hsum : (0x20 + n).toNat = 32 + n.toNat := by
    rw [UInt8.toNat_add]
    exact Nat.mod_eq_of_lt (by simp; omega)
  rw [high_eq_iff, ← UInt8.toNat_inj, toNat_low, ← UInt8.toNat_inj, hsum]
  have : (2 : UInt8).toNat = 2 := rfl
  omega

/-- The first byte of a single frame. -/
theorem single_pci {n : Nat} (hn : n < 16) :
    UInt8.ofNat n >>> 4 = 0 ∧ (UInt8.ofNat n &&& 15).toNat = n := by
  have hvalue : (UInt8.ofNat n).toNat = n := UInt8.toNat_ofNat_of_lt' (by simp [UInt8.size]; omega)
  rw [high_eq_iff, toNat_low, hvalue]
  exact ⟨by simp; omega, by omega⟩

theorem eq_of_single_pci {b : UInt8} (h : b >>> 4 = 0) : b = UInt8.ofNat (b &&& 15).toNat := by
  rw [high_eq_iff] at h
  have hlow : (b &&& 15).toNat = b.toNat := by
    rw [toNat_low]
    have : (0 : UInt8).toNat = 0 := rfl
    omega
  rw [hlow, UInt8.ofNat_toNat]

/-- The length in the first two bytes of a first frame. -/
theorem first_length (b c : UInt8) :
    ((b &&& 15).toNat <<< 8) ||| c.toNat = b.toNat % 16 * 256 + c.toNat := by
  rw [← Nat.shiftLeft_add_eq_or_of_lt (i := 8) c.toNat_lt, toNat_low, Nat.shiftLeft_eq]

theorem first_pci {n : Nat} (hn : n ≤ 4095) :
    UInt8.ofNat (0x10 + n / 256) >>> 4 = 1 ∧
      ((UInt8.ofNat (0x10 + n / 256) &&& 15).toNat <<< 8) ||| (UInt8.ofNat (n % 256)).toNat = n := by
  have hb : (UInt8.ofNat (0x10 + n / 256)).toNat = 0x10 + n / 256 :=
    UInt8.toNat_ofNat_of_lt' (by simp [UInt8.size]; omega)
  have hc : (UInt8.ofNat (n % 256)).toNat = n % 256 :=
    UInt8.toNat_ofNat_of_lt' (by simp [UInt8.size]; omega)
  rw [high_eq_iff, first_length, hb, hc]
  have : (1 : UInt8).toNat = 1 := rfl
  omega

theorem eq_of_first_pci {b c : UInt8} {n : Nat} (h : b >>> 4 = 1)
    (hn : ((b &&& 15).toNat <<< 8) ||| c.toNat = n) :
    b = UInt8.ofNat (0x10 + n / 256) ∧ c = UInt8.ofNat (n % 256) ∧ n ≤ 4095 := by
  rw [high_eq_iff] at h
  rw [first_length] at hn
  have hc := c.toNat_lt
  have : (1 : UInt8).toNat = 1 := rfl
  have hb : 0x10 + n / 256 = b.toNat := by omega
  have hc' : n % 256 = c.toNat := by omega
  rw [hb, hc', UInt8.ofNat_toNat, UInt8.ofNat_toNat]
  exact ⟨rfl, rfl, by omega⟩

theorem next_lt (n : UInt8) : ((n + 1) &&& 15).toNat < 16 := by
  rw [toNat_low]
  omega

/-- A frame with others behind it carries seven bytes, and the others carry the rest. -/
theorem Consecutive.uncons {n : UInt8} {rest f data : List UInt8} {frames : List (List UInt8)}
    (h : Consecutive n rest (f :: (frames ++ [data]))) :
    ∃ part rest', rest = part ++ rest' ∧ f = (0x20 + n) :: part ∧ part.length = 7 ∧ rest' ≠ [] ∧
      Consecutive ((n + 1) &&& 15) rest' (frames ++ [data]) := by
  generalize hall : f :: (frames ++ [data]) = all at h
  cases h with
  | last => simp at hall
  | more hpart hrest hseg =>
    obtain ⟨rfl, rfl⟩ := List.cons.inj hall
    exact ⟨_, _, rfl, rfl, hpart, hrest, hseg⟩

/-- A payload in several frames starts with a first frame that carries six bytes. -/
theorem Segmentation.uncons {p f data : List UInt8} {frames : List (List UInt8)}
    (h : Segmentation p (f :: (frames ++ [data]))) :
    ∃ part rest, p = part ++ rest ∧ part.length = 6 ∧ 8 ≤ p.length ∧
      f = UInt8.ofNat (0x10 + p.length / 256) :: UInt8.ofNat (p.length % 256) :: part ∧
        Consecutive 1 rest (frames ++ [data]) := by
  generalize hall : f :: (frames ++ [data]) = all at h
  cases h with
  | single => simp at hall
  | multi hpart hlength hmin hmax hseg =>
    obtain ⟨rfl, rfl⟩ := List.cons.inj hall
    subst hlength
    exact ⟨_, _, rfl, hpart, hmin, rfl, hseg⟩

namespace Receiver

variable {r : Receiver}

/-- The receiver has taken a first frame and waits for more. -/
structure Receiving (r : Receiver) (length : Nat) : Prop where
  total : r.length = some length
  failed : r.failed = false
  complete : r.complete = false
  short : r.bytes.length < length
  next : r.next.toNat < 16

/-- Nothing is received any more. -/
def Terminal (r : Receiver) : Prop := r.failed = true ∨ r.complete = true

theorem push_terminal (h : r.Terminal) (data : List UInt8) :
    r.push data = (.error "ISO-TP receiver is terminal", r) := if_pos h

/-- The last frame of a message completes it. -/
theorem push_last {length : Nat} (h : r.Receiving length) {rest padding : List UInt8}
    (hrest : r.bytes.length + rest.length = length) (hfit : rest.length + padding.length ≤ 7) :
    (r.push ((0x20 + r.next) :: (rest ++ padding))).1 = .ok (.complete (r.bytes ++ rest)) ∧
      (r.push ((0x20 + r.next) :: (rest ++ padding))).2.Terminal := by
  have hshort := h.short
  have hpci := (consecutive_pci (0x20 + r.next) h.next).mpr rfl
  have hcount : min (length - r.bytes.length) 7 = rest.length := by omega
  unfold push
  rw [if_neg (by simp [h.failed, h.complete])]
  unfold consume
  rw [if_neg (by simp; omega)]
  simp only [h.total, List.headD_cons, hpci, and_self, if_true]
  unfold consecutive
  simp only [hcount, List.length_cons, List.length_append, List.drop_one, List.tail_cons,
    List.take_left']
  rw [if_neg (by omega), if_pos hrest]
  exact ⟨rfl, Or.inr rfl⟩

/-- A frame of seven bytes is taken while more are to come. -/
theorem push_more {length : Nat} (h : r.Receiving length) {part : List UInt8}
    (hpart : part.length = 7) (hrest : r.bytes.length + 7 < length) :
    ∃ r', r.push ((0x20 + r.next) :: part) = (.ok .consecutiveFrame, r') ∧ r'.Receiving length ∧
      r'.bytes = r.bytes ++ part ∧ r'.next = (r.next + 1) &&& 15 := by
  have hpci := (consecutive_pci (0x20 + r.next) h.next).mpr rfl
  have hcount : min (length - r.bytes.length) 7 = part.length := by omega
  refine ⟨{ r with bytes := r.bytes ++ part, next := (r.next + 1) &&& 15 }, ?_, ?_, rfl, rfl⟩
  · unfold push
    rw [if_neg (by simp [h.failed, h.complete])]
    unfold consume
    rw [if_neg (by simp; omega)]
    simp only [h.total, List.headD_cons, hpci, and_self, if_true]
    unfold consecutive
    simp only [hcount, List.length_cons, List.length_append, List.drop_one, List.tail_cons,
      List.take_length]
    rw [if_neg (by omega), if_neg (by omega), h.total]
  · refine ⟨h.total, h.failed, h.complete, ?_, next_lt r.next⟩
    rw [List.length_append]
    omega

/-- Whatever else a frame is, it is refused. -/
theorem consume_receiving {length : Nat} (h : r.Receiving length) (data : List UInt8) :
    (∃ rest padding, r.bytes.length + rest.length = length ∧ rest.length + padding.length ≤ 7 ∧
        data = (0x20 + r.next) :: (rest ++ padding)) ∨
      (∃ part, part.length = 7 ∧ r.bytes.length + 7 < length ∧ data = (0x20 + r.next) :: part) ∨
        ∃ e, r.consume data = .error e := by
  have hshort := h.short
  unfold consume
  split
  · exact Or.inr (Or.inr ⟨_, rfl⟩)
  · next hsize =>
    simp only [h.total]
    split
    · next hpci =>
      cases data with
      | nil => simp at hsize
      | cons pci tail =>
        rw [List.headD_cons, consecutive_pci pci h.next] at hpci
        subst hpci
        simp only [List.length_cons, not_or, Nat.not_lt] at hsize
        by_cases hlong : length - r.bytes.length ≤ tail.length
        · refine Or.inl ⟨tail.take (length - r.bytes.length),
            tail.drop (length - r.bytes.length), ?_, ?_, ?_⟩
          · rw [List.length_take]
            omega
          · rw [List.length_take, List.length_drop]
            omega
          · rw [List.take_append_drop]
        · by_cases hfull : tail.length = 7
          · exact Or.inr (Or.inl ⟨tail, hfull, by omega, rfl⟩)
          · refine Or.inr (Or.inr ⟨_, if_pos ?_⟩)
            simp only [List.length_cons]
            omega
    · exact Or.inr (Or.inr ⟨_, rfl⟩)

theorem consume_complete {data p : List UInt8} {r' : Receiver}
    (h : r.consume data = .ok (.complete p, r')) : r'.complete = true := by
  unfold consume at h
  split at h
  · cases h
  · dsimp only at h
    split at h
    · split at h
      · unfold single at h
        dsimp only at h
        split at h <;> cases h
        rfl
      · split at h
        · unfold first at h
          dsimp only at h
          split at h
          · cases h
          · split at h <;> cases h
        · cases h
    · split at h
      · unfold consecutive at h
        dsimp only at h
        split at h
        · cases h
        · split at h <;> cases h
          rfl
      · cases h

theorem push_error {data : List UInt8} {e : String} (h : r.consume data = .error e) :
    (∃ e', (r.push data).1 = .error e') ∧ (r.push data).2.Terminal := by
  unfold push
  split
  · next hdone => exact ⟨⟨_, rfl⟩, hdone⟩
  · rw [h]
    exact ⟨⟨e, rfl⟩, Or.inl rfl⟩

/-! ## Whole messages -/

def reply (r : Receiver) (data : List UInt8) : Except String Step := (r.push data).1

def after (r : Receiver) (data : List UInt8) : Receiver := (r.push data).2

theorem run_terminal (h : r.Terminal) (frames : List (List UInt8)) (data : List UInt8) :
    reply (run after r frames) data = .error "ISO-TP receiver is terminal" := by
  have hsame : run after r frames = r := by
    induction frames with
    | nil => rfl
    | cons f frames ih =>
      have hf : after r f = r := congrArg Prod.snd (push_terminal h f)
      rwa [run_cons, hf]
  rw [hsame]
  exact congrArg Prod.fst (push_terminal h data)

theorem consecutive_ne_nil {n : UInt8} {rest : List UInt8} : ¬ Consecutive n rest [] := nofun

/-- The last frame of a payload carries all that is missing. -/
theorem receiving_last {length : Nat} (h : r.Receiving length) (data p : List UInt8) :
    reply r data = .ok (.complete p) ↔
      ∃ rest, p = r.bytes ++ rest ∧ r.bytes.length + rest.length = length ∧
        Consecutive r.next rest [data] := by
  constructor
  · intro hreply
    rcases consume_receiving h data with
      ⟨rest, padding, hrest, hfit, rfl⟩ | ⟨part, hpart, hmore, rfl⟩ | ⟨e, he⟩
    · have hlast := (push_last h hrest hfit).1
      have hp := hreply.symm.trans hlast
      simp only [Except.ok.injEq, Step.complete.injEq] at hp
      refine ⟨rest, hp, hrest, .last ?_ hfit⟩
      rintro rfl
      have := h.short
      simp at hrest
      omega
    · obtain ⟨r', hpush, -⟩ := push_more h hpart hmore
      have hp := hreply.symm.trans (congrArg Prod.fst hpush)
      simp at hp
    · obtain ⟨⟨e', he'⟩, -⟩ := push_error he
      exact absurd (hreply.symm.trans he') (by simp)
  · rintro ⟨rest, rfl, hrest, hseg⟩
    cases hseg with
    | last hne hfit => exact (push_last h hrest hfit).1
    | more _ _ hseg => exact absurd hseg consecutive_ne_nil

/-- A receiver that waits for more completes a payload with the frames that carry the rest. -/
theorem receiving_complete {length : Nat} (h : r.Receiving length) (frames : List (List UInt8))
    (data p : List UInt8) :
    reply (run after r frames) data = .ok (.complete p) ↔
      ∃ rest, p = r.bytes ++ rest ∧ r.bytes.length + rest.length = length ∧
        Consecutive r.next rest (frames ++ [data]) := by
  induction frames generalizing r with
  | nil => exact receiving_last h data p
  | cons f frames ih =>
    rw [run_cons, List.cons_append]
    rcases consume_receiving h f with
      ⟨rest, padding, hrest, hfit, rfl⟩ | ⟨part, hpart, hmore, rfl⟩ | ⟨e, he⟩
    · have hdone : (after r _).Terminal := (push_last h hrest hfit).2
      refine iff_of_false (fun hreply => ?_) ?_
      · exact absurd ((run_terminal hdone frames data).symm.trans hreply) (by simp)
      · rintro ⟨rest', -, hlength, hseg⟩
        obtain ⟨part, rest'', rfl, -, hpart, hne, -⟩ := hseg.uncons
        have := List.length_pos_iff.mpr hne
        simp only [List.length_append] at hlength
        omega
    · obtain ⟨r', hpush, hreceiving, hbytes, hnext⟩ := push_more h hpart hmore
      have hafter : after r ((0x20 + r.next) :: part) = r' := congrArg Prod.snd hpush
      rw [hafter, ih hreceiving, hbytes, hnext]
      constructor
      · rintro ⟨rest, rfl, hlength, hseg⟩
        have hne : rest ≠ [] := by
          rintro rfl
          simp only [List.length_append, List.length_nil] at hlength
          omega
        refine ⟨part ++ rest, List.append_assoc .., ?_, .more hpart hne hseg⟩
        rw [← hlength]
        simp only [List.length_append]
        omega
      · rintro ⟨rest, rfl, hlength, hseg⟩
        obtain ⟨part', rest', rfl, hf, hpart', hne, hseg'⟩ := hseg.uncons
        obtain rfl : part = part' := (List.cons.inj hf).2
        refine ⟨rest', (List.append_assoc ..).symm, ?_, hseg'⟩
        rw [← hlength]
        simp only [List.length_append]
        omega
    · have hdone : (after r f).Terminal := (push_error he).2
      refine iff_of_false (fun hreply => ?_) ?_
      · exact absurd ((run_terminal hdone frames data).symm.trans hreply) (by simp)
      · rintro ⟨rest', -, hlength, hseg⟩
        obtain ⟨part, rest'', rfl, rfl, hpart, hne, -⟩ := hseg.uncons
        have := List.length_pos_iff.mpr hne
        simp only [List.length_append] at hlength
        obtain ⟨r', hpush, -⟩ := push_more h hpart (by omega)
        obtain ⟨⟨e', he'⟩, -⟩ := push_error he
        rw [hpush] at he'
        cases he'

/-! ## The first frame -/

/-- The receiver has taken no frame. -/
structure Fresh (r : Receiver) (limit : Nat) : Prop where
  bound : limit ≤ 4095
  eq : r = { limit, length := none, bytes := [], next := 1, failed := false, complete := false }

theorem fresh_of_new {limit : Nat} (h : new limit = .ok r) : r.Fresh limit := by
  unfold new at h
  split at h
  · cases h
  · next hlimit => exact ⟨by omega, (Except.ok.inj h).symm⟩

/-- What a fresh receiver does with a frame that has bytes. -/
theorem Fresh.consume_cons {limit : Nat} (h : r.Fresh limit) (pci : UInt8) {tail : List UInt8}
    (hsize : tail.length ≤ 7) :
    r.consume (pci :: tail) =
      if pci >>> 4 = 0 then r.single (pci :: tail)
      else if pci >>> 4 = 1 then r.first (pci :: tail)
      else .error "Unexpected, duplicate or out-of-sequence ISO-TP frame" := by
  rw [h.eq]
  unfold consume
  rw [if_neg (by simp; omega)]
  rfl

theorem Fresh.push_eq {limit : Nat} (h : r.Fresh limit) {data : List UInt8} {step : Step}
    {r' : Receiver} (hconsume : r.consume data = .ok (step, r')) :
    r.push data = (.ok step, r') := by
  unfold push
  rw [if_neg (by rw [h.eq]; simp), hconsume]

theorem push_single {limit : Nat} (h : r.Fresh limit) {p padding : List UInt8} (hp : p ≠ [])
    (hfit : p.length + padding.length ≤ 7) (hlimit : p.length ≤ limit) :
    (r.push (UInt8.ofNat p.length :: (p ++ padding))).1 = .ok (.complete p) ∧
      (r.push (UInt8.ofNat p.length :: (p ++ padding))).2.Terminal := by
  have hpos := List.length_pos_iff.mpr hp
  obtain ⟨hpci, hlength⟩ := single_pci (n := p.length) (by omega)
  have hconsume : r.consume (UInt8.ofNat p.length :: (p ++ padding)) =
      .ok (.complete p, { r with length := some p.length, complete := true }) := by
    rw [h.consume_cons _ (by rw [List.length_append]; omega), if_pos hpci, h.eq]
    simp only [single, List.headD_cons, hlength, List.length_cons, List.length_append,
      List.drop_one, List.tail_cons, List.take_left']
    rw [if_neg (by omega)]
  rw [h.push_eq hconsume]
  exact ⟨rfl, Or.inr rfl⟩

theorem push_first {limit : Nat} (h : r.Fresh limit) {part : List UInt8} {length : Nat}
    (hpart : part.length = 6) (hmin : 8 ≤ length) (hlimit : length ≤ limit) :
    ∃ r', r.push (UInt8.ofNat (0x10 + length / 256) :: UInt8.ofNat (length % 256) :: part) =
        (.ok .firstFrame, r') ∧ r'.Receiving length ∧ r'.bytes = part ∧ r'.next = 1 := by
  have hbound := h.bound
  obtain ⟨hpci, hlength⟩ := first_pci (n := length) (by omega)
  have hnot : ¬ UInt8.ofNat (0x10 + length / 256) >>> 4 = 0 := by
    rw [hpci]
    decide
  have hnext : (1 : UInt8).toNat < 16 := by decide
  refine ⟨⟨limit, some length, part, 1, false, false⟩, ?_,
    ⟨rfl, rfl, rfl, by dsimp only; omega, hnext⟩, rfl, rfl⟩
  refine h.push_eq ?_
  rw [h.consume_cons _ (by rw [List.length_cons]; omega), if_neg hnot, if_pos hpci, h.eq]
  simp only [first, List.headD_cons, List.getD_cons_succ, List.getD_cons_zero, hlength,
    List.length_cons, List.drop_succ_cons, List.drop_zero, List.nil_append]
  rw [if_neg (by omega), if_neg (by omega)]

/-- Whatever else the first frame is, it is refused. -/
theorem consume_fresh {limit : Nat} (h : r.Fresh limit) (data : List UInt8) :
    (∃ p padding, p ≠ [] ∧ p.length + padding.length ≤ 7 ∧ p.length ≤ limit ∧
        data = UInt8.ofNat p.length :: (p ++ padding)) ∨
      (∃ part length, part.length = 6 ∧ 8 ≤ length ∧ length ≤ limit ∧
        data = UInt8.ofNat (0x10 + length / 256) :: UInt8.ofNat (length % 256) :: part) ∨
        ∃ e, r.consume data = .error e := by
  have hempty : ∀ d : List UInt8, d = [] ∨ 8 < d.length → ∃ e, r.consume d = .error e :=
    fun d hd => ⟨_, if_pos hd⟩
  match data with
  | [] => exact Or.inr (Or.inr (hempty [] (Or.inl rfl)))
  | pci :: tail =>
    by_cases hsize : tail.length ≤ 7
    · rw [h.consume_cons pci hsize, h.eq]
      by_cases hsingle : pci >>> 4 = 0
      · rw [if_pos hsingle]
        by_cases hlength : (pci &&& 15).toNat = 0 ∨ 7 < (pci &&& 15).toNat ∨
            limit < (pci &&& 15).toNat ∨ tail.length + 1 < (pci &&& 15).toNat + 1
        · exact Or.inr (Or.inr ⟨_, if_pos hlength⟩)
        · simp only [not_or, Nat.not_lt] at hlength
          refine Or.inl ⟨tail.take (pci &&& 15).toNat, tail.drop (pci &&& 15).toNat, ?_, ?_, ?_, ?_⟩
          · rw [← List.length_pos_iff, List.length_take]
            omega
          · rw [List.length_take, List.length_drop]
            omega
          · rw [List.length_take]
            omega
          · rw [List.take_append_drop, List.length_take, Nat.min_eq_left (by omega),
              ← eq_of_single_pci hsingle]
      · rw [if_neg hsingle]
        by_cases hfirst : pci >>> 4 = 1
        · rw [if_pos hfirst]
          match tail with
          | [] => exact Or.inr (Or.inr ⟨_, rfl⟩)
          | low :: part =>
            by_cases hpart : part.length = 6
            · by_cases hlength : (((pci &&& 15).toNat <<< 8) ||| low.toNat) < 8 ∨
                  limit < (((pci &&& 15).toNat <<< 8) ||| low.toNat)
              · refine Or.inr (Or.inr ⟨"Invalid ISO-TP multi-frame length", ?_⟩)
                unfold first
                rw [if_neg (by simp [hpart])]
                exact if_pos hlength
              · simp only [not_or, Nat.not_lt] at hlength
                obtain ⟨hb, hc, -⟩ := eq_of_first_pci hfirst (Eq.refl _)
                refine Or.inr (Or.inl ⟨part, _, hpart, hlength.1, hlength.2, ?_⟩)
                rw [← hb, ← hc]
            · exact Or.inr (Or.inr ⟨_, if_pos (by simp; omega)⟩)
        · rw [if_neg hfirst]
          exact Or.inr (Or.inr ⟨_, rfl⟩)
    · exact Or.inr (Or.inr (hempty _ (Or.inr (by rw [List.length_cons]; omega))))

/-- A payload in one frame is completed by a single frame. -/
theorem fresh_single {limit : Nat} (h : r.Fresh limit) (data p : List UInt8) :
    reply r data = .ok (.complete p) ↔ Segmentation p [data] ∧ p.length ≤ limit := by
  constructor
  · intro hreply
    rcases consume_fresh h data with
      ⟨p', padding, hp', hfit, hlimit, rfl⟩ | ⟨part, length, hpart, hmin, hlimit, rfl⟩ | ⟨e, he⟩
    · have hp := hreply.symm.trans (push_single h hp' hfit hlimit).1
      simp only [Except.ok.injEq, Step.complete.injEq] at hp
      subst hp
      exact ⟨.single hp' hfit, hlimit⟩
    · obtain ⟨r', hpush, -⟩ := push_first h hpart hmin hlimit
      have hp := hreply.symm.trans (congrArg Prod.fst hpush)
      simp at hp
    · obtain ⟨⟨e', he'⟩, -⟩ := push_error he
      exact absurd (hreply.symm.trans he') (by simp)
  · rintro ⟨hseg, hlimit⟩
    cases hseg with
    | single hp hfit => exact (push_single h hp hfit hlimit).1
    | multi _ _ _ _ hseg => exact absurd hseg consecutive_ne_nil

/-- A fresh receiver completes a payload exactly at the last frame of a segmentation of it. -/
theorem fresh_complete {limit : Nat} (h : r.Fresh limit) (frames : List (List UInt8))
    (data p : List UInt8) :
    reply (run after r frames) data = .ok (.complete p) ↔
      Segmentation p (frames ++ [data]) ∧ p.length ≤ limit := by
  cases frames with
  | nil => exact fresh_single h data p
  | cons f frames =>
    rw [run_cons, List.cons_append]
    rcases consume_fresh h f with
      ⟨p', padding, hp', hfit, hlimit, rfl⟩ | ⟨part, length, hpart, hmin, hlimit, rfl⟩ | ⟨e, he⟩
    · have hdone : (after r _).Terminal := (push_single h hp' hfit hlimit).2
      refine iff_of_false (fun hreply => ?_) ?_
      · exact absurd ((run_terminal hdone frames data).symm.trans hreply) (by simp)
      · rintro ⟨hseg, hmax⟩
        obtain ⟨part, rest, -, -, -, hf, -⟩ := hseg.uncons
        have hbound := h.bound
        have hlow := (single_pci (n := p'.length) (by omega)).1
        rw [(List.cons.inj hf).1, (first_pci (n := p.length) (by omega)).1] at hlow
        exact absurd hlow (by decide)
    · obtain ⟨r', hpush, hreceiving, hbytes, hnext⟩ := push_first h hpart hmin hlimit
      have hafter : after r (UInt8.ofNat (0x10 + length / 256) :: UInt8.ofNat (length % 256) ::
          part) = r' := congrArg Prod.snd hpush
      have hbound := h.bound
      rw [hafter, receiving_complete hreceiving, hbytes, hnext]
      constructor
      · rintro ⟨rest, rfl, hlength, hseg⟩
        rw [← List.length_append] at hlength
        exact ⟨.multi hpart hlength.symm hmin (by omega) hseg, by omega⟩
      · rintro ⟨hseg, hmax⟩
        obtain ⟨part', rest, hp, -, -, hf, hseg'⟩ := hseg.uncons
        have hlength : length = p.length := by
          rw [← (first_pci (n := length) (by omega)).2, (List.cons.inj hf).1,
            (List.cons.inj (List.cons.inj hf).2).1, (first_pci (n := p.length) (by omega)).2]
        obtain rfl : part = part' := (List.cons.inj (List.cons.inj hf).2).2
        refine ⟨rest, hp, ?_, hseg'⟩
        rw [hlength, hp, List.length_append]
    · have hdone : (after r f).Terminal := (push_error he).2
      refine iff_of_false (fun hreply => ?_) ?_
      · exact absurd ((run_terminal hdone frames data).symm.trans hreply) (by simp)
      · rintro ⟨hseg, hlimit⟩
        obtain ⟨part, rest, rfl, hpart, hmin, rfl, -⟩ := hseg.uncons
        obtain ⟨r', hpush, -⟩ := push_first h hpart hmin hlimit
        obtain ⟨⟨e', he'⟩, -⟩ := push_error he
        rw [hpush] at he'
        cases he'

end Receiver

/-! ## Reassembly -/

open Receiver

/-- Every result that is not the receipt of a frame ends the message. -/
theorem push_ends {r : Receiver} {data : List UInt8} {p : List UInt8}
    (h : (∃ e, (r.push data).1 = .error e) ∨ (r.push data).1 = .ok (.complete p)) :
    (r.push data).2.Terminal := by
  unfold push at h ⊢
  split at h
  · next hdone =>
    rw [if_pos hdone]
    exact hdone
  · next hopen =>
    rw [if_neg hopen]
    cases hconsume : r.consume data with
    | error e => exact Or.inl rfl
    | ok result =>
      obtain ⟨step, r'⟩ := result
      rw [hconsume] at h
      obtain rfl : step = .complete p := by simpa using h
      exact Or.inr (consume_complete hconsume)

/-- The receiver reports a payload exactly at the end of a segmentation of it. The frames that
`segment` makes are one, and after a payload or an error nothing is reported any more. -/
theorem receive_exact (limit : Nat) (r : Receiver) (h : Receiver.new limit = .ok r) :
    (∀ frames data p, reply (run after r frames) data = .ok (.complete p) ↔
        Segmentation p (frames ++ [data]) ∧ 1 ≤ p.length ∧ p.length ≤ limit) ∧
      (∀ pad p, 1 ≤ p.length → p.length ≤ limit → ∃ frames data,
        segment pad p = frames ++ [data] ∧
          reply (run after r frames) data = .ok (.complete p)) ∧
        ∀ before data p, (∃ e, reply (run after r before) data = .error e) ∨
          reply (run after r before) data = .ok (.complete p) →
            ∀ later next, reply (run after r (before ++ data :: later)) next =
              .error "ISO-TP receiver is terminal" := by
  have hfresh := fresh_of_new h
  have hbound := hfresh.bound
  refine ⟨fun frames data p => ?_, fun pad p hmin hmax => ?_, fun before data p hend later next => ?_⟩
  · rw [fresh_complete hfresh]
    refine and_congr_right fun hseg => ?_
    have := hseg.length_pos
    omega
  · have hne : p ≠ [] := List.length_pos_iff.mp hmin
    have hseg := segment_spec pad hne (by omega)
    have hframes : segment pad p ≠ [] := hseg.ne_nil
    refine ⟨(segment pad p).dropLast, (segment pad p).getLast hframes,
      (List.dropLast_append_getLast hframes).symm, ?_⟩
    rw [fresh_complete hfresh, List.dropLast_append_getLast hframes]
    exact ⟨hseg, hmax⟩
  · rw [run_append, run_cons]
    exact run_terminal (push_ends hend) later next

theorem receive_exact_default :
    Receiver.new 512 = .ok ⟨512, none, [], 1, false, false⟩ ∧
      ∀ frames data p,
        reply (run after ⟨512, none, [], 1, false, false⟩ frames) data = .ok (.complete p) ↔
          Segmentation p (frames ++ [data]) ∧ 1 ≤ p.length ∧ p.length ≤ 512 :=
  ⟨rfl, (receive_exact 512 ⟨512, none, [], 1, false, false⟩ rfl).1⟩

end IsoTp

end OpenSaab.Translation
