import OpenSaab.Vlinker.Replies
import OpenSaab.Translation.FlowControl
import Mathlib.Data.List.Perm.Basic

/-!
# Identifiers

A reply as an adapter shows it: one line for each frame, with the flow control of the tester between
the frames and pending answers before the first one. The identifier is read from such a reply
exactly if its frames are those of a payload.
-/

namespace OpenSaab.Vlinker

open Bits Runs Text Translation IsoTp IsoTp.Receiver

/-! ## The lines of an adapter -/

/-- The digits of a byte. -/
def nibbles (b : UInt8) : List Nat := [b.toNat / 16, b.toNat % 16]

/-- The line of a frame. -/
def lineText (frame : UInt32 × List UInt8) : List Char :=
  [frame.1.toNat / 256, frame.1.toNat / 16 % 16, frame.1.toNat % 16].map (hexDigit true) ++
    frame.2.flatMap fun b => ' ' :: (nibbles b).map (hexDigit true)

/-- Every line has the same end. -/
def adapterText (ends : List Char) (shown : List (UInt32 × List UInt8)) : List Char :=
  shown.flatMap fun frame => lineText frame ++ ends

/-- At least one character, and nothing but line breaks. -/
structure LineEnd (ends : List Char) : Prop where
  some : ends ≠ []
  breaks : ∀ c ∈ ends, lineBreak c = true

theorem hexDigit_spec {n : Nat} (h : n < 16) :
    hexValue (hexDigit true n) = some n ∧ whitespace (hexDigit true n) = false ∧
      lineBreak (hexDigit true n) = false := by
  have hall : ∀ n : Fin 16, hexValue (hexDigit true n) = some n.val ∧
      whitespace (hexDigit true n) = false ∧ lineBreak (hexDigit true n) = false := by decide
  exact hall ⟨n, h⟩

theorem nibbles_lt (b : UInt8) : ∀ n ∈ nibbles b, n < 16 := by
  have hb := b.toNat_lt
  unfold nibbles
  simp
  omega

theorem hexValues_digits {ns : List Nat} (h : ∀ n ∈ ns, n < 16) :
    (ns.map (hexDigit true)).mapM hexValue = some ns := by
  induction ns with
  | nil => rfl
  | cons n ns ih =>
    have hn := (hexDigit_spec (h n List.mem_cons_self)).1
    have hrest := ih fun m hm => h m (List.mem_cons_of_mem _ hm)
    rw [List.map_cons, List.mapM_cons, hn, hrest]
    rfl

theorem compact_digits {ns : List Nat} (h : ∀ n ∈ ns, n < 16) :
    compact (ns.map (hexDigit true)) = ns.map (hexDigit true) := by
  unfold compact
  rw [List.filter_eq_self]
  intro c hc
  obtain ⟨n, hn, rfl⟩ := List.mem_map.mp hc
  rw [(hexDigit_spec (h n hn)).2.1]
  rfl

theorem compact_append (s t : List Char) : compact (s ++ t) = compact s ++ compact t :=
  List.filter_append ..

theorem compact_bytes (data : List UInt8) :
    compact (data.flatMap fun b => ' ' :: (nibbles b).map (hexDigit true)) =
      (data.flatMap nibbles).map (hexDigit true) := by
  induction data with
  | nil => rfl
  | cons b data ih =>
    have hspace : compact (' ' :: (nibbles b).map (hexDigit true)) =
        compact ((nibbles b).map (hexDigit true)) := rfl
    rw [List.flatMap_cons, compact_append, ih, hspace, compact_digits (nibbles_lt b),
      List.flatMap_cons, List.map_append]

theorem pairs_nibbles (data : List UInt8) : pairs (data.flatMap nibbles) = data := by
  induction data with
  | nil => rfl
  | cons b data ih =>
    rw [List.flatMap_cons]
    change UInt8.ofNat (16 * (b.toNat / 16) + b.toNat % 16) :: pairs (data.flatMap nibbles) = _
    rw [ih, Nat.div_add_mod, UInt8.ofNat_toNat]

theorem length_nibbles (data : List UInt8) : (data.flatMap nibbles).length = 2 * data.length := by
  induction data with
  | nil => rfl
  | cons b data ih =>
    rw [List.flatMap_cons, List.length_append, ih, List.length_cons]
    change 2 + _ = _
    omega

/-- A line reads back as its frame. -/
theorem frame_lineText {id : UInt32} {data : List UInt8} (hid : id.toNat < 4096)
    (hdata : data.length = 8) : frame (lineText (id, data)) = .ok (id, data) := by
  let ids := [id.toNat / 256, id.toNat / 16 % 16, id.toNat % 16]
  have hids : ∀ n ∈ ids, n < 16 := by
    simp [ids]
    omega
  have hall : ∀ n ∈ ids ++ data.flatMap nibbles, n < 16 := by
    intro n hn
    rcases List.mem_append.mp hn with hn | hn
    · exact hids n hn
    · obtain ⟨b, -, hn⟩ := List.mem_flatMap.mp hn
      exact nibbles_lt b n hn
  have hcompact : compact (lineText (id, data)) =
      (ids ++ data.flatMap nibbles).map (hexDigit true) := by
    unfold lineText
    rw [compact_append, compact_bytes, List.map_append]
    congr 1
    exact compact_digits hids
  have hlength : (data.flatMap nibbles).length = 16 := by rw [length_nibbles, hdata]
  have hvalue : 256 * (id.toNat / 256) + 16 * (id.toNat / 16 % 16) + id.toNat % 16 = id.toNat := by
    omega
  unfold frame
  rw [hcompact, hexValues_digits hall]
  simp only [ids, List.cons_append, List.nil_append, hlength, if_true, pairs_nibbles, hvalue,
    UInt32.ofNat_toNat]

theorem lineText_unbroken {id : UInt32} (data : List UInt8) (hid : id.toNat < 4096) :
    ∀ c ∈ lineText (id, data), lineBreak c = false := by
  intro c hc
  unfold lineText at hc
  rcases List.mem_append.mp hc with hc | hc
  · obtain ⟨n, hn, rfl⟩ := List.mem_map.mp hc
    refine (hexDigit_spec ?_).2.2
    simp at hn
    omega
  · obtain ⟨b, -, hc⟩ := List.mem_flatMap.mp hc
    rcases List.mem_cons.mp hc with rfl | hc
    · decide
    · obtain ⟨n, hn, rfl⟩ := List.mem_map.mp hc
      exact (hexDigit_spec (nibbles_lt b n hn)).2.2

/-- The lines of a reply that are not blank. -/
def shownLines (reply : List Char) : List (List Char) :=
  (reply.splitOnP lineBreak).filter fun line => trim line ≠ []

theorem shownLines_ends {ends : List Char} (h : ∀ c ∈ ends, lineBreak c = true)
    (rest : List Char) : shownLines (ends ++ rest) = shownLines rest := by
  induction ends with
  | nil => rfl
  | cons c ends ih =>
    have hc := h c List.mem_cons_self
    rw [← ih fun d hd => h d (List.mem_cons_of_mem _ hd)]
    unfold shownLines
    rw [List.cons_append, ← List.nil_append (c :: (ends ++ rest)), List.splitOnP_append_cons_of_forall_mem (by simp) c hc, List.filter_cons_of_neg]
    simp [trim]

theorem shownLines_line {ends line : List Char} (hends : LineEnd ends)
    (hline : ∀ c ∈ line, lineBreak c = false) (htrim : trim line ≠ []) (rest : List Char) :
    shownLines (line ++ ends ++ rest) = line :: shownLines rest := by
  obtain ⟨c, ends, rfl⟩ := List.exists_cons_of_ne_nil hends.some
  rw [← shownLines_ends (fun d hd => hends.breaks d (List.mem_cons_of_mem _ hd)) rest]
  unfold shownLines
  rw [List.append_assoc, List.cons_append,
    List.splitOnP_append_cons_of_forall_mem hline c (hends.breaks c List.mem_cons_self), List.filter_cons_of_pos]
  simpa using htrim

theorem trim_ne_nil {c : Char} (hc : whitespace c = false) (s : List Char) :
    trim (c :: s) ≠ [] := by
  unfold trim
  rw [List.dropWhile_cons_of_neg (by rw [hc]; decide)]
  intro hnil
  rw [List.reverse_eq_nil_iff, List.dropWhile_eq_nil_iff] at hnil
  have hblank := hnil c (by simp)
  rw [hc] at hblank
  cases hblank

/-- A reply in lines reads back as the frames that it shows. -/
theorem frames_adapterText {ends : List Char} (hends : LineEnd ends)
    {shown : List (UInt32 × List UInt8)}
    (h : ∀ frame ∈ shown, frame.1.toNat < 4096 ∧ frame.2.length = 8) :
    frames (adapterText ends shown) = .ok shown := by
  change (shownLines (adapterText ends shown)).mapM frame = .ok shown
  induction shown with
  | nil => rfl
  | cons f shown ih =>
    obtain ⟨id, data⟩ := f
    obtain ⟨hid, hdata⟩ := h (id, data) List.mem_cons_self
    have htrim : trim (lineText (id, data)) ≠ [] := by
      refine trim_ne_nil (hexDigit_spec (n := id.toNat / 256) ?_).2.1 _
      change id.toNat < 4096 at hid
      omega
    have hrest := ih fun f hf => h f (List.mem_cons_of_mem _ hf)
    unfold adapterText at hrest ⊢
    rw [List.flatMap_cons, shownLines_line hends (lineText_unbroken data hid) htrim,
      List.mapM_cons, frame_lineText hid hdata, hrest]
    rfl

/-! ## What a reply shows -/

/-- The frames of a reply among the flow control of the tester. -/
inductive Shown : List (List UInt8) → List (UInt32 × List UInt8) → Prop where
  | nil : Shown [] []
  | flow {fs : List (List UInt8)} {shown : List (UInt32 × List UInt8)} (h : Shown fs shown) :
      Shown fs ((0x7e0, [0x30, 0, 0, 0, 0, 0, 0, 0]) :: shown)
  | frame {fs : List (List UInt8)} {shown : List (UInt32 × List UInt8)} (data : List UInt8)
      (h : Shown fs shown) : Shown (data :: fs) ((0x7e8, data) :: shown)

/-- Before the first frame the engine may ask for time. -/
inductive Replied (fs : List (List UInt8)) : List (UInt32 × List UInt8) → Prop where
  | begun {shown : List (UInt32 × List UInt8)} (h : Shown fs shown) : Replied fs shown
  | flow {shown : List (UInt32 × List UInt8)} (h : Replied fs shown) :
      Replied fs ((0x7e0, [0x30, 0, 0, 0, 0, 0, 0, 0]) :: shown)
  | pending {shown : List (UInt32 × List UInt8)} (a b c d : UInt8) (h : Replied fs shown) :
      Replied fs ((0x7e8, [3, 0x7f, 0x1a, 0x78, a, b, c, d]) :: shown)

/-- A frame of eight bytes that refuses nothing. -/
structure Carries (data : List UInt8) : Prop where
  size : data.length = 8
  positive : data.take 3 ≠ [3, 0x7f, 0x1a]

/-- The payloads that a receiver completes; an error ends it. -/
def received : List (List UInt8) → Receiver → Option (List UInt8) →
    Except String (Option (List UInt8))
  | [], _, payload => .ok payload
  | data :: fs, r, payload =>
    match r.push data with
    | (.error e, _) => .error e
    | (.ok (.complete bytes), r) => received fs r (some bytes)
    | (.ok _, r) => received fs r payload

variable {fs : List (List UInt8)} {shown : List (UInt32 × List UInt8)}

theorem Shown.sized (h : Shown fs shown) (hfs : ∀ data ∈ fs, Carries data) :
    ∀ frame ∈ shown, frame.1.toNat < 4096 ∧ frame.2.length = 8 := by
  have hid : (0x7e8 : UInt32).toNat < 4096 := by decide
  induction h with
  | nil => simp
  | flow h ih =>
    rintro frame (_ | ⟨_, hframe⟩)
    · decide
    · exact ih hfs frame hframe
  | frame data h ih =>
    rintro frame (_ | ⟨_, hframe⟩)
    · exact ⟨hid, (hfs data List.mem_cons_self).size⟩
    · exact ih (fun d hd => hfs d (List.mem_cons_of_mem _ hd)) frame hframe

theorem Replied.sized (h : Replied fs shown) (hfs : ∀ data ∈ fs, Carries data) :
    ∀ frame ∈ shown, frame.1.toNat < 4096 ∧ frame.2.length = 8 := by
  have hid : (0x7e8 : UInt32).toNat < 4096 := by decide
  induction h with
  | begun h => exact h.sized hfs
  | flow h ih =>
    rintro frame (_ | ⟨_, hframe⟩)
    · decide
    · exact ih frame hframe
  | pending a b c d h ih =>
    rintro frame (_ | ⟨_, hframe⟩)
    · exact ⟨hid, rfl⟩
    · exact ih frame hframe

/-- The flow control of the tester is not looked at. -/
theorem Shown.read (h : Shown fs shown) (hfs : ∀ data ∈ fs, Carries data) (pid : UInt8)
    (r : Receiver) (payload : Option (List UInt8)) :
    identifierFrames pid shown r payload = received fs r payload := by
  induction h generalizing r payload with
  | nil => rfl
  | flow h ih => exact ih hfs r payload
  | frame data h ih =>
    have hcarries := hfs data List.mem_cons_self
    have hrest := ih fun d hd => hfs d (List.mem_cons_of_mem _ hd)
    have hflow : flowControl 0x7e8 data = false := rfl
    unfold identifierFrames received
    rcases r.push data with ⟨e | step, r'⟩
    · simp only [hflow, Bool.false_eq_true, if_false, ne_eq, not_true_eq_false, hcarries.positive]
    · cases step <;>
        simp only [hflow, Bool.false_eq_true, if_false, ne_eq, not_true_eq_false, hcarries.positive,
          hrest]

/-- Nor is what asks for time before the first frame. -/
theorem Replied.read (h : Replied fs shown) (hfs : ∀ data ∈ fs, Carries data) (pid : UInt8)
    {r : Receiver} (hr : r.started = false) :
    identifierFrames pid shown r none = received fs r none := by
  induction h with
  | begun h => exact h.read hfs pid r none
  | flow h ih => exact ih
  | pending a b c d h ih =>
    have hwaits : (0x78 : UInt8) = 0x78 ∧ ¬ r.started = true := ⟨rfl, by rw [hr]; decide⟩
    unfold identifierFrames
    exact (if_pos hwaits).trans ih

theorem received_cons (data : List UInt8) (fs : List (List UInt8)) (r : Receiver)
    (payload : Option (List UInt8)) : received (data :: fs) r payload =
      match r.push data with
      | (.error e, _) => .error e
      | (.ok (.complete bytes), r) => received fs r (some bytes)
      | (.ok _, r) => received fs r payload := rfl

theorem received_terminal {r : Receiver} (h : r.Terminal) (hfs : fs ≠ [])
    (payload : Option (List UInt8)) :
    received fs r payload = .error "ISO-TP receiver is terminal" := by
  obtain ⟨data, fs, rfl⟩ := List.exists_cons_of_ne_nil hfs
  rw [received_cons, push_terminal h]

/-- The payload of a whole reply is that of its last frame. -/
theorem received_snoc {r : Receiver} (h : ¬ r.Terminal) (fs : List (List UInt8))
    (data p : List UInt8) : received (fs ++ [data]) r none = .ok (some p) ↔
      reply (run after r fs) data = .ok (.complete p) := by
  induction fs generalizing r with
  | nil =>
    rw [List.nil_append, received_cons, run_nil]
    unfold reply
    rcases r.push data with ⟨e | step, r'⟩
    · simp
    · cases step <;> simp [received]
  | cons f fs ih =>
    have hne : fs ++ [data] ≠ [] := by simp
    rw [List.cons_append, received_cons, run_cons]
    rcases hpush : r.push f with ⟨e | step, r'⟩
    · have hafter : after r f = r' := congrArg Prod.snd hpush
      have hdone : r'.Terminal := by
        rw [← hafter]
        exact push_ends (p := p) (.inl ⟨e, congrArg Prod.fst hpush⟩)
      rw [hafter, run_terminal hdone]
      simp
    · have hafter : after r f = r' := congrArg Prod.snd hpush
      have hreply : reply r f = .ok step := congrArg Prod.fst hpush
      rw [hafter]
      cases step with
      | complete p' =>
        have hdone : r'.Terminal := by
          rw [← hafter]
          exact push_ends (.inr hreply)
        rw [run_terminal hdone]
        dsimp only
        rw [received_terminal hdone hne]
        simp
      | firstFrame => exact ih (hafter ▸ push_going h hreply (by simp))
      | consecutiveFrame => exact ih (hafter ▸ push_going h hreply (by simp))

/-- A fresh receiver reads exactly the frames of a payload. -/
theorem received_fresh (fs : List (List UInt8)) {r : Receiver} {limit : Nat} (h : r.Fresh limit)
    (p : List UInt8) :
    received fs r none = .ok (some p) ↔ Segmentation p fs ∧ p.length ≤ limit := by
  have hlive : ¬ r.Terminal := by
    rw [h.eq]
    simp [Receiver.Terminal]
  cases fs using List.reverseRecOn with
  | nil =>
    constructor
    · intro h
      cases h
    · rintro ⟨hseg, -⟩
      exact absurd rfl hseg.ne_nil
  | append_singleton fs data => rw [received_snoc hlive, fresh_complete h]

/-- The identifier of a reply: its frames are those of a payload that names it. -/
theorem identifier_iff {ends : List Char} (hends : LineEnd ends) (h : Replied fs shown)
    (hfs : ∀ data ∈ fs, Carries data) (pid : UInt8) (p : List UInt8) :
    identifier (adapterText ends shown) pid = .ok p ↔
      p ≠ [] ∧ p.length ≤ 510 ∧ Segmentation (0x5a :: pid :: p) fs := by
  unfold identifier
  cases hnew : Receiver.new 512 with
  | error e => cases hnew
  | ok r =>
    have hfresh := fresh_of_new hnew
    have hread := h.read hfs pid (r := r) (by rw [hfresh.eq]; rfl)
    have hwhole := received_fresh fs hfresh
    rw [frames_adapterText hends (h.sized hfs)]
    simp only [bind, Except.bind, hread]
    constructor
    · intro hok
      rcases hreceived : received fs r none with e | _ | q
      · rw [hreceived] at hok
        cases hok
      · rw [hreceived] at hok
        cases hok
      · obtain ⟨hseg, hlimit⟩ := (hwhole q).mp hreceived
        rw [hreceived] at hok
        dsimp only at hok
        split at hok
        · cases hok
        · next hnamed =>
          obtain rfl := Except.ok.inj hok
          simp only [not_or, not_not, Nat.not_lt] at hnamed
          have hq : q = 0x5a :: pid :: q.drop 2 := by
            rw [← List.take_append_drop 2 q, hnamed.2]
            simp
          refine ⟨?_, ?_, hq ▸ hseg⟩
          · rw [← List.length_pos_iff, List.length_drop]
            omega
          · rw [List.length_drop]
            omega
    · rintro ⟨hne, hlength, hseg⟩
      have hpos := List.length_pos_iff.mpr hne
      rw [(hwhole _).mpr ⟨hseg, by simp; omega⟩]
      dsimp only
      rw [if_neg]
      · rfl
      · simp
        omega

/-! ## Numbers -/

/-- The first byte of a frame: of a consecutive one, its number. -/
def number (data : List UInt8) : UInt8 := data.headD 0

/-- The numbers of the frames from `n` on. -/
def numbering : UInt8 → Nat → List UInt8
  | _, 0 => []
  | n, k + 1 => (0x20 + n) :: numbering ((n + 1) &&& 15) k

variable {first : List UInt8} {cs cs' : List (List UInt8)} {p q rest : List UInt8} {n : UInt8}

theorem Consecutive.numbers (h : Consecutive n rest cs) :
    cs.map number = numbering n cs.length ∧ cs.length = (rest.length + 6) / 7 := by
  induction h with
  | @last n rest padding hrest hfit =>
    have hpos := List.length_pos_iff.mpr hrest
    refine ⟨rfl, ?_⟩
    rw [List.length_singleton]
    omega
  | @more n part rest frames hpart hrest h ih =>
    obtain ⟨hnumbers, hcount⟩ := ih
    rw [List.map_cons, hnumbers, List.length_cons, List.length_append, hcount, hpart]
    exact ⟨rfl, by omega⟩

/-- Frames of eight bytes with these numbers carry a payload. -/
theorem consecutive_of_numbers {k : Nat} (hnumbers : cs.map number = numbering n cs.length)
    (hsize : ∀ data ∈ cs, data.length = 8) (hk : 0 < k) (hcount : cs.length = (k + 6) / 7) :
    ∃ rest, rest.length = k ∧ Consecutive n rest cs := by
  induction cs generalizing n k with
  | nil =>
    rw [List.length_nil] at hcount
    omega
  | cons data cs ih =>
    obtain ⟨hnumber, hlater⟩ := List.cons.inj hnumbers
    have hdata := hsize data List.mem_cons_self
    obtain ⟨pci, tail, rfl⟩ := List.exists_cons_of_length_pos (by omega : 0 < data.length)
    obtain rfl : pci = 0x20 + n := hnumber
    rw [List.length_cons] at hdata hcount
    by_cases hlast : k ≤ 7
    · obtain rfl : cs = [] := by
        rw [← List.length_eq_zero_iff]
        omega
      refine ⟨tail.take k, by rw [List.length_take]; omega, ?_⟩
      have hne : tail.take k ≠ [] := by
        rw [← List.length_pos_iff, List.length_take]
        omega
      have hfit : (tail.take k).length + (tail.drop k).length ≤ 7 := by
        rw [List.length_take, List.length_drop]
        omega
      have hseg := Consecutive.last (n := n) hne hfit
      rwa [List.take_append_drop] at hseg
    · obtain ⟨rest, hrest, hseg⟩ := ih (k := k - 7) hlater
        (fun d hd => hsize d (List.mem_cons_of_mem _ hd)) (by omega) (by omega)
      have hne : rest ≠ [] := by
        rw [← List.length_pos_iff]
        omega
      refine ⟨tail ++ rest, ?_, .more (by omega) hne hseg⟩
      rw [List.length_append]
      omega

/-- The first frame tells the length of the payload and its first six bytes. -/
theorem Segmentation.first_iff (h : Segmentation p (first :: cs)) (hlong : 8 ≤ p.length) :
    ∃ part rest, p = part ++ rest ∧ part.length = 6 ∧ Consecutive 1 rest cs ∧
      ∀ q cs', Segmentation q (first :: cs') ↔
        ∃ rest', q = part ++ rest' ∧ rest'.length = rest.length ∧ Consecutive 1 rest' cs' := by
  generalize hfs : first :: cs = fs at h
  cases h with
  | single hp hfit => omega
  | @multi part rest frames length hpart hlength hmin hmax hseg =>
    obtain ⟨rfl, rfl⟩ := List.cons.inj hfs
    refine ⟨part, rest, rfl, hpart, hseg, fun q cs' => ⟨fun hq => ?_, ?_⟩⟩
    · have hpci := first_pci hmax
      generalize hfs' : (UInt8.ofNat (0x10 + length / 256) :: UInt8.ofNat (length % 256) :: part) ::
        cs' = fs' at hq
      cases hq with
      | @single _ padding hp hfit =>
        have hsingle := single_pci (n := q.length) (by omega)
        obtain ⟨hhead, -⟩ := List.cons.inj hfs'
        obtain ⟨hhead, -⟩ := List.cons.inj hhead
        rw [← hhead, hpci.1] at hsingle
        exact absurd hsingle.1 (by decide)
      | @multi part' rest' frames' length' hpart' hlength' hmin' hmax' hseg' =>
        obtain ⟨hhead, rfl⟩ := List.cons.inj hfs'
        obtain ⟨hhigh, hhead⟩ := List.cons.inj hhead
        obtain ⟨hlow, rfl⟩ := List.cons.inj hhead
        have hsame : length' = length := by
          rw [← (first_pci hmax').2, ← hhigh, ← hlow, hpci.2]
        refine ⟨rest', rfl, ?_, hseg'⟩
        rw [List.length_append] at hlength hlength'
        omega
    · rintro ⟨rest', rfl, hrest', hseg'⟩
      refine .multi hpart ?_ hmin hmax hseg'
      rw [hlength, List.length_append, List.length_append, hrest']

/-- Other frames behind the first one carry a payload exactly if they have the same numbers. -/
theorem Segmentation.numbers_iff (h : Segmentation p (first :: cs)) (hlong : 8 ≤ p.length)
    (hsize : ∀ data ∈ cs', data.length = 8) :
    (∃ q, Segmentation q (first :: cs')) ↔ cs'.map number = cs.map number := by
  obtain ⟨part, rest, rfl, hpart, hseg, hiff⟩ := Segmentation.first_iff h hlong
  obtain ⟨hnumbers, hcount⟩ := Consecutive.numbers hseg
  constructor
  · rintro ⟨q, hq⟩
    obtain ⟨rest', rfl, hrest', hseg'⟩ := (hiff q cs').mp hq
    obtain ⟨hnumbers', hcount'⟩ := Consecutive.numbers hseg'
    rw [hnumbers, hnumbers', hcount, hcount', hrest']
  · intro hsame
    have hlength : cs'.length = cs.length := by
      have := congrArg List.length hsame
      rwa [List.length_map, List.length_map] at this
    rw [hnumbers, ← hlength] at hsame
    rw [List.length_append] at hlong
    obtain ⟨rest', hrest', hseg'⟩ := consecutive_of_numbers (k := rest.length) hsame hsize
      (by omega) (hlength.trans hcount)
    exact ⟨part ++ rest', (hiff _ _).mpr ⟨rest', rfl, hrest', hseg'⟩⟩

theorem mem_numbering {m : UInt8} {k : Nat} (hn : n.toNat < 16) (h : m ∈ numbering n k) :
    32 ≤ m.toNat := by
  induction k generalizing n with
  | zero => cases h
  | succ k ih =>
    rcases List.mem_cons.mp h with rfl | h
    · have hsum : (0x20 + n).toNat = 32 + n.toNat := by
        rw [UInt8.toNat_add]
        exact Nat.mod_eq_of_lt (by simp; omega)
      omega
    · exact ih (next_lt n) h

/-- One number is never that of the place behind it. -/
theorem numbering_chain (hn : n.toNat < 16) (k : Nat) :
    (numbering n k).IsChain (· ≠ ·) := by
  induction k generalizing n with
  | zero => exact .nil
  | succ k ih =>
    have hrest := ih (next_lt n)
    cases k with
    | zero => exact .singleton _
    | succ k =>
      refine List.isChain_cons_cons.mpr ⟨fun hsame => ?_, hrest⟩
      have hnext := UInt8.add_right_inj _ |>.mp hsame
      have hvalue : ((n + 1) &&& 15).toNat = (n.toNat + 1) % 16 := by
        rw [toNat_low, UInt8.toNat_add, Nat.mod_mod_of_dvd _ (by decide)]
        rfl
      rw [← hnext] at hvalue
      omega

/-- An element that is moved among others that all differ from the next one leaves its place to
another. -/
theorem moved_ne {α : Type} {xs : List α} (h : xs.IsChain (· ≠ ·)) {i j : Nat} (hi : i < xs.length)
    (hj : j < xs.length) (hij : i ≠ j) : (xs.eraseIdx i).insertIdx j xs[i] ≠ xs := by
  intro hsame
  have hat : ∀ m : Nat, ((xs.eraseIdx i).insertIdx j xs[i])[m]? = xs[m]? := fun m => by rw [hsame]
  have hlength : (xs.eraseIdx i).length = xs.length - 1 := List.length_eraseIdx_of_lt hi
  rw [List.isChain_iff_getElem] at h
  rcases Nat.lt_or_gt_of_ne hij with hlt | hgt
  · have hplace := hat i
    rw [List.getElem?_insertIdx_of_lt hlt, List.getElem?_eraseIdx_of_ge (Nat.le_refl i),
      List.getElem?_eq_getElem (by omega), List.getElem?_eq_getElem hi] at hplace
    exact h i (by omega) (Option.some.inj hplace).symm
  · have hplace := hat (j + 1)
    rw [List.getElem?_insertIdx_of_gt (by omega), Nat.add_sub_cancel,
      List.getElem?_eraseIdx_of_lt hgt, List.getElem?_eq_getElem hj,
      List.getElem?_eq_getElem (by omega)] at hplace
    exact h j (by omega) (Option.some.inj hplace)

theorem consecutiveFrames_size (pad n : UInt8) {rest : List UInt8} :
    ∀ data ∈ consecutiveFrames pad n rest, data.length = 8 := by
  induction hk : rest.length using Nat.strongRecOn generalizing n rest with
  | _ k ih =>
    unfold consecutiveFrames
    split
    · simp
      omega
    · next hlong =>
      rw [List.forall_mem_cons]
      refine ⟨by simp; omega, ih (rest.drop 7).length ?_ _ rfl⟩
      rw [List.length_drop]
      omega

theorem segment_size (pad : UInt8) (p : List UInt8) :
    ∀ data ∈ IsoTp.segment pad p, data.length = 8 := by
  unfold IsoTp.segment
  split
  · simp
    omega
  · rw [List.forall_mem_cons]
    exact ⟨by simp; omega, consecutiveFrames_size pad 1⟩

/-- No frame of a positive response looks like a negative one. -/
theorem Segmentation.carries {pid : UInt8} (h : Segmentation (0x5a :: pid :: p) fs)
    (hsize : ∀ data ∈ fs, data.length = 8) : ∀ data ∈ fs, Carries data := by
  intro data hdata
  refine ⟨hsize data hdata, fun hnegative => ?_⟩
  generalize hwhole : 0x5a :: pid :: p = whole at h
  cases h with
  | single hp hfit =>
    rw [List.mem_singleton.mp hdata, ← hwhole] at hnegative
    simp at hnegative
  | multi hpart hlength hmin hmax hseg =>
    have hhead : number data = 3 := by
      unfold number
      rw [← List.take_append_drop 3 data, hnegative]
      rfl
    rcases List.mem_cons.mp hdata with rfl | hdata
    · have hpci := (first_pci hmax).1
      rw [show UInt8.ofNat _ = _ from hhead] at hpci
      exact absurd hpci (by decide)
    · have hmem := List.mem_map_of_mem (f := number) hdata
      rw [(Consecutive.numbers hseg).1, hhead] at hmem
      exact absurd (mem_numbering (by decide) hmem) (by decide)

/-! ## Replies -/

variable {pad pid : UInt8} {ends : List Char}

/-- The frames of a positive response, and others in the place of the consecutive ones. -/
theorem identifier_of_numbers (hmin : 1 ≤ p.length) (hmax : p.length ≤ 510) (hends : LineEnd ends)
    (hresponse : IsoTp.segment pad (0x5a :: pid :: p) = first :: cs) (hcs : ∀ data ∈ cs', data ∈ cs)
    (h : Replied (first :: cs') shown) :
    (∃ q, identifier (adapterText ends shown) pid = .ok q) ↔ cs'.map number = cs.map number := by
  have hlength : (0x5a :: pid :: p).length = p.length + 2 := rfl
  have hseg := segment_spec pad (List.cons_ne_nil 0x5a (pid :: p)) (by omega)
  have hsize := segment_size pad (0x5a :: pid :: p)
  have hcarries := Segmentation.carries hseg hsize
  rw [hresponse] at hseg hsize hcarries
  have hcarries' : ∀ data ∈ first :: cs', Carries data := by
    rintro data (_ | ⟨_, hdata⟩)
    · exact hcarries first List.mem_cons_self
    · exact hcarries data (List.mem_cons_of_mem _ (hcs data hdata))
  simp only [identifier_iff hends h hcarries']
  by_cases hlong : 8 ≤ (0x5a :: pid :: p).length
  · have hsize' : ∀ data ∈ cs', data.length = 8 := fun data hdata =>
      (hcarries' data (List.mem_cons_of_mem _ hdata)).size
    rw [← Segmentation.numbers_iff hseg hlong hsize']
    constructor
    · rintro ⟨q, -, -, hq⟩
      exact ⟨_, hq⟩
    · rintro ⟨q, hq⟩
      obtain ⟨part, rest, hwhole, hpart, -, hiff⟩ := Segmentation.first_iff hseg hlong
      obtain ⟨rest', rfl, hrest', -⟩ := (hiff q cs').mp hq
      have hnamed : part = 0x5a :: pid :: part.drop 2 := by
        have htake := congrArg (List.take 2) hwhole
        rw [List.take_append_of_le_length (by omega)] at htake
        rw [← List.take_append_drop 2 part, ← htake]
        simp
      have htotal := congrArg List.length hwhole
      rw [List.length_append] at htotal
      have hdrop : (part.drop 2).length = 4 := by rw [List.length_drop, hpart]
      refine ⟨part.drop 2 ++ rest', ?_, ?_, ?_⟩
      · rw [← List.length_pos_iff, List.length_append]
        omega
      · rw [List.length_append]
        omega
      · rwa [← List.cons_append, ← List.cons_append, ← hnamed]
  · unfold IsoTp.segment at hresponse
    rw [if_pos (by omega)] at hresponse
    obtain ⟨-, rfl⟩ := List.cons.inj hresponse
    obtain rfl : cs' = [] := List.eq_nil_iff_forall_not_mem.mpr fun data hdata =>
      List.not_mem_nil (hcs data hdata)
    have hne : p ≠ [] := List.length_pos_iff.mp hmin
    exact ⟨fun _ => rfl, fun _ => ⟨p, hne, hmax, hseg⟩⟩

theorem response_chain (hmax : p.length ≤ 510)
    (hresponse : IsoTp.segment pad (0x5a :: pid :: p) = first :: cs) :
    (cs.map number).IsChain (· ≠ ·) := by
  have hlength : (0x5a :: pid :: p).length = p.length + 2 := rfl
  have hseg := segment_spec pad (List.cons_ne_nil 0x5a (pid :: p)) (by omega)
  by_cases hlong : 8 ≤ (0x5a :: pid :: p).length
  · rw [hresponse] at hseg
    obtain ⟨part, rest, -, -, hlater, -⟩ := Segmentation.first_iff hseg hlong
    rw [(Consecutive.numbers hlater).1]
    exact numbering_chain (by decide) _
  · unfold IsoTp.segment at hresponse
    rw [if_pos (by omega)] at hresponse
    obtain ⟨-, rfl⟩ := List.cons.inj hresponse
    exact .nil

/-- The identifier is read from every showing of the response. Without one of its consecutive
frames, with one of them twice or at another place, the reply is an error; and so it is in every
other order that moves a number. -/
theorem identifier_of_response (pad pid : UInt8) (p : List UInt8) (hmin : 1 ≤ p.length)
    (hmax : p.length ≤ 510) (ends : List Char) (hends : LineEnd ends) (first : List UInt8)
    (cs : List (List UInt8)) (hresponse : IsoTp.segment pad (0x5a :: pid :: p) = first :: cs)
    (shown : List (UInt32 × List UInt8)) :
    (Replied (first :: cs) shown → identifier (adapterText ends shown) pid = .ok p) ∧
      (∀ i < cs.length, Replied (first :: cs.eraseIdx i) shown →
        ¬ ∃ q, identifier (adapterText ends shown) pid = .ok q) ∧
      (∀ i (hi : i < cs.length), ∀ j ≤ cs.length,
        Replied (first :: cs.insertIdx j cs[i]) shown →
          ¬ ∃ q, identifier (adapterText ends shown) pid = .ok q) ∧
      (∀ i (hi : i < cs.length), ∀ j < cs.length, i ≠ j →
        Replied (first :: (cs.eraseIdx i).insertIdx j cs[i]) shown →
          ¬ ∃ q, identifier (adapterText ends shown) pid = .ok q) ∧
      ∀ cs', cs'.Perm cs → Replied (first :: cs') shown →
        ((∃ q, identifier (adapterText ends shown) pid = .ok q) ↔
          cs'.map number = cs.map number) := by
  have hchain := response_chain hmax hresponse
  refine ⟨fun h => ?_, ?_, ?_, ?_, ?_⟩
  · have hseg := segment_spec pad (List.cons_ne_nil 0x5a (pid :: p)) (by simp; omega)
    have hcarries := Segmentation.carries hseg (segment_size pad _)
    rw [hresponse] at hseg hcarries
    exact (identifier_iff hends h hcarries pid p).mpr ⟨List.length_pos_iff.mp hmin, hmax, hseg⟩
  · intro i hi h
    have hcs : ∀ data ∈ cs.eraseIdx i, data ∈ cs := fun _ => List.mem_of_mem_eraseIdx
    rw [identifier_of_numbers hmin hmax hends hresponse hcs h]
    intro hsame
    have hlength := congrArg List.length hsame
    rw [List.length_map, List.length_map, List.length_eraseIdx_of_lt hi] at hlength
    omega
  · intro i hi j hj h
    have hcs : ∀ data ∈ cs.insertIdx j cs[i], data ∈ cs := by
      intro data hdata
      rcases (List.mem_insertIdx hj).mp hdata with rfl | hdata
      · exact List.getElem_mem hi
      · exact hdata
    rw [identifier_of_numbers hmin hmax hends hresponse hcs h]
    intro hsame
    have hlength := congrArg List.length hsame
    rw [List.length_map, List.length_map, List.length_insertIdx_of_le_length hj] at hlength
    omega
  · intro i hi j hj hij h
    have hlength : (cs.eraseIdx i).length = cs.length - 1 := List.length_eraseIdx_of_lt hi
    have hcs : ∀ data ∈ (cs.eraseIdx i).insertIdx j cs[i], data ∈ cs := by
      intro data hdata
      rcases (List.mem_insertIdx (by omega)).mp hdata with rfl | hdata
      · exact List.getElem_mem hi
      · exact List.mem_of_mem_eraseIdx hdata
    rw [identifier_of_numbers hmin hmax hends hresponse hcs h, List.map_insertIdx,
      ← List.eraseIdx_map]
    have hmoved := moved_ne hchain (i := i) (j := j) (by simpa using hi) (by simpa using hj) hij
    rwa [List.getElem_map] at hmoved
  · intro cs' hperm h
    exact identifier_of_numbers hmin hmax hends hresponse (fun _ => hperm.mem_iff.mp) h

theorem identifier_in_two_frames :
    identifier (adapterText ['\r'] [(0x7e8, [3, 0x7f, 0x1a, 0x78, 0, 0, 0, 0]),
        (0x7e8, [0x10, 8, 0x5a, 8, 1, 2, 3, 4]), (0x7e0, [0x30, 0, 0, 0, 0, 0, 0, 0]),
        (0x7e8, [0x21, 5, 6, 0, 0, 0, 0, 0])]) 8 = .ok [1, 2, 3, 4, 5, 6] ∧
      ¬ ∃ q, identifier (adapterText ['\r'] [(0x7e8, [0x10, 8, 0x5a, 8, 1, 2, 3, 4])]) 8 = .ok q := by
  have hends : LineEnd ['\r'] := ⟨by decide, forall_of_all (by decide)⟩
  have hresponse : IsoTp.segment 0 [0x5a, 8, 1, 2, 3, 4, 5, 6] =
      [0x10, 8, 0x5a, 8, 1, 2, 3, 4] :: [[0x21, 5, 6, 0, 0, 0, 0, 0]] := by
    simp [IsoTp.segment, consecutiveFrames]
  constructor
  · refine (identifier_of_response 0 8 [1, 2, 3, 4, 5, 6] (by decide) (by decide) ['\r'] hends _ _
      hresponse _).1 ?_
    exact .pending 0 0 0 0 (.begun (.frame _ (.flow (.frame _ .nil))))
  · refine (identifier_of_response 0 8 [1, 2, 3, 4, 5, 6] (by decide) (by decide) ['\r'] hends _ _
      hresponse _).2.1 0 (by decide) ?_
    exact .begun (.frame _ .nil)

/-- A response of seventeen consecutive frames. The first of them and the last one have the same
number. -/
def longIdentifier : List UInt8 := List.replicate 4 0 ++ List.replicate 7 1 ++ List.replicate 107 0

def longFrames : List (List UInt8) :=
  [0x22, 0x23, 0x24, 0x25, 0x26, 0x27, 0x28, 0x29, 0x2a, 0x2b, 0x2c, 0x2d, 0x2e, 0x2f, 0x20].map
    fun pci => pci :: List.replicate 7 0

theorem segment_longIdentifier : IsoTp.segment 0 (0x5a :: 8 :: longIdentifier) =
    [0x10, 120, 0x5a, 8, 0, 0, 0, 0] :: [0x21, 1, 1, 1, 1, 1, 1, 1] ::
      (longFrames ++ [[0x21, 0, 0, 0, 0, 0, 0, 0]]) := by
  simp [IsoTp.segment, consecutiveFrames, longIdentifier, longFrames]
  decide

/-- The number of a frame comes again sixteen frames later, and the two may be exchanged. -/
theorem exchange_undetected :
    ¬ ∀ (pid : UInt8) (p : List UInt8), 1 ≤ p.length → p.length ≤ 510 →
        ∀ first cs, IsoTp.segment 0 (0x5a :: pid :: p) = first :: cs →
          ∀ cs', cs'.Perm cs → cs' ≠ cs → ∀ shown, Replied (first :: cs') shown →
            ¬ ∃ q, identifier (adapterText ['\r'] shown) pid = .ok q := by
  intro h
  let later : List (List UInt8) := [0x21, 0, 0, 0, 0, 0, 0, 0] ::
    (longFrames ++ [[0x21, 1, 1, 1, 1, 1, 1, 1]])
  have hperm : later.Perm ([0x21, 1, 1, 1, 1, 1, 1, 1] ::
      (longFrames ++ [[0x21, 0, 0, 0, 0, 0, 0, 0]])) := by
    simp only [later]
    decide
  have hshown : ∀ fs : List (List UInt8), Shown fs (fs.map fun data => (0x7e8, data)) := by
    intro fs
    induction fs with
    | nil => exact .nil
    | cons data fs ih => exact .frame data ih
  have hreplied := Replied.begun (hshown ([0x10, 120, 0x5a, 8, 0, 0, 0, 0] :: later))
  have hends : LineEnd ['\r'] := ⟨by decide, forall_of_all (by decide)⟩
  refine h 8 longIdentifier (by decide) (by decide) _ _ segment_longIdentifier later hperm
    (by decide) _ hreplied ?_
  rw [identifier_of_numbers (by decide) (by decide) hends segment_longIdentifier
    (fun _ => hperm.mem_iff.mp) hreplied]
  decide

end OpenSaab.Vlinker
