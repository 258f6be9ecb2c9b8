import Mathlib.Data.List.Forall2
import OpenSaab.Library.Framing
import OpenSaab.OpenMdi.Wire

/-!
# Records over TCP

`client.rs`: records are cut off the bytes that a socket gives. A call gives up when its deadline has
passed, and what has come of a record by then stays in the buffer.
-/

namespace OpenSaab.OpenMdi

open Framing

/-- The size of the array that one read fills. -/
def readSize : Nat := 4096

/-- What a read that gives bytes can give. -/
structure Chunk where
  bytes : List UInt8
  some_bytes : bytes ≠ []
  fits : bytes.length ≤ readSize

/-- One turn of the loop: what the clock and the socket say. -/
inductive Poll where
  /-- The deadline has passed. -/
  | expired
  /-- `set_read_timeout` fails. -/
  | refused (e : String)
  /-- `WouldBlock`, `TimedOut` or `Interrupted`. -/
  | idle
  | data (chunk : Chunk)
  | closed
  | failed (e : String)

def Poll.bytes : Poll → List UInt8
  | data chunk => chunk.bytes
  | _ => []

inductive ReceiveError where
  | recordBounds
  | bufferBounds
  | peerClosed
  | timeout (e : String)
  | receive (e : String)
  deriving DecidableEq, Repr

def ReceiveError.text : ReceiveError → String
  | recordBounds => "TCP record bounds"
  | bufferBounds => "TCP buffer bounds"
  | peerClosed => "TCP peer closed"
  | timeout e => e
  | receive e => "TCP receive: " ++ e

structure Connection where
  buffer : List UInt8

/-- The length word of a buffer. -/
def announced (buffer : List UInt8) : Nat := (ofWord (buffer.take 4)).toNat

/-- What a turn of the loop finds in the buffer. -/
def front (buffer : List UInt8) : Front Record UInt8 :=
  if buffer.length < 8 then .short
  else if announced buffer < 8 ∨ maxRecord < announced buffer then .bad
  else if buffer.length < announced buffer then .short
  else
    .whole ⟨ofWord ((buffer.drop 4).take 4), (buffer.take (announced buffer)).drop 8⟩
      (buffer.drop (announced buffer))

namespace Connection

def opened : Connection := ⟨[]⟩

/-- One call, with what each turn of its loop meets. A script that has run out is a deadline that has
passed. -/
def receive (c : Connection) (polls : List Poll) :
    Except ReceiveError (Option Record) × Connection × List Poll :=
  match front c.buffer with
  | .bad => (.error .recordBounds, c, polls)
  | .whole record rest => (.ok (some record), ⟨rest⟩, polls)
  | .short =>
    match polls with
    | [] | .expired :: _ => (.ok none, c, polls.tail)
    | .refused e :: polls => (.error (.timeout e), c, polls)
    | .idle :: polls => c.receive polls
    | .data chunk :: polls =>
      if maxRecord + readSize < c.buffer.length + chunk.bytes.length then
        (.error .bufferBounds, c, polls)
      else receive ⟨c.buffer ++ chunk.bytes⟩ polls
    | .closed :: polls => (.error .peerClosed, c, polls)
    | .failed e :: polls => (.error (.receive e), c, polls)

/-- Successive calls: what they return, and what is left. -/
def receives : Nat → Connection → List Poll →
    List (Except ReceiveError (Option Record)) × Connection × List Poll
  | 0, c, polls => ([], c, polls)
  | k + 1, c, polls =>
    let first := c.receive polls
    let rest := receives k first.2.1 first.2.2
    (first.1 :: rest.1, rest.2)

end Connection

/-! ## The cutter -/

theorem announced_append {xs : List UInt8} (h : 8 ≤ xs.length) (ys : List UInt8) :
    announced (xs ++ ys) = announced xs := by
  rw [announced, List.take_append_of_le_length (by omega), announced]

theorem front_short_iff {xs : List UInt8} : front xs = .short ↔
    xs.length < 8 ∨ 8 ≤ announced xs ∧ announced xs ≤ maxRecord ∧ xs.length < announced xs := by
  unfold front
  split_ifs <;> simp only [true_iff, false_iff] <;> omega

theorem front_bad_iff {xs : List UInt8} : front xs = .bad ↔
    8 ≤ xs.length ∧ (announced xs < 8 ∨ maxRecord < announced xs) := by
  unfold front
  split_ifs <;> simp only [true_iff, false_iff] <;> omega

theorem front_whole_iff {xs rest : List UInt8} {r : Record} : front xs = .whole r rest ↔
    8 ≤ announced xs ∧ announced xs ≤ maxRecord ∧ announced xs ≤ xs.length ∧
      r = ⟨ofWord ((xs.drop 4).take 4), (xs.take (announced xs)).drop 8⟩ ∧
      rest = xs.drop (announced xs) := by
  unfold front
  split_ifs <;> simp only [false_iff, Front.whole.injEq] <;> try omega
  constructor
  · rintro ⟨rfl, rfl⟩
    exact ⟨by omega, by omega, by omega, rfl, rfl⟩
  · rintro ⟨-, -, -, hr, hrest⟩
    exact ⟨hr.symm, hrest.symm⟩

/-- The two words of the header and the body make up a record. -/
theorem take_parts {xs : List UInt8} {n : Nat} (hn : 8 ≤ n) :
    xs.take n = xs.take 4 ++ ((xs.drop 4).take 4 ++ (xs.take n).drop 8) := by
  have hfour : xs.take 4 = (xs.take n).take 4 := by rw [List.take_take, Nat.min_eq_left (by omega)]
  have height : (xs.drop 4).take 4 = ((xs.take n).drop 4).take 4 := by
    rw [List.drop_take, List.take_take, Nat.min_eq_left (by omega)]
  have hbody : (xs.take n).drop 8 = ((xs.take n).drop 4).drop 4 := by
    rw [List.drop_drop]
  rw [hfour, height, hbody, List.take_append_drop, List.take_append_drop]

/-- A record that is cut off is one whose encoding was at the front. -/
theorem front_whole {xs rest : List UInt8} {r : Record} (h : front xs = .whole r rest) :
    ∃ wire, r.encoded = .ok wire ∧ 8 ≤ wire.length ∧ xs = wire ++ rest := by
  obtain ⟨hlow, hhigh, hlen, rfl, rfl⟩ := front_whole_iff.mp h
  refine ⟨xs.take (announced xs), ?_, ?_, (List.take_append_drop _ _).symm⟩
  · have hbody : ((xs.take (announced xs)).drop 8).length + 8 = announced xs := by
      rw [List.length_drop, List.length_take]
      omega
    have hlength : word (UInt32.ofNat (announced xs)) = xs.take 4 := by
      rw [announced, UInt32.ofNat_toNat, word_ofWord]
      rw [List.length_take]
      omega
    have hopcode : word (ofWord ((xs.drop 4).take 4)) = (xs.drop 4).take 4 := by
      apply word_ofWord
      rw [List.length_take, List.length_drop]
      omega
    unfold Record.encoded
    rw [if_neg (by dsimp only; omega)]
    simp only [hbody, words_cons, words_nil, List.append_nil, List.append_assoc, hlength, hopcode]
    exact congrArg Except.ok (take_parts hlow).symm
  · rw [List.length_take]
    omega

/-- An encoded record is cut off whole. -/
theorem front_encoded {r : Record} {wire : List UInt8} (h : r.encoded = .ok wire)
    (rest : List UInt8) : front (wire ++ rest) = .whole r rest := by
  obtain ⟨hbody, rfl⟩ := Record.encoded_ok h
  have hmax : maxRecord = 65536 := rfl
  have hannounced : announced (word (UInt32.ofNat (r.body.length + 8)) ++ (word r.opcode ++ r.body) ++
      rest) = r.body.length + 8 := by
    rw [announced, List.append_assoc, List.take_left' (length_word _), ofWord_word,
      UInt32.toNat_ofNat', Nat.mod_eq_of_lt (by omega)]
  have hopcode : ((word (UInt32.ofNat (r.body.length + 8)) ++ (word r.opcode ++ r.body) ++
      rest).drop 4).take 4 = word r.opcode := by
    rw [List.append_assoc, List.drop_left' (length_word _), List.append_assoc,
      List.take_left' (length_word _)]
  have hwire : (word (UInt32.ofNat (r.body.length + 8)) ++ (word r.opcode ++ r.body)).length =
      r.body.length + 8 := by
    simp only [List.length_append, length_word]
    omega
  rw [front_whole_iff, hannounced, hopcode, ofWord_word, List.take_left' hwire,
    List.drop_left' hwire, List.length_append, hwire]
  refine ⟨by omega, by omega, by omega, ?_, rfl⟩
  rw [← List.append_assoc, List.drop_left' (by simp)]

theorem front_append_whole {xs rest : List UInt8} {r : Record} (h : front xs = .whole r rest)
    (ys : List UInt8) : front (xs ++ ys) = .whole r (rest ++ ys) := by
  obtain ⟨wire, hwire, -, rfl⟩ := front_whole h
  rw [List.append_assoc, front_encoded hwire]

theorem front_append_bad {xs : List UInt8} (h : front xs = .bad) (ys : List UInt8) :
    front (xs ++ ys) = .bad := by
  obtain ⟨hlen, hbounds⟩ := front_bad_iff.mp h
  rw [front_bad_iff, announced_append hlen, List.length_append]
  omega

def cutter : Cutter Record UInt8 where
  front := front
  shorter h := by
    obtain ⟨wire, -, hlen, rfl⟩ := front_whole h
    rw [List.length_append]
    omega
  whole_append := front_append_whole
  bad_append := front_append_bad

/-! ## One call -/

/-- What has not been returned yet of the bytes of the socket. -/
def Connection.pending (c : Connection) (polls : List Poll) : List UInt8 :=
  c.buffer ++ polls.flatMap Poll.bytes

/-- The socket gives bytes or the time runs out. -/
def Poll.Quiet : Poll → Prop
  | expired | idle | data _ => True
  | refused _ | closed | failed _ => False

def Poll.isExpired : Poll → Bool
  | expired => true
  | _ => false

def expirations (polls : List Poll) : Nat := polls.countP Poll.isExpired

/-- What one call can do. -/
inductive Outcome (c : Connection) (polls : List Poll) :
    Except ReceiveError (Option Record) → Connection → List Poll → Prop where
  | delivers {r : Record} {wire : List UInt8} {c' : Connection} {polls' : List Poll}
      (hwire : r.encoded = .ok wire) (hpending : c.pending polls = wire ++ c'.pending polls')
      (hsuffix : polls' <:+ polls) : Outcome c polls (.ok (some r)) c' polls'
  | givesUp {c' : Connection} {polls' : List Poll} (hpending : c.pending polls = c'.pending polls')
      (hsuffix : polls' <:+ polls) (hless : expirations polls' < expirations polls) :
      Outcome c polls (.ok none) c' polls'
  | runsOut {c' : Connection} (hpending : c.pending polls = c'.buffer)
      (hshort : front c'.buffer = .short) : Outcome c polls (.ok none) c' []
  | refuses {c' : Connection} {polls' : List Poll} (hpending : c.pending polls = c'.pending polls')
      (hsuffix : polls' <:+ polls) (hbad : front c'.buffer = .bad) :
      Outcome c polls (.error .recordBounds) c' polls'
  | breaks {e : ReceiveError} {c' : Connection} {polls' : List Poll}
      (hpending : c.pending polls = c'.pending polls') (hsuffix : polls' <:+ polls)
      (he : e ≠ .recordBounds ∧ e ≠ .bufferBounds) (hpoll : ∃ p ∈ polls, ¬ p.Quiet) :
      Outcome c polls (.error e) c' polls'

/-- The next turn of the loop starts with the same bytes. -/
theorem Outcome.turn {c c₁ c' : Connection} {p : Poll} {polls polls' : List Poll}
    {result : Except ReceiveError (Option Record)} (h : Outcome c₁ polls result c' polls')
    (hsame : c.pending (p :: polls) = c₁.pending polls) : Outcome c (p :: polls) result c' polls' := by
  have hmore : expirations polls ≤ expirations (p :: polls) :=
    (List.sublist_cons_self p polls).countP_le
  cases h with
  | delivers hwire hpending hsuffix =>
    exact .delivers hwire (hsame.trans hpending) (hsuffix.trans (List.suffix_cons p polls))
  | givesUp hpending hsuffix hless =>
    exact .givesUp (hsame.trans hpending) (hsuffix.trans (List.suffix_cons p polls)) (by omega)
  | runsOut hpending hshort => exact .runsOut (hsame.trans hpending) hshort
  | refuses hpending hsuffix hbad =>
    exact .refuses (hsame.trans hpending) (hsuffix.trans (List.suffix_cons p polls)) hbad
  | breaks hpending hsuffix he hpoll =>
    obtain ⟨q, hq, hloud⟩ := hpoll
    exact .breaks (hsame.trans hpending) (hsuffix.trans (List.suffix_cons p polls)) he
      ⟨q, List.mem_cons_of_mem p hq, hloud⟩

/-- An unfinished record leaves room for a whole read. -/
theorem room_of_short {buffer : List UInt8} (h : front buffer = .short) (chunk : Chunk) :
    ¬ maxRecord + readSize < buffer.length + chunk.bytes.length := by
  have hfits := chunk.fits
  have hmax : maxRecord = 65536 := rfl
  rcases front_short_iff.mp h with hlen | ⟨-, hhigh, hlen⟩ <;> omega

theorem receive_bad {c : Connection} (h : front c.buffer = .bad) (polls : List Poll) :
    c.receive polls = (.error .recordBounds, c, polls) := by
  unfold Connection.receive
  rw [h]

theorem receive_whole {c : Connection} {r : Record} {rest : List UInt8}
    (h : front c.buffer = .whole r rest) (polls : List Poll) :
    c.receive polls = (.ok (some r), ⟨rest⟩, polls) := by
  unfold Connection.receive
  rw [h]

/-- A call that finds an unfinished record in the buffer. -/
theorem receive_short {c : Connection} (h : front c.buffer = .short) (polls : List Poll) :
    c.receive polls = match polls with
    | [] => (.ok none, c, [])
    | .expired :: polls => (.ok none, c, polls)
    | .refused e :: polls => (.error (.timeout e), c, polls)
    | .idle :: polls => c.receive polls
    | .data chunk :: polls => Connection.receive ⟨c.buffer ++ chunk.bytes⟩ polls
    | .closed :: polls => (.error .peerClosed, c, polls)
    | .failed e :: polls => (.error (.receive e), c, polls) := by
  conv_lhs => unfold Connection.receive
  rw [h]
  cases polls with
  | nil => rfl
  | cons p polls =>
    cases p with
    | data chunk => exact if_neg (room_of_short h chunk)
    | _ => rfl

/-- A record or a bad length in the buffer is all that the call looks at. -/
theorem outcome_ready {c : Connection} (h : front c.buffer ≠ .short) (polls : List Poll) :
    Outcome c polls (c.receive polls).1 (c.receive polls).2.1 (c.receive polls).2.2 := by
  cases hfront : front c.buffer with
  | short => exact absurd hfront h
  | bad =>
    rw [receive_bad hfront]
    exact .refuses rfl (List.suffix_refl _) hfront
  | whole r rest =>
    obtain ⟨wire, hwire, -, hbuffer⟩ := front_whole hfront
    rw [receive_whole hfront]
    exact .delivers hwire (by simp [Connection.pending, hbuffer]) (List.suffix_refl _)

theorem receive_outcome (c : Connection) (polls : List Poll) :
    Outcome c polls (c.receive polls).1 (c.receive polls).2.1 (c.receive polls).2.2 := by
  induction polls generalizing c with
  | nil =>
    by_cases h : front c.buffer = .short
    · rw [receive_short h]
      exact .runsOut (List.append_nil _) h
    · exact outcome_ready h []
  | cons p polls ih =>
    by_cases h : front c.buffer = .short
    · have hsuffix := List.suffix_cons p polls
      rw [receive_short h]
      cases p with
      | expired =>
        refine .givesUp rfl hsuffix ?_
        change expirations polls < expirations (.expired :: polls)
        rw [expirations, expirations, List.countP_cons_of_pos rfl]
        omega
      | refused e => exact .breaks rfl hsuffix (by simp) ⟨_, List.mem_cons_self, id⟩
      | idle => exact (ih c).turn rfl
      | data chunk =>
        exact (ih ⟨c.buffer ++ chunk.bytes⟩).turn (by simp [Connection.pending, Poll.bytes])
      | closed => exact .breaks rfl hsuffix (by simp) ⟨_, List.mem_cons_self, id⟩
      | failed e => exact .breaks rfl hsuffix (by simp) ⟨_, List.mem_cons_self, id⟩
    · exact outcome_ready h (p :: polls)

/-! ## Successive calls -/

/-- The records among the results. -/
def delivered (results : List (Except ReceiveError (Option Record))) : List Record :=
  results.filterMap fun result => match result with
    | .ok record => record
    | .error _ => none

/-- Records and the bytes that they are sent as. -/
abbrev Encoded (records : List Record) (wires : List (List UInt8)) : Prop :=
  List.Forall₂ (fun r wire => r.encoded = .ok wire) records wires

theorem frames_encoded {records : List Record} {wires : List (List UInt8)}
    (h : Encoded records wires) (rest : List UInt8) :
    cutter.frames (wires.flatten ++ rest) = records ++ cutter.frames rest := by
  induction h with
  | nil => rfl
  | @cons r wire records wires hwire _ ih =>
    have hfront : cutter.front (wire ++ (wires.flatten ++ rest)) = .whole r (wires.flatten ++ rest) :=
      front_encoded hwire _
    rw [List.flatten_cons, List.append_assoc, Cutter.frames_whole hfront, ih, List.cons_append]

/-- What is returned and what is left make up what was there. -/
theorem receives_pending (k : Nat) (c : Connection) (polls : List Poll) :
    ∃ wires, Encoded (delivered (c.receives k polls).1) wires ∧
      wires.flatten ++ (c.receives k polls).2.1.pending (c.receives k polls).2.2 =
        c.pending polls := by
  induction k generalizing c polls with
  | zero => exact ⟨[], .nil, rfl⟩
  | succ k ih =>
    have h := receive_outcome c polls
    rw [Connection.receives]
    generalize c.receive polls = first at h ⊢
    obtain ⟨result, c', polls'⟩ := first
    obtain ⟨wires, hwires, hpending⟩ := ih c' polls'
    dsimp only at h ⊢
    cases h with
    | delivers hwire hfirst _ =>
      refine ⟨_ :: wires, .cons hwire hwires, ?_⟩
      rw [List.flatten_cons, List.append_assoc, hpending, hfirst]
    | givesUp hfirst => exact ⟨wires, hwires, hpending.trans hfirst.symm⟩
    | runsOut hfirst =>
      refine ⟨wires, hwires, hpending.trans ?_⟩
      rw [hfirst]
      exact List.append_nil _
    | refuses hfirst => exact ⟨wires, hwires, hpending.trans hfirst.symm⟩
    | breaks hfirst => exact ⟨wires, hwires, hpending.trans hfirst.symm⟩

theorem receives_frames (k : Nat) (c : Connection) (polls : List Poll) :
    cutter.frames (c.pending polls) = delivered (c.receives k polls).1 ++
      cutter.frames ((c.receives k polls).2.1.pending (c.receives k polls).2.2) := by
  obtain ⟨wires, hwires, hpending⟩ := receives_pending k c polls
  rw [← hpending, frames_encoded hwires]

/-- Each call of a quiet socket returns a record, uses up a deadline or reports a bad length. -/
theorem receives_all {c : Connection} {polls : List Poll} (hquiet : ∀ p ∈ polls, p.Quiet) {k : Nat}
    (hk : (cutter.frames (c.pending polls)).length + expirations polls ≤ k) :
    cutter.frames ((c.receives k polls).2.1.pending (c.receives k polls).2.2) = [] := by
  induction k generalizing c polls with
  | zero =>
    change cutter.frames (c.pending polls) = []
    exact List.length_eq_zero_iff.mp (by omega)
  | succ k ih =>
    have hrest := receives_frames k (c.receive polls).2.1 (c.receive polls).2.2
    have h := receive_outcome c polls
    rw [Connection.receives]
    generalize c.receive polls = first at h hrest ⊢
    obtain ⟨result, c', polls'⟩ := first
    dsimp only at h hrest ⊢
    have hnone (hnil : cutter.frames (c'.pending polls') = []) : cutter.frames
        ((c'.receives k polls').2.1.pending (c'.receives k polls').2.2) = [] := by
      rw [hnil] at hrest
      exact (List.append_eq_nil_iff.mp hrest.symm).2
    cases h with
    | @delivers r wire _ _ hwire hfirst hsuffix =>
      refine ih (fun p hp => hquiet p (hsuffix.subset hp)) ?_
      have hfewer : expirations polls' ≤ expirations polls := hsuffix.sublist.countP_le
      have hfront : cutter.front (wire ++ c'.pending polls') = .whole r (c'.pending polls') :=
        front_encoded hwire _
      rw [hfirst, Cutter.frames_whole hfront, List.length_cons] at hk
      omega
    | givesUp hfirst hsuffix hless =>
      refine ih (fun p hp => hquiet p (hsuffix.subset hp)) ?_
      rw [hfirst] at hk
      omega
    | runsOut hfirst hshort =>
      apply hnone
      rw [Connection.pending, List.flatMap_nil, List.append_nil]
      exact Cutter.frames_short hshort
    | refuses hfirst hsuffix hbad => exact hnone (Cutter.frames_bad (front_append_bad hbad _))
    | breaks hfirst hsuffix he hpoll =>
      obtain ⟨p, hp, hloud⟩ := hpoll
      exact absurd (hquiet p hp) hloud

/-- What is at the front of whole records. -/
theorem encoded_cases {records : List Record} {wires : List (List UInt8)} (h : Encoded records wires)
    (tail : List UInt8) :
    records = [] ∧ wires.flatten ++ tail = tail ∨
      ∃ r rs ws, records = r :: rs ∧ Encoded rs ws ∧
        front (wires.flatten ++ tail) = .whole r (ws.flatten ++ tail) := by
  cases h with
  | nil => exact Or.inl ⟨rfl, rfl⟩
  | @cons r wire rs ws hwire hrest =>
    refine Or.inr ⟨r, rs, ws, rfl, hrest, ?_⟩
    rw [List.flatten_cons, List.append_assoc]
    exact front_encoded hwire _

/-- A stream of whole records has no bad length in it. -/
theorem receives_ok {c : Connection} {polls : List Poll} (hquiet : ∀ p ∈ polls, p.Quiet)
    {records : List Record} {wires : List (List UInt8)} (h : Encoded records wires)
    (hpending : c.pending polls = wires.flatten) (k : Nat) :
    ∀ result ∈ (c.receives k polls).1, ∃ record, result = .ok record := by
  induction k generalizing c polls records wires with
  | zero => exact fun _ hmem => absurd hmem List.not_mem_nil
  | succ k ih =>
    have hcases := encoded_cases h []
    have hout := receive_outcome c polls
    rw [List.append_nil, ← hpending] at hcases
    rw [Connection.receives]
    generalize c.receive polls = first at hout ⊢
    obtain ⟨result, c', polls'⟩ := first
    dsimp only at hout ⊢
    intro x hx
    cases hout with
    | delivers hwire hfirst hsuffix =>
      have hfront := front_encoded hwire (c'.pending polls')
      rcases List.mem_cons.mp hx with rfl | hx
      · exact ⟨_, rfl⟩
      rw [← hfirst] at hfront
      rcases hcases with ⟨-, hnil⟩ | ⟨r', rs, ws, -, hrs, hwhole⟩
      · rw [hnil] at hfront
        cases hfront
      · rw [hwhole, Front.whole.injEq, List.append_nil] at hfront
        exact ih (fun p hp => hquiet p (hsuffix.subset hp)) hrs hfront.2.symm x hx
    | givesUp hfirst hsuffix _ =>
      rcases List.mem_cons.mp hx with rfl | hx
      · exact ⟨none, rfl⟩
      · exact ih (fun p hp => hquiet p (hsuffix.subset hp)) h (hfirst.symm.trans hpending) x hx
    | runsOut hfirst _ =>
      rcases List.mem_cons.mp hx with rfl | hx
      · exact ⟨none, rfl⟩
      · refine ih (fun p hp => absurd hp List.not_mem_nil) h ?_ x hx
        exact (List.append_nil _).trans (hfirst.symm.trans hpending)
    | refuses hfirst _ hbad =>
      have hfront := front_append_bad hbad (polls'.flatMap Poll.bytes)
      change front (c'.pending polls') = .bad at hfront
      rw [← hfirst] at hfront
      rcases hcases with ⟨-, hnil⟩ | ⟨r', rs, ws, -, hrs, hwhole⟩
      · rw [hnil] at hfront
        cases hfront
      · rw [hwhole] at hfront
        cases hfront
    | breaks _ _ _ hpoll =>
      obtain ⟨p, hp, hloud⟩ := hpoll
      exact absurd (hquiet p hp) hloud

/-- A bad length behind whole records is reported once they are out. -/
theorem receives_bad {c : Connection} {polls : List Poll} (hquiet : ∀ p ∈ polls, p.Quiet)
    {records : List Record} {wires : List (List UInt8)} {tail : List UInt8}
    (h : Encoded records wires) (hbad : front tail = .bad)
    (hpending : c.pending polls = wires.flatten ++ tail) {k : Nat}
    (hk : records.length + expirations polls < k) :
    .error .recordBounds ∈ (c.receives k polls).1 := by
  induction k generalizing c polls records wires with
  | zero => omega
  | succ k ih =>
    have hcases := encoded_cases h tail
    have hout := receive_outcome c polls
    rw [← hpending] at hcases
    rw [Connection.receives]
    generalize c.receive polls = first at hout ⊢
    obtain ⟨result, c', polls'⟩ := first
    dsimp only at hout ⊢
    cases hout with
    | delivers hwire hfirst hsuffix =>
      have hfront := front_encoded hwire (c'.pending polls')
      have hfewer : expirations polls' ≤ expirations polls := hsuffix.sublist.countP_le
      rw [← hfirst] at hfront
      rcases hcases with ⟨-, hnil⟩ | ⟨r', rs, ws, rfl, hrs, hwhole⟩
      · rw [hnil, hbad] at hfront
        cases hfront
      · rw [hwhole, Front.whole.injEq] at hfront
        rw [List.length_cons] at hk
        exact List.mem_cons_of_mem _
          (ih (fun p hp => hquiet p (hsuffix.subset hp)) hrs hfront.2.symm (by omega))
    | givesUp hfirst hsuffix hless =>
      exact List.mem_cons_of_mem _
        (ih (fun p hp => hquiet p (hsuffix.subset hp)) h (hfirst.symm.trans hpending) (by omega))
    | runsOut hfirst hshort =>
      rw [← hfirst] at hshort
      rcases hcases with ⟨-, hnil⟩ | ⟨r', rs, ws, -, hrs, hwhole⟩
      · rw [hnil, hbad] at hshort
        cases hshort
      · rw [hwhole] at hshort
        cases hshort
    | refuses => exact List.mem_cons_self
    | breaks _ _ _ hpoll =>
      obtain ⟨p, hp, hloud⟩ := hpoll
      exact absurd (hquiet p hp) hloud

/-- However a stream of records is cut into reads, and whatever time runs out in between, successive
calls return the records in order. What a call has not returned is still there for the next one. A
length that is out of bounds is reported, and nothing of it or behind it is returned. -/
theorem receive_frames :
    (∀ (c : Connection) (polls : List Poll), (c.receive polls).1 ≠ .error .bufferBounds) ∧
    (∀ (k : Nat) (c : Connection) (polls : List Poll), ∃ wires,
      Encoded (delivered (c.receives k polls).1) wires ∧
        wires.flatten ++ (c.receives k polls).2.1.pending (c.receives k polls).2.2 =
          c.pending polls) ∧
    (∀ (records : List Record) (wires : List (List UInt8)), Encoded records wires →
      ∀ polls : List Poll, (∀ p ∈ polls, p.Quiet) → polls.flatMap Poll.bytes = wires.flatten →
        ∀ k, (∀ result ∈ (Connection.opened.receives k polls).1, ∃ record, result = .ok record) ∧
          delivered (Connection.opened.receives k polls).1 <+: records ∧
          (records.length + expirations polls ≤ k →
            delivered (Connection.opened.receives k polls).1 = records)) ∧
    ∀ (records : List Record) (wires : List (List UInt8)) (tail : List UInt8),
      Encoded records wires → 4 ≤ tail.length → announced tail < 8 ∨ maxRecord < announced tail →
        ∀ polls : List Poll, polls.flatMap Poll.bytes = wires.flatten ++ tail →
          ∀ k, delivered (Connection.opened.receives k polls).1 <+: records ∧
            (8 ≤ tail.length → (∀ p ∈ polls, p.Quiet) → records.length + expirations polls < k →
              .error .recordBounds ∈ (Connection.opened.receives k polls).1) := by
  refine ⟨?_, receives_pending, ?_, ?_⟩
  · intro c polls hbounds
    have h := receive_outcome c polls
    rw [hbounds] at h
    cases h with
    | breaks _ _ he _ => exact he.2 rfl
  · intro records wires h polls hquiet hbytes k
    have hpending : Connection.opened.pending polls = wires.flatten := hbytes
    have hframes : cutter.frames (Connection.opened.pending polls) = records := by
      have hnil : cutter.frames [] = [] := Cutter.frames_short rfl
      have hall := frames_encoded h []
      rwa [hnil, List.append_nil, List.append_nil, ← hpending] at hall
    have hsplit := receives_frames k Connection.opened polls
    rw [hframes] at hsplit
    refine ⟨receives_ok hquiet h hpending k, ⟨_, hsplit.symm⟩, ?_⟩
    intro hk
    rw [hsplit, receives_all hquiet (by rwa [hframes]), List.append_nil]
  · intro records wires tail h hword hlength polls hbytes k
    have hpending : Connection.opened.pending polls = wires.flatten ++ tail := hbytes
    have htail : cutter.frames tail = [] := by
      apply Cutter.frames_nil
      intro r rest hwhole
      obtain ⟨hlow, hhigh, -⟩ := front_whole_iff.mp hwhole
      omega
    have hsplit := receives_frames k Connection.opened polls
    rw [hpending, frames_encoded h, htail, List.append_nil] at hsplit
    refine ⟨⟨_, hsplit.symm⟩, ?_⟩
    intro hlong hquiet hk
    exact receives_bad hquiet h (front_bad_iff.mpr ⟨hlong, hlength⟩) hpending hk

end OpenSaab.OpenMdi
