import OpenSaab.Library.Runs

/-!
# Bytes from the serial port

`adapters/common/serial_rx.rs`: a thread reads the port and pushes chunks into a bounded queue, another
one reads them. Each step of the two is one access to what they share.
-/

namespace OpenSaab.Serial

def chunkBytes : Nat := 512

def queueChunks : Nat := 128

def readChunks : Nat := 32

inductive ErrorKind where
  | invalidData
  | brokenPipe
  | other (name : String)
  deriving DecidableEq, Repr

structure Failure where
  kind : ErrorKind
  message : String
  deriving DecidableEq, Repr

def oversize : Failure := ⟨.invalidData, "serial receive chunk exceeds limit"⟩

def overflow (rejected : Nat) : Failure :=
  ⟨.invalidData, "serial receive buffer overflow: capacity=" ++ toString (queueChunks * chunkBytes) ++
    " bytes, rejected=" ++ toString rejected ++ " bytes; reopen transport"⟩

def stopped : Failure := ⟨.brokenPipe, "serial reader stopped"⟩

/-- Where the producer is in its call. -/
inductive Producer where
  | idle
  | checked (bytes : List UInt8)
  | failing (f : Failure)
  | gone
  deriving DecidableEq, Repr

/-- Where the reader is in its call. -/
inductive Reader where
  | idle
  | draining (index : Nat) (out : List UInt8)
  | waiting (out : List UInt8)
  | checking (out : List UInt8)
  | disconnected
  | gone
  deriving DecidableEq, Repr

structure State where
  queue : List (List UInt8)
  failure : Option Failure
  producer : Producer
  reader : Reader
  bounded : queue.length ≤ queueChunks
  deriving DecidableEq

def channel : State := ⟨[], none, .idle, .idle, Nat.zero_le _⟩

/-- A call, or the next step of one. -/
inductive Act where
  | push (bytes : List UInt8)
  | fail (f : Failure)
  | produce
  | dropSender
  | read
  | consume
  | timeout
  | dropReceiver

/-- What a push or a read has come to. -/
inductive Event where
  | pushed (bytes : List UInt8)
  | refused (f : Failure)
  | returned (bytes : List UInt8)
  | failed (f : Failure)
  deriving DecidableEq, Repr

/-! ## The producer -/

/-- `push`: the failure is looked at first. -/
def push (s : State) (bytes : List UInt8) : State × List Event :=
  match s.producer, s.failure with
  | .idle, some f => (s, [.refused f])
  | .idle, none => ({ s with producer := .checked bytes }, [])
  | _, _ => (s, [])

/-- A device error is recorded in a step of its own. -/
def fail (s : State) (f : Failure) : State × List Event :=
  match s.producer with
  | .idle => ({ s with producer := .failing f }, [])
  | _ => (s, [])

theorem length_snoc {queue : List (List UInt8)} (h : queue.length < queueChunks)
    (bytes : List UInt8) : (queue ++ [bytes]).length ≤ queueChunks := by
  rw [List.length_append]
  exact h

def produce (s : State) : State × List Event :=
  match s.producer with
  | .checked bytes =>
    if chunkBytes < bytes.length then ({ s with producer := .failing oversize }, [])
    else if s.reader = .gone then ({ s with producer := .idle }, [])
    else if h : s.queue.length < queueChunks then
      ({ s with queue := s.queue ++ [bytes], producer := .idle, bounded := length_snoc h bytes },
        [.pushed bytes])
    else ({ s with producer := .failing (overflow bytes.length) }, [])
  | .failing f => ({ s with failure := some (s.failure.getD f), producer := .idle }, [.refused f])
  | _ => (s, [])

/-- The sender is dropped between its calls. -/
def dropSender (s : State) : State × List Event :=
  match s.producer with
  | .idle => ({ s with producer := .gone }, [])
  | _ => (s, [])

/-! ## The reader -/

/-- `read`: the failure is looked at first. -/
def read (s : State) : State × List Event :=
  match s.reader, s.failure with
  | .idle, some f => (s, [.failed f])
  | .idle, none => ({ s with reader := .draining 0 [] }, [])
  | _, _ => (s, [])

theorem length_tail {chunk : List UInt8} {rest queue : List (List UInt8)} (h : queue = chunk :: rest)
    (hbounded : queue.length ≤ queueChunks) : rest.length ≤ queueChunks := by
  rw [h] at hbounded
  exact Nat.le_of_succ_le hbounded

/-- The next chunk, or what is done when there is none. -/
def receive (s : State) (index : Nat) (out : List UInt8) (empty : State) : State :=
  match h : s.queue with
  | chunk :: rest =>
    { s with queue := rest, reader := .draining (index + 1) (out ++ chunk),
             bounded := length_tail h s.bounded }
  | [] => if s.producer = .gone then { s with reader := .disconnected } else empty

def consume (s : State) : State × List Event :=
  match s.reader with
  | .draining index out =>
    let checking := { s with reader := .checking out }
    if readChunks ≤ index then (checking, [])
    else (receive s index out (if index = 0 then { s with reader := .waiting out } else checking), [])
  | .waiting out => (receive s 0 out s, [])
  | .checking out =>
    let s' := { s with reader := .idle }
    match s.failure with
    | some f => (s', [.failed f])
    | none => (s', [.returned out])
  | .disconnected => ({ s with reader := .idle }, [.failed (s.failure.getD stopped)])
  | _ => (s, [])

def timeout (s : State) : State × List Event :=
  match s.reader with
  | .waiting out => ({ s with reader := .checking out }, [])
  | _ => (s, [])

def dropReceiver (s : State) : State × List Event :=
  match s.reader with
  | .idle => ({ s with reader := .gone }, [])
  | _ => (s, [])

def act (s : State) : Act → State × List Event
  | .push bytes => push s bytes
  | .fail f => fail s f
  | .produce => produce s
  | .dropSender => dropSender s
  | .read => read s
  | .consume => consume s
  | .timeout => timeout s
  | .dropReceiver => dropReceiver s

def step (s : State) (a : Act) : State := (act s a).1

def events (s : State) (a : Act) : List Event := (act s a).2

/-! ## What has come of the calls -/

def Event.pushedBytes : Event → List UInt8
  | .pushed bytes => bytes
  | _ => []

def Event.returnedBytes : Event → List UInt8
  | .returned bytes => bytes
  | _ => []

def Event.refusal : Event → Option Failure
  | .refused f => some f
  | _ => none

/-- Why the first chunk has been refused, if one has. -/
def firstRefusal (log : List Event) : Option Failure := (log.filterMap Event.refusal).head?

/-- What an event needs of those before it. -/
def Sound (before : List Event) : Event → Prop
  | .pushed bytes => bytes.length ≤ chunkBytes ∧ firstRefusal before = none
  | .refused _ => True
  | .returned _ => firstRefusal before = none
  | .failed f => f = (firstRefusal before).getD stopped

/-- The bytes that the reader has taken and not yet returned. -/
def Reader.held : Reader → List UInt8
  | .draining _ out | .waiting out | .checking out => out
  | _ => []

/-- No bytes will be returned any more. -/
def Over (s : State) : Prop :=
  s.failure.isSome ∨ s.producer = .gone ∧ s.queue = [] ∧
    s.reader ∈ [.idle, .draining 0 [], .disconnected, .gone]

/-- The bytes that have been pushed are those that have been returned and those on their way, or
nothing is returned any more. -/
def Balanced (s : State) (pushed returned : List UInt8) : Prop :=
  pushed = returned ++ s.reader.held ++ s.queue.flatten ∨ returned <+: pushed ∧ Over s

/-- The shared state against what has come of the calls. -/
structure Faithful (s : State) (log : List Event) : Prop where
  justified : Runs.Justified Sound log
  failure : s.failure = firstRefusal log
  clear : ∀ bytes, s.producer = .checked bytes → s.failure = none
  bytes : Balanced s (log.flatMap Event.pushedBytes) (log.flatMap Event.returnedBytes)

theorem Balanced.starts {s : State} {pushed returned : List UInt8} (h : Balanced s pushed returned) :
    returned <+: pushed := by
  rcases h with h | ⟨h, -⟩
  · rw [h, List.append_assoc]
    exact List.prefix_append _ _
  · exact h

theorem firstRefusal_snoc (log : List Event) (e : Event) :
    firstRefusal (log ++ [e]) = (firstRefusal log).or e.refusal := by
  unfold firstRefusal
  rw [List.filterMap_append, List.head?_append]
  cases e with
  | pushed | refused | returned | failed => rfl

variable {s s' : State} {log : List Event}

/-- A step that nothing comes of. -/
theorem Faithful.quiet (h : Faithful s log) (hfailure : s'.failure = s.failure)
    (hclear : ∀ bytes, s'.producer = .checked bytes → s'.failure = none)
    (hbytes : ∀ pushed returned, Balanced s pushed returned → Balanced s' pushed returned) :
    Faithful s' (log ++ []) := by
  rw [List.append_nil]
  exact ⟨h.justified, hfailure.trans h.failure, hclear, hbytes _ _ h.bytes⟩

/-- A step that an event comes of. -/
theorem Faithful.snoc (h : Faithful s log) {e : Event} (hsound : Sound log e)
    (hfailure : s'.failure = s.failure.or e.refusal)
    (hclear : ∀ bytes, s'.producer = .checked bytes → s'.failure = none)
    (hbytes : ∀ pushed returned, Balanced s pushed returned →
      Balanced s' (pushed ++ e.pushedBytes) (returned ++ e.returnedBytes)) :
    Faithful s' (log ++ [e]) := by
  refine ⟨h.justified.snoc hsound, ?_, hclear, ?_⟩
  · rw [firstRefusal_snoc, ← h.failure, hfailure]
  · simp only [List.flatMap_append, List.flatMap_singleton]
    exact hbytes _ _ h.bytes

/-- A step of the producer that leaves the queue alone. -/
theorem Balanced.producer {pushed returned : List UInt8} (h : Balanced s pushed returned)
    (hqueue : s'.queue = s.queue) (hreader : s'.reader = s.reader)
    (hfailure : s.failure.isSome → s'.failure.isSome)
    (hgone : s.producer = .gone → s'.producer = .gone) : Balanced s' pushed returned := by
  unfold Balanced Over at h ⊢
  rw [hqueue, hreader]
  rcases h with h | ⟨h, hover | ⟨hproducer, hqueue, hreader⟩⟩
  · exact Or.inl h
  · exact Or.inr ⟨h, Or.inl (hfailure hover)⟩
  · exact Or.inr ⟨h, Or.inr ⟨hgone hproducer, hqueue, hreader⟩⟩

theorem push_faithful (h : Faithful s log) (bytes : List UInt8) :
    Faithful (push s bytes).1 (log ++ (push s bytes).2) := by
  unfold push
  split
  · rename_i f hproducer hfailure
    refine h.snoc trivial ?_ h.clear fun pushed returned hbytes => ?_
    · rw [hfailure]
      rfl
    · simpa [Event.pushedBytes, Event.returnedBytes] using hbytes
  · rename_i hproducer hfailure
    exact h.quiet rfl (fun _ _ => hfailure) fun _ _ hbytes =>
      hbytes.producer rfl rfl id fun hgone => nomatch hproducer.symm.trans hgone
  · exact h.quiet rfl h.clear fun _ _ => id

theorem fail_faithful (h : Faithful s log) (f : Failure) :
    Faithful (fail s f).1 (log ++ (fail s f).2) := by
  unfold fail
  split
  · rename_i hproducer
    exact h.quiet rfl nofun fun _ _ hbytes =>
      hbytes.producer rfl rfl id fun hgone => nomatch hproducer.symm.trans hgone
  · exact h.quiet rfl h.clear fun _ _ => id

theorem produce_faithful (h : Faithful s log) :
    Faithful (produce s).1 (log ++ (produce s).2) := by
  unfold produce
  split
  · rename_i bytes hproducer
    have hnone := h.clear bytes hproducer
    have hlive (hgone : s.producer = .gone) : False := nomatch hproducer.symm.trans hgone
    split_ifs with hlong hgone hroom
    · exact h.quiet rfl nofun fun _ _ hbytes => hbytes.producer rfl rfl id fun h => (hlive h).elim
    · exact h.quiet rfl nofun fun _ _ hbytes => hbytes.producer rfl rfl id fun h => (hlive h).elim
    · refine h.snoc ⟨Nat.le_of_not_lt hlong, h.failure ▸ hnone⟩ ?_ nofun fun pushed returned hbytes => ?_
      · exact (Option.or_none).symm
      · rcases hbytes with hbytes | ⟨hstart, hover⟩
        · left
          rw [hbytes]
          simp [Event.pushedBytes, Event.returnedBytes]
        · rcases hover with hover | ⟨hgone, -⟩
          · rw [hnone] at hover
            cases hover
          · exact (hlive hgone).elim
    · exact h.quiet rfl nofun fun _ _ hbytes => hbytes.producer rfl rfl id fun h => (hlive h).elim
  · rename_i f hproducer
    refine h.snoc trivial ?_ nofun fun pushed returned hbytes => ?_
    · cases s.failure with
      | none => rfl
      | some g => rfl
    · simp only [Event.pushedBytes, Event.returnedBytes, List.append_nil]
      exact hbytes.producer rfl rfl (fun _ => rfl) fun hgone => nomatch hproducer.symm.trans hgone
  · exact h.quiet rfl h.clear fun _ _ => id

theorem dropSender_faithful (h : Faithful s log) :
    Faithful (dropSender s).1 (log ++ (dropSender s).2) := by
  unfold dropSender
  split
  · exact h.quiet rfl nofun fun _ _ hbytes => hbytes.producer rfl rfl id fun _ => rfl
  · exact h.quiet rfl h.clear fun _ _ => id

/-- The reader takes the next chunk, or there is none. -/
theorem receive_balanced {index : Nat} {out : List UInt8} {empty : State}
    {pushed returned : List UInt8} (h : Balanced s pushed returned) (hout : s.reader.held = out)
    (hsame : empty.queue = s.queue ∧ empty.failure = s.failure ∧ empty.producer = s.producer)
    (hempty : empty.reader.held = out) : Balanced (receive s index out empty) pushed returned := by
  unfold receive
  split
  · rename_i chunk rest hqueue
    rcases h with h | ⟨hstart, hover | ⟨hgone, hnil, -⟩⟩
    · left
      rw [hqueue, hout] at h
      rw [h]
      simp [Reader.held]
    · exact Or.inr ⟨hstart, Or.inl hover⟩
    · rw [hnil] at hqueue
      cases hqueue
  · rename_i hqueue
    split_ifs with hgone
    · refine Or.inr ⟨h.starts, Or.inr ⟨hgone, hqueue, by simp⟩⟩
    · rcases h with h | ⟨hstart, hover | ⟨hproducer, -⟩⟩
      · left
        rw [hsame.1, hempty, ← hout]
        exact h
      · exact Or.inr ⟨hstart, Or.inl (hsame.2.1 ▸ hover)⟩
      · exact absurd hproducer hgone

theorem receive_same (s : State) (index : Nat) (out : List UInt8) (empty : State)
    (hsame : empty.queue = s.queue ∧ empty.failure = s.failure ∧ empty.producer = s.producer) :
    (receive s index out empty).failure = s.failure ∧
      (receive s index out empty).producer = s.producer := by
  unfold receive
  split
  · exact ⟨rfl, rfl⟩
  · split_ifs
    · exact ⟨rfl, rfl⟩
    · exact hsame.2

/-- The reader moves on between two chunks. -/
theorem Balanced.reader {pushed returned : List UInt8} (h : Balanced s pushed returned)
    (hqueue : s'.queue = s.queue) (hfailure : s'.failure = s.failure)
    (hproducer : s'.producer = s.producer) (hheld : s'.reader.held = s.reader.held)
    (hover : s.reader ∈ [.idle, .draining 0 [], .disconnected, .gone] →
      s'.reader ∈ [.idle, .draining 0 [], .disconnected, .gone]) : Balanced s' pushed returned := by
  unfold Balanced Over at h ⊢
  rw [hqueue, hfailure, hproducer, hheld]
  exact h.imp_right fun h => ⟨h.1, h.2.imp_right fun h => ⟨h.1, h.2.1, hover h.2.2⟩⟩

theorem read_faithful (h : Faithful s log) : Faithful (read s).1 (log ++ (read s).2) := by
  unfold read
  split
  · rename_i f hreader hfailure
    refine h.snoc ?_ (Option.or_none).symm h.clear fun pushed returned hbytes => ?_
    · rw [Sound, ← h.failure, hfailure]
      rfl
    · simpa [Event.pushedBytes, Event.returnedBytes] using hbytes
  · rename_i hreader hfailure
    refine h.quiet rfl h.clear fun pushed returned hbytes => ?_
    exact hbytes.reader rfl rfl rfl (by rw [hreader]; rfl) fun _ => by simp
  · exact h.quiet rfl h.clear fun _ _ => id

theorem consume_faithful (h : Faithful s log) : Faithful (consume s).1 (log ++ (consume s).2) := by
  unfold consume
  split
  · rename_i index out hreader
    have hheld : s.reader.held = out := by rw [hreader]; rfl
    dsimp only
    split_ifs with hlast hfirst
    · refine h.quiet rfl h.clear fun pushed returned hbytes => ?_
      refine hbytes.reader rfl rfl rfl hheld.symm fun hmem => ?_
      have hindex : index ≠ 0 := fun hzero => by
        rw [hzero] at hlast
        cases hlast
      rw [hreader] at hmem
      simp [hindex] at hmem
    · obtain ⟨hfailure, hproducer⟩ := receive_same s index out { s with reader := .waiting out }
        ⟨rfl, rfl, rfl⟩
      refine h.quiet hfailure (fun bytes => ?_) fun pushed returned hbytes =>
        receive_balanced hbytes hheld ⟨rfl, rfl, rfl⟩ rfl
      rw [hfailure, hproducer]
      exact h.clear bytes
    · obtain ⟨hfailure, hproducer⟩ := receive_same s index out { s with reader := .checking out }
        ⟨rfl, rfl, rfl⟩
      refine h.quiet hfailure (fun bytes => ?_) fun pushed returned hbytes =>
        receive_balanced hbytes hheld ⟨rfl, rfl, rfl⟩ rfl
      rw [hfailure, hproducer]
      exact h.clear bytes
  · rename_i out hreader
    have hheld : s.reader.held = out := by rw [hreader]; rfl
    obtain ⟨hfailure, hproducer⟩ := receive_same s 0 out s ⟨rfl, rfl, rfl⟩
    refine h.quiet hfailure (fun bytes => ?_) fun pushed returned hbytes =>
      receive_balanced hbytes hheld ⟨rfl, rfl, rfl⟩ hheld
    rw [hfailure, hproducer]
    exact h.clear bytes
  · rename_i out hreader
    dsimp only
    split
    · rename_i f hfailure
      refine h.snoc ?_ (Option.or_none).symm h.clear fun pushed returned hbytes => ?_
      · rw [Sound, ← h.failure, hfailure]
        rfl
      · simp only [Event.pushedBytes, Event.returnedBytes, List.append_nil]
        exact Or.inr ⟨hbytes.starts, Or.inl (by rw [hfailure]; rfl)⟩
    · rename_i hfailure
      refine h.snoc (h.failure.symm.trans hfailure) (Option.or_none).symm h.clear fun pushed returned hbytes => ?_
      simp only [Event.pushedBytes, Event.returnedBytes, List.append_nil]
      rcases hbytes with hbytes | ⟨hstart, hover | ⟨-, -, hmem⟩⟩
      · left
        rw [hbytes, hreader]
        simp [Reader.held]
      · rw [hfailure] at hover
        cases hover
      · rw [hreader] at hmem
        simp at hmem
  · rename_i hreader
    refine h.snoc ?_ (Option.or_none).symm h.clear fun pushed returned hbytes => ?_
    · rw [Sound, ← h.failure]
    · simp only [Event.pushedBytes, Event.returnedBytes, List.append_nil]
      exact hbytes.reader rfl rfl rfl (by rw [hreader]; rfl) fun _ => by simp
  · exact h.quiet rfl h.clear fun _ _ => id

theorem timeout_faithful (h : Faithful s log) : Faithful (timeout s).1 (log ++ (timeout s).2) := by
  unfold timeout
  split
  · rename_i out hreader
    refine h.quiet rfl h.clear fun pushed returned hbytes => ?_
    refine hbytes.reader rfl rfl rfl (by rw [hreader]; rfl) fun hmem => ?_
    rw [hreader] at hmem
    simp at hmem
  · exact h.quiet rfl h.clear fun _ _ => id

theorem dropReceiver_faithful (h : Faithful s log) :
    Faithful (dropReceiver s).1 (log ++ (dropReceiver s).2) := by
  unfold dropReceiver
  split
  · rename_i hreader
    refine h.quiet rfl h.clear fun pushed returned hbytes => ?_
    exact hbytes.reader rfl rfl rfl (by rw [hreader]; rfl) fun _ => by simp
  · exact h.quiet rfl h.clear fun _ _ => id

theorem act_faithful (s : State) (a : Act) (log : List Event) (h : Faithful s log) :
    Faithful (step s a) (log ++ events s a) := by
  cases a with
  | push bytes => exact push_faithful h bytes
  | fail f => exact fail_faithful h f
  | produce => exact produce_faithful h
  | dropSender => exact dropSender_faithful h
  | read => exact read_faithful h
  | consume => exact consume_faithful h
  | timeout => exact timeout_faithful h
  | dropReceiver => exact dropReceiver_faithful h

theorem channel_faithful : Faithful channel [] :=
  ⟨.nil, rfl, nofun, Or.inl rfl⟩

/-- Over any interleaving of the two threads, what is returned is the start of what has been pushed,
and after the first refusal nothing is returned and every read fails for its reason. -/
theorem gap_never_hidden (acts : List Act) :
    let log := Runs.log step events channel acts
    log.flatMap Event.returnedBytes <+: log.flatMap Event.pushedBytes ∧ Runs.Justified Sound log ∧
      ∀ f, firstRefusal log = some f → (Runs.run step channel acts).reader = .idle →
        events (Runs.run step channel acts) .read = [.failed f] := by
  have h := Runs.log_keeps (fun s a log => act_faithful s a log) acts channel_faithful
  rw [List.nil_append] at h
  refine ⟨h.bytes.starts, h.justified, fun f hf hidle => ?_⟩
  have hfailure := h.failure.trans hf
  change (read (Runs.run step channel acts)).2 = _
  rw [read, hidle, hfailure]

end OpenSaab.Serial
