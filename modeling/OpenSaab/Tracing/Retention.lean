import OpenSaab.Tracing.Rolling

/-!
# What a rolling trace keeps

The current file and its backups hold the last entries of the trace, in order and without a gap. After
a failure nothing is written any more.
-/

namespace OpenSaab.Tracing

open Program

def bytesOf (limit : Nat) (entries : List Entry) : Contents := entries.flatMap (Entry.bytes limit)

theorem bytesOf_append (limit : Nat) (es es' : List Entry) :
    bytesOf limit (es ++ es') = bytesOf limit es ++ bytesOf limit es' := List.flatMap_append

theorem bytesOf_singleton (limit : Nat) (e : Entry) : bytesOf limit [e] = e.bytes limit := by
  unfold bytesOf
  rw [List.flatMap_singleton]

/-- The first failure is the one that is reported. -/
def Broke (e : String) (t : Trace) : Prop := t.failures.head? = some e

/-! ## Files -/

theorem store_self (files : Nat → Option Contents) (i : Nat) : store files i (files i) = files := by
  funext j
  unfold store
  split
  · next h => rw [h]
  · rfl

theorem store_store (files : Nat → Option Contents) (i : Nat) (a b : Option Contents) :
    store (store files i a) i b = store files i b := by
  funext j
  unfold store
  split <;> rfl

theorem failed_triple {α : Type} {t₀ : Trace} (h : t₀.failures = []) (e : String)
    (Q : α → Trace → Prop) : Triple (· = t₀) (failed e : Program Trace String α) Q Broke := by
  rintro t rfl
  change (t.failures ++ [e]).head? = some e
  rw [h]
  rfl

/-- The trace with these entries in its current file and these in its buffer. -/
def Trace.holding (t : Trace) (limit : Nat) (written pending : List Entry) : Trace :=
  { t with
    files := store t.files 0 (some (bytesOf limit written)), writer := some (bytesOf limit pending) }

variable {limit : Nat} {written pending : List Entry}

theorem append_holding (t : Trace) (bytes : Contents) (written' : List Entry)
    (h : bytesOf limit written' = bytesOf limit written ++ bytes) (writer : List Entry) :
    { (t.holding limit written pending).append bytes with writer := some (bytesOf limit writer) } =
      t.holding limit written' writer := by
  have hfiles : store (store t.files 0 (some (bytesOf limit written))) 0
      (some (bytesOf limit written ++ bytes)) = store t.files 0 (some (bytesOf limit written')) := by
    rw [store_store, h]
  unfold Trace.holding Trace.append
  exact congrArg (fun files => { t with files := files, writer := some (bytesOf limit writer) }) hfiles

theorem flushBuf_triple {t₀ : Trace} (h : t₀.failures = []) (w : Write) :
    Triple (· = t₀.holding limit written pending) (flushBuf w)
      (fun _ t => t = t₀.holding limit (written ++ pending) []) Broke := by
  have hflushed : { (t₀.holding limit written pending).append (bytesOf limit pending) with
      writer := some (bytesOf limit []) } = t₀.holding limit (written ++ pending) [] :=
    append_holding t₀ _ _ (bytesOf_append limit written pending) []
  intro t ht
  unfold flushBuf
  rw [bind_read]
  have hwriter : t.writer = some (bytesOf limit pending) := by rw [ht]; rfl
  rw [hwriter]
  cases hbytes : bytesOf limit pending with
  | nil =>
    have hsame : bytesOf limit (written ++ pending) = bytesOf limit written := by
      rw [bytesOf_append, hbytes, List.append_nil]
    change t = _
    rw [ht]
    unfold Trace.holding
    rw [hsame, hbytes]
    rfl
  | cons b bytes =>
    rw [hbytes] at hflushed
    cases w with
    | done =>
      rw [← ht] at hflushed
      exact hflushed
    | broken n e =>
      have hfailures : t.failures = [] := by rw [ht]; exact h
      change (t.failures ++ [e]).head? = some e
      rw [hfailures]
      rfl

/-- What happens to a buffer does not undo a failure. -/
theorem flushBuf_broke (e : String) (w : Write) :
    Triple (Broke e) (flushBuf w) (fun _ => Broke e) fun _ => Broke e := by
  intro t ht
  have hmore : ∀ e', (t.failures ++ [e']).head? = some e := fun e' => by
    rw [List.head?_append_of_ne_nil, ht]
    intro hnil
    unfold Broke at ht
    rw [hnil] at ht
    cases ht
  unfold flushBuf
  rw [bind_read]
  cases t.writer with
  | none => exact ht
  | some buffer =>
    cases buffer with
    | nil => exact ht
    | cons b bytes =>
      cases w with
      | done => exact ht
      | broken n e' => exact hmore e'

theorem writeFile_triple {t₀ : Trace} (h : t₀.failures = []) (w : Write) (e : Entry) :
    Triple (· = t₀.holding limit written pending) (writeFile w (e.bytes limit))
      (fun _ t => t = t₀.holding limit (written ++ [e]) pending) Broke := by
  intro t ht
  cases w with
  | done =>
    have hmore : bytesOf limit (written ++ [e]) = bytesOf limit written ++ e.bytes limit := by
      rw [bytesOf_append, bytesOf_singleton]
    have happend : { (t₀.holding limit written pending).append (e.bytes limit) with
        writer := some (bytesOf limit pending) } = t₀.holding limit (written ++ [e]) pending :=
      append_holding t₀ _ _ hmore pending
    rw [← ht] at happend
    have hwriter : t.writer = some (bytesOf limit pending) := by rw [ht]; rfl
    rw [← hwriter] at happend
    exact happend
  | broken n e' =>
    have hfailures : t.failures = [] := by rw [ht]; exact h
    change (t.failures ++ [e']).head? = some e'
    rw [hfailures]
    rfl

/-- A record that does not fit into the buffer is put behind an empty one. -/
theorem putBytes_triple {t₀ : Trace} (h : t₀.failures = []) (o : Outcomes) (e : Entry)
    (hlong : capacity ≤ (e.bytes limit).length → pending = []) :
    Triple (· = t₀.holding limit written pending) (putBytes o (e.bytes limit))
      (fun _ t => ∃ written' pending', written' ++ pending' = written ++ pending ++ [e] ∧
        t = t₀.holding limit written' pending') Broke := by
  unfold putBytes
  split
  · next hcapacity =>
    obtain rfl := hlong hcapacity
    refine (writeFile_triple h o.write e).mono fun _ t ht => ⟨written ++ [e], [], ?_, ht⟩
    rw [List.append_nil, List.append_nil]
  · refine Triple.change fun t ht => ⟨written, pending ++ [e], (List.append_assoc _ _ _).symm, ?_⟩
    rw [ht]
    unfold Trace.holding
    rw [bytesOf_append, bytesOf_singleton]
    rfl

theorem bytes_pos (limit : Nat) (e : Entry) : 0 < (e.bytes limit).length := by
  obtain ⟨rest, hrecord, -⟩ := e.record_line limit
  unfold Entry.bytes
  rw [hrecord, utf8_append, List.length_append]
  have hend : (utf8 ['\n']).length = 1 := by decide
  omega

/-- There is room for the record afterwards, or nothing is pending. -/
theorem makeRoom_triple {t₀ : Trace} (h : t₀.failures = []) (o : Outcomes) (e : Entry) :
    Triple (· = t₀.holding limit written pending) (makeRoom o (e.bytes limit))
      (fun _ t => ∃ written' pending', written' ++ pending' = written ++ pending ∧
        (capacity ≤ (e.bytes limit).length → pending' = []) ∧
        t = t₀.holding limit written' pending') Broke := by
  unfold makeRoom
  refine Triple.branch ?_ ?_
  · refine ((flushBuf_triple h o.flush).weaken fun _ ht => ht.1).mono ?_
    exact fun _ t ht => ⟨written ++ pending, [], List.append_nil _, fun _ => rfl, ht⟩
  · refine Triple.pure fun t ht => ⟨written, pending, rfl, fun hlong => ?_, ht.1⟩
    cases hlist : pending with
    | nil => rfl
    | cons e' es =>
      have hspare : t.spareCapacity = capacity - (bytesOf limit pending).length := by rw [ht.1]; rfl
      have hroom : ¬ t.spareCapacity < (e.bytes limit).length := of_decide_eq_false ht.2
      have hpos : 0 < (bytesOf limit pending).length := by
        rw [hlist]
        unfold bytesOf
        rw [List.flatMap_cons, List.length_append]
        exact Nat.add_pos_left (bytes_pos limit e') _
      have hcapacity : 0 < capacity := by decide
      omega

theorem writeAll_triple {t₀ : Trace} (h : t₀.failures = []) (o : Outcomes) (e : Entry) :
    Triple (· = t₀.holding limit written pending) (writeAll o (e.bytes limit))
      (fun _ t => ∃ written' pending', written' ++ pending' = written ++ pending ++ [e] ∧
        t = t₀.holding limit written' pending') Broke := by
  unfold writeAll
  refine Triple.bind (makeRoom_triple h o e) fun _ => Triple.of_exists fun written' =>
    Triple.of_exists fun pending' => Triple.of_and fun hsame => Triple.of_and fun hlong => ?_
  rw [← hsame]
  exact putBytes_triple h o e hlong

/-! ## Rotation -/

/-- The files after a rotation. -/
def pushed (files : Nat → Option Contents) (current : Contents) : Nat → Option Contents
  | 0 => some []
  | 1 => some current
  | i + 2 => if i + 2 ≤ traceBackups then files (i + 1) else files (i + 2)

theorem closeWriter_triple {t₀ : Trace} (h : t₀.failures = []) (o : Outcomes) :
    Triple (· = t₀.holding limit written pending) (closeWriter o)
      (fun _ t => t = { t₀.holding limit (written ++ pending) [] with writer := none }) Broke := by
  unfold closeWriter
  refine Triple.bind (flushBuf_triple h o.rotateFlush).attempt fun result => ?_
  cases result with
  | ok _ =>
    refine Triple.change fun t ht => ?_
    have hflushed : t = t₀.holding limit (written ++ pending) [] := ht
    rw [hflushed]
  | error e =>
    refine Triple.bind (R := fun _ => Broke e) ?_ fun _ => ?_
    · refine Triple.mono (flushBuf_broke e o.dropFlush).attempt fun r t ht => ?_
      cases r <;> exact ht
    · exact Triple.bind (R := fun _ => Broke e) (Triple.change fun t ht => ht)
        fun _ => Triple.fail fun t ht => ht

theorem removeFile_triple {t₀ : Trace} (h : t₀.failures = []) (o : Outcomes) (i : Nat) :
    Triple (· = t₀) (removeFile o i) (fun _ t => t = { t₀ with files := store t₀.files i none })
      Broke := by
  unfold removeFile
  cases o.remove with
  | ok _ => exact Triple.change fun t ht => by rw [ht]
  | error e => exact failed_triple h e _

theorem moved_absent {files : Nat → Option Contents} {i : Nat} (hnext : files (i + 1) = none)
    (h : files i = none) : moved files i = files := by
  have hstep : store files (i + 1) (files i) = files := by
    rw [h, ← hnext]
    exact store_self files (i + 1)
  unfold moved
  rw [hstep, ← h]
  exact store_self files i

theorem renameBackup_triple {t₀ : Trace} (h : t₀.failures = []) (o : Outcomes) (i : Nat)
    (hnext : t₀.files (i + 1) = none) :
    Triple (· = t₀) (renameBackup o i) (fun _ t => t = { t₀ with files := moved t₀.files i })
      Broke := by
  unfold renameBackup
  cases o.rename i with
  | ok _ =>
    refine Triple.change fun t ht => ?_
    rw [ht]
    split
    · rfl
    · next hnone =>
      rw [moved_absent hnext (Option.not_isSome_iff_eq_none.mp hnone)]
  | error e => exact failed_triple h e _

theorem renameCurrent_triple {t₀ : Trace} (h : t₀.failures = []) (o : Outcomes) :
    Triple (· = t₀) (renameCurrent o) (fun _ t => t = { t₀ with files := moved t₀.files 0 })
      Broke := by
  unfold renameCurrent
  cases o.rename 0 with
  | ok _ =>
    refine Triple.branch ?_ ?_
    · exact Triple.change fun t ht => by rw [ht.1]
    · exact (failed_triple h _ _).weaken fun t ht => ht.1
  | error e => exact failed_triple h e _

theorem createFile_triple {t₀ : Trace} (h : t₀.failures = []) (o : Outcomes) :
    Triple (· = t₀) (createFile o) (fun _ t => t = { t₀ with
      files := store t₀.files 0 (some []), writer := some [], segmentBytes := 0 }) Broke := by
  unfold createFile
  cases o.create with
  | ok _ => exact Triple.change fun t ht => by rw [ht]
  | error e => exact failed_triple h e _

/-- What the file operations of a rotation make of the files. -/
theorem pushed_eq (files : Nat → Option Contents) {current : Contents}
    (hcurrent : files 0 = some current) :
    store (moved (moved (moved (store files 3 none) 2) 1) 0) 0 (some []) = pushed files current := by
  funext i
  match i with
  | 0 => rfl
  | 1 => exact hcurrent
  | 2 => rfl
  | 3 => rfl
  | i + 4 =>
    have hbeyond : ¬ i + 4 ≤ traceBackups := by unfold traceBackups; omega
    have hpushed : pushed files current (i + 4) = files (i + 4) := by
      unfold pushed
      exact if_neg hbeyond
    rw [hpushed]
    rfl

theorem rotate_triple {t₀ : Trace} (h : t₀.failures = []) (o : Outcomes) :
    Triple (· = t₀.holding limit written pending) (rotate o)
      (fun _ t => t = { t₀ with
        files := pushed t₀.files (bytesOf limit (written ++ pending))
        writer := some [], segmentBytes := 0 }) Broke := by
  unfold rotate
  refine Triple.bind (closeWriter_triple h o) fun _ => ?_
  refine Triple.bind (removeFile_triple (by exact h) o traceBackups) fun _ => ?_
  refine Triple.bind (renameBackup_triple (by exact h) o 2 rfl) fun _ => ?_
  refine Triple.bind (renameBackup_triple (by exact h) o 1 rfl) fun _ => ?_
  refine Triple.bind (renameCurrent_triple (by exact h) o) fun _ => ?_
  refine (createFile_triple (by exact h) o).mono fun _ t ht => ?_
  rw [ht]
  have hfiles := pushed_eq (store t₀.files 0 (some (bytesOf limit (written ++ pending)))) rfl
  have hsame : pushed (store t₀.files 0 (some (bytesOf limit (written ++ pending))))
      (bytesOf limit (written ++ pending)) = pushed t₀.files (bytesOf limit (written ++ pending)) := by
    funext i
    match i with
    | 0 => rfl
    | 1 => rfl
    | i + 2 => rfl
  exact congrArg (fun files => { t₀ with files := files, writer := some [], segmentBytes := 0 })
    (hfiles.trans hsame)

/-! ## Segments -/

/-- The files with these segments, the newest first. Behind them is what was there at the start. -/
def laid (start : Nat → Option Contents) (limit : Nat) (segments : List (List Entry)) :
    Nat → Option Contents := fun i =>
  match segments[i]? with
  | some segment => some (bytesOf limit segment)
  | none => start (if i ≤ traceBackups then i + 1 - segments.length else i)

/-- The trace goes on after these segments, with these entries in its file and in its buffer. -/
structure Layout (start : Nat → Option Contents) (limit : Nat) (t : Trace)
    (older : List (List Entry)) (written pending : List Entry) : Prop where
  failures : t.failures = []
  error : t.error = none
  segmentLimit : t.segmentLimit = limit
  writer : t.writer = some (bytesOf limit pending)
  files : t.files = laid start limit (written :: older)
  segmentBytes : t.segmentBytes = (bytesOf limit (written ++ pending)).length
  fits : ∀ segment ∈ (written ++ pending) :: older, (bytesOf limit segment).length ≤ limit
  count : older.length ≤ traceBackups

/-- The oldest segment goes when there are four. -/
theorem pushed_laid (start : Nat → Option Contents) {older : List (List Entry)}
    (hcount : older.length ≤ traceBackups) (current : List Entry) :
    pushed (laid start limit (written :: older)) (bytesOf limit current) =
      laid start limit ([] :: (current :: older).take traceBackups) := by
  funext i
  match i with
  | 0 => rfl
  | 1 => rfl
  | i + 2 =>
    unfold traceBackups at hcount
    unfold pushed laid traceBackups
    simp only [List.getElem?_cons_succ, List.length_cons, List.length_take]
    split
    · next hi =>
      rw [List.getElem?_take_of_lt (by omega), List.getElem?_cons_succ]
      cases hget : older[i]? with
      | some segment => rfl
      | none =>
        have hlen := List.getElem?_eq_none_iff.mp hget
        refine congrArg start ?_
        rw [if_pos (by omega)]
        omega
    · next hi =>
      rw [List.getElem?_eq_none (by omega), List.getElem?_eq_none (by rw [List.length_take]; omega)]

section Layouts

variable {start : Nat → Option Contents} {t₀ : Trace} {older : List (List Entry)}

theorem Layout.holding (h : Layout start limit t₀ older written pending) :
    t₀ = t₀.holding limit written pending := by
  have hfile : some (bytesOf limit written) = t₀.files 0 := by rw [h.files]; rfl
  unfold Trace.holding
  rw [hfile, store_self, ← h.writer]

theorem rotateWhenFull_triple (h : Layout start limit t₀ older written pending) (o : Outcomes)
    {bytes : Contents} (hbytes : bytes.length ≤ limit) :
    Triple (· = t₀) (rotateWhenFull o bytes)
      (fun _ t => ∃ older' written' pending', (∃ gone, older.reverse.flatten ++ (written ++ pending) =
          gone ++ (older'.reverse.flatten ++ (written' ++ pending'))) ∧
        t.sequence = t₀.sequence ∧ t.segmentBytes + bytes.length ≤ limit ∧
        Layout start limit t older' written' pending') Broke := by
  unfold rotateWhenFull
  refine Triple.branch ?_ ?_
  · refine ((rotate_triple h.failures o).weaken fun t ht => ht.1.trans h.holding).mono ?_
    rintro - t rfl
    refine ⟨((written ++ pending) :: older).take traceBackups, [], [],
      ⟨(((written ++ pending) :: older).drop traceBackups).reverse.flatten, ?_⟩, rfl, ?_, ?_⟩
    · rw [List.append_nil, List.append_nil, ← List.flatten_append, ← List.reverse_append,
        List.take_append_drop, List.reverse_cons, List.flatten_append, List.flatten_singleton]
    · exact (Nat.zero_add _).le.trans hbytes
    · exact {
        failures := h.failures
        error := h.error
        segmentLimit := h.segmentLimit
        writer := rfl
        files := by rw [h.files]; exact pushed_laid start h.count _
        segmentBytes := rfl
        fits := by
          intro segment hsegment
          rcases List.mem_cons.mp hsegment with rfl | hsegment
          · exact Nat.zero_le _
          · exact h.fits segment (List.mem_of_mem_take hsegment)
        count := List.length_take_le _ _ }
  · refine Triple.pure fun t ht => ?_
    obtain ⟨rfl, hfull⟩ := ht
    have hfits := Nat.le_of_not_lt (of_decide_eq_false hfull)
    rw [h.segmentLimit] at hfits
    exact ⟨older, written, pending, ⟨[], rfl⟩, rfl, hfits, h⟩

theorem appendRecord_triple (h : Layout start limit t₀ older written pending) (o : Outcomes)
    (e : Entry) (hfits : t₀.segmentBytes + (e.bytes limit).length ≤ limit) :
    Triple (· = t₀) (appendRecord o (e.bytes limit))
      (fun _ t => ∃ written' pending', written' ++ pending' = written ++ pending ++ [e] ∧
        t.sequence = t₀.sequence ∧ Layout start limit t older written' pending') Broke := by
  unfold appendRecord
  refine Triple.branch ?_ ?_
  · refine Triple.bind ((writeAll_triple h.failures o e).weaken fun t ht => ht.1.trans h.holding)
      fun _ => Triple.of_exists fun written' => Triple.of_exists fun pending' =>
        Triple.of_and fun hsame => Triple.change fun t ht => ?_
    have hbytes : t₀.segmentBytes + (e.bytes limit).length =
        (bytesOf limit (written' ++ pending')).length := by
      rw [hsame, bytesOf_append, List.length_append, bytesOf_singleton, h.segmentBytes]
    refine ⟨written', pending', hsame, by rw [ht]; rfl, ?_⟩
    rw [ht]
    exact {
      failures := h.failures
      error := h.error
      segmentLimit := h.segmentLimit
      writer := rfl
      files := by
        change store t₀.files 0 _ = _
        rw [h.files]
        funext i
        cases i <;> rfl
      segmentBytes := hbytes
      fits := by
        intro segment hsegment
        rcases List.mem_cons.mp hsegment with rfl | hsegment
        · exact hbytes ▸ hfits
        · exact h.fits segment (List.mem_cons_of_mem _ hsegment)
      count := h.count }
  · rintro t ⟨rfl, hnone⟩
    rw [h.writer] at hnone
    cases hnone

end Layouts

end OpenSaab.Tracing
