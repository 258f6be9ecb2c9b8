import OpenSaab.Tracing.Retention

/-!
# Runs of a rolling trace
-/

namespace OpenSaab.Tracing

open Program Runs

/-- The events are numbered from 1 on. -/
def Numbered (entries : List Entry) : Prop :=
  entries.map Entry.seq = (List.range entries.length).map fun i => UInt64.ofNat (i + 1)

/-- The last of these entries are in the segments and, the very last ones, in the buffer. -/
def Retained (start : Nat → Option Contents) (limit : Nat) (t : Trace) (entries : List Entry) :
    Prop :=
  ∃ dropped older written pending,
    entries = dropped ++ (older.reverse.flatten ++ (written ++ pending)) ∧
    (entries = [] ∨ written ++ pending ≠ []) ∧ Layout start limit t older written pending

/-- The trace is sound after these entries. -/
structure Sound (start : Nat → Option Contents) (limit : Nat) (t : Trace) (entries : List Entry) :
    Prop where
  numbered : Numbered entries
  sequence : t.sequence = UInt64.ofNat entries.length
  retained : Retained start limit t entries

/-- The first failure of a file operation has been kept. -/
def Stopped (t : Trace) : Prop := ∃ e, t.failures.head? = some e ∧ t.error = some e

variable {start : Nat → Option Contents} {limit : Nat}

theorem Numbered.snoc {entries : List Entry} {e : Entry} (h : Numbered entries)
    (he : e.seq = UInt64.ofNat entries.length + 1) : Numbered (entries ++ [e]) := by
  unfold Numbered at h ⊢
  rw [List.map_append, h, List.length_append, List.length_singleton, List.range_succ,
    List.map_append, List.map_singleton, List.map_singleton, he, UInt64.ofNat_add]
  rfl

theorem sound_open (start : Nat → Option Contents) (limit : Nat) :
    Sound start limit (Trace.openWithLimit start limit) [] where
  numbered := rfl
  sequence := rfl
  retained := by
    refine ⟨[], [], [], [], rfl, .inl rfl, ?_⟩
    exact {
      failures := rfl
      error := rfl
      segmentLimit := rfl
      writer := rfl
      files := by
        funext i
        match i with
        | 0 => rfl
        | i + 1 =>
          change start (i + 1) = start (if i + 1 ≤ traceBackups then i + 1 + 1 - 1 else i + 1)
          split <;> rfl
      segmentBytes := rfl
      fits := by
        intro segment hsegment
        rw [List.mem_singleton.mp hsegment]
        exact Nat.zero_le _
      count := Nat.zero_le _ }

/-! ## One step -/

theorem writeRecord_triple {t₀ : Trace} {entries : List Entry} (hlimit : 512 ≤ limit)
    (h : Retained start limit t₀ entries) (o : Outcomes) (e : Entry) :
    Triple (· = t₀) (writeRecord o (e.bytes limit))
      (fun _ t => t.sequence = t₀.sequence ∧ Retained start limit t (entries ++ [e])) Broke := by
  obtain ⟨dropped, older, written, pending, hentries, -, hlayout⟩ := h
  have hbytes : (e.bytes limit).length ≤ limit :=
    (e.length_bytes hlimit).trans (Nat.min_le_right _ _)
  unfold writeRecord
  refine Triple.bind (rotateWhenFull_triple hlayout o hbytes) fun _ => Triple.of_exists fun older' =>
    Triple.of_exists fun written' => Triple.of_exists fun pending' => Triple.of_and fun hgone => ?_
  obtain ⟨gone, hgone⟩ := hgone
  rintro t ⟨hsequence, hfits, hlayout'⟩
  refine Triple.mono (appendRecord_triple hlayout' o e hfits) ?_ t rfl
  rintro - t' ⟨written'', pending'', hsame, hsequence', hlayout''⟩
  refine ⟨hsequence'.trans hsequence, dropped ++ gone, older', written'', pending'', ?_, ?_, hlayout''⟩
  · rw [hentries, hgone, hsame]
    simp only [List.append_assoc]
  · rw [hsame]
    exact .inr (by simp)

theorem Retained.renumber {t : Trace} {entries : List Entry} (h : Retained start limit t entries)
    (n : UInt64) : Retained start limit { t with sequence := n } entries := by
  obtain ⟨dropped, older, written, pending, hentries, hlast, hlayout⟩ := h
  exact ⟨dropped, older, written, pending, hentries, hlast, { hlayout with }⟩

theorem event_filtered {t : Trace} {e : Event} (h : t.filtered e = true) (o : Outcomes) :
    t.event e o = t := by
  unfold Trace.event
  rw [h, Bool.or_true, if_pos rfl]

theorem event_written {t : Trace} {e : Event} (hwriter : t.writer.isSome = true)
    (herror : t.error = none) (hlimit : t.segmentLimit = limit) (h : t.filtered e = false)
    (o : Outcomes) :
    t.event e o = match writeRecord o ((t.entry e).bytes limit)
        { t with sequence := t.sequence + 1 } with
      | (.ok (), t) => t
      | (.error e, t) => { t with error := some e } := by
  have henabled : t.enabled = true := by
    unfold Trace.enabled
    rw [hwriter, herror]
    rfl
  have hnone : t.writer.isNone = false := by rw [Option.isNone_eq_false_iff, hwriter]
  unfold Trace.event
  rw [henabled, h, hnone, ← hlimit]
  rfl

theorem Sound.event {t : Trace} {entries : List Entry} (hlimit : 512 ≤ limit)
    (h : Sound start limit t entries) (e : Event) (o : Outcomes) :
    Sound start limit (t.event e o) (entries ++ t.unfiltered (.event e o)) ∨
      Stopped (t.event e o) := by
  obtain ⟨dropped, older, written, pending, hentries, hlast, hlayout⟩ := h.retained
  cases hfiltered : t.filtered e with
  | true =>
    have hentry : t.unfiltered (.event e o) = [] := if_pos hfiltered
    rw [event_filtered hfiltered, hentry, List.append_nil]
    exact .inl h
  | false =>
    have hentry : t.unfiltered (.event e o) = [t.entry e] :=
      if_neg (fun htrue => Bool.false_ne_true (hfiltered.symm.trans htrue))
    have hwriter : t.writer.isSome = true := by rw [hlayout.writer]; rfl
    have hwrite := writeRecord_triple hlimit (h.retained.renumber (t.sequence + 1)) o (t.entry e) _ rfl
    rw [event_written hwriter hlayout.error hlayout.segmentLimit hfiltered, hentry]
    revert hwrite
    cases writeRecord o ((t.entry e).bytes limit) { t with sequence := t.sequence + 1 } with
    | mk r t' =>
      cases r with
      | ok _ =>
        rintro ⟨hsequence, hretained⟩
        refine .inl ⟨h.numbered.snoc (congrArg (· + 1) h.sequence), ?_, hretained⟩
        rw [hsequence, List.length_append, UInt64.ofNat_add, ← h.sequence]
        rfl
      | error e' =>
        intro hbroke
        exact .inr ⟨e', hbroke, rfl⟩

/-- After a flush that meets no failure the buffer is empty. -/
theorem Layout.flushWriter {t : Trace} {older : List (List Entry)} {written pending : List Entry}
    (h : Layout start limit t older written pending) (w : Write) :
    ((t.flushWriter w).sequence = t.sequence ∧
      Layout start limit (t.flushWriter w) older (written ++ pending) []) ∨
      Stopped (t.flushWriter w) := by
  have hflush := flushBuf_triple h.failures w t h.holding
  have hopen : (t.error.isNone && t.writer.isSome) = true := by
    rw [h.error, h.writer]
    rfl
  unfold Trace.flushWriter
  rw [if_pos hopen]
  revert hflush
  cases flushBuf w t with
  | mk r t' =>
    cases r with
    | ok _ =>
      intro hflushed
      have hflushed : t' = t.holding limit (written ++ pending) [] := hflushed
      rw [hflushed]
      refine .inl ⟨rfl, ?_⟩
      exact {
        failures := h.failures
        error := h.error
        segmentLimit := h.segmentLimit
        writer := rfl
        files := by
          change store t.files 0 _ = _
          rw [h.files]
          funext i
          cases i <;> rfl
        segmentBytes := by rw [List.append_nil]; exact h.segmentBytes
        fits := by rw [List.append_nil]; exact h.fits
        count := h.count }
    | error e =>
      intro hbroke
      exact .inr ⟨e, hbroke, rfl⟩

theorem Sound.flushWriter {t : Trace} {entries : List Entry} (h : Sound start limit t entries)
    (w : Write) : Sound start limit (t.flushWriter w) entries ∨ Stopped (t.flushWriter w) := by
  obtain ⟨dropped, older, written, pending, hentries, hlast, hlayout⟩ := h.retained
  rcases hlayout.flushWriter w with ⟨hsequence, hlayout'⟩ | hstopped
  · refine .inl ⟨h.numbered, hsequence.trans h.sequence, ?_⟩
    refine ⟨dropped, older, written ++ pending, [], ?_, ?_, hlayout'⟩
    · rw [List.append_nil, hentries]
    · rw [List.append_nil]
      exact hlast
  · exact .inr hstopped

theorem check_snd (t : Trace) (w : Write) : (t.check w).2 = t.flushWriter w := by
  unfold Trace.check
  dsimp only
  split <;> rfl

theorem check_ok {t : Trace} {w : Write} (h : (t.flushWriter w).error = none) :
    (t.check w).1 = .ok () := by
  unfold Trace.check
  dsimp only
  rw [h]

theorem Sound.unchanged {t t' : Trace} {entries : List Entry} (h : Sound start limit t entries)
    (hsequence : t'.sequence = t.sequence)
    (hlayout : ∀ older written pending, Layout start limit t older written pending →
      Layout start limit t' older written pending) : Sound start limit t' (entries ++ []) := by
  obtain ⟨dropped, older, written, pending, hentries, hlast, hold⟩ := h.retained
  rw [List.append_nil]
  exact ⟨h.numbered, hsequence.trans h.sequence, dropped, older, written, pending, hentries, hlast,
    hlayout _ _ _ hold⟩

theorem Sound.step {t : Trace} {entries : List Entry} (hlimit : 512 ≤ limit)
    (h : Sound start limit t entries) (op : Trace.Op) :
    Sound start limit (t.step op) (entries ++ t.unfiltered op) ∨ Stopped (t.step op) := by
  cases op with
  | event e o => exact h.event hlimit e o
  | check w =>
    have hentries : entries ++ t.unfiltered (.check w) = entries := List.append_nil entries
    have hstep : t.step (.check w) = t.flushWriter w := check_snd t w
    rw [hentries, hstep]
    exact h.flushWriter w
  | navigate n => exact .inl (h.unchanged rfl fun _ _ _ hold => { hold with })
  | conciseTransport => exact .inl (h.unchanged rfl fun _ _ _ hold => { hold with })
  | enableConsole => exact .inl (h.unchanged rfl fun _ _ _ hold => { hold with })

/-! ## After a failure -/

theorem Stopped.flushWriter {t : Trace} (h : Stopped t) (w : Write) : t.flushWriter w = t := by
  obtain ⟨e, -, herror⟩ := h
  unfold Trace.flushWriter
  rw [herror]
  rfl

theorem Stopped.event {t : Trace} (h : Stopped t) (e : Event) (o : Outcomes) : t.event e o = t := by
  obtain ⟨e', -, herror⟩ := h
  have hdisabled : t.enabled = false := by
    unfold Trace.enabled
    rw [herror]
    exact Bool.and_false _
  unfold Trace.event
  rw [hdisabled]
  rfl

theorem Stopped.step {t : Trace} (h : Stopped t) (op : Trace.Op) :
    (t.step op).files = t.files ∧ (t.step op).failures = t.failures ∧
      (t.step op).error = t.error := by
  cases op with
  | event e o =>
    have hstep : t.step (.event e o) = t := h.event e o
    rw [hstep]
    exact ⟨rfl, rfl, rfl⟩
  | check w =>
    have hstep : t.step (.check w) = t := (check_snd t w).trans (h.flushWriter w)
    rw [hstep]
    exact ⟨rfl, rfl, rfl⟩
  | navigate n => exact ⟨rfl, rfl, rfl⟩
  | conciseTransport => exact ⟨rfl, rfl, rfl⟩
  | enableConsole => exact ⟨rfl, rfl, rfl⟩

theorem Stopped.run {t : Trace} (h : Stopped t) (ops : List Trace.Op) :
    (run Trace.step t ops).files = t.files ∧ (run Trace.step t ops).failures = t.failures ∧
      (run Trace.step t ops).error = t.error := by
  refine run_invariant (I := fun t' : Trace => t'.files = t.files ∧ t'.failures = t.failures ∧
    t'.error = t.error) ?_ ops ⟨rfl, rfl, rfl⟩
  rintro t' op ⟨hfiles, hfailures, herror⟩
  have hstopped : Stopped t' := by
    unfold Stopped
    rw [hfailures, herror]
    exact h
  obtain ⟨hfiles', hfailures', herror'⟩ := hstopped.step op
  exact ⟨hfiles'.trans hfiles, hfailures'.trans hfailures, herror'.trans herror⟩

theorem sound_or_stopped (hlimit : 512 ≤ limit) (start : Nat → Option Contents)
    (ops : List Trace.Op) :
    Sound start limit (run Trace.step (Trace.openWithLimit start limit) ops)
        (log Trace.step Trace.unfiltered (Trace.openWithLimit start limit) ops) ∨
      Stopped (run Trace.step (Trace.openWithLimit start limit) ops) := by
  have hstart : Sound start limit (Trace.openWithLimit start limit) [] ∨
      Stopped (Trace.openWithLimit start limit) := .inl (sound_open start limit)
  refine log_keeps (R := fun t entries => Sound start limit t entries ∨ Stopped t) ?_ ops hstart
  rintro t op entries (hsound | hstopped)
  · exact hsound.step hlimit op
  · obtain ⟨-, hfailures, herror⟩ := hstopped.step op
    refine .inr ?_
    unfold Stopped
    rw [hfailures, herror]
    exact hstopped

/-- The entry is one line with its number in front, and the line is short enough. It says that the
entry has been omitted if all of it would not be. -/
def Complete (limit : Nat) (e : Entry) : Prop :=
  (∃ rest, e.record limit = e.head ++ rest ++ ['\n'] ∧ Printed (e.head ++ rest)) ∧
    (e.bytes limit).length ≤ recordLimit limit ∧
    e.record limit = if recordLimit limit < (utf8 e.full).length then e.omission (recordLimit limit)
      else e.full

theorem rolling_trace (hlimit : 512 ≤ limit) (start : Nat → Option Contents)
    (ops : List Trace.Op) :
    let opened := Trace.openWithLimit start limit
    let t := run Trace.step opened ops
    let entries := log Trace.step Trace.unfiltered opened ops
    (∀ e ∈ entries, Complete limit e) ∧
    (t.failures = [] → Numbered entries ∧ Retained start limit t entries) ∧
    (∀ w, (t.check w).2.failures = [] → (t.check w).1 = .ok () ∧ ∃ dropped older written,
      entries = dropped ++ (older.reverse.flatten ++ written) ∧ (entries = [] ∨ written ≠ []) ∧
      Layout start limit (t.check w).2 older written []) ∧
    (∀ e, t.failures.head? = some e → ∀ more w,
      let t' := run Trace.step t more
      t'.files = t.files ∧ t'.failures = t.failures ∧ t'.check w = (.error e, t')) := by
  intro opened t entries
  have hrun : Sound start limit t entries ∨ Stopped t := sound_or_stopped hlimit start ops
  refine ⟨fun e _ => ⟨e.record_line limit, e.length_bytes hlimit, rfl⟩, fun hnone => ?_,
    fun w hnone => ?_, fun e hfirst more w => ?_⟩
  · rcases hrun with hsound | ⟨e, hfirst, -⟩
    · exact ⟨hsound.numbered, hsound.retained⟩
    · rw [hnone] at hfirst
      cases hfirst
  · rw [check_snd] at hnone ⊢
    have hintact : ∀ t' : Trace, t'.failures = [] → ¬ Stopped t' := by
      rintro t' hnone' ⟨e, hfirst, -⟩
      rw [hnone'] at hfirst
      cases hfirst
    rcases hrun with hsound | hstopped
    · obtain ⟨dropped, older, written, pending, hentries, hlast, hlayout⟩ := hsound.retained
      rcases hlayout.flushWriter w with ⟨-, hlayout'⟩ | hstopped
      · exact ⟨check_ok hlayout'.error, dropped, older, written ++ pending, hentries, hlast, hlayout'⟩
      · exact absurd hstopped (hintact _ hnone)
    · rw [hstopped.flushWriter w] at hnone
      exact absurd hstopped (hintact _ hnone)
  · have hstopped : Stopped t := by
      rcases hrun with hsound | hstopped
      · obtain ⟨dropped, older, written, pending, -, -, hlayout⟩ := hsound.retained
        rw [hlayout.failures] at hfirst
        cases hfirst
      · exact hstopped
    obtain ⟨hfiles, hfailures, herror⟩ := hstopped.run more
    have herror : (run Trace.step t more).error = some e := by
      obtain ⟨e', hfirst', herror'⟩ := hstopped
      obtain rfl := Option.some.inj (hfirst.symm.trans hfirst')
      exact herror.trans herror'
    refine ⟨hfiles, hfailures, ?_⟩
    have hflush : (run Trace.step t more).flushWriter w = run Trace.step t more :=
      Stopped.flushWriter ⟨e, by rw [hfailures]; exact hfirst, herror⟩ w
    unfold Trace.check
    rw [hflush]
    dsimp only
    rw [herror]

def noFailure : Outcomes where
  flush := .done
  write := .done
  rotateFlush := .done
  dropFlush := .done
  remove := .ok ()
  rename := fun _ => .ok ()
  create := .ok ()

/-- An event that fills more than half of the smallest segment. -/
def longEvent : Event := ⟨7, 16, ⟨['t'], by decide⟩, ⟨List.replicate 300 'x', by decide +kernel⟩⟩

def twoEvents : List Trace.Op := [.event longEvent noFailure, .event longEvent noFailure]

theorem rolling_trace_two :
    let opened := Trace.openWithLimit (fun _ => none) 512
    let t := ((run Trace.step opened twoEvents).check .done).2
    (t.files 1).isSome = true ∧ ∃ dropped older written,
      log Trace.step Trace.unfiltered opened twoEvents = dropped ++ (older.reverse.flatten ++ written) ∧
      (log Trace.step Trace.unfiltered opened twoEvents = [] ∨ written ≠ []) ∧
      Layout (fun _ => none) 512 t older written [] :=
  ⟨by decide +kernel, ((rolling_trace (by decide) (fun _ => none) twoEvents).2.2.1 .done
    (by decide +kernel)).2⟩

end OpenSaab.Tracing
