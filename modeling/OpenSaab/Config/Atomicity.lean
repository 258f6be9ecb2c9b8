import OpenSaab.Config.Saving

/-!
# Saves that fail

When a save leaves the destination and its directory as they should be.
-/

namespace OpenSaab.Config

open Program

/-! ## What a save should leave -/

/-- A save that fails leaves what others gave to the destination and no staging file, one that
succeeds leaves the text and the backup; only a regular file, as it was loaded, is replaced. -/
structure Atomic (files : Files) (c : Tech2WinConfig) (path : Path)
    (r : Except String ConfigSaveResult × Disk) : Prop where
  failed : ∀ e, r.1 = .error e → r.2.destination = r.2.given ∧ r.2.staging = none
  written : ∀ saved, r.1 = .ok saved → saved.written = true →
    r.2.destination = some (.regular (encode c.sourceText c.encoding)) ∧
    ∀ node, r.2.given = some node → saved.backupPath.isSome = true ∧
      ∃ old, node = .regular old ∧ r.2.backup = some old
  source : r.2.destination ≠ r.2.given → c.loadedPath = some (files.normalized path) →
    r.2.given = c.loadedBytes.map .regular
  regular : r.2.destination ≠ r.2.given → ∀ node, r.2.given = some node → node.isFile = true

theorem Atomic.of_error {files : Files} {c : Tech2WinConfig} {path : Path} {e : String} {d : Disk}
    (hdestination : d.destination = d.given) (hstaging : d.staging = none) :
    Atomic files c path (.error e, d) :=
  ⟨fun _ _ => ⟨hdestination, hstaging⟩, nofun, fun h => absurd hdestination h,
    fun h => absurd hdestination h⟩

/-! ## Where it does -/

/-- The save gets to its staging file, with this read of the destination. -/
structure Stages (files : Files) (c : Tech2WinConfig) (path : Path) (o : Outcomes)
    (previous : Option Contents) : Prop where
  checked : checked files c path = .ok ()
  metadata : o.metadata = .ok ()
  regular : o.atStart.all Node.isFile = true
  read : (if o.atStart.isSome then some <$> o.read.of (o.atRead.bind Node.reads) else .ok none) =
    .ok previous
  loaded : c.loadedPath = some (files.normalized path) → previous = c.loadedBytes
  differs : previous ≠ some (encode c.sourceText c.encoding)
  named : (fileName path).isSome = true

/-- The save gets to the replacement of the destination. -/
structure Commits (o : Outcomes) (previous : Option Contents) : Prop where
  backup : ∀ old, previous = some old → o.backup = .done ∧ o.backupRead.of (some old) = .ok old
  check : ¬ (o.check = .ok () ∧ (o.atCheck.any fun n => !n.isFile) = true)
  compare : (o.compare.of (o.atCompare.bind Node.reads)).toOption = previous
  permissions : previous.isSome = true → o.permissions = .ok ()
  link : previous = none → o.atCompare = none ∧ o.link = .ok ()
  rename : previous.isSome = true → o.rename = .ok ()

/-- All goes well after the replacement. -/
structure Confirmed (o : Outcomes) (bytes : Contents) (previous : Option Contents) : Prop where
  unlink : previous = none → o.unlink = .ok ()
  verify : o.verify.of (some bytes) = .ok bytes
  sync : o.sync = .ok ()

/-- The staging file is written and read back as it should be, and removed where the destination is
not replaced; a destination that is replaced is the regular file that was read, or holds the text
already if anything fails after that. -/
structure Survives (o : Outcomes) (bytes : Contents) (previous : Option Contents) : Prop where
  staged : ∀ stored e, o.staging ≠ .broken stored e
  verified : o.staging = .done → o.stagingRead.of (some bytes) = .ok bytes
  removed : o.staging = .done → ¬ Commits o previous → o.cleanup = .ok ()
  confirmed : o.staging = .done → Commits o previous → Confirmed o bytes previous →
    o.atCompare = previous.map .regular
  unconfirmed : o.staging = .done → Commits o previous → ¬ Confirmed o bytes previous →
    o.atCompare = some (.regular bytes)

/-! ## The replacement -/

section Replacement

variable {o : Outcomes} {bytes : Contents} {previous : Option Contents}

theorem require_triple {c : Prop} [Decidable c] {e : String} {P : Disk → Prop}
    {E : String → Disk → Prop} (h : ∀ s, P s → ¬ c → E e s) :
    Triple P (require c e) (fun _ s => P s ∧ c) E := by
  unfold require
  split
  · next hc => exact Triple.pure fun s hs => ⟨hs, hc⟩
  · next hc => exact Triple.fail fun s hs => h s hs hc

/-- The destination is as others left it and the text is staged. -/
def Staged (bytes : Contents) (s : Disk) : Prop :=
  s.destination = s.given ∧ s.staging = some bytes

/-- The destination has been replaced. -/
structure InPlace (o : Outcomes) (bytes : Contents) (previous : Option Contents) (s : Disk) :
    Prop where
  destination : s.destination = some (.regular bytes)
  given : s.given = o.atCompare
  backup : ∀ old, previous = some old → s.backup = some old
  staging : previous.isSome = true → s.staging = none

/-- The backup is there. -/
def Kept (previous : Option Contents) (s : Disk) : Prop :=
  ∀ old, previous = some old → s.backup = some old

/-- How the replacement fails. -/
def Fails (o : Outcomes) (bytes : Contents) (previous : Option Contents) (_ : String) (s : Disk) :
    Prop :=
  Staged bytes s ∧ ¬ Commits o previous ∨
    Commits o previous ∧ InPlace o bytes previous s ∧ ¬ Confirmed o bytes previous

theorem keep_triple : Triple (Staged bytes) (keep o previous)
    (fun _ s => Staged bytes s ∧ Kept previous s ∧
      ∀ old, previous = some old → o.backup = .done ∧ o.backupRead.of (some old) = .ok old)
    (Fails o bytes previous) := by
  cases previous with
  | none => exact Triple.pure fun s hs => ⟨hs, nofun, nofun⟩
  | some old =>
    unfold keep
    have hwrite : Triple (Staged bytes) (writeBackup o.backup old)
        (fun _ s => Staged bytes s ∧ s.backup = some old ∧ o.backup = .done)
        (Fails o bytes (some old)) := by
      unfold writeBackup
      cases hbackup : o.backup with
      | done => exact Triple.change fun s hs => ⟨hs, rfl, rfl⟩
      | refused e =>
        refine Triple.fail fun s hs => .inl ⟨hs, fun h => ?_⟩
        have hdone := (h.backup old rfl).1
        rw [hbackup] at hdone
        cases hdone
      | broken stored e =>
        refine Triple.bind (R := fun _ => Staged bytes) (Triple.change fun s hs => hs) fun _ =>
          Triple.fail fun s hs => .inl ⟨hs, fun h => ?_⟩
        have hdone := (h.backup old rfl).1
        rw [hbackup] at hdone
        cases hdone
    refine hwrite.bind fun _ => ?_
    refine Triple.bind (R := fun back s => (Staged bytes s ∧ s.backup = some old ∧
      o.backup = .done) ∧ back = o.backupRead.of (some old))
      (Triple.read fun s hs => ⟨hs, by rw [hs.2.1]⟩) fun back => ?_
    refine Triple.bind (R := fun got s => (Staged bytes s ∧ s.backup = some old ∧
      o.backup = .done) ∧ o.backupRead.of (some old) = .ok got) ?_ fun got => ?_
    · refine Triple.lift (fun got hgot s hs => ⟨hs.1, hs.2.symm.trans hgot⟩) fun e he s hs => ?_
      refine .inl ⟨hs.1.1, fun h => ?_⟩
      have hread := (h.backup old rfl).2
      rw [← hs.2, he] at hread
      cases hread
    · refine Triple.mono (require_triple ?_) ?_
      · intro s hs hne
        refine .inl ⟨hs.1.1, fun h => ?_⟩
        have hread := (h.backup old rfl).2
        rw [hs.2] at hread
        exact hne (Except.ok.inj hread)
      · rintro _ s ⟨⟨⟨hs, hback, hdone⟩, hread⟩, rfl⟩
        refine ⟨hs, fun old hold => ?_, fun old hold => ?_⟩
        · rw [hback, hold]
        · rw [← Option.some.inj hold]
          exact ⟨hdone, hread⟩

/-- The replacement up to the point where the destination is replaced. -/
structure Ready (o : Outcomes) (bytes : Contents) (previous : Option Contents) (s : Disk) :
    Prop where
  staged : Staged bytes s
  kept : Kept previous s
  given : s.given = o.atCompare
  commits : ∀ (_ : previous = none → o.atCompare = none ∧ o.link = .ok ())
    (_ : previous.isSome = true → o.rename = .ok ()), Commits o previous

theorem place_triple : Triple (Ready o bytes previous) (place o previous)
    (fun _ s => Commits o previous ∧ InPlace o bytes previous s ∧
      (previous = none → o.unlink = .ok ()))
    (Fails o bytes previous) := by
  cases previous with
  | none =>
    unfold place
    refine Triple.bind (R := fun there s => Ready o bytes none s ∧ there = o.atCompare.isSome)
      (Triple.read fun s hs => ⟨hs, ?_⟩) fun there => ?_
    · rw [hs.staged.1, hs.given]
    cases there with
    | true =>
      rw [if_pos rfl]
      refine Triple.fail fun s hs => .inl ⟨hs.1.staged, fun h => ?_⟩
      rw [(h.link rfl).1] at hs
      cases hs.2
    | false =>
      rw [if_neg Bool.false_ne_true]
      refine Triple.bind (R := fun _ s => Staged bytes s ∧ Commits o none ∧
        s.given = o.atCompare) (Triple.lift (fun _ hlink s hs => ?_) fun e he s hs => ?_) fun _ => ?_
      · have hnone : o.atCompare = none := by
          rw [← Option.not_isSome_iff_eq_none, ← hs.2]
          exact Bool.false_ne_true
        exact ⟨hs.1.staged, hs.1.commits (fun _ => ⟨hnone, hlink⟩) nofun, hs.1.given⟩
      · refine .inl ⟨hs.1.staged, fun h => ?_⟩
        rw [(h.link rfl).2] at he
        cases he
      refine Triple.bind (R := fun _ s => Commits o none ∧ InPlace o bytes none s)
        (Triple.change fun s hs => ⟨hs.2.1, ⟨?_, hs.2.2, nofun, nofun⟩⟩) fun _ => ?_
      · change s.staging.map Node.regular = _
        rw [hs.1.2]
        rfl
      refine Triple.bind (R := fun _ s => (Commits o none ∧ InPlace o bytes none s) ∧
        o.unlink = .ok ()) (Triple.lift (fun _ hunlink s hs => ⟨hs, hunlink⟩) fun e he s hs => ?_)
        fun _ => ?_
      · refine .inr ⟨hs.1, hs.2, fun h => ?_⟩
        rw [h.unlink rfl] at he
        cases he
      exact Triple.change fun s hs =>
        ⟨hs.1.1, ⟨hs.1.2.destination, hs.1.2.given, nofun, nofun⟩, fun _ => hs.2⟩
  | some old =>
    unfold place
    refine Triple.bind (R := fun _ s => Ready o bytes (some old) s ∧ Commits o (some old))
      (Triple.lift (fun _ hrename s hs => ⟨hs, hs.commits nofun fun _ => hrename⟩) fun e he s hs => ?_)
      fun _ => Triple.change fun s hs => ?_
    · refine .inl ⟨hs.staged, fun h => ?_⟩
      rw [h.rename rfl] at he
      cases he
    · refine ⟨hs.2, ⟨?_, hs.1.given, hs.1.kept, fun _ => rfl⟩, nofun⟩
      change s.staging.map Node.regular = _
      rw [hs.1.staged.2]
      rfl

/-- The replacement ends well where it commits and all is confirmed. -/
theorem replace_triple (backup : Path) : Triple (Staged bytes) (replace o bytes previous backup)
    (fun saved s => Commits o previous ∧ InPlace o bytes previous s ∧ Confirmed o bytes previous ∧
      saved = ⟨true, previous.map fun _ => backup⟩)
    (Fails o bytes previous) := by
  unfold replace
  refine keep_triple.bind fun _ => ?_
  refine Triple.bind (R := fun _ s => (Staged bytes s ∧ Kept previous s ∧
    ∀ old, previous = some old → o.backup = .done ∧ o.backupRead.of (some old) = .ok old) ∧
      s.destination = o.atCheck) (Triple.change fun s hs => ⟨⟨⟨rfl, hs.1.2⟩, hs.2⟩, rfl⟩) fun _ => ?_
  refine Triple.bind (R := fun node s => (Staged bytes s ∧ Kept previous s ∧
    ∀ old, previous = some old → o.backup = .done ∧ o.backupRead.of (some old) = .ok old) ∧
      node = o.atCheck) (Triple.read fun s hs => hs) fun node => ?_
  refine Triple.bind (require_triple ?_) fun _ => ?_
  · rintro s ⟨hs, rfl⟩ hspecial
    exact .inl ⟨hs.1, fun h => hspecial h.check⟩
  refine Triple.bind (R := fun _ s => Staged bytes s ∧ Kept previous s ∧
    (∀ old, previous = some old → o.backup = .done ∧ o.backupRead.of (some old) = .ok old) ∧
    ¬ (o.check = .ok () ∧ (o.atCheck.any fun n => !n.isFile) = true) ∧ s.given = o.atCompare)
    (Triple.change ?_) fun _ => ?_
  · rintro s ⟨⟨⟨hs, hkept, hbackup⟩, rfl⟩, hcheck⟩
    exact ⟨⟨rfl, hs.2⟩, hkept, hbackup, hcheck, rfl⟩
  refine Triple.bind (R := fun current s => (Staged bytes s ∧ Kept previous s ∧
    (∀ old, previous = some old → o.backup = .done ∧ o.backupRead.of (some old) = .ok old) ∧
    ¬ (o.check = .ok () ∧ (o.atCheck.any fun n => !n.isFile) = true) ∧ s.given = o.atCompare) ∧
    current = o.compare.of (o.atCompare.bind Node.reads)) (Triple.read fun s hs => ⟨hs, ?_⟩)
    fun current => ?_
  · rw [hs.1.1, hs.2.2.2.2]
  refine Triple.bind (require_triple ?_) fun _ => ?_
  · rintro s ⟨hs, rfl⟩ hdiffer
    exact .inl ⟨hs.1, fun h => hdiffer h.compare⟩
  refine Triple.bind (R := fun _ => Ready o bytes previous) ?_ fun _ => ?_
  · unfold setPermissions
    split
    · next hsome =>
      refine Triple.lift (fun _ hpermissions s hs => ?_) fun e he s hs => ?_
      · obtain ⟨⟨⟨hstaged, hkept, hbackup, hcheck, hgiven⟩, rfl⟩, hcompare⟩ := hs
        exact ⟨hstaged, hkept, hgiven, fun hlink hrename =>
          ⟨hbackup, hcheck, hcompare, fun _ => hpermissions, hlink, hrename⟩⟩
      · refine .inl ⟨hs.1.1.1, fun h => ?_⟩
        rw [h.permissions hsome] at he
        cases he
    · next hnone =>
      refine Triple.pure fun s hs => ?_
      obtain ⟨⟨⟨hstaged, hkept, hbackup, hcheck, hgiven⟩, rfl⟩, hcompare⟩ := hs
      exact ⟨hstaged, hkept, hgiven, fun hlink hrename =>
        ⟨hbackup, hcheck, hcompare, fun hsome => absurd hsome hnone, hlink, hrename⟩⟩
  refine place_triple.bind fun _ => ?_
  refine Triple.bind (R := fun saved s => (Commits o previous ∧ InPlace o bytes previous s ∧
    (previous = none → o.unlink = .ok ())) ∧ saved = o.verify.of (some bytes))
    (Triple.read fun s hs => ⟨hs, ?_⟩) fun saved => ?_
  · rw [hs.2.1.destination]
    rfl
  refine Triple.bind (R := fun got s => (Commits o previous ∧ InPlace o bytes previous s ∧
    (previous = none → o.unlink = .ok ())) ∧ o.verify.of (some bytes) = .ok got)
    (Triple.lift (fun got hgot s hs => ⟨hs.1, hs.2.symm.trans hgot⟩) fun e he s hs => ?_)
    fun got => ?_
  · refine .inr ⟨hs.1.1, hs.1.2.1, fun h => ?_⟩
    rw [hs.2, h.verify] at he
    cases he
  refine Triple.bind (require_triple fun s hs hne => ?_) fun _ => ?_
  · refine .inr ⟨hs.1.1, hs.1.2.1, fun h => hne ?_⟩
    exact Except.ok.inj (hs.2.symm.trans h.verify)
  refine Triple.bind (R := fun _ s => Commits o previous ∧ InPlace o bytes previous s ∧
    Confirmed o bytes previous) (Triple.lift (fun _ hsync s hs => ?_) fun e he s hs => ?_)
    fun _ => Triple.pure fun s hs => ⟨hs.1, hs.2.1, hs.2.2, rfl⟩
  · obtain ⟨⟨⟨hcommits, hplaced, hunlink⟩, hverify⟩, rfl⟩ := hs
    exact ⟨hcommits, hplaced, hunlink, hverify, hsync⟩
  · refine .inr ⟨hs.1.1.1, hs.1.1.2.1, fun h => ?_⟩
    rw [h.sync] at he
    cases he

/-! ## The staging file -/

/-- The destination is as others left it and nothing is staged. -/
def Untouched (s : Disk) : Prop := s.destination = s.given ∧ s.staging = none

/-- How a save fails before the replacement, from its staging file on. -/
def Unstaged (o : Outcomes) (bytes : Contents) (_ : String) (s : Disk) : Prop :=
  (∃ e, o.staging = .refused e) ∧ Untouched s ∨
    ((∃ stored e, o.staging = .broken stored e) ∨
      o.staging = .done ∧ o.stagingRead.of (some bytes) ≠ .ok bytes) ∧ s.staging ≠ none

theorem stage_triple : Triple Untouched (stage o bytes)
    (fun _ s => Staged bytes s ∧ o.staging = .done ∧ o.stagingRead.of (some bytes) = .ok bytes)
    (Unstaged o bytes) := by
  unfold stage
  have hwrite : Triple Untouched (writeStaging o.staging bytes)
      (fun _ s => Staged bytes s ∧ o.staging = .done) (Unstaged o bytes) := by
    unfold writeStaging
    cases hstaging : o.staging with
    | done => exact Triple.change fun s hs => ⟨⟨hs.1, rfl⟩, rfl⟩
    | refused e => exact Triple.fail fun s hs => .inl ⟨⟨e, hstaging⟩, hs⟩
    | broken stored e =>
      refine Triple.bind (R := fun _ s => s.staging ≠ none)
        (Triple.change fun s _ => Option.some_ne_none stored) fun _ => Triple.fail fun s hs => ?_
      exact .inr ⟨.inl ⟨stored, e, hstaging⟩, hs⟩
  have hstored : ∀ {s : Disk}, Staged bytes s → s.staging ≠ none := fun hs => by
    rw [hs.2]
    exact Option.some_ne_none bytes
  refine hwrite.bind fun _ => ?_
  refine Triple.bind (R := fun back s => (Staged bytes s ∧ o.staging = .done) ∧
    back = o.stagingRead.of (some bytes)) (Triple.read fun s hs => ⟨hs, by rw [hs.1.2]⟩)
    fun back => ?_
  refine Triple.bind (R := fun got s => (Staged bytes s ∧ o.staging = .done) ∧
    o.stagingRead.of (some bytes) = .ok got)
    (Triple.lift (fun got hgot s hs => ⟨hs.1, hs.2.symm.trans hgot⟩) fun e he s hs => ?_)
    fun got => Triple.mono (require_triple fun s hs hne => ?_) ?_
  · refine .inr ⟨.inr ⟨hs.1.2, fun hok => ?_⟩, hstored hs.1.1⟩
    rw [← hs.2, he] at hok
    cases hok
  · refine .inr ⟨.inr ⟨hs.1.2, fun hok => hne ?_⟩, hstored hs.1.1⟩
    exact Except.ok.inj (hs.2.symm.trans hok)
  · rintro _ s ⟨⟨hs, hread⟩, rfl⟩
    exact ⟨hs.1, hs.2, hread⟩

end Replacement

/-! ## The whole save -/

section Save

variable {files : Files} {c : Tech2WinConfig} {path : Path} {o : Outcomes}

/-- Where a save ends. -/
inductive Ended (files : Files) (c : Tech2WinConfig) (path : Path) (o : Outcomes)
    (r : Except String ConfigSaveResult) (s : Disk) : Prop
  | early (h : ∀ previous, ¬ Stages files c path o previous) (hs : Untouched s)
      (hr : ∀ saved, r = .ok saved → saved.written = false)
  | unstaged (previous : Option Contents) (h : Stages files c path o previous) (e : String)
      (hr : r = .error e) (hs : Unstaged o (encode c.sourceText c.encoding) e s)
  | abandoned (previous : Option Contents) (h : Stages files c path o previous) (e : String)
      (hr : r = .error e) (hdone : o.staging = .done)
      (hread : o.stagingRead.of (some (encode c.sourceText c.encoding)) =
        .ok (encode c.sourceText c.encoding))
      (hcommits : ¬ Commits o previous) (hs : s.destination = s.given)
      (hstaging : s.staging = none ↔ o.cleanup = .ok ())
  | placed (previous : Option Contents) (h : Stages files c path o previous)
      (hdone : o.staging = .done)
      (hread : o.stagingRead.of (some (encode c.sourceText c.encoding)) =
        .ok (encode c.sourceText c.encoding))
      (hcommits : Commits o previous)
      (hs : InPlace o (encode c.sourceText c.encoding) previous s)
      (hr : Confirmed o (encode c.sourceText c.encoding) previous ∧
          (∃ saved, r = .ok saved ∧ saved.written = true ∧
            saved.backupPath.isSome = previous.isSome) ∨
        ¬ Confirmed o (encode c.sourceText c.encoding) previous ∧ ∃ e, r = .error e)

theorem finish_triple {bytes : Contents} {previous : Option Contents} (backup : Path)
    (h : Stages files c path o previous) (hbytes : bytes = encode c.sourceText c.encoding)
    (hdone : o.staging = .done) (hread : o.stagingRead.of (some bytes) = .ok bytes) :
    Triple (Staged bytes)
      (do
        let result ← attempt (replace o bytes previous backup)
        finish o result)
      (fun saved => Ended files c path o (.ok saved)) fun e => Ended files c path o (.error e) := by
  subst hbytes
  refine (Triple.attempt (replace_triple backup)).bind fun result => ?_
  cases result with
  | ok saved =>
    refine Triple.pure fun s ⟨hcommits, hplaced, hconfirmed, hsaved⟩ => ?_
    refine .placed previous h hdone hread hcommits hplaced (.inl ⟨hconfirmed, saved, rfl, ?_⟩)
    rw [hsaved]
    exact ⟨rfl, by cases previous <;> rfl⟩
  | error e =>
    intro s hs
    change Ended files c path o (.error e)
      (if o.cleanup = .ok () then { s with staging := none } else s)
    rcases hs with ⟨⟨hgiven, hstaged⟩, hcommits⟩ | ⟨hcommits, hplaced, hconfirmed⟩
    · refine .abandoned previous h e rfl hdone hread hcommits ?_ ?_
      · split <;> exact hgiven
      · split
        · next hcleanup => exact ⟨fun _ => hcleanup, fun _ => rfl⟩
        · next hcleanup =>
          rw [hstaged]
          exact ⟨nofun, fun hok => absurd hok hcleanup⟩
    · refine .placed previous h hdone hread hcommits ?_ (.inr ⟨hconfirmed, e, rfl⟩)
      split
      · exact ⟨hplaced.destination, hplaced.given, hplaced.backup, fun _ => rfl⟩
      · exact hplaced

theorem saveChecked_ended : Triple (· = o.disk) (c.saveChecked files path o)
    (fun saved => Ended files c path o (.ok saved)) fun e => Ended files c path o (.error e) := by
  have hearly : ∀ {e : String} {s : Disk}, Untouched s →
      (∀ previous, ¬ Stages files c path o previous) → Ended files c path o (.error e) s :=
    fun hs h => .early h hs nofun
  have hstart : Untouched o.disk := ⟨rfl, rfl⟩
  unfold Tech2WinConfig.saveChecked
  refine Triple.bind (R := fun _ s => s = o.disk ∧ checked files c path = .ok ())
    (Triple.lift (fun _ hok s hs => ⟨hs, hok⟩) fun e he s hs => ?_) fun _ => ?_
  · refine hearly (hs ▸ hstart) fun previous h => ?_
    rw [h.checked] at he
    cases he
  refine Triple.bind (R := fun _ s => s = o.disk ∧ checked files c path = .ok () ∧
    o.metadata = .ok ()) (Triple.lift (fun _ hok s hs => ⟨hs.1, hs.2, hok⟩) fun e he s hs => ?_)
    fun _ => ?_
  · refine hearly (hs.1 ▸ hstart) fun previous h => ?_
    rw [h.metadata] at he
    cases he
  refine Triple.bind (R := fun found s => (Untouched s ∧ checked files c path = .ok () ∧
    o.metadata = .ok ()) ∧ found = o.atStart) (Triple.read ?_) fun found => ?_
  · rintro s ⟨rfl, hs⟩
    exact ⟨⟨hstart, hs⟩, rfl⟩
  refine Triple.bind (require_triple ?_) fun _ => ?_
  · rintro s ⟨hs, rfl⟩ hspecial
    exact hearly hs.1 fun previous h => hspecial h.regular
  refine Triple.bind (R := fun _ s => (Untouched s ∧ s.destination = o.atRead) ∧
    checked files c path = .ok () ∧ o.metadata = .ok () ∧ found = o.atStart ∧
    found.all Node.isFile = true) (Triple.change ?_) fun _ => ?_
  · rintro s ⟨⟨⟨hs, hchecked, hmetadata⟩, hfound⟩, hregular⟩
    exact ⟨⟨⟨rfl, hs.2⟩, rfl⟩, hchecked, hmetadata, hfound, hregular⟩
  refine Triple.bind (R := fun previous s => Untouched s ∧ checked files c path = .ok () ∧
    o.metadata = .ok () ∧ o.atStart.all Node.isFile = true ∧
    (if o.atStart.isSome then some <$> o.read.of (o.atRead.bind Node.reads) else .ok none) =
      .ok previous) ?_ fun previous => ?_
  · unfold readPrevious
    refine Triple.bind (R := fun held s => Untouched s ∧
      held = o.read.of (o.atRead.bind Node.reads) ∧ checked files c path = .ok () ∧
      o.metadata = .ok () ∧ found = o.atStart ∧ found.all Node.isFile = true)
      (Triple.read ?_) fun held => Triple.lift ?_ ?_
    · rintro s ⟨⟨hs, hread⟩, hrest⟩
      exact ⟨hs, by rw [hread], hrest⟩
    · rintro previous hprevious s ⟨hs, rfl, hchecked, hmetadata, rfl, hregular⟩
      exact ⟨hs, hchecked, hmetadata, hregular, hprevious⟩
    · rintro e he s ⟨hs, rfl, _, _, rfl, _⟩
      refine hearly hs fun previous h => ?_
      rw [h.read] at he
      cases he
  have hsame : ∀ previous', Stages files c path o previous' →
      (if o.atStart.isSome then some <$> o.read.of (o.atRead.bind Node.reads) else .ok none) =
        .ok previous → previous' = previous := fun previous' h hread =>
    Except.ok.inj (h.read.symm.trans hread)
  refine Triple.bind (require_triple ?_) fun _ => ?_
  · rintro s ⟨hs, _, _, _, hread⟩ hchanged
    refine hearly hs fun previous' h => hchanged fun hne => ?_
    obtain rfl := hsame previous' h hread
    exact hne.2 (h.loaded hne.1)
  dsimp only
  by_cases hequal : previous = some (encode c.sourceText c.encoding)
  · rw [if_pos hequal]
    refine Triple.pure fun s hs => Ended.early (fun previous' h => ?_) hs.1.1 ?_
    · obtain rfl := hsame previous' h hs.1.2.2.2.2
      exact h.differs hequal
    · intro saved hsaved
      rw [← Except.ok.inj hsaved]
  rw [if_neg hequal]
  refine Triple.bind (R := fun _ s => Untouched s ∧ Stages files c path o previous)
    (Triple.lift ?_ ?_) fun name => ?_
  · rintro name hname s ⟨⟨hs, hchecked, hmetadata, hregular, hread⟩, hloaded⟩
    refine ⟨hs, hchecked, hmetadata, hregular, hread, fun hpath => ?_, hequal, ?_⟩
    · by_contra hne
      exact hloaded ⟨hpath, hne⟩
    · cases hfile : fileName path with
      | none =>
        rw [hfile] at hname
        cases hname
      | some name => rfl
  · rintro e he s ⟨hs, _⟩
    refine hearly hs.1 fun previous' h => ?_
    obtain ⟨name, hname⟩ := Option.isSome_iff_exists.mp h.named
    rw [hname] at he
    cases he
  -- the rest of the save depends on the staging file only
  by_cases h : Stages files c path o previous
  · have hstage : Triple Untouched (stage o (encode c.sourceText c.encoding)) _ _ := stage_triple
    refine Triple.weaken (P := Untouched) ?_ fun s hs => hs.1
    refine Triple.bind (R := fun _ s => Staged (encode c.sourceText c.encoding) s ∧
      o.staging = .done ∧ o.stagingRead.of (some (encode c.sourceText c.encoding)) =
        .ok (encode c.sourceText c.encoding)) ?_ fun _ => ?_
    · intro s hs
      have hend := hstage s hs
      rcases hrun : stage o (encode c.sourceText c.encoding) s with ⟨e | _, s'⟩
      · rw [hrun] at hend
        exact .unstaged previous h e rfl hend
      · rw [hrun] at hend
        exact hend
    · intro s hs
      exact finish_triple _ h rfl hs.2.1 hs.2.2 s hs.1
  · intro s hs
    exact absurd hs.2 h

/-- A save is atomic exactly where its file operations let it survive. -/
theorem save_atomic (files : Files) (c : Tech2WinConfig) (path : Path) (o : Outcomes) :
    Atomic files c path (c.saveChecked files path o o.disk) ↔
      ∀ previous, Stages files c path o previous →
        Survives o (encode c.sourceText c.encoding) previous := by
  have hended : Ended files c path o (c.saveChecked files path o o.disk).1
      (c.saveChecked files path o o.disk).2 := by
    have hrun : Triple (· = o.disk) (c.saveChecked files path o) _ _ := saveChecked_ended
    have hend := hrun o.disk rfl
    rcases hrun : c.saveChecked files path o o.disk with ⟨e | saved, s⟩ <;> rw [hrun] at hend <;>
      exact hend
  have hunique : ∀ {previous previous' : Option Contents}, Stages files c path o previous →
      Stages files c path o previous' → previous' = previous := fun h h' =>
    Except.ok.inj (h'.read.symm.trans h.read)
  generalize c.saveChecked files path o o.disk = result at hended ⊢
  obtain ⟨r, s⟩ := result
  dsimp only at hended
  cases hended with
  | early h hs hr =>
    refine ⟨fun _ previous hstages => absurd hstages (h previous), fun _ => ?_⟩
    refine ⟨fun e _ => hs, fun saved hsaved hwritten => ?_, fun hne => absurd hs.1 hne,
      fun hne => absurd hs.1 hne⟩
    rw [hr saved hsaved] at hwritten
    cases hwritten
  | unstaged previous h e hr hs =>
    subst hr
    rcases hs with ⟨⟨e', hrefused⟩, hs⟩ | ⟨hbroken, hleft⟩
    · refine ⟨fun _ previous' _ => ?_, fun _ => Atomic.of_error hs.1 hs.2⟩
      have hnot : o.staging ≠ .done := by
        rw [hrefused]
        exact nofun
      refine ⟨fun _ _ => ?_, fun hdone => absurd hdone hnot, fun hdone => absurd hdone hnot,
        fun hdone => absurd hdone hnot, fun hdone => absurd hdone hnot⟩
      rw [hrefused]
      exact nofun
    · refine ⟨fun hatomic => absurd (hatomic.failed e rfl).2 hleft, fun hsurvives => ?_⟩
      have hsurvive := hsurvives previous h
      rcases hbroken with ⟨stored, e', hbroken⟩ | ⟨hdone, hread⟩
      · exact absurd hbroken (hsurvive.staged stored e')
      · exact absurd (hsurvive.verified hdone) hread
  | abandoned previous h e hr hdone hread hcommits hs hstaging =>
    subst hr
    constructor
    · intro hatomic previous' h'
      obtain rfl := hunique h h'
      refine ⟨fun _ _ => ?_, fun _ => hread, fun _ _ => hstaging.mp (hatomic.failed e rfl).2,
        fun _ hyes => absurd hyes hcommits, fun _ hyes => absurd hyes hcommits⟩
      rw [hdone]
      exact nofun
    · intro hsurvives
      exact Atomic.of_error hs (hstaging.mpr ((hsurvives previous h).removed hdone hcommits))
  | placed previous h hdone hread hcommits hs hr =>
    have hnone : previous = none → o.atCompare = none := fun hnone => (hcommits.link hnone).1
    have hmade : ∀ (_ : Confirmed o (encode c.sourceText c.encoding) previous →
          o.atCompare = previous.map .regular)
        (_ : ¬ Confirmed o (encode c.sourceText c.encoding) previous →
          o.atCompare = some (.regular (encode c.sourceText c.encoding))),
        ∀ previous', Stages files c path o previous' →
          Survives o (encode c.sourceText c.encoding) previous' := by
      intro hconfirmed hunconfirmed previous' h'
      obtain rfl := hunique h h'
      refine ⟨fun _ _ => ?_, fun _ => hread, fun _ hno => absurd hcommits hno,
        fun _ _ => hconfirmed, fun _ _ => hunconfirmed⟩
      rw [hdone]
      exact nofun
    rcases hr with ⟨hconfirmed, saved, rfl, hwritten, hbackup⟩ | ⟨hconfirmed, e, rfl⟩
    · constructor
      · refine fun hatomic => hmade (fun _ => ?_) fun hno => absurd hconfirmed hno
        cases previous with
        | none => exact hnone rfl
        | some old =>
          obtain ⟨node, hnode⟩ : ∃ node, o.atCompare = some node := by
            rw [← Option.ne_none_iff_exists']
            intro hempty
            have hcompare := hcommits.compare
            rw [hempty] at hcompare
            cases hread : o.compare <;> rw [hread] at hcompare <;> cases hcompare
          obtain ⟨_, old', rfl, hold'⟩ := (hatomic.written saved rfl hwritten).2 node
            (hs.given.trans hnode)
          rw [hnode, ← Option.some.inj ((hs.backup old rfl).symm.trans hold')]
          rfl
      · intro hsurvives
        have hgiven := hs.given.trans ((hsurvives previous h).confirmed hdone hcommits hconfirmed)
        have hnode : ∀ node, s.given = some node → ∃ old, previous = some old ∧
            node = .regular old := by
          intro node hnode
          rw [hgiven] at hnode
          obtain ⟨old, hold, heq⟩ := Option.map_eq_some_iff.mp hnode
          exact ⟨old, hold, heq.symm⟩
        refine ⟨nofun, fun saved' hsaved _ => ⟨hs.destination, fun node hin => ?_⟩,
          fun _ hpath => ?_, fun _ node hin => ?_⟩
        · obtain ⟨old, hold, rfl⟩ := hnode node hin
          obtain rfl := Except.ok.inj hsaved
          exact ⟨by rw [hbackup, hold]; rfl, old, rfl, hs.backup old hold⟩
        · rw [← h.loaded hpath]
          exact hgiven
        · obtain ⟨old, _, rfl⟩ := hnode node hin
          rfl
    · constructor
      · refine fun hatomic => hmade (fun hyes => absurd hyes hconfirmed) fun _ => ?_
        rw [← hs.given, ← (hatomic.failed e rfl).1]
        exact hs.destination
      · intro hsurvives
        have hheld := (hsurvives previous h).unconfirmed hdone hcommits hconfirmed
        refine Atomic.of_error (hs.destination.trans (hs.given.trans hheld).symm) (hs.staging ?_)
        rw [Option.isSome_iff_ne_none]
        intro hempty
        rw [hnone hempty] at hheld
        cases hheld

end Save

/-- A new file on a disk that is full once the staging file is there. -/
def fullDisk : Outcomes where
  atStart := none
  metadata := .ok ()
  atRead := none
  read := .stored
  staging := .broken [] "No space left on device (os error 28)"
  stagingRead := .stored
  backup := .done
  backupRead := .stored
  atCheck := none
  check := .error "No such file or directory (os error 2)"
  atCompare := none
  compare := .stored
  permissions := .ok ()
  link := .ok ()
  unlink := .ok ()
  rename := .ok ()
  verify := .stored
  sync := .ok ()
  cleanup := .ok ()
  suffix := "1-1-0".toList

def newFile : Tech2WinConfig := newConfig "c".toList "-CB 0000FF\n".toList []

/-- The staging file that could not be written is left. -/
theorem save_leaves_staging :
    ¬ Atomic noFiles newFile "c".toList (newFile.saveChecked noFiles "c".toList fullDisk fullDisk.disk) := by
  intro h
  have hrun : (newFile.saveChecked noFiles "c".toList fullDisk fullDisk.disk).1 =
      .error "No space left on device (os error 28)" := by decide +kernel
  have hstaging : (newFile.saveChecked noFiles "c".toList fullDisk fullDisk.disk).2.staging =
      some [] := by decide +kernel
  have hnone := (h.failed _ hrun).2
  rw [hstaging] at hnone
  cases hnone

end OpenSaab.Config
