import OpenSaab.Library.Bytes
import OpenSaab.Library.Runs

/-!
# The security-access region of the card

`ssa_flash.rs`: the view of the card that takes the flash commands of the save path.
-/

namespace OpenSaab.SsaCard

open Bytes

/-! ## The device -/

/-- `OFFSET`. -/
def ssaOffset : Nat := 0xfe0000

/-- `SIZE`. -/
def ssaSize : Nat := 714

structure SsaFlash where
  pending : Option (Nat × UInt8)
  program : Option Nat
  erase : Bool
  status : Option UInt8
  erases : Nat
  programmedBytes : Nat
  deriving DecidableEq, Repr

def SsaFlash.default : SsaFlash := ⟨none, none, false, none, 0, 0⟩

/-- The device and the contents of the card. -/
structure Card where
  flash : SsaFlash
  bytes : List UInt8
  deriving DecidableEq, Repr

def Card.withStatus (c : Card) (status : UInt8) : Card :=
  { c with flash := { c.flash with status := some status } }

/-- The payload of a program command; a command-shaped payload is data. -/
def Card.programWord (c : Card) (destination offset : Nat) (high low : UInt8) : Card :=
  if destination ≠ offset ∨ c.bytes.length < ssaOffset + ssaSize then c.withStatus 0x90
  else
    let first := c.bytes.getD offset 0
    let second := c.bytes.getD (offset + 1) 0
    if first &&& high ≠ high ∨ second &&& low ≠ low then c.withStatus 0x90
    else
      { flash := { c.flash with
          programmedBytes := c.flash.programmedBytes + 2
          status := some 0x80 }
        bytes := (c.bytes.set offset (first &&& high)).set (offset + 1) (second &&& low) }

def Card.eraseRegion (c : Card) : Card :=
  let flash := { c.flash with erase := false }
  if ssaOffset + ssaSize ≤ c.bytes.length then
    { flash := { flash with erases := flash.erases + 1, status := some 0x80 }
      bytes := fill c.bytes ssaOffset (ssaOffset + ssaSize) 0xff }
  else { c with flash := { flash with status := some 0xa0 } }

def Card.command (c : Card) (offset : Nat) (word : UInt16) : Card :=
  if word = 0x2020 ∧ offset = ssaOffset then { c with flash := { c.flash with erase := true } }
  else if word = 0xd0d0 ∧ c.flash.erase ∧ offset = ssaOffset then c.eraseRegion
  else if (word = 0x4040 ∨ word = 0x1010) ∧ ssaOffset ≤ offset ∧ offset < ssaOffset + ssaSize - 1 then
    { c with flash := { c.flash with program := some offset } }
  else if word = 0x5050 then c.withStatus 0x80
  else if word = 0x7070 then c.withStatus (c.flash.status.getD 0x80)
  else if word = 0xffff then { c with flash := { c.flash with erase := false, status := none } }
  else { c with flash := { c.flash with erase := false, status := some 0xb0 } }

/-- `u16::from_be_bytes`. -/
def word (high low : UInt8) : UInt16 := high.toUInt16 <<< 8 ||| low.toUInt16

def Card.writeWord (c : Card) (offset : Nat) (high low : UInt8) : Card :=
  match c.flash.program with
  | some destination =>
    { c with flash := { c.flash with program := none } }.programWord destination offset high low
  | none => c.command offset (word high low)

/-- A byte that begins a word, or one on the wrong lane. -/
def Card.lane (c : Card) (offset : Nat) (value : UInt8) : Card :=
  if offset % 2 = 0 then { c with flash := { c.flash with pending := some (offset, value) } }
  else c.withStatus 0xb0

def Card.writeByte (c : Card) (offset : Nat) (value : UInt8) : Card :=
  match c.flash.pending with
  | none => c.lane offset value
  | some (first, high) =>
    let c := { c with flash := { c.flash with pending := none } }
    if first % 2 = 0 ∧ offset = first + 1 then c.writeWord first high value
    else
      -- Unpaired lanes are not an observed command.
      { c with flash := { c.flash with program := none, erase := false, status := some 0xb0 } }.lane
        offset value

inductive Write where
  | byte (offset : Nat) (value : UInt8)
  | word (offset : Nat) (high low : UInt8)
  deriving DecidableEq, Repr

/-- A word of the guest arrives as its two bytes. -/
def Card.write (c : Card) : Write → Card
  | .byte offset value => c.writeByte offset value
  | .word offset high low => (c.writeByte offset high).writeByte (offset + 1) low

/-! ## What one write does -/

/-- A program command is only armed for a word within the region. -/
def SsaFlash.Valid (f : SsaFlash) : Prop :=
  ∀ destination ∈ f.program, ssaOffset ≤ destination ∧ destination + 1 < ssaOffset + ssaSize

/-- Every bit that is set was set before. -/
def Clears (xs ys : List UInt8) : Prop :=
  ∀ (i : Nat) (a b : UInt8), xs[i]? = some a → ys[i]? = some b → b &&& a = b

theorem Clears.refl (xs : List UInt8) : Clears xs xs := by
  intro i a b ha hb
  obtain rfl := Option.some.inj (ha.symm.trans hb)
  exact UInt8.and_self

theorem Clears.trans {xs ys zs : List UInt8} (hlen : ys.length = xs.length) (h : Clears xs ys)
    (h' : Clears ys zs) : Clears xs zs := by
  intro i a c ha hc
  have hi : i < ys.length := hlen ▸ (List.getElem?_eq_some_iff.mp ha).1
  have hb : ys[i]? = some ys[i] := List.getElem?_eq_getElem hi
  have hab := h i a _ ha hb
  have hbc := h' i _ c hb hc
  rw [← hbc, UInt8.and_assoc, hab]

theorem Clears.set (xs : List UInt8) (i : Nat) (v : UInt8) :
    Clears xs (xs.set i (xs.getD i 0 &&& v)) := by
  intro j a b ha hb
  by_cases hij : i = j
  · subst hij
    have hi : i < xs.length := (List.getElem?_eq_some_iff.mp ha).1
    rw [List.getElem?_set_self hi] at hb
    rw [← Option.some.inj hb, List.getD_eq_getElem?_getD, ha, Option.getD_some, UInt8.and_assoc,
      UInt8.and_comm v a, ← UInt8.and_assoc, UInt8.and_self]
  · rw [List.getElem?_set_ne hij] at hb
    exact Clears.refl xs j a b ha hb

/-- What writes may do to the card. -/
structure Effect (c c' : Card) : Prop where
  valid : c'.flash.Valid
  same : SameOutside ssaOffset (ssaOffset + ssaSize) c.bytes c'.bytes
  erases : c.flash.erases ≤ c'.flash.erases
  clears : c'.flash.erases = c.flash.erases → Clears c.bytes c'.bytes

theorem Effect.trans {c c' c'' : Card} (h : Effect c c') (h' : Effect c' c'') : Effect c c'' where
  valid := h'.valid
  same := h.same.trans h'.same
  erases := Nat.le_trans h.erases h'.erases
  clears heq := by
    have hfirst := h.erases
    have hsecond := h'.erases
    exact (h.clears (by omega)).trans h.same.1 (h'.clears (by omega))

/-- A write that only moves the state of the device. -/
theorem Effect.control {c c' : Card} (hvalid : c'.flash.Valid) (hbytes : c'.bytes = c.bytes)
    (herases : c'.flash.erases = c.flash.erases) : Effect c c' where
  valid := hvalid
  same := hbytes ▸ SameOutside.refl ssaOffset (ssaOffset + ssaSize) c.bytes
  erases := Nat.le_of_eq herases.symm
  clears _ := hbytes ▸ Clears.refl c.bytes

theorem Valid.idle {f : SsaFlash} (h : f.program = none) : f.Valid := by
  intro destination hd
  rw [h] at hd
  cases hd

/-- A word either leaves the contents alone or reports that it is done. -/
structure Done (c c' : Card) : Prop where
  effect : Effect c c'
  report : c'.bytes = c.bytes ∨ c'.flash.status = some 0x80
  pending : c'.flash.pending = c.flash.pending

theorem programWord_done {c : Card} {destination : Nat} (offset : Nat) (high low : UInt8)
    (hidle : c.flash.program = none) (hlo : ssaOffset ≤ destination)
    (hhi : destination + 1 < ssaOffset + ssaSize) :
    Done c (c.programWord destination offset high low) := by
  unfold Card.programWord
  dsimp only
  split_ifs with haddress
  · exact ⟨.control (Valid.idle hidle) rfl rfl, .inl rfl, rfl⟩
  · exact ⟨.control (Valid.idle hidle) rfl rfl, .inl rfl, rfl⟩
  · have hoffset : destination = offset := by
      by_contra h
      exact haddress (.inl h)
    subst hoffset
    refine ⟨⟨Valid.idle hidle, ?_, Nat.le_refl _, ?_⟩, .inr rfl, rfl⟩
    · exact (sameOutside_set_set _ _ _ _).mono hlo (by omega)
    · intro _
      have hfirst := Clears.set c.bytes destination high
      have hsecond := Clears.set (c.bytes.set destination (c.bytes.getD destination 0 &&& high))
        (destination + 1) low
      rw [List.getD_eq_getElem?_getD (i := destination + 1), List.getElem?_set_ne (by omega),
        ← List.getD_eq_getElem?_getD] at hsecond
      exact hfirst.trans List.length_set hsecond

theorem eraseRegion_done {c : Card} (hidle : c.flash.program = none) : Done c c.eraseRegion := by
  unfold Card.eraseRegion
  split_ifs with hlen
  · refine ⟨⟨Valid.idle hidle, sameOutside_fill _ _ _ _, Nat.le_succ _, ?_⟩, .inr rfl, rfl⟩
    intro h
    exact absurd h (Nat.succ_ne_self _)
  · exact ⟨.control (Valid.idle hidle) rfl rfl, .inl rfl, rfl⟩

theorem command_done {c : Card} (offset : Nat) (word : UInt16) (hidle : c.flash.program = none) :
    Done c (c.command offset word) := by
  unfold Card.command
  split_ifs with h1 h2 hprogram
  · exact ⟨.control (Valid.idle hidle) rfl rfl, .inl rfl, rfl⟩
  · exact eraseRegion_done hidle
  · refine ⟨.control ?_ rfl rfl, .inl rfl, rfl⟩
    intro destination hd
    obtain rfl := Option.some.inj hd
    exact ⟨hprogram.2.1, by omega⟩
  all_goals exact ⟨.control (Valid.idle hidle) rfl rfl, .inl rfl, rfl⟩

theorem writeWord_done {c : Card} (hv : c.flash.Valid) (offset : Nat) (high low : UInt8) :
    Done c (c.writeWord offset high low) := by
  unfold Card.writeWord
  split
  · next destination hd =>
    obtain ⟨hlo, hhi⟩ := hv destination hd
    have hdone := programWord_done (c := { c with flash := { c.flash with program := none } })
      offset high low rfl hlo hhi
    exact ⟨⟨hdone.effect.valid, hdone.effect.same, hdone.effect.erases, hdone.effect.clears⟩,
      hdone.report, hdone.pending⟩
  · next hidle => exact command_done offset _ hidle

/-- Nothing but a completed word changes the contents, and it comes with the second lane. -/
structure ByteDone (c c' : Card) (offset : Nat) : Prop where
  effect : Effect c c'
  report : c'.bytes = c.bytes ∨
    c'.flash.status = some 0x80 ∧ c'.flash.pending = none ∧ offset % 2 = 1

theorem lane_done {c : Card} (hv : c.flash.Valid) (offset : Nat) (value : UInt8) :
    ByteDone c (c.lane offset value) offset := by
  unfold Card.lane
  split_ifs
  · exact ⟨.control hv rfl rfl, .inl rfl⟩
  · exact ⟨.control hv rfl rfl, .inl rfl⟩

theorem writeByte_done {c : Card} (hv : c.flash.Valid) (offset : Nat) (value : UInt8) :
    ByteDone c (c.writeByte offset value) offset := by
  unfold Card.writeByte
  split
  · exact lane_done hv offset value
  · next first high _ =>
    dsimp only
    split_ifs with hpair
    · have hdone := writeWord_done (c := { c with flash := { c.flash with pending := none } }) hv
        first high value
      refine ⟨⟨hdone.effect.valid, hdone.effect.same, hdone.effect.erases, hdone.effect.clears⟩, ?_⟩
      rcases hdone.report with hbytes | hstatus
      · exact .inl hbytes
      · exact .inr ⟨hstatus, hdone.pending, by omega⟩
    · have hdone := lane_done (c := { c with flash := { c.flash with
        pending := none, program := none, erase := false, status := some 0xb0 } })
        (Valid.idle rfl) offset value
      exact ⟨⟨hdone.effect.valid, hdone.effect.same, hdone.effect.erases, hdone.effect.clears⟩,
        hdone.report⟩

theorem lane_even {c : Card} {offset : Nat} (h : offset % 2 = 0) (value : UInt8) :
    (c.lane offset value).flash.status = c.flash.status := by
  rw [Card.lane, if_pos h]

theorem write_effect {c : Card} (hv : c.flash.Valid) (w : Write) : Effect c (c.write w) := by
  cases w with
  | byte offset value => exact (writeByte_done hv offset value).effect
  | word offset high low =>
    have hfirst := (writeByte_done hv offset high).effect
    exact hfirst.trans (writeByte_done hfirst.valid (offset + 1) low).effect

/-- The contents only change in a write that ends with the status of a finished operation. -/
theorem write_error {c : Card} (hv : c.flash.Valid) (w : Write)
    (h : (c.write w).flash.status ≠ some 0x80) : (c.write w).bytes = c.bytes := by
  cases w with
  | byte offset value =>
    rcases (writeByte_done hv offset value).report with hbytes | ⟨hstatus, -⟩
    · exact hbytes
    · exact absurd hstatus h
  | word offset high low =>
    have hfirst := writeByte_done hv offset high
    have hsecond := writeByte_done hfirst.effect.valid (offset + 1) low
    rcases hsecond.report with hbytes | ⟨hstatus, -⟩
    · rcases hfirst.report with hbytes' | ⟨hstatus, hpending, hodd⟩
      · exact hbytes.trans hbytes'
      · -- The second byte only waits for its pair.
        have hlane : (c.writeByte offset high).writeByte (offset + 1) low =
            (c.writeByte offset high).lane (offset + 1) low := by
          rw [Card.writeByte, hpending]
        rw [Card.write, hlane, lane_even (by omega)] at h
        exact absurd hstatus h
    · exact absurd hstatus h

/-! ## Runs -/

theorem run_effect {c : Card} (hv : c.flash.Valid) (writes : List Write) :
    Effect c (Runs.run Card.write c writes) := by
  induction writes generalizing c with
  | nil => exact .control hv rfl rfl
  | cons w writes ih =>
    have hw := write_effect hv w
    exact hw.trans (ih hw.valid)

/-- Writes stay within the region; without an erase they only clear bits; a write that ends with
another status than that of a finished operation leaves the card as it is. -/
theorem card_confined (bytes : List UInt8) (writes : List Write) :
    SameOutside ssaOffset (ssaOffset + ssaSize) bytes
      (Runs.run Card.write ⟨.default, bytes⟩ writes).bytes ∧
    (∀ more : List Write,
      (Runs.run Card.write ⟨.default, bytes⟩ (writes ++ more)).flash.erases =
        (Runs.run Card.write ⟨.default, bytes⟩ writes).flash.erases →
      Clears (Runs.run Card.write ⟨.default, bytes⟩ writes).bytes
        (Runs.run Card.write ⟨.default, bytes⟩ (writes ++ more)).bytes) ∧
    (∀ w : Write,
      ((Runs.run Card.write ⟨.default, bytes⟩ writes).write w).flash.status ≠ some 0x80 →
      ((Runs.run Card.write ⟨.default, bytes⟩ writes).write w).bytes =
        (Runs.run Card.write ⟨.default, bytes⟩ writes).bytes) := by
  have hrun := run_effect (c := ⟨.default, bytes⟩) (Valid.idle rfl) writes
  refine ⟨hrun.same, ?_, ?_⟩
  · intro more hmore
    rw [Runs.run_append] at hmore ⊢
    exact (run_effect hrun.valid more).clears hmore
  · intro w
    exact write_error hrun.valid w

end OpenSaab.SsaCard

/-!
## The erase of the security-access region

The bytes that the guest writes, one after the other, and the writes that an erase takes.
-/

namespace OpenSaab.SsaCard

open Bytes Runs

/-! ## Words -/

theorem toNat_word (high low : UInt8) : (word high low).toNat = high.toNat * 256 + low.toNat := by
  have hhigh := high.toNat_lt
  have hshift : (high.toUInt16 <<< 8).toNat = high.toNat <<< 8 := by
    rw [UInt16.toNat_shiftLeft, UInt8.toNat_toUInt16, Nat.shiftLeft_eq, Nat.shiftLeft_eq]
    exact Nat.mod_eq_of_lt (by change high.toNat * 256 < 65536; omega)
  rw [word, UInt16.toNat_or, hshift, UInt8.toNat_toUInt16,
    ← Nat.shiftLeft_add_eq_or_of_lt (i := 8) low.toNat_lt, Nat.shiftLeft_eq]

theorem word_inj {high low high' low' : UInt8} (h : word high low = word high' low') :
    high = high' ∧ low = low' := by
  have hnat := congrArg UInt16.toNat h
  rw [toNat_word, toNat_word] at hnat
  have hlow := low.toNat_lt
  have hlow' := low'.toNat_lt
  exact ⟨UInt8.toNat_inj.mp (by omega), UInt8.toNat_inj.mp (by omega)⟩

/-! ## What arms an erase, and what completes it -/

/-- A program, clear-status or read-status command, which leaves an armed erase as it is. -/
def KeepsArmed (offset : Nat) (w : UInt16) : Prop :=
  ((w = 0x4040 ∨ w = 0x1010) ∧ ssaOffset ≤ offset ∧ offset < ssaOffset + ssaSize - 1) ∨
    w = 0x5050 ∨ w = 0x7070

instance decidableKeepsArmed (offset : Nat) (w : UInt16) : Decidable (KeepsArmed offset w) :=
  inferInstanceAs (Decidable (_ ∨ _))

theorem command_pending (c : Card) (offset : Nat) (w : UInt16) :
    (c.command offset w).flash.pending = c.flash.pending := by
  unfold Card.command Card.eraseRegion
  dsimp only
  split_ifs <;> rfl

/-- After a command an erase is armed because it has just been, or because it was. -/
theorem command_armed {c : Card} {offset : Nat} {w : UInt16}
    (h : (c.command offset w).flash.erase = true) :
    (w = 0x2020 ∧ offset = ssaOffset ∧ (c.command offset w).flash.program = c.flash.program) ∨
      (c.flash.erase = true ∧ KeepsArmed offset w) := by
  unfold Card.command Card.eraseRegion at h ⊢
  dsimp only at h ⊢
  split_ifs at h ⊢ with harm herase hlen hprogram hclear hread
  · exact .inl ⟨harm.1, harm.2, rfl⟩
  · exact .inr ⟨h, .inl hprogram⟩
  · exact .inr ⟨h, .inr (.inl hclear)⟩
  · exact .inr ⟨h, .inr (.inr hread)⟩

theorem command_erases {c : Card} {offset : Nat} {w : UInt16}
    (h : (c.command offset w).flash.erases ≠ c.flash.erases) :
    w = 0xd0d0 ∧ c.flash.erase = true ∧ offset = ssaOffset := by
  unfold Card.command at h
  split_ifs at h with harm herase
  · exact absurd rfl h
  · exact herase
  all_goals exact absurd rfl h

theorem programWord_flags (c : Card) (destination offset : Nat) (high low : UInt8) :
    (c.programWord destination offset high low).flash.erase = c.flash.erase ∧
      (c.programWord destination offset high low).flash.pending = c.flash.pending ∧
      (c.programWord destination offset high low).flash.erases = c.flash.erases := by
  unfold Card.programWord
  dsimp only
  split_ifs <;> exact ⟨rfl, rfl, rfl⟩

theorem lane_flags (c : Card) (offset : Nat) (value : UInt8) :
    (c.lane offset value).flash.erase = c.flash.erase ∧
      (c.lane offset value).flash.program = c.flash.program ∧
      (c.lane offset value).flash.erases = c.flash.erases ∧
      (c.lane offset value).flash.pending =
        if offset % 2 = 0 then some (offset, value) else c.flash.pending := by
  unfold Card.lane
  split_ifs <;> exact ⟨rfl, rfl, rfl, rfl⟩

/-! ## Runs -/

def byteStep (c : Card) (w : Nat × UInt8) : Card := c.writeByte w.1 w.2

/-- The region is erased: the count moves, or a bit is set that was not. -/
def Erased (c c' : Card) : Prop :=
  c'.flash.erases ≠ c.flash.erases ∨ ¬ Clears c.bytes c'.bytes

/-- 0x2020 at the start of the region. -/
def armSequence : List (Nat × UInt8) := [(ssaOffset, 0x20), (ssaOffset + 1, 0x20)]

/-- 0xD0D0 at the start of the region. -/
def confirmSequence : List (Nat × UInt8) := [(ssaOffset, 0xd0), (ssaOffset + 1, 0xd0)]

/-- No erase in the run but by the two words, one directly after the other. -/
def OnlyBySequence (c : Card) (writes : List (Nat × UInt8)) : Prop :=
  ∀ before w after, writes = before ++ w :: after →
    Erased (run byteStep c before) (byteStep (run byteStep c before) w) →
    ∃ earlier, before ++ [w] = earlier ++ (armSequence ++ confirmSequence)

/-- While an erase is armed, the write is no byte on the wrong lane, and it completes no program,
clear-status or read-status command. -/
def Undisturbed (c : Card) (w : Nat × UInt8) : Prop :=
  c.flash.erase = true →
    (c.flash.pending = none → w.1 % 2 = 0) ∧
    ∀ p ∈ c.flash.pending, p.1 % 2 = 0 ∧ w.1 = p.1 + 1 → ¬ KeepsArmed p.1 (word p.2 w.2)

instance decidableUndisturbed (c : Card) (w : Nat × UInt8) : Decidable (Undisturbed c w) :=
  inferInstanceAs (Decidable (_ → _ ∧ _))

/-- What the device holds goes back to the last writes: the byte that waits for its pair, and before
it the word that armed the erase. -/
structure Recent (writes : List (Nat × UInt8)) (c : Card) : Prop where
  valid : c.flash.Valid
  pending : ∀ p ∈ c.flash.pending, ∃ earlier, writes = earlier ++ [p]
  armed : c.flash.erase = true → c.flash.program = none ∧
    ∃ earlier, writes = earlier ++ armSequence ++ c.flash.pending.toList

theorem Recent.start (bytes : List UInt8) : Recent [] ⟨.default, bytes⟩ where
  valid := Valid.idle rfl
  pending p hp := by cases hp
  armed h := by cases h

theorem Recent.valid_step {writes : List (Nat × UInt8)} {c : Card} (h : Recent writes c)
    (w : Nat × UInt8) : (byteStep c w).flash.Valid :=
  (writeByte_done h.valid w.1 w.2).effect.valid

/-- A byte when none waits for its pair. -/
theorem Recent.first {writes : List (Nat × UInt8)} {c : Card} (h : Recent writes c)
    {w : Nat × UInt8} (hp : c.flash.pending = none) (hquiet : Undisturbed c w) :
    Recent (writes ++ [w]) (byteStep c w) ∧ (byteStep c w).flash.erases = c.flash.erases := by
  have hvalid := h.valid_step w
  have hstep : byteStep c w = c.lane w.1 w.2 := by
    rw [byteStep, Card.writeByte, hp]
  obtain ⟨herase, hprogram, herases, hlane⟩ := lane_flags c w.1 w.2
  rw [hp] at hlane
  rw [hstep] at hvalid ⊢
  refine ⟨⟨hvalid, ?_, ?_⟩, herases⟩
  · intro p hmem
    rw [hlane] at hmem
    split at hmem
    · exact ⟨writes, congrArg (writes ++ [·]) (Option.some.inj hmem)⟩
    · cases hmem
  · intro hnow
    rw [herase] at hnow
    obtain ⟨hidle, earlier, hlast⟩ := h.armed hnow
    rw [hp] at hlast
    rw [hlane, if_pos ((hquiet hnow).1 hp)]
    exact ⟨hprogram.trans hidle, earlier, by rw [hlast]; simp⟩

/-- A byte that is not the pair of the one that waits. -/
theorem Recent.unpaired {writes : List (Nat × UInt8)} {c : Card} (h : Recent writes c)
    {first w : Nat × UInt8} (hp : c.flash.pending = some first)
    (hpair : ¬(first.1 % 2 = 0 ∧ w.1 = first.1 + 1)) :
    Recent (writes ++ [w]) (byteStep c w) ∧ (byteStep c w).flash.erases = c.flash.erases := by
  have hvalid := h.valid_step w
  have hstep : byteStep c w = { c with flash := { c.flash with
      pending := none, program := none, erase := false, status := some 0xb0 } }.lane w.1 w.2 := by
    simp only [byteStep, Card.writeByte, hp]
    exact if_neg hpair
  obtain ⟨herase, -, herases, hlane⟩ := lane_flags { c with flash := { c.flash with
    pending := none, program := none, erase := false, status := some 0xb0 } } w.1 w.2
  rw [hstep] at hvalid ⊢
  refine ⟨⟨hvalid, ?_, fun hnow => absurd (herase.symm.trans hnow) Bool.false_ne_true⟩, herases⟩
  intro p hmem
  rw [hlane] at hmem
  split at hmem
  · exact ⟨writes, congrArg (writes ++ [·]) (Option.some.inj hmem)⟩
  · cases hmem

/-- The payload of a program command: no erase is armed then. -/
theorem Recent.payload {writes : List (Nat × UInt8)} {c : Card} (h : Recent writes c)
    {first w : Nat × UInt8} (hp : c.flash.pending = some first)
    (hpair : first.1 % 2 = 0 ∧ w.1 = first.1 + 1) {destination : Nat}
    (hprogram : c.flash.program = some destination) :
    Recent (writes ++ [w]) (byteStep c w) ∧ (byteStep c w).flash.erases = c.flash.erases := by
  have hvalid := h.valid_step w
  have hstep : byteStep c w = { c with flash := { c.flash with
      pending := none, program := none } }.programWord destination first.1 first.2 w.2 := by
    simp only [byteStep, Card.writeByte, hp, if_pos hpair, Card.writeWord, hprogram]
  obtain ⟨herase, hpending, herases⟩ := programWord_flags { c with flash := { c.flash with
    pending := none, program := none } } destination first.1 first.2 w.2
  rw [hstep] at hvalid ⊢
  refine ⟨⟨hvalid, ?_, ?_⟩, herases⟩
  · intro p hmem
    rw [hpending] at hmem
    cases hmem
  · intro hnow
    rw [herase] at hnow
    have hidle := (h.armed hnow).1
    rw [hprogram] at hidle
    cases hidle

/-- A command: it arms the erase with the last two bytes, or completes it with the last four. -/
theorem Recent.command {writes : List (Nat × UInt8)} {c : Card} (h : Recent writes c)
    {first w : Nat × UInt8} (hp : c.flash.pending = some first)
    (hpair : first.1 % 2 = 0 ∧ w.1 = first.1 + 1) (hprogram : c.flash.program = none)
    (hquiet : Undisturbed c w) :
    Recent (writes ++ [w]) (byteStep c w) ∧
      ((byteStep c w).flash.erases ≠ c.flash.erases →
        ∃ earlier, writes ++ [w] = earlier ++ (armSequence ++ confirmSequence)) := by
  have hvalid := h.valid_step w
  have hstep : byteStep c w = { c with flash := { c.flash with pending := none } }.command first.1
      (word first.2 w.2) := by
    simp only [byteStep, Card.writeByte, hp, if_pos hpair, Card.writeWord, hprogram]
  have hpending := command_pending { c with flash := { c.flash with pending := none } } first.1
    (word first.2 w.2)
  rw [hstep] at hvalid ⊢
  refine ⟨⟨hvalid, ?_, ?_⟩, ?_⟩
  · intro p hmem
    rw [hpending] at hmem
    cases hmem
  · intro hnow
    rcases command_armed hnow with ⟨hword, hoffset, hidle⟩ | ⟨hbefore, hkeeps⟩
    · obtain ⟨earlier, hlast⟩ := h.pending first hp
      have harm : word first.2 w.2 = word 0x20 0x20 := hword
      obtain ⟨hhigh, hlow⟩ := word_inj harm
      refine ⟨hidle.trans hprogram, earlier, ?_⟩
      have hfirst : first = (ssaOffset, 0x20) := Prod.ext hoffset hhigh
      have hw : w = (ssaOffset + 1, 0x20) := Prod.ext (hpair.2.trans (by rw [hoffset])) hlow
      rw [hlast, hpending, hfirst, hw]
      simp [armSequence]
    · exact absurd hkeeps ((hquiet hbefore).2 first hp hpair)
  · intro herases
    obtain ⟨hword, hbefore, hoffset⟩ := command_erases herases
    obtain ⟨-, earlier, hlast⟩ := h.armed hbefore
    have hconfirm : word first.2 w.2 = word 0xd0 0xd0 := hword
    obtain ⟨hhigh, hlow⟩ := word_inj hconfirm
    have hfirst : first = (ssaOffset, 0xd0) := Prod.ext hoffset hhigh
    have hw : w = (ssaOffset + 1, 0xd0) := Prod.ext (hpair.2.trans (by rw [hoffset])) hlow
    refine ⟨earlier, ?_⟩
    rw [hlast, hp, hfirst, hw]
    simp [confirmSequence]

/-- One write: the device still goes back to the last writes, and an erase completes the
sequence. -/
theorem Recent.step {writes : List (Nat × UInt8)} {c : Card} (h : Recent writes c)
    {w : Nat × UInt8} (hquiet : Undisturbed c w) :
    Recent (writes ++ [w]) (byteStep c w) ∧
      ((byteStep c w).flash.erases ≠ c.flash.erases →
        ∃ earlier, writes ++ [w] = earlier ++ (armSequence ++ confirmSequence)) := by
  cases hp : c.flash.pending with
  | none =>
    obtain ⟨hnext, hsame⟩ := h.first hp hquiet
    exact ⟨hnext, fun herases => absurd hsame herases⟩
  | some first =>
    by_cases hpair : first.1 % 2 = 0 ∧ w.1 = first.1 + 1
    · cases hprogram : c.flash.program with
      | none => exact h.command hp hpair hprogram hquiet
      | some destination =>
        obtain ⟨hnext, hsame⟩ := h.payload hp hpair hprogram
        exact ⟨hnext, fun herases => absurd hsame herases⟩
    · obtain ⟨hnext, hsame⟩ := h.unpaired hp hpair
      exact ⟨hnext, fun herases => absurd hsame herases⟩

theorem recent_run (bytes : List UInt8) {writes : List (Nat × UInt8)}
    (h : Each byteStep Undisturbed ⟨.default, bytes⟩ writes) :
    Recent writes (run byteStep ⟨.default, bytes⟩ writes) := by
  induction writes using List.reverseRecOn with
  | nil => exact Recent.start bytes
  | append_singleton writes w ih =>
    obtain ⟨hbefore, hlast⟩ := (each_append _ _ _).mp h
    rw [run_append]
    exact ((ih hbefore).step hlast.1).1

/-- In every run whose writes leave an armed erase alone, the region is erased only by the two
words. -/
theorem erased_by_sequence (bytes : List UInt8) (writes : List (Nat × UInt8))
    (h : Each byteStep Undisturbed ⟨.default, bytes⟩ writes) :
    OnlyBySequence ⟨.default, bytes⟩ writes := by
  rintro before w after rfl herased
  obtain ⟨hbefore, hw, -⟩ := (each_append _ _ _).mp h
  have hrecent := recent_run bytes hbefore
  apply (hrecent.step hw).2
  rcases herased with hcount | hset
  · exact hcount
  · intro hsame
    exact hset ((writeByte_done hrecent.valid w.1 w.2).effect.clears hsame)

/-! ## The two words, and a read of the status between them -/

theorem eraseRegion_erases {c : Card} (h : ssaOffset + ssaSize ≤ c.bytes.length) :
    c.eraseRegion.flash.erases = c.flash.erases + 1 := by
  rw [Card.eraseRegion, if_pos h]

theorem twoWords_run (bytes : List UInt8) :
    run byteStep ⟨.default, bytes⟩ (armSequence ++ confirmSequence) =
      (Card.mk ⟨none, none, true, none, 0, 0⟩ bytes).eraseRegion := rfl

theorem fullCard_length :
    ssaOffset + ssaSize ≤ (List.replicate (ssaOffset + ssaSize) (0x55 : UInt8)).length :=
  Nat.le_of_eq List.length_replicate.symm

theorem twoWords_erase :
    (run byteStep ⟨.default, List.replicate (ssaOffset + ssaSize) 0x55⟩
      (armSequence ++ confirmSequence)).flash.erases = 1 ∧
    OnlyBySequence ⟨.default, List.replicate (ssaOffset + ssaSize) 0x55⟩
      (armSequence ++ confirmSequence) := by
  refine ⟨?_, erased_by_sequence _ _ ?_⟩
  · rw [twoWords_run]
    exact eraseRegion_erases fullCard_length
  · decide

/-- 0x7070, on the first word of the bank, between the two words of the erase. -/
def statusBetween : List (Nat × UInt8) :=
  armSequence ++ [(0xf00000, 0x70), (0xf00001, 0x70)] ++ [(ssaOffset, 0xd0)]

theorem statusBetween_run (bytes : List UInt8) :
    run byteStep ⟨.default, bytes⟩ statusBetween =
      ⟨⟨some (ssaOffset, 0xd0), none, true, some 0x80, 0, 0⟩, bytes⟩ := rfl

theorem statusBetween_next (bytes : List UInt8) :
    byteStep ⟨⟨some (ssaOffset, 0xd0), none, true, some 0x80, 0, 0⟩, bytes⟩ (ssaOffset + 1, 0xd0) =
      (Card.mk ⟨none, none, true, some 0x80, 0, 0⟩ bytes).eraseRegion := rfl

theorem erased_after_status :
    ¬ OnlyBySequence ⟨.default, List.replicate (ssaOffset + ssaSize) 0x55⟩
      (statusBetween ++ [(ssaOffset + 1, 0xd0)]) := by
  intro h
  obtain ⟨earlier, heq⟩ := h statusBetween (ssaOffset + 1, 0xd0) [] rfl (.inl (by
    rw [statusBetween_run, statusBetween_next, eraseRegion_erases fullCard_length]
    exact Nat.one_ne_zero))
  have hsplit : armSequence ++ ([(0xf00000, 0x70), (0xf00001, 0x70)] ++ confirmSequence) =
      earlier ++ (armSequence ++ confirmSequence) := heq
  exact absurd (List.append_inj' hsplit rfl).2 (by decide)

end OpenSaab.SsaCard
