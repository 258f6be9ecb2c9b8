import OpenSaab.Lcd.Controller

/-!
# Steps of the display controller

What a command and a byte of data do to the registers, and where the cursor goes.
-/

namespace OpenSaab.Lcd

open Bus Runs

namespace Controller

/-! ## The cursor -/

/-- One step of the cursor. -/
def delta (s : Sed1335) : Int :=
  if s.cursorDirection = 0 then 1
  else if s.cursorDirection = 1 then -1
  else if s.cursorDirection = 2 then -s.ap
  else s.ap

/-- Where the cursor is after `n` steps. -/
def address (s : Sed1335) (n : Nat) : Nat := ((s.cursor.toNat + n * delta s) % 65536).toNat

theorem toNat_masked (a b : UInt32) : ((a + b) &&& 0xffff).toNat = (a.toNat + b.toNat) % 65536 := by
  have hmask : (0xffff : UInt32).toNat = 2 ^ 16 - 1 := rfl
  rw [UInt32.toNat_and, hmask, Nat.and_two_pow_sub_one_eq_mod, UInt32.toNat_add]
  omega

theorem toNat_advanceCursor (s : Sed1335) :
    s.advanceCursor.cursor.toNat = ((s.cursor.toNat + delta s) % 65536).toNat := by
  unfold Sed1335.advanceCursor delta
  dsimp only
  rw [toNat_masked]
  split
  · rw [UInt32.toNat_one]
    omega
  · split
    · have hone : (0 - 1 : UInt32).toNat = 4294967295 := by decide
      rw [hone]
      omega
    · split
      · rw [UInt32.toNat_sub, UInt32.toNat_zero, UInt32.toNat_ofNat']
        omega
      · rw [UInt32.toNat_ofNat']
        omega

theorem advanceCursor_lt (s : Sed1335) : s.advanceCursor.cursor.toNat < 65536 := by
  rw [toNat_advanceCursor]
  omega

theorem address_zero {s : Sed1335} (h : s.cursor.toNat < 65536) : address s 0 = s.cursor.toNat := by
  unfold address
  omega

theorem address_lt (s : Sed1335) (n : Nat) : address s n < 65536 := by
  unfold address
  omega

/-- A cursor on its way takes the next step. -/
theorem address_advance {s s' : Sed1335} {n : Nat} (hdirection : s'.cursorDirection = s.cursorDirection)
    (hpitch : s'.ap = s.ap) (hcursor : s'.cursor.toNat = address s n) :
    s'.advanceCursor.cursor.toNat = address s (n + 1) := by
  have hdelta : delta s' = delta s := by
    unfold delta
    rw [hdirection, hpitch]
  have hnonneg : 0 ≤ (s.cursor.toNat + n * delta s) % 65536 := Int.emod_nonneg _ (by decide)
  rw [toNat_advanceCursor, hcursor, hdelta]
  unfold address
  rw [Int.toNat_of_nonneg hnonneg, Int.emod_add_emod, Int.natCast_add, Int.natCast_one,
    Int.add_mul, Int.one_mul, Int.add_assoc]

/-! ## Commands -/

variable (l : Controller)

/-- What the parameters of a command do not change. -/
def shape : UInt8 × List UInt8 × Nat × List UInt8 := (l.cmd, l.params, l.paramsLeft, l.vram)

theorem scrollFirst_toSed1335 : l.scrollFirst.toSed1335 = l.toSed1335 := by
  unfold scrollFirst
  split <;> rfl

theorem scrollSecond_toSed1335 : l.scrollSecond.toSed1335 = l.toSed1335 := by
  unfold scrollSecond
  split
  · rfl
  · split <;> rfl

theorem endScroll_toSed1335 : l.endScroll.toSed1335 = l.toSed1335 := by
  unfold endScroll
  split
  · rw [scrollSecond_toSed1335, scrollFirst_toSed1335]
  · rfl

theorem obey_toSed1335 (v : UInt8) : (l.obey v).toSed1335 =
    { l.toSed1335 with
      cursorDirection := if isMove v then v &&& 3 else l.cursorDirection } := by
  unfold obey
  cases isMove v <;> dsimp only <;> split <;> split <;> rfl

theorem writeCmd_toSed1335 (v : UInt8) : (l.writeCmd v).toSed1335 =
    { l.toSed1335 with
      cursorDirection := if isMove v then v &&& 3 else l.cursorDirection
      cmd := v
      readPhase := 0 } := by
  unfold writeCmd
  dsimp only
  rw [obey_toSed1335, endScroll_toSed1335]

theorem obey_starts (v : UInt8) : (l.obey v).sad1 = l.sad1 ∧ (l.obey v).sad2 = l.sad2 := by
  unfold obey
  cases isMove v <;> dsimp only <;> split <;> split <;> exact ⟨rfl, rfl⟩

theorem writeCmd_starts (v : UInt8) :
    (l.writeCmd v).sad1 = l.endScroll.sad1 ∧ (l.writeCmd v).sad2 = l.endScroll.sad2 :=
  l.endScroll.obey_starts v

/-! ## Parameters -/

theorem systemSetParam_shape : l.systemSetParam.shape = l.shape := by
  unfold systemSetParam
  split <;> rfl

theorem systemSetParam_rest : l.systemSetParam.cursor = l.cursor ∧ l.systemSetParam.sad1 = l.sad1 ∧
    l.systemSetParam.sad2 = l.sad2 := by
  unfold systemSetParam
  split <;> exact ⟨rfl, rfl, rfl⟩

theorem scrollParam_shape : l.scrollParam.shape = l.shape := by
  unfold scrollParam
  split
  · dsimp only
    split <;> split <;> rfl
  · rfl

theorem scrollParam_cursor : l.scrollParam.cursor = l.cursor := by
  unfold scrollParam
  split
  · dsimp only
    split <;> split <;> rfl
  · rfl

theorem scrollParam_starts : l.scrollParam.sad1 =
      (if l.cmd = 0x44 ∧ l.params.length = 2 then word (l.param 0) (l.param 1) else l.sad1) ∧
    l.scrollParam.sad2 =
      (if l.cmd = 0x44 ∧ l.params.length = 5 then word (l.param 3) (l.param 4) else l.sad2) := by
  unfold scrollParam
  by_cases hcmd : l.cmd = 0x44
  · rw [if_pos hcmd]
    by_cases htwo : l.params.length = 2
    · have hfive : ¬ l.params.length = 5 := by omega
      simp only [hcmd, htwo, if_true, and_self]
      exact ⟨rfl, rfl⟩
    · simp only [hcmd, htwo, if_false, true_and, and_false]
      split <;> exact ⟨rfl, rfl⟩
  · simp only [hcmd, false_and, if_false, and_self]

theorem displayParam_shape : l.displayParam.shape = l.shape := by
  unfold displayParam
  dsimp only
  split <;> split <;> split <;> rfl

theorem displayParam_rest : l.displayParam.cursor = l.cursor ∧ l.displayParam.sad1 = l.sad1 ∧
    l.displayParam.sad2 = l.sad2 := by
  unfold displayParam
  dsimp only
  split <;> split <;> split <;> exact ⟨rfl, rfl, rfl⟩

theorem cursorParam_shape : l.cursorParam.shape = l.shape := by
  unfold cursorParam
  split <;> rfl

theorem cursorParam_starts : l.cursorParam.sad1 = l.sad1 ∧ l.cursorParam.sad2 = l.sad2 := by
  unfold cursorParam
  split <;> exact ⟨rfl, rfl⟩

theorem cursorParam_cursor : l.cursorParam.cursor =
    if l.cmd = 0x46 ∧ l.params.length = 2 then UInt32.ofNat (word (l.param 0) (l.param 1))
    else l.cursor := by
  unfold cursorParam
  split <;> rfl

theorem of_shape {l' : Controller} (h : l.shape = l'.shape) : l.cmd = l'.cmd ∧
    l.params = l'.params ∧ l.paramsLeft = l'.paramsLeft ∧ l.vram = l'.vram := by
  obtain ⟨hcmd, hrest⟩ := Prod.mk.inj h
  obtain ⟨hparams, hrest⟩ := Prod.mk.inj hrest
  exact ⟨hcmd, hparams, Prod.mk.inj hrest⟩

/-- The byte is one more parameter. -/
def pushed (v : UInt8) : Controller :=
  { l with params := l.params ++ [v], paramsLeft := l.paramsLeft - 1 }

theorem takeParam_eq (v : UInt8) :
    l.takeParam v = (l.pushed v).systemSetParam.scrollParam.displayParam.cursorParam := rfl

theorem takeParam_shape (v : UInt8) : (l.takeParam v).shape = (l.pushed v).shape := by
  rw [takeParam_eq, cursorParam_shape, displayParam_shape, scrollParam_shape, systemSetParam_shape]

theorem takeParam_cursor (v : UInt8) : (l.takeParam v).cursor =
    if l.cmd = 0x46 ∧ (l.pushed v).params.length = 2 then
      UInt32.ofNat (word ((l.pushed v).param 0) ((l.pushed v).param 1))
    else l.cursor := by
  have hshape : (l.pushed v).systemSetParam.scrollParam.displayParam.shape = (l.pushed v).shape := by
    rw [displayParam_shape, scrollParam_shape, systemSetParam_shape]
  obtain ⟨hcmd, hparams, -⟩ := of_shape _ hshape
  have hcursor : (l.pushed v).systemSetParam.scrollParam.displayParam.cursor = l.cursor := by
    rw [(displayParam_rest _).1, scrollParam_cursor, (systemSetParam_rest _).1]
    rfl
  rw [takeParam_eq, cursorParam_cursor]
  unfold param
  rw [hcmd, hparams, hcursor]
  rfl

theorem takeParam_starts (v : UInt8) :
    (l.takeParam v).sad1 = (if l.cmd = 0x44 ∧ (l.pushed v).params.length = 2 then
      word ((l.pushed v).param 0) ((l.pushed v).param 1) else l.sad1) ∧
    (l.takeParam v).sad2 = (if l.cmd = 0x44 ∧ (l.pushed v).params.length = 5 then
      word ((l.pushed v).param 3) ((l.pushed v).param 4) else l.sad2) := by
  obtain ⟨hcmd, hparams, -⟩ := of_shape _ (l.pushed v).systemSetParam_shape
  obtain ⟨-, hfirst, hsecond⟩ := (l.pushed v).systemSetParam_rest
  obtain ⟨hfirst', hsecond'⟩ := (l.pushed v).systemSetParam.scrollParam_starts
  rw [takeParam_eq, (cursorParam_starts _).1, (cursorParam_starts _).2, (displayParam_rest _).2.1,
    (displayParam_rest _).2.2, hfirst', hsecond', hfirst, hsecond]
  unfold param
  rw [hcmd, hparams]
  exact ⟨rfl, rfl⟩

/-! ## Registers -/

theorem word_lt (low high : UInt8) : word low high < 65536 := by
  have hlow := low.toNat_lt
  have hhigh := high.toNat_lt
  have hshift : high.toNat <<< 8 < 2 ^ 16 := by
    rw [Nat.shiftLeft_eq]
    omega
  exact Nat.or_lt_two_pow (by omega) hshift

/-- The registers have sixteen bits. -/
structure Registers (l : Controller) : Prop where
  cursor : l.cursor.toNat < 65536
  ap : l.ap < 65536
  sad1 : l.sad1 < 65536
  sad2 : l.sad2 < 65536

section Registers

variable {l : Controller}

theorem Registers.scrollFirst (h : Registers l) : Registers l.scrollFirst := by
  unfold Controller.scrollFirst
  split
  · exact { h with sad1 := word_lt _ _ }
  · exact h

theorem Registers.scrollSecond (h : Registers l) : Registers l.scrollSecond := by
  unfold Controller.scrollSecond
  split
  · exact { h with sad2 := h.sad1 }
  · split
    · exact { h with sad2 := word_lt _ _ }
    · exact h

theorem Registers.writeCmd (h : Registers l) (v : UInt8) : Registers (l.writeCmd v) := by
  have hscroll : Registers l.endScroll := by
    unfold Controller.endScroll
    split
    · exact h.scrollFirst.scrollSecond
    · exact h
  exact {
    cursor := by rw [writeCmd_toSed1335]; exact h.cursor
    ap := by rw [writeCmd_toSed1335]; exact h.ap
    sad1 := (l.writeCmd_starts v).1 ▸ hscroll.sad1
    sad2 := (l.writeCmd_starts v).2 ▸ hscroll.sad2 }

theorem Registers.systemSetParam (h : Registers l) : Registers l.systemSetParam := by
  unfold Controller.systemSetParam
  split
  · exact { h with ap := word_lt _ _ }
  · exact h

theorem Registers.scrollParam (h : Registers l) : Registers l.scrollParam := by
  unfold Controller.scrollParam
  split
  · dsimp only
    split
    · split
      · exact { h with sad1 := word_lt _ _, sad2 := word_lt _ _ }
      · exact { h with sad1 := word_lt _ _ }
    · split
      · exact { h with sad2 := word_lt _ _ }
      · exact h
  · exact h

theorem Registers.displayParam (h : Registers l) : Registers l.displayParam := by
  unfold Controller.displayParam
  dsimp only
  split <;> split <;> split <;> exact { h with }

theorem Registers.cursorParam (h : Registers l) : Registers l.cursorParam := by
  unfold Controller.cursorParam
  split
  · refine { h with cursor := ?_ }
    have hword := word_lt (l.param 0) (l.param 1)
    rw [UInt32.toNat_ofNat']
    omega
  · exact h

theorem Registers.writeData (h : Registers l) (v : UInt8) : Registers (l.writeData v) := by
  unfold Controller.writeData
  dsimp only
  split
  · have hpushed : Registers (({ l with dataWr := l.dataWr + 1 } : Controller).pushed v) := { h with }
    rw [takeParam_eq]
    exact hpushed.systemSetParam.scrollParam.displayParam.cursorParam
  · split
    · exact { h with }
    · exact { h with cursor := advanceCursor_lt _ }

theorem Registers.readData (h : Registers l) : Registers l.readData.2 := by
  have hrest : l.toSed1335.readData.2.cursor.toNat < 65536 ∧ l.toSed1335.readData.2.ap < 65536 := by
    unfold Sed1335.readData
    split
    · split <;> exact ⟨h.cursor, h.ap⟩
    · split
      · exact ⟨advanceCursor_lt _, h.ap⟩
      · exact ⟨h.cursor, h.ap⟩
  exact { h with cursor := hrest.1, ap := hrest.2 }

theorem registers_run (ops : List Op) : Registers (run step new ops) := by
  refine run_invariant (I := Registers) ?_ ops ⟨by decide, by decide, by decide, by decide⟩
  intro l op h
  cases op with
  | command v => exact h.writeCmd v
  | data v => exact h.writeData v
  | read => exact h.readData

end Registers

end Controller

end OpenSaab.Lcd
