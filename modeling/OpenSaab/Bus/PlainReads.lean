import OpenSaab.Bus.Reads
import OpenSaab.Flash.SsaCard
import OpenSaab.Library.Words

/-!
# The read of the load-test build

Where it answers, it reads what the byte bus reads.
-/

namespace OpenSaab.Bus

open Bytes

namespace Tech2Bus

/-! ## What the two have in common -/

/-- The windows of the devices and of the card. -/
def deviceWindows : List (Nat × Nat) :=
  [(cardBase, cardBase + cardWin), (0x2f0000, 0x400000), (0x400000, 0x401800),
    (rtcBase, rtcBase + rtcSize), (cs6Base, cs6Base + cs6Size), (keyBase, keyBase + keySize),
    (0x7c0000, 0x800000), (0xfff000, 0x1000000)]

/-- The bytes over which the research harness lays its own. -/
def researchBytes : List Nat :=
  [0x5ffc, 0x16ed2, 0x16ed3, 0x16eee, 0x16eef, 0x10127f, 0x101281, 0x10eeba, 0x10eebb, 0x10eed6,
    0x10eed7]

/-- A read here is not that of a memory: it is that of a device, of the status of the flash, or of a
byte of the research harness. -/
def Watched (b : Tech2Bus) (a : Nat) : Prop :=
  (∃ w ∈ deviceWindows, w.1 ≤ a ∧ a < w.2) ∨
    b.epromCfiStatus = true ∧ (a < 2 ∨ a = 0x8000 ∨ a = 0x8001) ∨
    b.research = true ∧ a ∈ researchBytes

/-- The byte of a memory. -/
def backing (b : Tech2Bus) (a : Nat) : UInt8 :=
  if a < flashSize then b.flash.getD a 0 else b.ram.getD (a - ramBase) 0

theorem researchByte_of_not_mem {a : Nat} (h : a ∉ researchBytes) : researchByte a = none := by
  simp only [researchBytes, List.mem_cons, List.not_mem_nil, or_false, not_or] at h
  unfold researchByte
  rw [if_neg (by omega), if_neg (by omega), if_neg (by omega), if_neg (by omega), if_neg (by omega)]

theorem readRam_of_not_mem {b : Tech2Bus} {a : Nat} (hlo : ramBase ≤ a)
    (h : ¬(b.research = true ∧ a ∈ researchBytes)) :
    b.readRam (a - ramBase) = b.ram.getD (a - ramBase) 0 := by
  have hplain : ¬(b.research = true ∧ (a - ramBase = 0x127f ∨ a - ramBase = 0x1281)) := by
    rintro ⟨hresearch, hoff⟩
    apply h
    refine ⟨hresearch, ?_⟩
    unfold ramBase at hlo hoff
    obtain rfl | rfl : a = 0x10127f ∨ a = 0x101281 := by omega
    · decide
    · decide
  rw [readRam, if_neg hplain]

/-- A byte that nothing lies over is read from its memory, and the read changes nothing. -/
theorem readMemory_plain {b : Tech2Bus} {a : Nat} (h : ¬ b.Watched a)
    (ha : a < flashSize ∨ ramBase ≤ a ∧ a < ramBase + ramSize) :
    b.readMemory a = (b.backing a, b) := by
  obtain ⟨-, hstatus, hresearch⟩ : _ ∧ _ ∧ _ := by
    simpa only [Watched, not_or] using h
  have hnone : (if b.research then researchByte a else none) = none := by
    split
    · next hmode => exact researchByte_of_not_mem fun hmem => hresearch ⟨hmode, hmem⟩
    · rfl
  unfold readMemory
  rw [hnone]
  dsimp only
  rcases ha with hflash | ⟨hlo, hhi⟩
  · rw [if_pos hflash, readFlash, if_neg hstatus, backing, if_pos hflash]
  · have hflash : ¬ a < flashSize := by
      unfold flashSize
      unfold ramBase at hlo
      omega
    rw [if_neg hflash, if_pos ⟨hlo, hhi⟩, readRam_of_not_mem hlo hresearch, backing, if_neg hflash]

theorem readByte_plain {b : Tech2Bus} {address : UInt32} {a : Nat}
    (haddress : (address &&& a24).toNat = a) (h : ¬ b.Watched a)
    (ha : a < flashSize ∨ ramBase ≤ a ∧ a < ramBase + ramSize) :
    b.readByte address = (b.backing a, b) := by
  have hlow : a < 0x200000 := by
    unfold flashSize ramBase ramSize at ha
    omega
  have htrace : b.traceEramAccess a = b := if_neg (by omega)
  have hlcd : lcdKind a = none := by
    unfold lcdKind
    rw [if_neg (by omega), if_neg (by omega)]
  unfold readByte
  simp only [haddress, htrace]
  rw [if_neg (by unfold eramBase; omega), if_neg (by omega), if_neg (by omega), if_neg (by omega),
    hlcd]
  exact readMemory_plain h ha

theorem toNat_a24 (address : UInt32) : (address &&& a24).toNat = address.toNat % 2 ^ 24 := by
  rw [UInt32.toNat_and]
  exact Nat.and_two_pow_sub_one_eq_mod _ 24

theorem next_a24 {address : UInt32} {a : Nat} (h : (address &&& a24).toNat = a)
    (ha : a + 1 < 2 ^ 24) : ((address + 1) &&& a24).toNat = a + 1 := by
  have hone : (1 : UInt32).toNat = 1 := rfl
  rw [toNat_a24] at h ⊢
  rw [UInt32.toNat_add, hone]
  omega

theorem readBytes_plain {b : Tech2Bus} {n : Nat} {address : UInt32} {a : Nat}
    (haddress : (address &&& a24).toNat = a) (h : ∀ i < n, ¬ b.Watched (a + i))
    (ha : a + n ≤ flashSize ∨ ramBase ≤ a ∧ a + n ≤ ramBase + ramSize) :
    b.readBytes address n = ((List.range n).map fun i => b.backing (a + i), b) := by
  induction n generalizing address a with
  | zero => rfl
  | succ n ih =>
    have hfirst : b.readByte address = (b.backing a, b) :=
      readByte_plain haddress (h 0 (Nat.succ_pos n)) (by omega)
    have hnext : n = 0 ∨ b.readBytes (address + 1) n =
        ((List.range n).map fun i => b.backing (a + 1 + i), b) := by
      rcases Nat.eq_zero_or_pos n with hzero | hpos
      · exact .inl hzero
      · refine .inr (ih (next_a24 haddress ?_) (fun i hi => ?_) (by omega))
        · unfold flashSize ramBase ramSize at ha
          omega
        · rw [Nat.add_assoc, Nat.add_comm 1 i]
          exact h (i + 1) (Nat.succ_lt_succ hi)
    rw [readBytes, hfirst, List.range_succ_eq_map, List.map_cons, List.map_map]
    dsimp only
    rcases hnext with rfl | hnext
    · rfl
    · rw [hnext]
      simp only [Nat.add_zero, Function.comp_def, Nat.succ_eq_add_one, Nat.add_assoc, Nat.add_comm 1]

theorem range_tryInto {xs bytes : List UInt8} {lo hi n : Nat}
    (h : (range xs lo hi).bind (tryInto n) = some bytes) :
    hi = lo + n ∧ bytes = (List.range n).map fun i => xs.getD (lo + i) 0 := by
  unfold range at h
  split at h
  · next hrange =>
    have hlength : (slice xs lo (hi - lo)).length = hi - lo := length_slice (by omega)
    rw [Option.bind_some, tryInto, hlength] at h
    split at h
    · next hn =>
      refine ⟨by omega, ?_⟩
      rw [← Option.some.inj h]
      apply List.ext_getElem?
      intro i
      rw [getElem?_slice, List.getElem?_map, hn]
      by_cases hi : i < n
      · rw [if_pos hi, List.getElem?_range hi, List.getElem?_eq_getElem (by omega)]
        simp [List.getD_eq_getElem?_getD, List.getElem?_eq_getElem (show lo + i < xs.length by omega)]
      · rw [if_neg hi, List.getElem?_eq_none (by simpa using hi)]
        rfl
    · cases h
  · cases h

/-- No window of a device is as low as the memories. -/
theorem not_window {a : Nat} (h : a < 0x200000) : ¬ ∃ w ∈ deviceWindows, w.1 ≤ a ∧ a < w.2 := by
  rintro ⟨w, hw, hlo, -⟩
  simp only [deviceWindows, cardBase, rtcBase, cs6Base, keyBase, List.mem_cons, List.not_mem_nil,
    or_false] at hw
  rcases hw with rfl | rfl | rfl | rfl | rfl | rfl | rfl | rfl <;> omega

/-- Where the read of the load-test build answers, it gives what the bytes of the bus give, which
these reads leave as it is; and nothing in its range is watched. -/
theorem plain_read_agrees {b : Tech2Bus} {n : Nat} {address : UInt32} {bytes : List UInt8}
    (h : b.loadTestPlainRead n address = some bytes) :
    b.readBytes address n = (bytes, b) ∧
      ∀ i < n, ¬ b.Watched ((address &&& a24).toNat + i) := by
  generalize ha : (address &&& a24).toNat = a
  unfold loadTestPlainRead at h
  rw [ha] at h
  dsimp only at h
  generalize (a + n) % 2 ^ 32 = stop at h
  split at h
  · next hflash =>
    split at h
    · cases h
    · next hstatus =>
      split at h
      · cases h
      · next hresearch =>
        obtain ⟨rfl, rfl⟩ := range_tryInto h
        have hplain : ∀ i < n, ¬ b.Watched (a + i) := by
          unfold flashSize at hflash
          rintro i hi (hwindow | ⟨hmode, hbyte⟩ | ⟨hmode, hbyte⟩)
          · exact not_window (by omega) hwindow
          · exact hstatus ⟨hmode, by omega⟩
          · simp only [researchBytes, List.mem_cons, List.not_mem_nil, or_false] at hbyte
            exact hresearch ⟨hmode, by omega⟩
        refine ⟨?_, hplain⟩
        rw [readBytes_plain ha hplain (.inl hflash)]
        refine congrArg (·, b) (List.map_congr_left fun i hi => ?_)
        have hi := List.mem_range.mp hi
        rw [backing, if_pos (by omega)]
  · next hflash =>
    split at h
    · next hram =>
      split at h
      · cases h
      · next hresearch =>
        obtain ⟨hstop, rfl⟩ := range_tryInto h
        have hlo := hram.1
        have hplain : ∀ i < n, ¬ b.Watched (a + i) := by
          unfold ramBase ramSize at hram
          unfold ramBase at hstop
          rintro i hi (hwindow | ⟨hmode, hbyte⟩ | ⟨hmode, hbyte⟩)
          · exact not_window (by omega) hwindow
          · omega
          · simp only [researchBytes, List.mem_cons, List.not_mem_nil, or_false] at hbyte
            exact hresearch ⟨hmode, by omega⟩
        refine ⟨?_, hplain⟩
        rw [readBytes_plain ha hplain (.inr ⟨hlo, by omega⟩)]
        refine congrArg (·, b) (List.map_congr_left fun i hi => ?_)
        have hflashEnd : ¬ a + i < flashSize := by
          unfold flashSize
          unfold ramBase at hlo
          omega
        rw [backing, if_neg hflashEnd, Nat.sub_add_comm hlo]
    · cases h

/-- A bus with four bytes of flash, and nothing else. -/
def fourBytes : Tech2Bus where
  research := false
  flash := [0x12, 0x34, 0x56, 0x78]
  ram := []
  eram := []
  rtc := []
  iram := []
  cs6 := []
  card := []
  sim := []
  bank := 0
  bankRaw := false
  smallBank := false
  ata := ⟨0, 0, [0, 0, 0], 0, 0x50, 0, 0⟩
  capture := none
  pendingCandi := none
  candiLink := none
  lcd := ⟨[], 0, 0, 0, 0, 0, 0⟩
  ssaFlash := none
  cfiStatus := false
  epromCfiStatus := false
  cardRdPages := []
  cs2Ram := none
  attrMem := []
  attrReads := 0
  keypad := .empty
  qspiPending := false
  eramTrace := false
  eramTraces := 0

theorem fourBytes_read : fourBytes.readBytes 0 4 = ([0x12, 0x34, 0x56, 0x78], fourBytes) :=
  (plain_read_agrees (by decide)).1

end Tech2Bus

end OpenSaab.Bus
