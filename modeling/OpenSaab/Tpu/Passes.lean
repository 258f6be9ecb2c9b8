import OpenSaab.Tpu.Countdown

/-!
# Passes over the countdowns

What `elapsed` ticks do to each counter, and that it does not matter in how many passes they are
taken off.
-/

namespace OpenSaab.Tpu

open Memory

/-! ## One channel -/

/-- A parameter of a channel after some ticks: the first one counts up, the next five count down. -/
def aged (elapsed slot : Nat) (v : UInt16) : UInt16 :=
  if slot = 0 then v + UInt16.ofNat elapsed
  else if slot ≤ 5 then UInt16.ofNat (v.toNat - elapsed)
  else v

/-- A counter reaches zero. -/
def ends (elapsed : Nat) (v : UInt16) : Bool := v != 0 && decide (v.toNat ≤ elapsed)

/-- The channel and the parameter that a word belongs to. -/
def channelOf (off : Nat) : Nat := (off - 0xf00) / 16

def slotOf (off : Nat) : Nat := (off - 0xf00) % 16 / 2

theorem ofNat_eq_zero {v : UInt16} {elapsed : Nat} :
    UInt16.ofNat (v.toNat - elapsed) = 0 ↔ v.toNat ≤ elapsed := by
  have hv := v.toNat_lt
  rw [← UInt16.toNat_inj, UInt16.toNat_ofNat_of_lt' (by change _ < 65536; omega)]
  change v.toNat - elapsed = 0 ↔ _
  omega

/-- The address of a parameter. -/
def cell (channel index : Nat) : Nat := 0xf00 + channel * 16 + index * 2

section

variable {elapsed channel : Nat} {q : UInt16} {p : Pass}

theorem word_put_cell {m : Bytes} {off : Nat} (heven : off % 2 = 0) (index : Nat) (v : UInt16) :
    word (put m (cell channel index) v) off =
      if off = cell channel index then v else word m off := by
  unfold cell
  split
  · next h => rw [h, word_put]
  · next h => exact word_put_ne v (by omega)

theorem countParameter_word (index : Nat) {off : Nat} (heven : off % 2 = 0) :
    word (countParameter elapsed channel q p index).sim off =
      if off = cell channel index then UInt16.ofNat ((word p.sim off).toNat - elapsed)
      else word p.sim off := by
  unfold countParameter
  dsimp only
  rw [← cell]
  split_ifs with hzero hcell hafter hcell hcell
  · rw [hcell, hzero]
    simp
  · rfl
  all_goals simp_all [word_put_cell heven]

/-- The channels that have expired, or those of them whose interrupt is flagged. -/
def Pass.flags (p : Pass) (interrupt : Bool) : UInt16 := if interrupt then p.cisrMask else p.expired

/-- The sequence of a channel does not keep its interrupt off. -/
def flagging (interrupt : Bool) (q : UInt16) : Bool := !interrupt || q &&& 1 == 0

theorem countParameter_flags (interrupt : Bool) (index : Nat) :
    (countParameter elapsed channel q p index).flags interrupt =
      if (ends elapsed (word p.sim (cell channel index)) && flagging interrupt q) = true then
        p.flags interrupt ||| bit channel
      else p.flags interrupt := by
  have hends : ends elapsed (word p.sim (cell channel index)) = true ↔
      word p.sim (cell channel index) ≠ 0 ∧
        UInt16.ofNat ((word p.sim (cell channel index)).toNat - elapsed) = 0 := by
    simp [ends, ofNat_eq_zero]
  unfold countParameter
  dsimp only
  simp only [Bool.and_eq_true, hends]
  rw [← cell]
  cases interrupt <;> split_ifs <;> simp_all [Pass.flags, flagging]

/-- All the counters of a list. -/
theorem parameters_word {l : List Nat} (hl : l.Nodup) {off : Nat} (heven : off % 2 = 0) :
    word (l.foldl (countParameter elapsed channel q) p).sim off =
      if ∃ index ∈ l, off = cell channel index then UInt16.ofNat ((word p.sim off).toNat - elapsed)
      else word p.sim off := by
  induction l generalizing p with
  | nil => simp
  | cons index l ih =>
    obtain ⟨hfirst, hrest⟩ := List.nodup_cons.mp hl
    rw [List.foldl_cons, ih hrest, countParameter_word index heven]
    by_cases hcell : off = cell channel index
    · have hother : ¬ ∃ i ∈ l, off = cell channel i := by
        rintro ⟨i, hi, heq⟩
        have hsame : i = index := by
          unfold cell at hcell heq
          omega
        exact hfirst (hsame ▸ hi)
      rw [if_neg hother, if_pos hcell, if_pos ⟨index, List.mem_cons_self, hcell⟩]
    · simp only [List.mem_cons, exists_eq_or_imp, hcell, false_or, if_false]

theorem or_bit (m : UInt16) : m ||| bit channel ||| bit channel = m ||| bit channel := by
  rw [UInt16.or_assoc, UInt16.or_self]

theorem parameters_flags (interrupt : Bool) {l : List Nat} (hl : l.Nodup) :
    (l.foldl (countParameter elapsed channel q) p).flags interrupt =
      if (l.any (fun index => ends elapsed (word p.sim (cell channel index))) &&
          flagging interrupt q) = true then
        p.flags interrupt ||| bit channel
      else p.flags interrupt := by
  induction l generalizing p with
  | nil => rfl
  | cons index l ih =>
    obtain ⟨hfirst, hrest⟩ := List.nodup_cons.mp hl
    have hsame : l.any (fun i => ends elapsed
          (word (countParameter elapsed channel q p index).sim (cell channel i))) =
        l.any fun i => ends elapsed (word p.sim (cell channel i)) := by
      have hcell (i : Nat) (hi : i ∈ l) :
          word (countParameter elapsed channel q p index).sim (cell channel i) =
            word p.sim (cell channel i) := by
        rw [countParameter_word index (by unfold cell; omega), if_neg]
        intro heq
        have hindex : i = index := by
          unfold cell at heq
          omega
        exact hfirst (hindex ▸ hi)
      rw [Bool.eq_iff_iff, List.any_eq_true, List.any_eq_true]
      exact exists_congr fun i => and_congr_right fun hi => by rw [hcell i hi]
    rw [List.foldl_cons, ih hrest, countParameter_flags, hsame, List.any_cons]
    cases ends elapsed (word p.sim (cell channel index)) <;>
      cases l.any (fun i => ends elapsed (word p.sim (cell channel i))) <;>
      cases flagging interrupt q <;> simp [or_bit]

end

/-! ## The configuration -/

theorem counting_congr {sim sim' : Bytes}
    (h : ∀ off, off % 2 = 0 → off < 0xe20 → word sim off = word sim' off) (channel : Nat) :
    counting sim channel = counting sim' channel ∧ sequence sim channel = sequence sim' channel := by
  have hfunction : function sim channel = function sim' channel := by
    rw [function, function, h _ (by omega) (by omega)]
  have hpriority : priority sim channel = priority sim' channel := by
    rw [priority, priority, h _ (by split <;> rfl) (by split <;> decide)]
  have hsequence : sequence sim channel = sequence sim' channel := by
    rw [sequence, sequence, h _ (by split <;> rfl) (by split <;> decide)]
  exact ⟨by rw [counting, counting, hfunction, hpriority, hsequence], hsequence⟩

/-! ## All the channels -/

/-- A word belongs to the parameters of a channel that counts. -/
def Counted (sim : Bytes) (off : Nat) : Prop :=
  0xf00 ≤ off ∧ counting sim (channelOf off) = true

instance decidableCounted (sim : Bytes) (off : Nat) : Decidable (Counted sim off) :=
  inferInstanceAs (Decidable (_ ∧ _))

/-- A counter of the channel reaches zero; with `interrupt`, it also flags its interrupt. -/
def fires (sim : Bytes) (elapsed : Nat) (interrupt : Bool) (channel : Nat) : Bool :=
  counting sim channel &&
    ([1, 2, 3, 4, 5].any fun index => ends elapsed (word sim (cell channel index))) &&
    flagging interrupt (sequence sim channel)

theorem cell_iff {channel index off : Nat} (heven : off % 2 = 0) (hindex : index < 8) :
    off = cell channel index ↔ 0xf00 ≤ off ∧ channelOf off = channel ∧ slotOf off = index := by
  unfold cell channelOf slotOf
  omega

theorem countChannel_word (elapsed : Nat) (p : Pass) (channel : Nat) {off : Nat}
    (heven : off % 2 = 0) :
    word (countChannel elapsed p channel).sim off =
      if channelOf off = channel ∧ Counted p.sim off then aged elapsed (slotOf off) (word p.sim off)
      else word p.sim off := by
  unfold countChannel
  split
  · next hcounting =>
    dsimp only
    have hbase : 0xf00 + channel * 16 = cell channel 0 := rfl
    have hmem : (∃ index ∈ [1, 2, 3, 4, 5], off = cell channel index) ↔
        (0xf00 ≤ off ∧ channelOf off = channel) ∧ 1 ≤ slotOf off ∧ slotOf off ≤ 5 := by
      constructor
      · rintro ⟨index, hindex, hcell⟩
        have hrange : 1 ≤ index ∧ index ≤ 5 := by
          simp only [List.mem_cons, List.not_mem_nil, or_false] at hindex
          omega
        obtain ⟨hlow, hchannel, hslot⟩ := (cell_iff heven (by omega)).mp hcell
        exact ⟨⟨hlow, hchannel⟩, by omega, by omega⟩
      · rintro ⟨⟨hlow, hchannel⟩, hfirst, hlast⟩
        refine ⟨slotOf off, ?_, (cell_iff heven (by omega)).mpr ⟨hlow, hchannel, rfl⟩⟩
        simp only [List.mem_cons, List.not_mem_nil, or_false]
        omega
    have hzero : off = cell channel 0 ↔ (0xf00 ≤ off ∧ channelOf off = channel) ∧ slotOf off = 0 := by
      rw [cell_iff heven (by decide), and_assoc]
    rw [parameters_word (by decide) heven, hbase, word_put_cell heven]
    by_cases hin : 0xf00 ≤ off ∧ channelOf off = channel
    · have hcounted : channelOf off = channel ∧ Counted p.sim off :=
        ⟨hin.2, hin.1, hin.2.symm ▸ hcounting⟩
      rw [if_pos hcounted, aged]
      by_cases hslot : slotOf off = 0
      · have hbaseoff := hzero.mpr ⟨hin, hslot⟩
        rw [if_neg (fun h => by have := (hmem.mp h).2; omega), if_pos hbaseoff, if_pos hslot,
          ← hbaseoff]
      · rw [if_neg (fun h => hslot (hzero.mp h).2), if_neg hslot]
        refine if_congr ?_ rfl rfl
        rw [hmem]
        exact ⟨fun h => h.2.2, fun h => ⟨hin, by omega, h⟩⟩
    · rw [if_neg (fun h => hin (hmem.mp h).1), if_neg (fun h => hin (hzero.mp h).1), if_neg]
      rintro ⟨hchannel, hlow, -⟩
      exact hin ⟨hlow, hchannel⟩
  · next hcounting =>
    rw [if_neg]
    rintro ⟨rfl, -, h⟩
    exact hcounting h

theorem countChannel_flags (elapsed : Nat) (p : Pass) (interrupt : Bool) (channel : Nat) :
    (countChannel elapsed p channel).flags interrupt =
      if fires p.sim elapsed interrupt channel then p.flags interrupt ||| bit channel
      else p.flags interrupt := by
  unfold countChannel fires
  split
  · next hcounting =>
    dsimp only
    rw [parameters_flags interrupt (by decide), hcounting, Bool.true_and]
    have hbase : 0xf00 + channel * 16 = cell channel 0 := rfl
    have hany : ([1, 2, 3, 4, 5].any fun index => ends elapsed
          (word (put p.sim (0xf00 + channel * 16)
            (word p.sim (0xf00 + channel * 16) + UInt16.ofNat elapsed)) (cell channel index))) =
        [1, 2, 3, 4, 5].any fun index => ends elapsed (word p.sim (cell channel index)) := by
      rw [Bool.eq_iff_iff, List.any_eq_true, List.any_eq_true]
      refine exists_congr fun index => and_congr_right fun hindex => ?_
      have hne : cell channel index ≠ cell channel 0 := by
        intro heq
        unfold cell at heq
        simp only [List.mem_cons, List.not_mem_nil, or_false] at hindex
        omega
      rw [hbase, word_put_cell (by unfold cell; omega), if_neg hne]
    rw [hany]
    rfl
  · next hcounting => simp [hcounting]

/-- The bits of the channels below `n` that `f` picks out. -/
def mask (f : Nat → Bool) (n : Nat) : UInt16 :=
  (List.range n).foldl (fun m channel => if f channel then m ||| bit channel else m) 0

theorem mask_succ (f : Nat → Bool) (n : Nat) :
    mask f (n + 1) = if f n then mask f n ||| bit n else mask f n := by
  rw [mask, List.range_succ, List.foldl_append]
  rfl

/-- The channels below `n` have been counted down. -/
def pass (sim : Bytes) (elapsed n : Nat) : Pass :=
  (List.range n).foldl (countChannel elapsed) ⟨sim, 0, 0⟩

theorem pass_succ (sim : Bytes) (elapsed n : Nat) :
    pass sim elapsed (n + 1) = countChannel elapsed (pass sim elapsed n) n := by
  rw [pass, List.range_succ, List.foldl_append]
  rfl

/-- The configuration is below the counters. -/
theorem pass_config {sim : Bytes} {elapsed n : Nat}
    (h : ∀ off, off % 2 = 0 → off < 0xf00 → word (pass sim elapsed n).sim off = word sim off)
    (channel : Nat) : counting (pass sim elapsed n).sim channel = counting sim channel ∧
      sequence (pass sim elapsed n).sim channel = sequence sim channel :=
  counting_congr (fun off heven hlow => h off heven (by omega)) channel

theorem pass_word (sim : Bytes) (elapsed n : Nat) {off : Nat} (heven : off % 2 = 0) :
    word (pass sim elapsed n).sim off =
      if channelOf off < n ∧ Counted sim off then aged elapsed (slotOf off) (word sim off)
      else word sim off := by
  induction n generalizing off with
  | zero => rfl
  | succ n ih =>
    have hcounted : Counted (pass sim elapsed n).sim off ↔ Counted sim off := by
      have hlow : ∀ off, off % 2 = 0 → off < 0xf00 →
          word (pass sim elapsed n).sim off = word sim off := by
        intro off heven hlow
        rw [ih heven, if_neg]
        rintro ⟨-, hin, -⟩
        omega
      rw [Counted, Counted, (pass_config hlow (channelOf off)).1]
    rw [pass_succ, countChannel_word elapsed _ n heven, ih heven]
    simp only [hcounted]
    by_cases hin : Counted sim off
    · rcases Nat.lt_trichotomy (channelOf off) n with hlt | heq | hgt
      · rw [if_neg (fun h => by omega), if_pos ⟨hlt, hin⟩, if_pos ⟨by omega, hin⟩]
      · rw [if_pos ⟨heq, hin⟩, if_neg (fun h => by omega), if_pos ⟨by omega, hin⟩]
      · rw [if_neg (fun h => by omega), if_neg (fun h => by omega), if_neg (fun h => by omega)]
    · rw [if_neg (fun h => hin h.2), if_neg (fun h => hin h.2), if_neg (fun h => hin h.2)]

theorem pass_low (sim : Bytes) (elapsed n : Nat) {off : Nat} (heven : off % 2 = 0)
    (hlow : off < 0xf00) : word (pass sim elapsed n).sim off = word sim off := by
  rw [pass_word sim elapsed n heven, if_neg]
  rintro ⟨-, hin, -⟩
  omega

theorem pass_flags (sim : Bytes) (elapsed n : Nat) (interrupt : Bool) :
    (pass sim elapsed n).flags interrupt = mask (fires sim elapsed interrupt) n := by
  induction n with
  | zero => cases interrupt <;> rfl
  | succ n ih =>
    have hlow : ∀ off, off % 2 = 0 → off < 0xf00 →
        word (pass sim elapsed n).sim off = word sim off :=
      fun off heven hlow => pass_low sim elapsed n heven hlow
    obtain ⟨hcounting, hsequence⟩ := pass_config hlow n
    have hcell (index : Nat) : index < 8 →
        word (pass sim elapsed n).sim (cell n index) = word sim (cell n index) := by
      intro hindex
      have heven : cell n index % 2 = 0 := by unfold cell; omega
      rw [pass_word sim elapsed n heven, if_neg]
      have hchannel := ((cell_iff heven hindex).mp rfl).2.1
      omega
    have hfires : fires (pass sim elapsed n).sim elapsed interrupt n =
        fires sim elapsed interrupt n := by
      simp [fires, hcounting, hsequence, hcell]
    rw [pass_succ, countChannel_flags, hfires, ih, mask_succ]

/-! ## The whole pass -/

theorem decrement_stopped {sim : Bytes} (h : stop sim = true) (elapsed : Nat) :
    decrement sim elapsed = (sim, 0) := if_pos h

theorem decrement_running {sim : Bytes} (h : stop sim = false) (elapsed : Nat) :
    decrement sim elapsed =
      (put (pass sim elapsed 16).sim cisr (word (pass sim elapsed 16).sim cisr |||
        (pass sim elapsed 16).cisrMask), (pass sim elapsed 16).expired) := by
  rw [decrement, if_neg (by simp [h])]
  rfl

theorem decrement_expired {sim : Bytes} (h : stop sim = false) (elapsed : Nat) :
    (decrement sim elapsed).2 = mask (fires sim elapsed false) 16 := by
  rw [decrement_running h]
  exact pass_flags sim elapsed 16 false

theorem decrement_word {sim : Bytes} (h : stop sim = false) (elapsed : Nat) {off : Nat}
    (heven : off % 2 = 0) :
    word (decrement sim elapsed).1 off =
      if off = cisr then word sim cisr ||| mask (fires sim elapsed true) 16
      else if channelOf off < 16 ∧ Counted sim off then aged elapsed (slotOf off) (word sim off)
      else word sim off := by
  have hmask : (pass sim elapsed 16).cisrMask = mask (fires sim elapsed true) 16 :=
    pass_flags sim elapsed 16 true
  rw [decrement_running h]
  dsimp only
  by_cases hcisr : off = cisr
  · rw [if_pos hcisr, hcisr, word_put, hmask, pass_low sim elapsed 16 (by decide) (by decide)]
  · rw [if_neg hcisr, word_put_ne _ (by unfold cisr at *; omega), pass_word sim elapsed 16 heven]

/-! ## Passes in a row -/

theorem aged_aged (a b slot : Nat) (v : UInt16) :
    aged b slot (aged a slot v) = aged (a + b) slot v := by
  unfold aged
  split_ifs
  · rw [UInt16.add_assoc, UInt16.ofNat_add]
  · have hv := v.toNat_lt
    rw [UInt16.toNat_ofNat_of_lt' (by change _ < 65536; omega), Nat.sub_sub]
  · rfl

theorem ends_iff (elapsed : Nat) (v : UInt16) :
    ends elapsed v = true ↔ v.toNat ≠ 0 ∧ v.toNat ≤ elapsed := by
  rw [ends, Bool.and_eq_true, bne_iff_ne, decide_eq_true_eq, ← UInt16.toNat_inj.ne]
  rfl

theorem ends_add (a b : Nat) (v : UInt16) :
    ends (a + b) v = (ends a v || ends b (UInt16.ofNat (v.toNat - a))) := by
  have hv := v.toNat_lt
  rw [Bool.eq_iff_iff, Bool.or_eq_true, ends_iff, ends_iff, ends_iff,
    UInt16.toNat_ofNat_of_lt' (by change _ < 65536; omega)]
  omega

theorem mask_or (f g : Nat → Bool) (n : Nat) :
    mask (fun channel => f channel || g channel) n = mask f n ||| mask g n := by
  induction n with
  | zero => exact UInt16.or_self.symm
  | succ n ih =>
    have hswap : (mask f n ||| bit n) ||| mask g n = (mask f n ||| mask g n) ||| bit n := by
      rw [UInt16.or_assoc, UInt16.or_comm (bit n), ← UInt16.or_assoc]
    have hboth : (mask f n ||| bit n) ||| (mask g n ||| bit n) =
        (mask f n ||| mask g n) ||| bit n := by
      rw [← UInt16.or_assoc, hswap, or_bit]
    rw [mask_succ, mask_succ, mask_succ, ih]
    cases f n <;> cases g n <;> simp [hswap, hboth, UInt16.or_assoc]

/-- A pass leaves the configuration alone. -/
theorem decrement_low (sim : Bytes) (elapsed : Nat) {off : Nat} (heven : off % 2 = 0)
    (hlow : off < 0xf00) (hcisr : off ≠ cisr) :
    word (decrement sim elapsed).1 off = word sim off := by
  cases hstop : stop sim with
  | true => rw [decrement_stopped hstop]
  | false =>
    rw [decrement_word hstop elapsed heven, if_neg hcisr, if_neg]
    rintro ⟨-, hin, -⟩
    omega

theorem decrement_stop (sim : Bytes) (elapsed : Nat) : stop (decrement sim elapsed).1 = stop sim := by
  rw [stop, decrement_low sim elapsed (by decide) (by decide) (by decide), stop]

theorem decrement_config (sim : Bytes) (elapsed channel : Nat) :
    counting (decrement sim elapsed).1 channel = counting sim channel ∧
      sequence (decrement sim elapsed).1 channel = sequence sim channel :=
  counting_congr (fun off heven hlow =>
    decrement_low sim elapsed heven (by omega) (by unfold cisr; omega)) channel

theorem fires_add {sim : Bytes} (h : stop sim = false) (a b : Nat) (interrupt : Bool)
    {channel : Nat} (hchannel : channel < 16) :
    fires sim (a + b) interrupt channel =
      (fires sim a interrupt channel || fires (decrement sim a).1 b interrupt channel) := by
  obtain ⟨hcounting, hsequence⟩ := decrement_config sim a channel
  unfold fires
  rw [hcounting, hsequence]
  cases hon : counting sim channel with
  | false => rfl
  | true =>
    have hcell (index : Nat) (hfirst : 1 ≤ index) (hlast : index ≤ 5) :
        word (decrement sim a).1 (cell channel index) =
          UInt16.ofNat ((word sim (cell channel index)).toNat - a) := by
      have heven : cell channel index % 2 = 0 := by unfold cell; omega
      obtain ⟨hlow, hof, hslot⟩ := (cell_iff heven (by omega)).mp (rfl : cell channel index = _)
      rw [decrement_word h a heven, if_neg (by unfold cisr; omega),
        if_pos ⟨by omega, hlow, hof.symm ▸ hon⟩, aged, if_neg (by omega), if_pos (by omega)]
    simp only [List.any_cons, List.any_nil, ends_add, hcell 1 (by decide) (by decide),
      hcell 2 (by decide) (by decide), hcell 3 (by decide) (by decide),
      hcell 4 (by decide) (by decide), hcell 5 (by decide) (by decide)]
    cases flagging interrupt (sequence sim channel) with
    | false => simp
    | true =>
      simp only [Bool.true_and, Bool.and_true, Bool.or_false]
      ac_rfl

theorem mask_congr {f g : Nat → Bool} {n : Nat} (h : ∀ channel, channel < n → f channel = g channel) :
    mask f n = mask g n := by
  induction n with
  | zero => rfl
  | succ n ih =>
    rw [mask_succ, mask_succ, h n (Nat.lt_succ_self n), ih fun c hc => h c (Nat.lt_succ_of_lt hc)]

theorem mask_fires_add {sim : Bytes} (h : stop sim = false) (a b : Nat) (interrupt : Bool) :
    mask (fires sim a interrupt) 16 ||| mask (fires (decrement sim a).1 b interrupt) 16 =
      mask (fires sim (a + b) interrupt) 16 := by
  rw [← mask_or]
  exact mask_congr fun channel hchannel => (fires_add h a b interrupt hchannel).symm

/-- Two passes are one pass of all their ticks. -/
theorem decrement_add (sim : Bytes) (a b : Nat) :
    (decrement (decrement sim a).1 b).1 = (decrement sim (a + b)).1 ∧
      (decrement sim a).2 ||| (decrement (decrement sim a).1 b).2 = (decrement sim (a + b)).2 := by
  cases hstop : stop sim with
  | true =>
    rw [decrement_stopped hstop, decrement_stopped hstop, decrement_stopped hstop]
    exact ⟨rfl, UInt16.or_self⟩
  | false =>
    have hstop' : stop (decrement sim a).1 = false := (decrement_stop sim a).trans hstop
    constructor
    · apply ext_words
      intro off heven
      have hcounted : Counted (decrement sim a).1 off ↔ Counted sim off := by
        rw [Counted, Counted, (decrement_config sim a (channelOf off)).1]
      rw [decrement_word hstop' b heven, decrement_word hstop (a + b) heven]
      simp only [hcounted]
      split_ifs with hcisr hin
      · rw [decrement_word hstop a (by decide), if_pos rfl, UInt16.or_assoc, mask_fires_add hstop]
      · rw [decrement_word hstop a heven, if_neg hcisr, if_pos hin, aged_aged]
      · rw [decrement_word hstop a heven, if_neg hcisr, if_neg hin]
    · rw [decrement_expired hstop, decrement_expired hstop', decrement_expired hstop,
        mask_fires_add hstop]

end OpenSaab.Tpu
