import OpenSaab.Library.Runs
import OpenSaab.Tpu.Countdown

/-!
# The idle timeout

An interval that has been loaded, polled in any way while the line stays idle: it runs out once, at
the first poll at which it is over.
-/

namespace OpenSaab.Tpu

open Memory Runs Countdown

/-! ## What the parameters show -/

/-- The latest value is shown in the place of the one before. -/
theorem refresh_refresh (sim : Bytes) (half r r' : Nat) :
    refresh (refresh sim half r) half r' = refresh sim half r' := by
  by_cases hhalf : half = 0
  · simp only [refresh, hhalf, ne_eq, not_true_eq_false, if_false, put_put]
  · simp only [refresh, ne_eq, hhalf, not_false_eq_true, if_true]
    rw [put_comm _ _ _ (.inr (by decide : 0xf56 + 2 ≤ 0xf58)), put_put, put_put]

theorem refresh_word (sim : Bytes) (half r : Nat) {off : Nat} (h : off + 2 ≤ 0xf56) :
    word (refresh sim half r) off = word sim off := by
  by_cases hhalf : half = 0
  · simp only [refresh, hhalf, ne_eq, not_true_eq_false, if_false]
    exact word_put_ne _ (by omega)
  · simp only [refresh, ne_eq, hhalf, not_false_eq_true, if_true]
    rw [word_put_ne _ (by omega), word_put_ne _ (by omega)]

theorem expire_word (sim : Bytes) {off : Nat} (h : off + 2 ≤ cisr) :
    word (expire sim) off = word sim off := by
  unfold cisr at h
  unfold expire cisr
  dsimp only
  rw [word_put_ne _ (by omega), word_put_ne _ (by omega), word_put_ne _ (by omega),
    word_put_ne _ (by omega)]

theorem load_word (t : Countdown) (sim : Bytes) (idle : Bool) {off : Nat} (h : off + 2 ≤ 0xf54) :
    word (t.load sim idle).2 off = word sim off := by
  unfold Countdown.load
  dsimp only
  rw [word_put_ne _ (by omega), word_put_ne _ (by omega), word_put_ne _ (by omega)]

/-- The channel runs function 13, and the TPU is not stopped. -/
def Active (sim : Bytes) : Prop := stop sim = false ∧ timing sim = true

theorem Active.congr {sim sim' : Bytes} (h : Active sim)
    (hwords : ∀ off, off + 2 ≤ cisr → word sim' off = word sim off) : Active sim' := by
  obtain ⟨hstop, htiming⟩ := h
  constructor
  · rw [← hstop, stop, stop, hwords _ (by decide)]
  · rw [← htiming, timing, timing, hwords _ (by decide), hwords _ (by decide)]

/-! ## One poll -/

/-- The timers, the memory of the TPU and the polls that have reported the timeout. -/
structure Timed where
  timer : Countdown
  sim : Bytes
  expired : List Nat

/-- A poll of an idle line. -/
def Timed.poll (s : Timed) (now : Nat) : Timed :=
  let r := s.timer.advanceUart s.sim now true
  ⟨r.1, r.2.1, if r.2.2 then s.expired ++ [now] else s.expired⟩

namespace Timed

variable {s : Timed}

/-- The interval has been loaded, and the line has been idle since a poll that is not after `now`. -/
structure Counting (s : Timed) (now : Nat) : Prop where
  active : Active s.sim
  loaded : s.timer.uart.service = false
  idle : s.timer.uart.idle = true
  last : s.timer.uart.last ≤ now

theorem poll_over {now : Nat} (h : s.Counting now) (hover : s.timer.uart.remaining = none) :
    s.poll now = { s with timer := { s.timer with uart := { s.timer.uart with last := now } } } := by
  obtain ⟨⟨hstop, htiming⟩, hloaded, hidle, -⟩ := h
  unfold poll advanceUart
  simp [hstop, htiming, hloaded, hidle, hover]

theorem poll_counts {now r : Nat} (h : s.Counting now) (hr : s.timer.uart.remaining = some r)
    (hlt : now - s.timer.uart.last < r) :
    s.poll now =
      { s with
        timer := { s.timer with uart := { s.timer.uart with
          last := now, remaining := some (r - (now - s.timer.uart.last)) } }
        sim := refresh s.sim s.timer.uart.halfPeriod (r - (now - s.timer.uart.last)) } := by
  obtain ⟨⟨hstop, htiming⟩, hloaded, hidle, -⟩ := h
  have hleft : r - (now - s.timer.uart.last) ≠ 0 := by omega
  unfold poll advanceUart
  simp [hstop, htiming, hloaded, hidle, hr, hleft]

theorem poll_expires {now r : Nat} (h : s.Counting now) (hr : s.timer.uart.remaining = some r)
    (hge : r ≤ now - s.timer.uart.last) :
    s.poll now =
      { timer := { s.timer with uart := { s.timer.uart with last := now, remaining := none } }
        sim := expire (refresh s.sim s.timer.uart.halfPeriod 0)
        expired := s.expired ++ [now] } := by
  obtain ⟨⟨hstop, htiming⟩, hloaded, hidle, -⟩ := h
  have hleft : r - (now - s.timer.uart.last) = 0 := by omega
  unfold poll advanceUart
  simp [hstop, htiming, hloaded, hidle, hr, hleft]

theorem Counting.poll {a b : Nat} (h : s.Counting a) (hab : a ≤ b) : (s.poll a).Counting b := by
  have hactive (sim : Bytes) (hsim : ∀ off, off + 2 ≤ cisr → word sim off = word s.sim off) :
      Active sim := h.active.congr hsim
  cases hr : s.timer.uart.remaining with
  | none =>
    rw [poll_over h hr]
    exact ⟨h.active, h.loaded, h.idle, hab⟩
  | some r =>
    rcases Nat.lt_or_ge (a - s.timer.uart.last) r with hlt | hge
    · rw [poll_counts h hr hlt]
      exact ⟨hactive _ fun off hoff => refresh_word _ _ _ (by unfold cisr at hoff; omega), h.loaded,
        h.idle, hab⟩
    · rw [poll_expires h hr hge]
      refine ⟨hactive _ fun off hoff => ?_, h.loaded, h.idle, hab⟩
      rw [expire_word _ hoff, refresh_word _ _ _ (by unfold cisr at hoff; omega)]

/-- What the polls leave behind, but for when the timeout was reported. -/
def state (s : Timed) : Countdown × Bytes := (s.timer, s.sim)

/-- A poll does as much as one before it and itself. -/
theorem poll_poll {a b : Nat} (h : s.Counting a) (hab : a ≤ b) :
    ((s.poll a).poll b).state = (s.poll b).state := by
  have ha := h.poll hab
  have hb : s.Counting b := ⟨h.active, h.loaded, h.idle, Nat.le_trans h.last hab⟩
  have hlast := h.last
  cases hr : s.timer.uart.remaining with
  | none =>
    rw [poll_over h hr] at ha ⊢
    rw [poll_over ha hr, poll_over hb hr]
  | some r =>
    rcases Nat.lt_or_ge (a - s.timer.uart.last) r with hlt | hge
    · rw [poll_counts h hr hlt] at ha ⊢
      rcases Nat.lt_or_ge (b - s.timer.uart.last) r with hlt' | hge'
      · rw [poll_counts ha rfl (by dsimp only; omega), poll_counts hb hr hlt']
        have hleft : r - (a - s.timer.uart.last) - (b - a) = r - (b - s.timer.uart.last) := by omega
        simp only [state, refresh_refresh, hleft]
      · rw [poll_expires ha rfl (by dsimp only; omega), poll_expires hb hr hge']
        simp only [state, refresh_refresh]
    · rw [poll_expires h hr hge] at ha ⊢
      rw [poll_over ha rfl, poll_expires hb hr (by omega)]
      rfl

/-! ## Any number of polls -/

theorem run_state {times : List Nat} {t : Nat} (h : ∀ a ∈ times ++ [t], s.Counting a)
    (hsorted : (times ++ [t]).Pairwise (· ≤ ·)) :
    (run poll s (times ++ [t])).state = (s.poll t).state := by
  induction times generalizing s with
  | nil => rfl
  | cons a times ih =>
    obtain ⟨hfirst, hrest⟩ := List.pairwise_cons.mp hsorted
    have ha : s.Counting a := h a List.mem_cons_self
    have ht : t ∈ times ++ [t] := List.mem_append_right _ (List.mem_singleton.mpr rfl)
    rw [List.cons_append, run_cons, ih (fun b hb => ha.poll (hfirst b hb)) hrest]
    exact poll_poll ha (hfirst t ht)

theorem run_over {times : List Nat} (h : ∀ a ∈ times, s.Counting a)
    (hsorted : times.Pairwise (· ≤ ·)) (hover : s.timer.uart.remaining = none) :
    (run poll s times).expired = s.expired := by
  induction times generalizing s with
  | nil => rfl
  | cons a times ih =>
    obtain ⟨hfirst, hrest⟩ := List.pairwise_cons.mp hsorted
    have ha : s.Counting a := h a List.mem_cons_self
    have hpoll := poll_over ha hover
    rw [run_cons, ih (fun b hb => ha.poll (hfirst b hb)) hrest (by rw [hpoll]; exact hover), hpoll]

/-- The timeout is reported by the first poll at which the interval is over. -/
theorem run_counts {times : List Nat} (h : ∀ a ∈ times, s.Counting a)
    (hsorted : times.Pairwise (· ≤ ·)) {r : Nat} (hr : s.timer.uart.remaining = some r) :
    (run poll s times).expired =
      s.expired ++ (times.filter fun a => r ≤ a - s.timer.uart.last).take 1 := by
  induction times generalizing s r with
  | nil => simp
  | cons a times ih =>
    obtain ⟨hfirst, hrest⟩ := List.pairwise_cons.mp hsorted
    have ha : s.Counting a := h a List.mem_cons_self
    have hnext (b : Nat) (hb : b ∈ times) : (s.poll a).Counting b := ha.poll (hfirst b hb)
    rw [run_cons]
    rcases Nat.lt_or_ge (a - s.timer.uart.last) r with hlt | hge
    · have hpoll := poll_counts ha hr hlt
      rw [ih hnext hrest (by rw [hpoll]), hpoll, List.filter_cons_of_neg (by simpa using hlt)]
      congr 2
      refine List.filter_congr fun b hb => ?_
      have hle := hfirst b hb
      have hlast := ha.last
      dsimp only
      rw [decide_eq_decide]
      omega
    · have hpoll := poll_expires ha hr hge
      rw [run_over hnext hrest (by rw [hpoll]), hpoll, List.filter_cons_of_pos (by simpa using hge)]
      rfl

/-- The poll that loads the interval. -/
theorem poll_loads {t : Countdown} {sim : Bytes} (start : Nat) (hactive : Active sim)
    (hload : t.uart.service = true ∨ t.uart.idle = false) :
    let s := (⟨t, sim, []⟩ : Timed).poll start
    s.Counting start ∧ s.timer.uart.remaining = some (interval sim).1 ∧
      s.timer.uart.last = start ∧ s.expired = [] := by
  obtain ⟨hstop, htiming⟩ := hactive
  have hpoll : (⟨t, sim, []⟩ : Timed).poll start =
      ⟨{ t with uart := {
          service := false
          remaining := some (interval sim).1
          halfPeriod := (interval sim).2
          last := start
          idle := true } }, (t.load sim true).2, []⟩ := by
    unfold poll advanceUart
    simp [hstop, htiming, hload, Countdown.load]
  rw [hpoll]
  refine ⟨⟨?_, rfl, rfl, Nat.le_refl _⟩, rfl, rfl, rfl⟩
  exact Active.congr ⟨hstop, htiming⟩ fun off hoff =>
    load_word t sim true (by unfold cisr at hoff; omega)

/-- An interval that a poll has loaded: however often an idle line is polled from then on, the
timeout is reported once, by the first poll at which the interval is over, and what is left behind
depends on the time of the last poll alone. -/
theorem timeout_once (t : Countdown) (sim : Bytes) (start : Nat) (times : List Nat)
    (hactive : Active sim) (hload : t.uart.service = true ∨ t.uart.idle = false)
    (hsorted : (start :: times).Pairwise (· ≤ ·)) :
    let s := (⟨t, sim, []⟩ : Timed).poll start
    (run poll s times).expired = (times.filter fun a => (interval sim).1 ≤ a - start).take 1 ∧
      ∀ before last, times = before ++ [last] →
        (run poll s times).state = (s.poll last).state := by
  intro s
  obtain ⟨hcounting, hremaining, hlast, hexpired⟩ := poll_loads (t := t) start hactive hload
  obtain ⟨hfirst, hrest⟩ := List.pairwise_cons.mp hsorted
  have hcount : ∀ a ∈ times, s.Counting a := fun a ha =>
    ⟨hcounting.active, hcounting.loaded, hcounting.idle, Nat.le_trans hcounting.last (hfirst a ha)⟩
  constructor
  · rw [run_counts hcount hrest hremaining, hlast, hexpired]
    rfl
  · rintro before last rfl
    exact run_state hcount hrest

/-- An interval of 100 instructions. -/
def hundred : Bytes := put (put (put (fun _ => 0) 0xe10 0x00d0) 0xe1e 0x0400) 0xf52 100

theorem hundred_once :
    (run poll ((⟨.default, hundred, []⟩ : Timed).poll 5) [50, 104, 105, 300]).expired = [105] :=
  (timeout_once .default hundred 5 [50, 104, 105, 300] ⟨by decide, by decide⟩ (.inr rfl)
    (by decide)).1.trans (by decide)

end Timed

end OpenSaab.Tpu
