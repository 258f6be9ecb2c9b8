import OpenSaab.Candi.Peripherals
import OpenSaab.Candi.Sja1000

/-!
# Interrupts of the CANdi

`candi/cpu.rs`: the request that the bus reports, and the vector that it answers with when the request
is acknowledged.
-/

namespace OpenSaab.Candi

/-! ## The highest request -/

namespace Peripherals

theorem highest_append (rs : List (UInt8 × UInt32)) (r : UInt8 × UInt32) :
    highest (rs ++ [r]) = match highest rs with
      | none => some r
      | some b => if r.1 < b.1 then some b else some r := by
  rw [highest, List.foldl_append]
  rfl

theorem highest_mem {rs : List (UInt8 × UInt32)} {r : UInt8 × UInt32} (h : highest rs = some r) :
    r ∈ rs := by
  induction rs using List.reverseRecOn generalizing r with
  | nil => cases h
  | append_singleton rs x ih =>
    rw [highest_append] at h
    cases hbest : highest rs with
    | none =>
      rw [hbest] at h
      obtain rfl := Option.some.inj h
      simp
    | some b =>
      rw [hbest] at h
      dsimp only at h
      split at h
      · obtain rfl := Option.some.inj h
        exact List.mem_append_left _ (ih hbest)
      · obtain rfl := Option.some.inj h
        simp

theorem highest_eq_none {rs : List (UInt8 × UInt32)} (h : highest rs = none) : rs = [] := by
  induction rs using List.reverseRecOn with
  | nil => rfl
  | append_singleton rs x ih =>
    rw [highest_append] at h
    cases hbest : highest rs with
    | none => simp [hbest] at h
    | some b =>
      rw [hbest] at h
      dsimp only at h
      split at h <;> cases h

/-- The requests of the three devices. -/
def requests (p : Peripherals) : List (UInt8 × UInt32) :=
  p.sciRequest.toList ++ p.pitRequest.toList ++ p.gptRequest.toList

end Peripherals

/-! ## The bus -/

/-- A controller requests when an interrupt is flagged, or a frame is in the queue and its interrupt is
enabled. -/
def Controller.interrupt (c : Controller) : Bool :=
  getElem c.registers 3 pending_lt != 0 ||
    (!c.rx.isEmpty && getElem c.registers 4 interrupts_lt &&& 1 != 0)

/-- The level and the vector of each controller in `ROUTES`. -/
def interruptRoutes : List (UInt8 × UInt32) := [(4, 28), (3, 27), (2, 26)]

/-- The part of the bus that interrupts come from. -/
structure Bus where
  peripherals : Peripherals
  can : Option (Vector Controller 3)

namespace Bus

/-- The requests of the controllers whose pin is assigned. -/
def canRequests (b : Bus) : List (UInt8 × UInt32) :=
  match b.can with
  | none => []
  | some chips =>
    (chips.toList.zip interruptRoutes).filterMap fun (c, route) =>
      if c.interrupt ∧ b.peripherals.externalIrqEnabled route.1 then some route else none

def canInterrupt (b : Bus) : Option (UInt8 × UInt32) := Peripherals.highest b.canRequests

def interrupt (b : Bus) : Option (UInt8 × UInt32) :=
  Peripherals.highest (b.peripherals.interrupt.toList ++ b.canInterrupt.toList)

/-- All ones when nothing requests at the level. -/
def interruptAcknowledge (b : Bus) (level : UInt8) : UInt32 × Bus :=
  if b.canInterrupt.any (·.1 == level) then (24 + level.toUInt32, b)
  else
    let (vector, peripherals) := b.peripherals.acknowledge level
    (vector, { b with peripherals })

/-! ## Acknowledgement -/

/-- The vectors in the routes are the autovectors of the levels. -/
theorem interruptRoutes_vector {route : UInt8 × UInt32} (h : route ∈ interruptRoutes) :
    route.2 = 24 + route.1.toUInt32 := by
  have hall : interruptRoutes.all (fun r => r.2 == 24 + r.1.toUInt32) = true := by decide
  exact beq_iff_eq.mp (List.all_eq_true.mp hall route h)

theorem canRequests_vector {b : Bus} {r : UInt8 × UInt32} (h : r ∈ b.canRequests) :
    r.2 = 24 + r.1.toUInt32 := by
  unfold canRequests at h
  split at h
  · cases h
  next chips =>
    obtain ⟨⟨c, route⟩, hmem, hroute⟩ := List.mem_filterMap.mp h
    dsimp only at hroute
    split at hroute
    · obtain rfl := Option.some.inj hroute
      exact interruptRoutes_vector (List.of_mem_zip hmem).2
    · cases hroute

/-- The vector of the peripherals at a level. -/
theorem acknowledge_peripherals (p : Peripherals) (level : UInt8) : (p.acknowledge level).1 =
    match p.interrupt with
    | some (priority, vector) => if priority = level then vector else 0xffffffff
    | none => 0xffffffff := by
  unfold Peripherals.acknowledge
  rcases p.interrupt with _ | ⟨priority, vector⟩
  · rfl
  · by_cases hlevel : priority = level
    · simp only [if_pos hlevel]
    · simp only [if_neg hlevel]

theorem acknowledge_can {b : Bus} {level : UInt8} {vector : UInt32}
    (h : b.canInterrupt = some (level, vector)) : (b.interruptAcknowledge level).1 = vector := by
  have hvector : vector = 24 + level.toUInt32 := canRequests_vector (Peripherals.highest_mem h)
  rw [interruptAcknowledge, h, if_pos (by simp), hvector]

theorem acknowledge_other {b : Bus} {level : UInt8} (h : ∀ r, b.canInterrupt = some r → r.1 ≠ level) :
    (b.interruptAcknowledge level).1 = (b.peripherals.acknowledge level).1 := by
  unfold interruptAcknowledge
  split
  next hany =>
    obtain ⟨r, hr, hlevel⟩ := (Option.any_eq_true ..).mp hany
    exact absurd (beq_iff_eq.mp hlevel) (h r hr)
  · rfl

/-- Between the two highest requests the controllers come first. -/
theorem interrupt_cases (b : Bus) :
    b.interrupt = none ∧ b.canInterrupt = none ∧ b.peripherals.interrupt = none ∨
      (∃ r, b.interrupt = some r ∧ b.canInterrupt = some r) ∨
      ∃ r, b.interrupt = some r ∧ b.peripherals.interrupt = some r ∧
        ∀ c, b.canInterrupt = some c → c.1 ≠ r.1 := by
  unfold interrupt
  cases hp : b.peripherals.interrupt with
  | none =>
    cases hc : b.canInterrupt with
    | none => exact .inl ⟨rfl, rfl, rfl⟩
    | some c => exact .inr (.inl ⟨c, rfl, rfl⟩)
  | some r =>
    cases hc : b.canInterrupt with
    | none => exact .inr (.inr ⟨r, rfl, rfl, fun c h => by cases h⟩)
    | some c =>
      have hbest : Peripherals.highest [r, c] = if c.1 < r.1 then some r else some c := rfl
      by_cases hlt : c.1 < r.1
      · refine .inr (.inr ⟨r, hbest.trans (if_pos hlt), rfl, ?_⟩)
        rintro c' ⟨⟩ heq
        exact UInt8.lt_irrefl _ (heq ▸ hlt)
      · exact .inr (.inl ⟨c, hbest.trans (if_neg hlt), rfl⟩)

/-- Every request of a device, with its level and its vector. -/
def requests (b : Bus) : List (UInt8 × UInt32) := b.peripherals.requests ++ b.canRequests

/-- An answer is all ones, or it is the vector of a device that requests at the level. -/
theorem acknowledge_requested (b : Bus) (level : UInt8) :
    (b.interruptAcknowledge level).1 = 0xffffffff ∨
      (level, (b.interruptAcknowledge level).1) ∈ b.requests := by
  by_cases hcan : ∃ vector, b.canInterrupt = some (level, vector)
  · obtain ⟨vector, h⟩ := hcan
    rw [acknowledge_can h]
    exact .inr (List.mem_append_right _ (Peripherals.highest_mem h))
  rw [acknowledge_other fun r hr hlevel => hcan ⟨r.2, by rw [hr, ← hlevel]⟩, acknowledge_peripherals]
  cases hp : b.peripherals.interrupt with
  | none => exact .inl rfl
  | some r =>
    obtain ⟨priority, vector⟩ := r
    dsimp only
    split
    next heq =>
      subst heq
      exact .inr (List.mem_append_left _ (Peripherals.highest_mem hp))
    · exact .inl rfl

/-- The level that the bus reports is answered with the vector that it reports. Without a report no
device requests, and every level is answered with all ones. -/
theorem interrupt_acknowledged (b : Bus) :
    (∀ level vector, b.interrupt = some (level, vector) →
        (b.interruptAcknowledge level).1 = vector) ∧
      (b.interrupt = none → b.requests = [] ∧
        ∀ level, (b.interruptAcknowledge level).1 = 0xffffffff) ∧
      ∀ level, (b.interruptAcknowledge level).1 = 0xffffffff ∨
        (level, (b.interruptAcknowledge level).1) ∈ b.requests := by
  refine ⟨?_, ?_, b.acknowledge_requested⟩
  · intro level vector h
    rcases b.interrupt_cases with ⟨hnone, -⟩ | ⟨r, hr, hcan⟩ | ⟨r, hr, hp, hother⟩
    · rw [hnone] at h
      cases h
    · obtain rfl := Option.some.inj (hr.symm.trans h)
      exact acknowledge_can hcan
    · obtain rfl := Option.some.inj (hr.symm.trans h)
      rw [acknowledge_other hother, acknowledge_peripherals, hp]
      exact if_pos rfl
  · intro h
    rcases b.interrupt_cases with ⟨-, hcan, hp⟩ | ⟨r, hr, -⟩ | ⟨r, hr, -⟩
    · have hrequests : b.requests = [] := by
        rw [requests, Peripherals.requests, Peripherals.highest_eq_none hp,
          Peripherals.highest_eq_none hcan]
        rfl
      refine ⟨hrequests, fun level => ?_⟩
      rcases b.acknowledge_requested level with hones | hmem
      · exact hones
      · rw [hrequests] at hmem
        cases hmem
    · rw [h] at hr
      cases hr
    · rw [h] at hr
      cases hr

end Bus

end OpenSaab.Candi
