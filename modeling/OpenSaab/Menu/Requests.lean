import OpenSaab.Menu.Discipline

/-!
# A session of requests

Nothing is kept between two requests: each carries the state that the answer before gave. What is
answered is what the navigator would do, however many requests there are.
-/

namespace OpenSaab.Menu

open Text Json

namespace Navigator

/-- The screens that it remembers are whole in a request. -/
structure Fits (n : Navigator) : Prop where
  candidate : n.candidate.length ≤ screenLimit
  sent : n.sent.length ≤ screenLimit

theorem new_fits (target : Target) (vin : Chars) (join : Bool) : (new target vin join).Fits := by
  unfold new
  dsimp only
  split
  · exact ⟨Nat.zero_le _, Nat.zero_le _⟩
  · exact ⟨Nat.zero_le _, Nat.zero_le _⟩

theorem Fits.step {n : Navigator} (h : n.Fits) {screen : Chars} (hscreen : screen.length ≤ screenLimit)
    (now : UInt64) : (n.step screen now).1.Fits := by
  have hpropose := n.propose_spec screen now
  unfold Navigator.step
  generalize n.propose screen now = r at hpropose
  cases hpropose with
  | waits => exact h
  | ends hdone hsame =>
    refine ⟨?_, ?_⟩
    · rw [hsame.candidate]
      exact h.candidate
    · rw [hsame.sent]
      exact h.sent
  | shows => exact ⟨Nat.le_trans (length_trim_le screen) hscreen, h.sent⟩
  | rests => exact ⟨h.candidate, h.sent⟩
  | sends =>
    refine ⟨?_, ?_⟩
    · rw [commit_candidate]
      exact h.candidate
    · rw [commit_sent]
      exact h.candidate

end Navigator

/-! ## Requests -/

inductive Request where
  | look (screen : Chars) (now : UInt64)
  | cancel

def Request.value (navigation : Value) : Request → Value
  | .look screen now => continued navigation screen now
  | .cancel => .object [("navigation", navigation), ("cancel", .bool true)]

/-- The first request of a shortcut. -/
def opening (target : Target) (vin : Chars) (fullControl : Bool) : Value :=
  .object
    [("target", .string target.name), ("vin", .string (String.ofList vin)),
      ("full_control", .bool fullControl)]

/-- The answers to requests of which each carries the state in the answer before. -/
def serve (navigation : Value) : List Request → Except String (List Value)
  | [] => .ok []
  | r :: rs => do
    let answer ← dispatch (r.value navigation)
    let answers ← serve (answer.get "navigation") rs
    .ok (answer :: answers)

namespace Navigator

/-- What a request does to a navigator that is kept. -/
def react (n : Navigator) : Request → Navigator × Option UInt8
  | .look screen now => n.step screen now
  | .cancel => (n.cancel, none)

/-- The answers of a navigator that is kept. -/
def answers (n : Navigator) : List Request → List Value
  | [] => []
  | r :: rs => (n.react r).1.answer (n.react r).2 :: (n.react r).1.answers rs

end Navigator

/-- The screen of a request is not cut. -/
def Request.Short : Request → Prop
  | .look screen _ => screen.length ≤ screenLimit
  | .cancel => True

theorem Navigator.Fits.react {n : Navigator} (h : n.Fits) {r : Request} (hr : r.Short) :
    (n.react r).1.Fits := by
  cases r with
  | look screen now => exact h.step hr now
  | cancel => exact ⟨h.candidate, h.sent⟩

theorem dispatch_react {n : Navigator} (h : n.Fits) (r : Request) :
    dispatch (r.value n.toJson) = .ok ((n.react r).1.answer (n.react r).2) := by
  cases r with
  | look screen now => exact dispatch_continued n h.candidate h.sent screen now
  | cancel =>
    have hnavigation : ((Request.cancel).value n.toJson).get "navigation" = n.toJson := rfl
    have hcancel : (((Request.cancel).value n.toJson).get "cancel").isTrue = true := rfl
    have hresumed : resumed ((Request.cancel).value n.toJson) = .ok (some n) := by
      unfold resumed
      rw [hnavigation, if_pos (show n.toJson.isObject = true from rfl),
        Navigator.fromJson_toJson n h.candidate h.sent]
    unfold dispatch
    rw [hresumed, hcancel]
    rfl

theorem serve_answers {n : Navigator} (h : n.Fits) {requests : List Request}
    (hshort : ∀ r ∈ requests, r.Short) : serve n.toJson requests = .ok (n.answers requests) := by
  induction requests generalizing n with
  | nil => rfl
  | cons r rs ih =>
    obtain ⟨hr, hrs⟩ := List.forall_mem_cons.mp hshort
    have hnavigation :
        ((n.react r).1.answer (n.react r).2).get "navigation" = (n.react r).1.toJson := rfl
    rw [serve, dispatch_react h r]
    change (serve (((n.react r).1.answer (n.react r).2).get "navigation") rs >>= fun answers => _) = _
    rw [hnavigation, ih (h.react hr) hrs]
    rfl

theorem dispatch_opening {target : Target} (vin : Chars) {fullControl : Bool}
    (hfull : target.needsFullControl = true → fullControl = true) :
    dispatch (opening target vin fullControl) = .ok ((Navigator.new target vin true).answer none) := by
  have htarget : ((opening target vin fullControl).get "target").asStr = some target.name := rfl
  have hvin : ((opening target vin fullControl).get "vin").asStr = some (String.ofList vin) := rfl
  have hnone : ((opening target vin fullControl).get "navigation").isObject = false := rfl
  have hcontrol : ((opening target vin fullControl).get "full_control").isTrue = fullControl := by
    cases fullControl <;> rfl
  have hresumed : resumed (opening target vin fullControl) = .ok (some (.new target vin true)) := by
    unfold resumed
    rw [if_neg (Bool.eq_false_iff.mp hnone), htarget, hvin, hcontrol]
    simp only [Option.getD_some, Target.parse_name, String.toList_ofList]
    rw [if_neg fun hneeds => hneeds.2 (hfull hneeds.1)]
  unfold dispatch
  rw [hresumed]
  rfl

/-- A session of a shortcut, from its first request on: the requests are answered as by one navigator
that is kept and sees the same screens and cancellations. -/
theorem session_served (target : Target) (vin : Chars) {fullControl : Bool}
    (hfull : target.needsFullControl = true → fullControl = true) {requests : List Request}
    (hshort : ∀ r ∈ requests, r.Short) :
    ∃ first, dispatch (opening target vin fullControl) = .ok first ∧
      serve (first.get "navigation") requests = .ok ((Navigator.new target vin true).answers requests) :=
  ⟨_, dispatch_opening vin hfull, serve_answers (Navigator.new_fits target vin true) hshort⟩

/-- The operator takes over while the main menu is shown. -/
theorem cancelled_session :
    ∃ first, dispatch (opening .readDtc "YS3FD49YX41000001".toList false) = .ok first ∧
      serve (first.get "navigation") [.look "Main Menu".toList 10, .cancel] =
        .ok ((Navigator.new .readDtc "YS3FD49YX41000001".toList true).answers
          [.look "Main Menu".toList 10, .cancel]) :=
  session_served .readDtc "YS3FD49YX41000001".toList (by decide) (by
    intro r hr
    simp only [List.mem_cons, List.not_mem_nil, or_false] at hr
    rcases hr with rfl | rfl
    · exact (by decide : "Main Menu".toList.length ≤ screenLimit)
    · exact trivial)

end OpenSaab.Menu
