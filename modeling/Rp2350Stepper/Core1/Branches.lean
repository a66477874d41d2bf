import Rp2350Stepper.Core1.SpeedLimits

/-!
# The branches of a move

The branches `next_speed` takes over a move are the phases of its profile: it accelerates,
cruises and brakes, in this order, and cruises at exactly `max_speed`.
-/

namespace Rp2350Stepper.Core1

open Rp2350Stepper.Num Rp2350Stepper.Data Rp2350Stepper.Semantics

namespace Motion

section Branch

variable {F : Type} [SinglePrecision F]

local instance : Add F := ⟨SinglePrecision.add⟩
local instance : Sub F := ⟨SinglePrecision.sub⟩
local instance : Mul F := ⟨SinglePrecision.mul⟩
local instance : Div F := ⟨SinglePrecision.div⟩

/-- The branch `next_speed` takes. -/
def branch (m : Motion F) : Profile.Phase :=
  let brakeSteps := (m.speed * m.speed - minSpeedHz * minSpeedHz) / (SinglePrecision.ofNat 2 * m.decel)
  if m.remaining ≤ SinglePrecision.toInt32 (brakeSteps + SinglePrecision.ofNat 1) then .brake
  else if SinglePrecision.lt m.speed m.maxSpeed then .accelerate
  else .cruise

/-- What `next_speed` returns in each branch. -/
theorem nextSpeed_branch (m : Motion F) : m.nextSpeed =
    match m.branch with
    | .brake =>
        let v2 := m.speed * m.speed - SinglePrecision.ofNat 2 * m.decel
        if SinglePrecision.lt (minSpeedHz * minSpeedHz) v2 then SinglePrecision.sqrt v2
        else minSpeedHz
    | .accelerate =>
        let v2 := m.speed * m.speed + SinglePrecision.ofNat 2 * m.accel
        if SinglePrecision.lt v2 (m.maxSpeed * m.maxSpeed) then SinglePrecision.sqrt v2
        else m.maxSpeed
    | .cruise => m.maxSpeed := by
  simp only [nextSpeed, branch]
  split
  · rfl
  · split <;> rfl

end Branch

variable {m : Motion ℝ}

/-- `next_speed` can go on below the top exactly if its speed is below `max_speed`. -/
theorem speed_lt_iff (accepted : m.Accepted) (low : 50 ≤ m.speed) :
    m.speed < m.maxSpeed ↔ m.excess < (profile accepted).top := by
  have squares := sq_lt_sq₀ (by linarith : 0 ≤ m.speed) (by linarith [accepted.minSpeed] : 0 ≤ m.maxSpeed)
  rw [← squares]
  simp only [profile, excess]
  constructor <;> intro less <;> linarith

/-- The branch is the phase of the profile. -/
theorem branch_eq_phase (accepted : m.Accepted) (low : 50 ≤ m.speed) :
    m.branch = (profile accepted).phase m.remaining m.excess := by
  have exact : m.branch =
      if m.remaining ≤ ⌊(m.speed * m.speed - 50 * 50) / (2 * m.decel) + 1⌋ then .brake
      else if m.speed < m.maxSpeed then .accelerate
      else .cruise := by
    unfold branch
    simp only [minSpeedHz_exact, SinglePrecision.ofNat_exact, Nat.cast_ofNat, Nat.cast_one,
      SinglePrecision.lt, decide_eq_true_eq]
    rfl
  rw [exact, Profile.phase]
  simp only [brakingDue_iff accepted, speed_lt_iff accepted low]

end Motion

section Feeding

variable {m : Motion ℝ} {accepted : m.Accepted} {calls : List (MotionCall ℝ)}
  {pushes : List (Push ℝ)} {finish : Motion ℝ}

/-- The parameters of a move. -/
def SameParameters (m other : Motion ℝ) : Prop :=
  other.maxSpeed = m.maxSpeed ∧ other.accel = m.accel ∧ other.decel = m.decel

/-- `feed_step` leaves the parameters alone. -/
theorem parameters_of_run {steps : Int}
    (run : (moves ℝ).Run Feeding (m.motionStart steps) calls pushes finish) :
    SameParameters m finish ∧ ∀ push ∈ pushes, SameParameters m push.before := by
  refine run.invariant (fun s pushes => SameParameters m s ∧
    ∀ push ∈ pushes, SameParameters m push.before) ?_ ?_
  · exact ⟨⟨rfl, rfl, rfl⟩, nofun⟩
  · rintro s pushes call pushed next ⟨same, all⟩ rfl stepped
    rcases feed_cases stepped with ⟨_, rfl, rfl⟩ | ⟨_, _, rfl, rfl⟩ | ⟨_, _, _, rfl, rfl⟩
    · exact ⟨same, by simpa using all⟩
    · exact ⟨same, by simpa using all⟩
    · refine ⟨same, fun push member => ?_⟩
      rcases List.mem_append.mp member with earlier | here
      · exact all push earlier
      · rw [List.mem_singleton.mp here]
        exact same

/-- The phase of a push, by its index. -/
theorem Follows.branch {steps index : Nat} {push : Push ℝ} (follows : Follows accepted steps index push)
    (same : SameParameters m push.before) : push.before.branch =
      (Motion.profile accepted).phase (steps - index)
        ((Motion.profile accepted).after steps index) := by
  obtain ⟨maxSpeed, accel, decel⟩ := same
  have own : push.before.Accepted := accepted.of_same maxSpeed accel decel
  have profile : Motion.profile own = Motion.profile accepted := by
    simp only [Motion.profile, maxSpeed, accel, decel]
  rw [Motion.branch_eq_phase own follows.low, profile, follows.remaining, follows.before]

/-- A push in the cruise branch is at `max_speed`. -/
theorem Follows.cruise {steps index : Nat} {push : Push ℝ} (follows : Follows accepted steps index push)
    (same : SameParameters m push.before) (cruising : push.before.branch = .cruise) :
    push.before.speed = m.maxSpeed := by
  obtain ⟨maxSpeed, accel, decel⟩ := same
  have own : push.before.Accepted := accepted.of_same maxSpeed accel decel
  have profile : Motion.profile own = Motion.profile accepted := by
    simp only [Motion.profile, maxSpeed, accel, decel]
  have above : ¬push.before.speed < m.maxSpeed := by
    rw [Motion.branch_eq_phase own follows.low, Profile.phase] at cruising
    rw [← maxSpeed, Motion.speed_lt_iff own follows.low]
    intro below
    rw [if_pos below] at cruising
    split at cruising <;> cases cruising
  have below : push.before.excess ≤ (Motion.profile accepted).top := by
    rw [follows.before]
    exact Profile.after_le_top
  simp only [Motion.excess, Motion.profile] at below
  have low := follows.low
  have least := accepted.minSpeed
  nlinarith [not_lt.mp above]

/-- The branches of a move are `accelerate`, then `cruise`, then `brake`, each for some steps or
none, and it cruises at exactly `max_speed`. -/
theorem branches_trapezoidal (accepted : m.Accepted) {steps : Int} (low : -2 ^ 31 < steps)
    (high : steps < 2 ^ 31)
    (run : (moves ℝ).Run Feeding (m.motionStart steps) calls pushes finish) :
    (∃ up level down, pushes.map (·.before.branch) = List.replicate up .accelerate ++
      List.replicate level .cruise ++ List.replicate down .brake) ∧
    ∀ push ∈ pushes, push.before.branch = .cruise → push.before.speed = m.maxSpeed := by
  have fed : Fed accepted steps.natAbs finish pushes := fed_of_run low high run
  have same := (parameters_of_run run).2
  constructor
  · apply Profile.Phase.stretches
    rw [List.pairwise_iff_getElem]
    intro earlier later bound bound' less
    rw [List.length_map] at bound bound'
    rw [List.getElem_map, List.getElem_map,
      (fed.follows earlier bound).branch (same _ (List.getElem_mem bound)),
      (fed.follows later bound').branch (same _ (List.getElem_mem bound'))]
    exact Profile.phase_mono less.le
  · intro push member
    obtain ⟨index, _, follows⟩ := fed.of_mem member
    exact follows.cruise (same push member)

/-- Three steps with the parameters after a reset. -/
theorem reset_move_trapezoidal : ∃ calls pushes finish,
    (moves ℝ).Run Feeding (Motion.initial.motionStart 3) calls pushes finish ∧
    ∃ up level down, pushes.map (·.before.branch) = List.replicate up .accelerate ++
      List.replicate level .cruise ++ List.replicate down .brake := by
  obtain ⟨pushes, finish, run, _⟩ :=
    feeding_completes Motion.initial (by norm_num : -2 ^ 31 < (3 : Int)) (by norm_num)
  exact ⟨_, pushes, finish, run,
    (branches_trapezoidal initial_accepted (by norm_num) (by norm_num) run).1⟩

end Feeding
end Rp2350Stepper.Core1
