import Rp2350Stepper.Core1.Moves
import Rp2350Stepper.Num.ExactArithmetic
import Rp2350Stepper.Num.SpeedProfile
import Mathlib.Tactic.NormNum

/-!
# The speeds of a move

Over exact arithmetic, `next_speed` is a step of a speed profile in the squared speed above
that of `MIN_SPEED_HZ`: it rises by at most twice `accel`, falls by at most twice `decel`,
and stays below that of `max_speed`.
-/

namespace Rp2350Stepper.Core1

open Rp2350Stepper.Num Rp2350Stepper.Data Rp2350Stepper.Semantics

namespace Motion

/-- The parameters are ones the commands accept. -/
structure Accepted (m : Motion ℝ) : Prop where
  minSpeed : 50 ≤ m.maxSpeed
  maxSpeed : m.maxSpeed ≤ 160000
  accel_pos : 0 < m.accel
  accel : m.accel ≤ 2666666
  decel_pos : 0 < m.decel
  decel : m.decel ≤ 2666666

/-- The same parameters are accepted. -/
theorem Accepted.of_same {m next : Motion ℝ} (accepted : m.Accepted)
    (maxSpeed : next.maxSpeed = m.maxSpeed) (accel : next.accel = m.accel)
    (decel : next.decel = m.decel) : next.Accepted := by
  obtain ⟨minSpeed, top, accel_pos, accel_le, decel_pos, decel_le⟩ := accepted
  exact ⟨maxSpeed ▸ minSpeed, maxSpeed ▸ top, accel ▸ accel_pos, accel ▸ accel_le,
    decel ▸ decel_pos, decel ▸ decel_le⟩

/-- The lowest speed in the reals. -/
theorem minSpeedHz_exact : (minSpeedHz : ℝ) = 50 := by
  show ((50 : ℕ) : ℝ) = 50
  norm_num

/-- `next_speed`, over exact arithmetic. -/
theorem nextSpeed_exact (m : Motion ℝ) : m.nextSpeed =
    if m.remaining ≤ ⌊(m.speed * m.speed - 50 * 50) / (2 * m.decel) + 1⌋ then
      if 50 * 50 < m.speed * m.speed - 2 * m.decel then √(m.speed * m.speed - 2 * m.decel) else 50
    else if m.speed < m.maxSpeed then
      if m.speed * m.speed + 2 * m.accel < m.maxSpeed * m.maxSpeed then
        √(m.speed * m.speed + 2 * m.accel)
      else m.maxSpeed
    else m.maxSpeed := by
  unfold nextSpeed
  simp only [minSpeedHz_exact, SinglePrecision.ofNat_exact, Nat.cast_ofNat, Nat.cast_one,
    SinglePrecision.lt, decide_eq_true_eq]
  rfl

/-- The squared speed above that of `MIN_SPEED_HZ`. -/
def excess (m : Motion ℝ) : ℝ := m.speed ^ 2 - 50 ^ 2

/-- The profile of the parameters. -/
def profile {m : Motion ℝ} (accepted : m.Accepted) : Profile ℝ where
  rise := 2 * m.accel
  fall := 2 * m.decel
  top := m.maxSpeed ^ 2 - 50 ^ 2
  rise_pos := mul_pos two_pos accepted.accel_pos
  fall_pos := mul_pos two_pos accepted.decel_pos
  top_nonneg := by nlinarith [accepted.minSpeed]

/-- Braking is not due, and `max_speed` is below what one step of deceleration leaves. -/
def Overspeed (m : Motion ℝ) : Prop :=
  ⌊(m.speed * m.speed - 50 * 50) / (2 * m.decel) + 1⌋ < m.remaining ∧
    m.maxSpeed ^ 2 < m.speed ^ 2 - 2 * m.decel

variable {m : Motion ℝ}

/-- The braking test is that of the profile. -/
theorem brakingDue_iff (accepted : m.Accepted) :
    m.remaining ≤ ⌊(m.speed * m.speed - 50 * 50) / (2 * m.decel) + 1⌋ ↔
      (profile accepted).BrakingDue m.remaining m.excess := by
  have positive : 0 < 2 * m.decel := (profile accepted).fall_pos
  have squares : m.speed * m.speed - 50 * 50 = m.excess := by
    unfold excess
    ring
  rw [Int.le_floor, squares, ← sub_le_iff_le_add, le_div_iff₀ positive]
  exact Iff.rfl

/-- A root of a square of at least that of `MIN_SPEED_HZ`. -/
private theorem sqrt_spec {square : ℝ} (high : 50 ^ 2 ≤ square) :
    50 ≤ √square ∧ √square ^ 2 = square :=
  ⟨Real.le_sqrt_of_sq_le high, Real.sq_sqrt (le_trans (by norm_num) high)⟩

/-- The square of the next speed is the next step of the profile. -/
theorem nextSpeed_profile (accepted : m.Accepted) (low : 50 ≤ m.speed) :
    50 ≤ m.nextSpeed ∧
      m.nextSpeed ^ 2 - 50 ^ 2 = (profile accepted).next m.remaining m.excess := by
  have rise : 0 < 2 * m.accel := (profile accepted).rise_pos
  have top : 50 ≤ m.maxSpeed := accepted.minSpeed
  have square : m.speed * m.speed = m.excess + 50 ^ 2 := by
    unfold excess
    ring
  have nonneg : 0 ≤ m.excess := by
    unfold excess
    nlinarith
  rw [nextSpeed_exact]
  by_cases due : m.remaining ≤ ⌊(m.speed * m.speed - 50 * 50) / (2 * m.decel) + 1⌋
  · rw [if_pos due, Profile.next, if_pos ((brakingDue_iff accepted).mp due)]
    split
    · rename_i above
      obtain ⟨bound, root⟩ := sqrt_spec (by linarith : 50 ^ 2 ≤ m.speed * m.speed - 2 * m.decel)
      refine ⟨bound, ?_⟩
      rw [root, max_eq_left]
      · simp only [profile]
        linarith
      · simp only [profile]
        linarith
    · rename_i braked
      refine ⟨le_rfl, ?_⟩
      rw [sub_self, max_eq_right]
      simp only [profile]
      linarith
  · rw [if_neg due, Profile.next, if_neg fun still => due ((brakingDue_iff accepted).mpr still)]
    have faster : m.speed < m.maxSpeed ↔ m.excess < (profile accepted).top := by
      have squares := sq_lt_sq₀ (by linarith : 0 ≤ m.speed) (by linarith : 0 ≤ m.maxSpeed)
      rw [← squares]
      simp only [profile, excess]
      constructor <;> intro less <;> linarith
    by_cases below : m.speed < m.maxSpeed
    · rw [if_pos below, if_pos (faster.mp below)]
      split
      · rename_i under
        obtain ⟨bound, root⟩ := sqrt_spec (by linarith : 50 ^ 2 ≤ m.speed * m.speed + 2 * m.accel)
        refine ⟨bound, ?_⟩
        rw [root, min_eq_left]
        · simp only [profile]
          linarith
        · simp only [profile]
          linarith
      · rename_i exceeded
        refine ⟨top, ?_⟩
        rw [min_eq_right]
        · rfl
        · simp only [profile]
          linarith
    · rw [if_neg below, if_neg fun less => below (faster.mpr less)]
      exact ⟨top, rfl⟩

end Motion

/-! ### A move under constant parameters -/

section Feeding

variable {m : Motion ℝ} (accepted : m.Accepted) (steps : Nat)

/-- A push, by its index, follows the profile. -/
structure Follows (index : Nat) (push : Push ℝ) : Prop where
  remaining : push.before.remaining = steps - index
  low : 50 ≤ push.before.speed
  before : push.before.excess = (Motion.profile accepted).after steps index
  lowAfter : 50 ≤ push.after.speed
  after : push.after.excess = (Motion.profile accepted).after steps (index + 1)

/-- `M` during a move, and its pushes so far. -/
structure Fed (s : Motion ℝ) (pushes : List (Push ℝ)) : Prop where
  maxSpeed : s.maxSpeed = m.maxSpeed
  accel : s.accel = m.accel
  decel : s.decel = m.decel
  stopReq : s.stopReq = false
  count : (pushes.length : Int) + s.remaining = steps
  left : 0 ≤ s.remaining
  moving : s.state = .moving → 50 ≤ s.speed ∧
    s.excess = (Motion.profile accepted).after steps pushes.length
  follows : ∀ index (bound : index < pushes.length), Follows accepted steps index pushes[index]

variable {accepted steps}

/-- While steps are fed the parameters stay. -/
theorem Fed.parameters {s : Motion ℝ} {pushes : List (Push ℝ)} (fed : Fed accepted steps s pushes) :
    ∃ same : s.Accepted, Motion.profile same = Motion.profile accepted := by
  obtain ⟨maxSpeed, accel, decel, _⟩ := fed
  refine ⟨accepted.of_same maxSpeed accel decel, ?_⟩
  simp only [Motion.profile, maxSpeed, accel, decel]

/-- One more step is fed. -/
theorem Fed.feed {s next : Motion ℝ} {pushes pushed : List (Push ℝ)}
    (fed : Fed accepted steps s pushes) (stepped : motionStep s .feed = some (pushed, next)) :
    Fed accepted steps next (pushes ++ pushed) := by
  rcases feed_cases stepped with
    ⟨_, rfl, rfl⟩ | ⟨_, _, rfl, rfl⟩ | ⟨moving, stopReq, remaining, rfl, rfl⟩
  · rwa [List.append_nil]
  · rw [List.append_nil]
    exact ⟨fed.maxSpeed, fed.accel, fed.decel, rfl, fed.count, fed.left, nofun, fed.follows⟩
  · obtain ⟨low, excess⟩ := fed.moving moving
    obtain ⟨same, profile⟩ := fed.parameters
    obtain ⟨lowAfter, stepped⟩ := Motion.nextSpeed_profile same low
    have count := fed.count
    have left : s.remaining = steps - pushes.length := by omega
    rw [profile, excess, left] at stepped
    have follows : Follows accepted steps pushes.length ⟨s, s.pushed⟩ :=
      ⟨left, low, excess, lowAfter, stepped⟩
    have fewer : s.pushed.remaining = s.remaining - 1 := rfl
    refine ⟨fed.maxSpeed, fed.accel, fed.decel, fed.stopReq, ?_, by omega, fun _ => ⟨lowAfter, ?_⟩, ?_⟩
    · rw [List.length_append, List.length_singleton]
      omega
    · rw [List.length_append]
      exact follows.after
    · intro index bound
      rw [List.length_append, List.length_singleton] at bound
      rcases Nat.lt_succ_iff_lt_or_eq.mp bound with earlier | rfl
      · rw [List.getElem_append_left earlier]
        exact fed.follows index earlier
      · rw [List.getElem_append_right le_rfl]
        simpa using follows

/-- A move whose step count is in range loads its magnitude, and follows the profile. -/
theorem fed_of_run {steps : Int} (low : -2 ^ 31 < steps) (high : steps < 2 ^ 31)
    {calls : List (MotionCall ℝ)} {pushes : List (Push ℝ)} {finish : Motion ℝ}
    (run : (moves ℝ).Run Feeding (m.motionStart steps) calls pushes finish) :
    Fed accepted steps.natAbs finish pushes := by
  refine run.invariant (Fed accepted steps.natAbs) ?_ ?_
  · have remaining := m.motionStart_remaining low high
    have speed : (m.motionStart steps).speed = 50 := Motion.minSpeedHz_exact
    refine ⟨rfl, rfl, rfl, rfl, by simp [remaining], by omega, fun _ => ⟨speed.ge, ?_⟩, nofun⟩
    rw [Motion.excess, speed, sub_self]
    rfl
  · rintro s pushes call pushed next fed rfl stepped
    exact fed.feed stepped

/-- Repeated `feed_step` pushes a step each time, as long as some are left. -/
theorem feeding_run (m : Motion ℝ) {steps : Int} (low : -2 ^ 31 < steps) (high : steps < 2 ^ 31)
    {count : Nat} (bound : count ≤ steps.natAbs) : ∃ (pushes : List (Push ℝ)) (finish : Motion ℝ),
      (moves ℝ).Run Feeding (m.motionStart steps) (List.replicate count .feed) pushes finish ∧
      finish.state = .moving ∧ finish.stopReq = false ∧ finish.remaining = steps.natAbs - count := by
  induction count with
  | zero => exact ⟨[], _, .refl, rfl, rfl, by simp [m.motionStart_remaining low high]⟩
  | succ count inductionHypothesis =>
      obtain ⟨pushes, s, run, moving, stopReq, remaining⟩ := inductionHypothesis (by omega)
      have stepped := feed_pushes moving stopReq (by omega)
      have fewer : s.pushed.remaining = s.remaining - 1 := rfl
      have whole : (moves ℝ).Run Feeding _ (List.replicate count .feed ++ [.feed]) _ s.pushed :=
        .step run rfl stepped
      exact ⟨_, s.pushed, List.replicate_succ' ▸ whole, moving, stopReq, by omega⟩

/-- Repeated `feed_step` pushes all steps. -/
theorem feeding_completes (m : Motion ℝ) {steps : Int} (low : -2 ^ 31 < steps)
    (high : steps < 2 ^ 31) : ∃ pushes finish,
      (moves ℝ).Run Feeding (m.motionStart steps) (List.replicate steps.natAbs .feed) pushes finish ∧
      finish.remaining = 0 := by
  obtain ⟨pushes, finish, run, _, _, remaining⟩ := feeding_run m low high le_rfl
  exact ⟨pushes, finish, run, by omega⟩

/-- From one speed to the next, the square rises and falls within the rates. -/
def WithinRates (accel decel v v' : ℝ) : Prop :=
  v' ^ 2 ≤ v ^ 2 + 2 * accel ∧ v ^ 2 - 2 * decel ≤ v' ^ 2

namespace Fed

variable {steps : Nat} {s : Motion ℝ} {pushes : List (Push ℝ)} (fed : Fed accepted steps s pushes)

include fed

/-- Each push follows the profile at its place. -/
theorem of_mem {push : Push ℝ} (member : push ∈ pushes) :
    ∃ index < pushes.length, Follows accepted steps index push := by
  obtain ⟨index, bound, rfl⟩ := List.getElem_of_mem member
  exact ⟨index, bound, fed.follows index bound⟩

/-- There are no more pushes than steps. -/
theorem within_steps : pushes.length ≤ steps := by
  have count := fed.count
  have left := fed.left
  omega

/-- The speed stays between its two bounds. -/
theorem speed_le {push : Push ℝ} (member : push ∈ pushes) :
    50 ≤ push.after.speed ∧ push.after.speed ≤ m.maxSpeed := by
  obtain ⟨index, _, follows⟩ := fed.of_mem member
  have below : (Motion.profile accepted).after steps (index + 1) ≤ (Motion.profile accepted).top :=
    Profile.after_le_top
  rw [← follows.after] at below
  have squares : push.after.speed ^ 2 ≤ m.maxSpeed ^ 2 := by
    simp only [Motion.excess, Motion.profile] at below
    linarith
  exact ⟨follows.lowAfter, (pow_le_pow_iff_left₀ (by linarith [follows.lowAfter])
    (by linarith [accepted.minSpeed]) two_ne_zero).mp squares⟩

/-- The speeds, from that of `MIN_SPEED_HZ` on, are those of the profile. -/
theorem speeds (index : Nat) (bound : index < (50 :: pushes.map (·.after.speed)).length) :
    (50 :: pushes.map (·.after.speed))[index] ^ 2 - 50 ^ 2 =
      (Motion.profile accepted).after steps index := by
  cases index with
  | zero => exact sub_self _
  | succ index =>
      rw [List.length_cons, List.length_map] at bound
      rw [List.getElem_cons_succ, List.getElem_map]
      exact (fed.follows index (by omega)).after

/-- The speed changes within the two rates. -/
theorem withinRates :
    List.IsChain (WithinRates m.accel m.decel) (50 :: pushes.map (·.after.speed)) := by
  rw [List.isChain_iff_getElem]
  intro index bound
  have here := fed.speeds index (by omega)
  have next := fed.speeds (index + 1) bound
  have above : (Motion.profile accepted).after steps (index + 1) ≤
      (Motion.profile accepted).after steps index + 2 * m.accel := Profile.after_succ_le
  have below : (Motion.profile accepted).after steps index - 2 * m.decel ≤
      (Motion.profile accepted).after steps (index + 1) := Profile.sub_le_after_succ
  rw [← here, ← next] at above below
  constructor <;> linarith

/-- The axis can stop in the steps which are left. -/
theorem distance {push : Push ℝ} (member : push ∈ pushes) :
    (push.before.speed ^ 2 - 50 ^ 2) / (2 * m.decel) <
      push.before.remaining + m.accel / m.decel := by
  have decel := accepted.decel_pos
  have within := fed.within_steps
  obtain ⟨index, bound, follows⟩ := fed.of_mem member
  have near : (Motion.profile accepted).after steps index <
      ((steps : Int) - index : Int) * (2 * m.decel) + 2 * m.accel :=
    Profile.after_lt_distance (by omega)
  rw [← follows.before, ← follows.remaining, Motion.excess] at near
  rw [div_lt_iff₀ (by linarith)]
  have ratio : m.accel / m.decel * (2 * m.decel) = 2 * m.accel := by
    field_simp
  rw [add_mul, ratio]
  linarith

/-- The last push of a whole move. -/
theorem last (positive : 1 ≤ steps) (complete : s.remaining = 0) :
    ∃ last, pushes.getLast? = some last ∧ 50 ≤ last.after.speed ∧
      last.after.excess = (Motion.profile accepted).after steps steps := by
  have count := fed.count
  have bound : pushes.length - 1 < pushes.length := by omega
  have follows := fed.follows (pushes.length - 1) bound
  have whole : pushes.length - 1 + 1 = steps := by omega
  have excess := follows.after
  rw [whole] at excess
  exact ⟨_, List.getLast?_eq_getElem? ▸ List.getElem?_eq_getElem bound, follows.lowAfter, excess⟩

/-- The last step is slow. -/
theorem last_lt (positive : 1 ≤ steps) (complete : s.remaining = 0) :
    ∃ last, pushes.getLast? = some last ∧ last.after.speed ^ 2 < 50 ^ 2 + 2 * m.accel := by
  obtain ⟨last, isLast, _, follows⟩ := fed.last positive complete
  have near : (Motion.profile accepted).after steps steps <
      ((steps : Int) - steps : Int) * (2 * m.decel) + 2 * m.accel := Profile.after_lt_distance le_rfl
  rw [← follows, sub_self, Int.cast_zero, zero_mul, Motion.excess] at near
  exact ⟨last, isLast, by linarith⟩

end Fed

/-- A move keeps its speeds between `MIN_SPEED_HZ` and `max_speed`, its squared speeds from
one push to the next within the rates, and the braking distance before each push below the
steps remaining and the ratio of the rates; so it ends less than one step of acceleration
above `MIN_SPEED_HZ`. -/
theorem motion_envelope (accepted : m.Accepted) {steps : Int} (low : -2 ^ 31 < steps)
    (high : steps < 2 ^ 31) (nonzero : steps ≠ 0) {calls : List (MotionCall ℝ)}
    {pushes : List (Push ℝ)} {finish : Motion ℝ}
    (run : (moves ℝ).Run Feeding (m.motionStart steps) calls pushes finish) :
    (∀ push ∈ pushes, 50 ≤ push.after.speed ∧ push.after.speed ≤ m.maxSpeed) ∧
    List.IsChain (WithinRates m.accel m.decel) (50 :: pushes.map (·.after.speed)) ∧
    (∀ push ∈ pushes, (push.before.speed ^ 2 - 50 ^ 2) / (2 * m.decel) <
      push.before.remaining + m.accel / m.decel) ∧
    (finish.remaining = 0 → ∃ last, pushes.getLast? = some last ∧
      last.after.speed ^ 2 < 50 ^ 2 + 2 * m.accel) := by
  have fed : Fed accepted steps.natAbs finish pushes := fed_of_run low high run
  exact ⟨fun _ => fed.speed_le, fed.withinRates, fun _ => fed.distance, fed.last_lt (by omega)⟩

/-- The parameters after a reset. -/
theorem initial_parameters : (Motion.initial : Motion ℝ).maxSpeed = 100000 ∧
    (Motion.initial : Motion ℝ).accel = 1000000 ∧ (Motion.initial : Motion ℝ).decel = 1000000 := by
  simp [Motion.initial, defMaxSpeed, defAccel, defDecel, SinglePrecision.ofNat]

/-- The parameters at reset are accepted. -/
theorem initial_accepted : (Motion.initial : Motion ℝ).Accepted := by
  obtain ⟨maxSpeed, accel, decel⟩ := initial_parameters
  constructor <;> simp only [maxSpeed, accel, decel] <;> norm_num

/-- Three steps backwards with the parameters after a reset. -/
theorem reset_move_enveloped : ∃ calls pushes finish,
    (moves ℝ).Run Feeding (Motion.initial.motionStart (-3)) calls pushes finish ∧
    (∀ push ∈ pushes, 50 ≤ push.after.speed ∧ push.after.speed ≤ Motion.initial.maxSpeed) ∧
    List.IsChain (WithinRates Motion.initial.accel Motion.initial.decel)
      (50 :: pushes.map (·.after.speed)) ∧
    ∃ last, pushes.getLast? = some last ∧
      last.after.speed ^ 2 < 50 ^ 2 + 2 * Motion.initial.accel := by
  obtain ⟨pushes, finish, run, complete⟩ :=
    feeding_completes Motion.initial (by norm_num : -2 ^ 31 < (-3 : Int)) (by norm_num)
  obtain ⟨bounds, rates, _, ends⟩ :=
    motion_envelope initial_accepted (by norm_num) (by norm_num) (by norm_num) run
  exact ⟨_, pushes, finish, run, bounds, rates, ends complete⟩

/-! ### The last speed -/

/-- The squared speed which `taken` steps of acceleration and cruising reach is braked away
in just the steps then left. -/
def Motion.Matched (m : Motion ℝ) (steps taken : Nat) : Prop :=
  ((steps : ℝ) - taken - 1) * (2 * m.decel) ≤ min (taken * (2 * m.accel)) (m.maxSpeed ^ 2 - 50 ^ 2) ∧
    min (taken * (2 * m.accel)) (m.maxSpeed ^ 2 - 50 ^ 2) ≤ ((steps : ℝ) - taken) * (2 * m.decel)

/-- A whole move ends at exactly `MIN_SPEED_HZ` if and only if some number of steps matches
the rest. -/
theorem last_speed_exact_iff (accepted : m.Accepted) {steps : Int} (low : -2 ^ 31 < steps)
    (high : steps < 2 ^ 31) (nonzero : steps ≠ 0) {calls : List (MotionCall ℝ)}
    {pushes : List (Push ℝ)} {finish : Motion ℝ}
    (run : (moves ℝ).Run Feeding (m.motionStart steps) calls pushes finish)
    (complete : finish.remaining = 0) :
    (∃ last, pushes.getLast? = some last ∧ last.after.speed = minSpeedHz) ↔
      ∃ taken < steps.natAbs, m.Matched steps.natAbs taken := by
  have fed : Fed accepted steps.natAbs finish pushes := fed_of_run low high run
  obtain ⟨last, isLast, above, excess⟩ := fed.last (by omega) complete
  have exact : (∃ last, pushes.getLast? = some last ∧ last.after.speed = minSpeedHz) ↔
      (Motion.profile accepted).after steps.natAbs steps.natAbs = 0 := by
    rw [← excess, isLast, Motion.minSpeedHz_exact, Motion.excess]
    constructor
    · rintro ⟨_, same, speed⟩
      obtain rfl := Option.some.inj same
      rw [speed, sub_self]
    · intro zero
      refine ⟨last, rfl, ?_⟩
      nlinarith
  rw [exact, Profile.after_last_eq_zero_iff (by omega)]
  simp [Motion.Matched, Profile.Matched, Profile.BrakingDue, Profile.reached, Motion.profile]

/-- A triangle of three steps with the parameters after a reset ends exactly. -/
theorem reset_triangle_exact : ∃ calls pushes finish,
    (moves ℝ).Run Feeding (Motion.initial.motionStart 3) calls pushes finish ∧
    ∃ last, pushes.getLast? = some last ∧ last.after.speed = minSpeedHz := by
  obtain ⟨pushes, finish, run, complete⟩ :=
    feeding_completes Motion.initial (by norm_num : -2 ^ 31 < (3 : Int)) (by norm_num)
  have matched : (Motion.initial : Motion ℝ).Matched 3 1 := by
    obtain ⟨maxSpeed, accel, decel⟩ := initial_parameters
    have reached : min (((1 : Nat) : ℝ) * (2 * 1000000)) (100000 ^ 2 - 50 ^ 2) = 2000000 := by
      norm_num
    rw [Motion.Matched, maxSpeed, accel, decel, reached]
    norm_num
  exact ⟨_, pushes, finish, run, (last_speed_exact_iff initial_accepted (by norm_num) (by norm_num)
    (by norm_num) run complete).mpr ⟨1, by decide, matched⟩⟩

/-- A deceleration of half the acceleration. -/
private noncomputable def slowBraking : Motion ℝ := { Motion.initial with decel := 500000 }

/-- A move of two steps rises by 2000000 and has one step to brake 1000000 of it away. -/
theorem unequal_rates_overshoot : slowBraking.Accepted ∧ ∃ calls pushes finish,
    (moves ℝ).Run Feeding (slowBraking.motionStart 2) calls pushes finish ∧ finish.remaining = 0 ∧
    ¬∃ last, pushes.getLast? = some last ∧ last.after.speed = minSpeedHz := by
  have accepted : slowBraking.Accepted := by
    obtain ⟨minSpeed, maxSpeed, accel_pos, accel, _, _⟩ := initial_accepted
    exact ⟨minSpeed, maxSpeed, accel_pos, accel, by norm_num [slowBraking], by norm_num [slowBraking]⟩
  obtain ⟨pushes, finish, run, complete⟩ :=
    feeding_completes slowBraking (by norm_num : -2 ^ 31 < (2 : Int)) (by norm_num)
  have fed : Fed accepted 2 finish pushes := fed_of_run (by norm_num) (by norm_num) run
  obtain ⟨last, isLast, _, excess⟩ := fed.last (by norm_num) complete
  obtain ⟨maxSpeed, accel, _⟩ := initial_parameters
  have rise : (Motion.profile accepted).rise = 2000000 := by
    show 2 * (Motion.initial : Motion ℝ).accel = 2000000
    rw [accel]
    norm_num
  have fall : (Motion.profile accepted).fall = 1000000 := by
    show (2 : ℝ) * 500000 = 1000000
    norm_num
  have top : (Motion.profile accepted).top = 100000 ^ 2 - 50 ^ 2 := by
    show (Motion.initial : Motion ℝ).maxSpeed ^ 2 - 50 ^ 2 = 100000 ^ 2 - 50 ^ 2
    rw [maxSpeed]
  have first : (Motion.profile accepted).after 2 1 = 2000000 := by
    simp [Profile.after, Profile.next, Profile.BrakingDue, rise, fall, top]
    norm_num
  have second : (Motion.profile accepted).after 2 2 = 1000000 := by
    rw [Profile.after, first]
    simp [Profile.next, Profile.BrakingDue, fall]
    norm_num
  refine ⟨accepted, _, pushes, finish, run, complete, ?_⟩
  rintro ⟨_, same, speed⟩
  obtain rfl := Option.some.inj (isLast.symm.trans same)
  rw [second, Motion.excess, speed, Motion.minSpeedHz_exact] at excess
  norm_num at excess

end Feeding
end Rp2350Stepper.Core1
