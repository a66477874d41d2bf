import Rp2350Stepper.Core1.SpeedChanges

/-!
# The conversion of the braking distance

`next_speed` converts `brake_steps + 1.0f` to `int32_t` before it compares it with
`M.remaining`. A step of deceleration may be arbitrarily small, so the quotient has no bound
of its own: the conversion is defined throughout the moves which keep to a `max_speed` and
a `decel` exactly if that deceleration is enough for that speed.
-/

namespace Rp2350Stepper.Core1

open Rp2350Stepper.Num Rp2350Stepper.Data Rp2350Stepper.Semantics

namespace Motion

/-- The conversion of `brake_steps + 1.0f` is within the range of `int32_t`. -/
def Convertible (m : Motion ℝ) : Prop := -2 ^ 31 ≤ m.brakeDistance ∧ m.brakeDistance < 2 ^ 31

variable {m : Motion ℝ}

/-- The distance the code computes, in the reals. -/
theorem brakeDistance_exact (m : Motion ℝ) :
    m.brakeDistance = ⌊(m.speed ^ 2 - 50 ^ 2) / (2 * m.decel) + 1⌋ := by
  unfold brakeDistance
  simp only [minSpeedHz_exact, SinglePrecision.ofNat_exact, Nat.cast_ofNat, Nat.cast_one, pow_two]
  rfl

/-- From `MIN_SPEED_HZ` on, only the upper end of the range matters. -/
theorem convertible_iff (accepted : m.Accepted) (low : 50 ≤ m.speed) :
    m.Convertible ↔ m.speed ^ 2 - 50 ^ 2 < (2 ^ 31 - 1) * (2 * m.decel) := by
  have positive : 0 < 2 * m.decel := mul_pos two_pos accepted.decel_pos
  have nonneg : 0 ≤ (m.speed ^ 2 - 50 ^ 2) / (2 * m.decel) :=
    div_nonneg (by nlinarith) positive.le
  have above : 0 ≤ ⌊(m.speed ^ 2 - 50 ^ 2) / (2 * m.decel) + 1⌋ := Int.floor_nonneg.mpr (by linarith)
  rw [Convertible, brakeDistance_exact, Int.floor_lt, ← div_lt_iff₀ positive]
  push_cast
  constructor
  · rintro ⟨_, below⟩
    linarith
  · intro below
    exact ⟨by omega, by linarith⟩

end Motion

/-- When `feed_step` is called, `max_speed` is at most `vmax` and `decel` at least `dmin`. -/
def KeepsTo (vmax dmin : ℝ) (m : Motion ℝ) (call : MotionCall ℝ) : Prop :=
  call = .feed → m.maxSpeed ≤ vmax ∧ dmin ≤ m.decel

/-! ### Moves which keep to the limits -/

section Limits

variable {vmax dmin : ℝ}

/-- What `next_speed` finds in a move which keeps to the limits. -/
structure Limited (vmax dmin : ℝ) (m : Motion ℝ) : Prop where
  accepted : m.Accepted
  low : 50 ≤ m.speed
  high : m.speed ≤ vmax
  decel : dmin ≤ m.decel

/-- A deceleration which is enough at the highest speed is enough at every other. -/
theorem Limited.convertible {m : Motion ℝ} (limited : Limited vmax dmin m)
    (enough : vmax ^ 2 - 50 ^ 2 < (2 ^ 31 - 1) * (2 * dmin)) : m.Convertible := by
  obtain ⟨accepted, low, high, decel⟩ := limited
  rw [Motion.convertible_iff accepted low]
  have squares : m.speed ^ 2 ≤ vmax ^ 2 := pow_le_pow_left₀ (by linarith) high 2
  calc m.speed ^ 2 - 50 ^ 2 ≤ vmax ^ 2 - 50 ^ 2 := by linarith
    _ < (2 ^ 31 - 1) * (2 * dmin) := enough
    _ ≤ (2 ^ 31 - 1) * (2 * m.decel) := by linarith

/-- The next speed stays between `MIN_SPEED_HZ` and the limit. -/
theorem Motion.nextSpeed_bounds {m : Motion ℝ} (accepted : m.Accepted) (low : 50 ≤ m.speed)
    (high : m.speed ≤ vmax) (top : m.maxSpeed ≤ vmax) :
    50 ≤ m.nextSpeed ∧ m.nextSpeed ≤ vmax := by
  obtain ⟨lowAfter, square⟩ := nextSpeed_profile accepted low
  have fastest : max m.excess (profile accepted).top ≤ vmax ^ 2 - 50 ^ 2 := by
    refine max_le ?_ ?_
    · exact sub_le_sub_right (pow_le_pow_left₀ (by linarith) high 2) _
    · exact sub_le_sub_right (pow_le_pow_left₀ (by linarith [accepted.minSpeed]) top 2) _
  have below : (profile accepted).next m.remaining m.excess ≤ vmax ^ 2 - 50 ^ 2 :=
    Profile.next_le_max.trans fastest
  refine ⟨lowAfter, ?_⟩
  exact (pow_le_pow_iff_left₀ (by linarith) (by linarith) two_ne_zero).mp (by linarith)

/-- `M` during such a move, and its pushes so far. -/
structure Keeping (vmax dmin : ℝ) (m : Motion ℝ) (pushes : List (Push ℝ)) : Prop where
  accepted : m.Accepted
  bounds : m.state = .moving → 50 ≤ m.speed ∧ m.speed ≤ vmax
  limited : ∀ push ∈ pushes, Limited vmax dmin push.before

/-- A step which is fed keeps to the two limits. -/
theorem Keeping.feed {m next : Motion ℝ} {pushes pushed : List (Push ℝ)}
    (keeping : Keeping vmax dmin m pushes) (kept : KeepsTo vmax dmin m .feed)
    (stepped : motionStep m .feed = some (pushed, next)) :
    Keeping vmax dmin next (pushes ++ pushed) := by
  obtain ⟨accepted, bounds, limited⟩ := keeping
  obtain ⟨top, decel⟩ := kept rfl
  rcases feed_cases stepped with
    ⟨_, rfl, rfl⟩ | ⟨_, _, rfl, rfl⟩ | ⟨moving, stopReq, remaining, rfl, rfl⟩
  · rw [List.append_nil]
    exact ⟨accepted, bounds, limited⟩
  · rw [List.append_nil]
    exact ⟨accepted.of_same rfl rfl rfl, by simp, limited⟩
  · obtain ⟨low, high⟩ := bounds moving
    have after := Motion.nextSpeed_bounds accepted low high top
    refine ⟨accepted.of_same rfl rfl rfl, fun _ => after, ?_⟩
    intro push member
    rcases List.mem_append.mp member with earlier | last
    · exact limited push earlier
    · rw [List.mem_singleton.mp last]
      exact ⟨accepted, low, high, decel⟩

theorem Keeping.command {m next : Motion ℝ} {pushes pushed : List (Push ℝ)} {call : MotionCall ℝ}
    (keeping : Keeping vmax dmin m pushes) (command : call ≠ .feed)
    (stepped : motionStep m call = some (pushed, next)) :
    Keeping vmax dmin next (pushes ++ pushed) := by
  obtain ⟨rfl, accepted, state, speed⟩ := command_keeps command keeping.accepted stepped
  rw [List.append_nil]
  refine ⟨accepted, ?_, keeping.limited⟩
  rw [state, speed]
  exact keeping.bounds

theorem keeping_of_run {m : Motion ℝ} (accepted : m.Accepted) (low : 50 ≤ vmax) {steps : Int}
    {calls : List (MotionCall ℝ)} {pushes : List (Push ℝ)} {finish : Motion ℝ}
    (run : (moves ℝ).Run (KeepsTo vmax dmin) (m.motionStart steps) calls pushes finish) :
    Keeping vmax dmin finish pushes := by
  have start : (m.motionStart steps).speed = 50 := Motion.minSpeedHz_exact
  refine run.invariant (Keeping vmax dmin) ?_ ?_
  · exact ⟨accepted.of_same rfl rfl rfl, fun _ => ⟨start.ge, start.trans_le low⟩, by simp⟩
  · intro state pushes call pushed next keeping kept stepped
    by_cases feeding : call = .feed
    · subst feeding
      exact keeping.feed kept stepped
    · exact keeping.command feeding stepped

end Limits

/-! ### A deceleration lowered at full speed -/

section Lowered

variable {vmax dmin : ℝ}

/-- The parameters after a reset, but for `max_speed`. -/
noncomputable def topped (vmax : ℝ) : Motion ℝ := { Motion.initial with maxSpeed := vmax }

/-- These parameters are accepted. -/
theorem topped_accepted (low : 50 ≤ vmax) (high : vmax ≤ 160000) : (topped vmax).Accepted := by
  obtain ⟨_, _, accel_pos, accel, decel_pos, decel⟩ := initial_accepted
  exact ⟨low, high, accel_pos, accel, decel_pos, decel⟩

/-- Their profile is steep. -/
theorem topped_profile (low : 50 ≤ vmax) (high : vmax ≤ 160000) :
    (Motion.profile (topped_accepted low high)).rise = 2000000 ∧
    (Motion.profile (topped_accepted low high)).fall = 2000000 ∧
    (Motion.profile (topped_accepted low high)).top = vmax ^ 2 - 50 ^ 2 := by
  obtain ⟨_, accel, decel⟩ := initial_parameters
  refine ⟨?_, ?_, rfl⟩
  · show 2 * (Motion.initial : Motion ℝ).accel = 2000000
    rw [accel]
    norm_num
  · show 2 * (Motion.initial : Motion ℝ).decel = 2000000
    rw [decel]
    norm_num

/-- In a long move, 12800 steps reach any `max_speed`. -/
theorem topped_after (low : 50 ≤ vmax) (high : vmax ≤ 160000) :
    (Motion.profile (topped_accepted low high)).after 100000 12800 = vmax ^ 2 - 50 ^ 2 := by
  obtain ⟨rise, fall, top⟩ := topped_profile low high
  have squares : vmax ^ 2 ≤ 160000 ^ 2 := pow_le_pow_left₀ (by linarith) high 2
  rw [Profile.after_eq_reached, Profile.reached, rise, top, min_eq_right]
  · push_cast
    linarith
  · intro before less due
    have most : (Motion.profile (topped_accepted low high)).reached before ≤ before * 2000000 :=
      (min_le_left _ _).trans_eq (by rw [rise])
    have few : (before : ℝ) ≤ 12800 := by exact_mod_cast less.le
    rw [Profile.BrakingDue, fall] at due
    push_cast at due
    linarith

/-- A feed keeps the limits. -/
theorem feed_keeps {m next : Motion ℝ} {pushes : List (Push ℝ)}
    (stepped : motionStep m .feed = some (pushes, next)) :
    next.maxSpeed = m.maxSpeed ∧ next.decel = m.decel := by
  rcases feed_cases stepped with ⟨_, _, rfl⟩ | ⟨_, _, _, rfl⟩ | ⟨_, _, _, _, rfl⟩
  · exact ⟨rfl, rfl⟩
  · exact ⟨rfl, rfl⟩
  · exact ⟨rfl, rfl⟩

/-- A move reaches any `max_speed`, on the way to which the deceleration is that after a reset. -/
theorem topped_run (low : 50 ≤ vmax) (high : vmax ≤ 160000) (slow : dmin ≤ 1000000) :
    ∃ calls pushes finish,
      (moves ℝ).Run (KeepsTo vmax dmin) ((topped vmax).motionStart 100000) calls pushes finish ∧
      finish.state = .moving ∧ finish.stopReq = false ∧ 0 < finish.remaining ∧
      finish.maxSpeed = vmax ∧ finish.speed = vmax := by
  obtain ⟨pushes, finish, run, moving, stopReq, remaining⟩ :=
    feeding_run (topped vmax) (by norm_num : -2 ^ 31 < (100000 : Int)) (by norm_num)
      (by norm_num : 12800 ≤ (100000 : Int).natAbs)
  have fed : Fed (topped_accepted low high) 100000 finish pushes :=
    fed_of_run (by norm_num) (by norm_num) run
  obtain ⟨above, excess⟩ := fed.moving moving
  have count := fed.count
  have length : pushes.length = 12800 := by omega
  rw [length, topped_after low high, Motion.excess] at excess
  have parameters := run.along_states (fun m : Motion ℝ => m.maxSpeed = vmax ∧ m.decel = 1000000)
    ⟨rfl, initial_parameters.2.2⟩ ?_
  · refine ⟨_, pushes, finish, parameters.1.weaken ?_, moving, stopReq, by omega, fed.maxSpeed, ?_⟩
    · rintro m call ⟨_, top, decel⟩ _
      exact ⟨top.le, decel ▸ slow⟩
    · exact (pow_left_inj₀ (by linarith) (by linarith) two_ne_zero).mp (by linarith)
  · rintro m call pushed next ⟨top, decel⟩ rfl stepped
    obtain ⟨sameTop, sameDecel⟩ := feed_keeps stepped
    exact ⟨sameTop.trans top, sameDecel.trans decel⟩

/-- A rate within the limits is accepted as it is. -/
theorem acceptedRate_of_mem {default v : ℝ} (positive : 0 < v) (within : v ≤ 2666666) :
    Motion.acceptedRate default v = v := by
  rw [acceptedRate_exact, if_neg]
  rw [not_or, not_le, not_lt]
  exact ⟨positive, within⟩

/-- `CMD_DECEL` at full speed has the next step brake for a deceleration of its own. -/
theorem lowered_run (low : 50 ≤ vmax) (high : vmax ≤ 160000) (positive : 0 < dmin)
    (slow : dmin ≤ 1000000) : ∃ calls pushes finish,
      (moves ℝ).Run (KeepsTo vmax dmin) ((topped vmax).motionStart 100000) calls pushes finish ∧
      ∃ push ∈ pushes, Limited vmax dmin push.before ∧ push.before.speed = vmax ∧
        push.before.decel = dmin := by
  obtain ⟨calls, pushes, finish, run, moving, stopReq, remaining, top, speed⟩ :=
    topped_run low high slow
  have decel : (finish.withDecel dmin).decel = dmin := acceptedRate_of_mem positive (by linarith)
  have lowered : (moves ℝ).Run (KeepsTo vmax dmin) ((topped vmax).motionStart 100000)
      (calls ++ [.decel dmin]) (pushes ++ []) (finish.withDecel dmin) :=
    .step run (by simp [KeepsTo]) rfl
  have pushed : (moves ℝ).Run (KeepsTo vmax dmin) ((topped vmax).motionStart 100000)
      (calls ++ [.decel dmin] ++ [.feed])
      (pushes ++ [] ++ [⟨finish.withDecel dmin, (finish.withDecel dmin).pushed⟩])
      (finish.withDecel dmin).pushed :=
    .step lowered (fun _ => ⟨top.le, decel.ge⟩) (feed_pushes moving stopReq remaining)
  have keeping := keeping_of_run (topped_accepted low high) low pushed
  have member := List.mem_append_right (pushes ++ [])
    (List.mem_singleton_self (⟨finish.withDecel dmin, (finish.withDecel dmin).pushed⟩ : Push ℝ))
  exact ⟨_, _, _, pushed, _, member, keeping.limited _ member, speed, decel⟩

end Lowered

/-- The conversion is defined whenever `next_speed` is called, in all moves which keep
`max_speed` up to one limit and `decel` from another on, if and only if braking from the
first with the second takes less than 2^31 - 1 steps. -/
theorem conversions_defined_iff {vmax dmin : ℝ} (low : 50 ≤ vmax) (high : vmax ≤ 160000)
    (positive : 0 < dmin) :
    (∀ m : Motion ℝ, m.Accepted → ∀ steps calls pushes finish,
      (moves ℝ).Run (KeepsTo vmax dmin) (m.motionStart steps) calls pushes finish →
      ∀ push ∈ pushes, push.before.Convertible) ↔
    vmax ^ 2 - 50 ^ 2 < (2 ^ 31 - 1) * (2 * dmin) := by
  constructor
  · intro defined
    by_contra enough
    have squares : vmax ^ 2 ≤ 160000 ^ 2 := pow_le_pow_left₀ (by linarith) high 2
    have slow : dmin ≤ 1000000 := by linarith
    obtain ⟨calls, pushes, finish, run, push, member, limited, speed, decel⟩ :=
      lowered_run low high positive slow
    have convertible := defined _ (topped_accepted low high) _ _ _ _ run push member
    rw [Motion.convertible_iff limited.accepted limited.low, speed, decel] at convertible
    exact enough convertible
  · intro enough m accepted steps calls pushes finish run push member
    exact ((keeping_of_run accepted low run).limited push member).convertible enough

/-- `CMD_DECEL` with 6 is enough at the greatest speed. -/
theorem six_is_enough : ∃ calls pushes finish,
    (moves ℝ).Run (KeepsTo 160000 6) ((topped 160000).motionStart 100000) calls pushes finish ∧
    (∃ push ∈ pushes, push.before.speed = 160000 ∧ push.before.decel = 6) ∧
    ∀ push ∈ pushes, push.before.Convertible := by
  obtain ⟨calls, pushes, finish, run, push, member, _, speed, decel⟩ :=
    lowered_run (by norm_num : (50 : ℝ) ≤ 160000) le_rfl (by norm_num : (0 : ℝ) < 6) (by norm_num)
  have defined := (conversions_defined_iff (by norm_num : (50 : ℝ) ≤ 160000) le_rfl
    (by norm_num : (0 : ℝ) < 6)).mpr (by norm_num)
  exact ⟨calls, pushes, finish, run, ⟨push, member, speed, decel⟩,
    defined _ (topped_accepted (by norm_num) le_rfl) _ _ _ _ run⟩

/-- With the parameters after a reset, `CMD_DECEL` with 1 at full speed makes it about 5 · 10^9. -/
theorem lowered_decel_overflows : ∃ calls pushes finish,
    (moves ℝ).Run (moves ℝ).unguarded (Motion.initial.motionStart 100000) calls pushes finish ∧
    ∃ push ∈ pushes, push.before.Accepted ∧ ¬push.before.Convertible := by
  have reset : topped 100000 = Motion.initial := by
    rw [topped, ← initial_parameters.1]
  obtain ⟨calls, pushes, finish, run, push, member, limited, speed, decel⟩ :=
    lowered_run (by norm_num : (50 : ℝ) ≤ 100000) (by norm_num) (one_pos : (0 : ℝ) < 1) (by norm_num)
  refine ⟨calls, pushes, finish, ?_, push, member, limited.accepted, ?_⟩
  · rw [← reset]
    exact run.weaken fun _ _ _ => trivial
  · rw [Motion.convertible_iff limited.accepted limited.low, speed, decel]
    norm_num

end Rp2350Stepper.Core1
