import Rp2350Stepper.Core1.SpeedLimits

/-!
# Parameters changed during a move

The commands may change each of the three parameters between any two steps. The rates in
force then bound every change of speed but one: a `max_speed` below the current speed is
taken over at once, as long as braking is not due.
-/

namespace Rp2350Stepper.Core1

open Rp2350Stepper.Num Rp2350Stepper.Data Rp2350Stepper.Semantics

/-- From one push to the next the speed changes within the rates in force at the second. -/
def Slewed (first second : Push ℝ) : Prop :=
  WithinRates second.before.accel second.before.decel first.after.speed second.after.speed

/-! ### One call -/

section Calls

variable {m : Motion ℝ}

/-- The next speed is within the rates exactly when `M` is not overspeed. -/
theorem withinRates_nextSpeed_iff (accepted : m.Accepted) (low : 50 ≤ m.speed) :
    WithinRates m.accel m.decel m.speed m.nextSpeed ↔ ¬m.Overspeed := by
  obtain ⟨_, square⟩ := Motion.nextSpeed_profile accepted low
  have nonneg : 0 ≤ m.excess := by
    unfold Motion.excess
    nlinarith
  have rises : (Motion.profile accepted).next m.remaining m.excess ≤ m.excess + 2 * m.accel :=
    Profile.next_le_add nonneg
  have falls : m.excess - 2 * m.decel ≤ (Motion.profile accepted).next m.remaining m.excess ↔
      (Motion.profile accepted).BrakingDue m.remaining m.excess ∨
        m.excess - 2 * m.decel ≤ m.maxSpeed ^ 2 - 50 ^ 2 :=
    @Profile.sub_le_next_iff ℝ _ _ _ (Motion.profile accepted) m.remaining m.excess
  rw [← Motion.brakingDue_iff, ← square] at falls
  rw [← square] at rises
  unfold Motion.excess at falls rises
  rw [WithinRates, Motion.Overspeed, not_and_or, not_lt, not_lt]
  constructor
  · rintro ⟨_, below⟩
    exact (falls.mp (by linarith)).imp_right fun top => by linarith
  · intro slow
    have kept := falls.mpr (slow.imp_right fun top => by linarith)
    exact ⟨by linarith, by linarith⟩

/-- A new speed leaves the parameters accepted. -/
theorem Motion.Accepted.withSpeed (accepted : m.Accepted) (v : ℝ) : (m.withSpeed v).Accepted := by
  have top : (absMaxSpeed : ℝ) = 160000 := by simp [absMaxSpeed]
  have clamped : 50 ≤ (m.withSpeed v).maxSpeed ∧ (m.withSpeed v).maxSpeed ≤ 160000 := by
    simp only [Motion.withSpeed, Motion.minSpeedHz_exact, top, SinglePrecision.lt, decide_eq_true_eq]
    split
    · norm_num
    · rename_i above
      split
      · norm_num
      · rename_i below
        exact ⟨not_lt.mp above, not_lt.mp below⟩
  exact ⟨clamped.1, clamped.2, accepted.accel_pos, accepted.accel, accepted.decel_pos, accepted.decel⟩

/-- A rate out of bounds is replaced by the default. -/
theorem acceptedRate_exact (default v : ℝ) :
    Motion.acceptedRate default v = if v ≤ 0 ∨ 2666666 < v then default else v := by
  have top : (absMaxAccel : ℝ) = 2666666 := by simp [absMaxAccel]
  simp only [Motion.acceptedRate, top, SinglePrecision.ofNat_exact, Nat.cast_zero,
    SinglePrecision.le, SinglePrecision.lt, Bool.or_eq_true, decide_eq_true_eq]

/-- The rate which is taken is within the limits. -/
theorem acceptedRate_bounds {default : ℝ} (positive : 0 < default) (within : default ≤ 2666666)
    (v : ℝ) : 0 < Motion.acceptedRate default v ∧ Motion.acceptedRate default v ≤ 2666666 := by
  rw [acceptedRate_exact]
  split
  · exact ⟨positive, within⟩
  · rename_i number
    rw [not_or, not_le, not_lt] at number
    exact number

/-- A new acceleration leaves the parameters accepted. -/
theorem Motion.Accepted.withAccel (accepted : m.Accepted) (v : ℝ) : (m.withAccel v).Accepted := by
  obtain ⟨accel_pos, accel⟩ := acceptedRate_bounds initial_accepted.accel_pos initial_accepted.accel v
  exact ⟨accepted.minSpeed, accepted.maxSpeed, accel_pos, accel, accepted.decel_pos, accepted.decel⟩

theorem Motion.Accepted.withDecel (accepted : m.Accepted) (v : ℝ) : (m.withDecel v).Accepted := by
  obtain ⟨decel_pos, decel⟩ := acceptedRate_bounds initial_accepted.decel_pos initial_accepted.decel v
  exact ⟨accepted.minSpeed, accepted.maxSpeed, accepted.accel_pos, accepted.accel, decel_pos, decel⟩

/-- A command keeps the parameters accepted, and leaves the speed alone. -/
theorem command_keeps {call : MotionCall ℝ} (command : call ≠ .feed) {pushes : List (Push ℝ)}
    {next : Motion ℝ} (accepted : m.Accepted) (stepped : motionStep m call = some (pushes, next)) :
    pushes = [] ∧ next.Accepted ∧ next.state = m.state ∧ next.speed = m.speed := by
  cases call with
  | feed => exact absurd rfl command
  | speed v =>
      obtain ⟨rfl, rfl⟩ := Prod.mk.inj (Option.some.inj stepped)
      exact ⟨rfl, accepted.withSpeed v, rfl, rfl⟩
  | accel v =>
      obtain ⟨rfl, rfl⟩ := Prod.mk.inj (Option.some.inj stepped)
      exact ⟨rfl, accepted.withAccel v, rfl, rfl⟩
  | decel v =>
      obtain ⟨rfl, rfl⟩ := Prod.mk.inj (Option.some.inj stepped)
      exact ⟨rfl, accepted.withDecel v, rfl, rfl⟩
  | stop =>
      obtain ⟨rfl, rfl⟩ := Prod.mk.inj (Option.some.inj stepped)
      unfold Motion.cmdStop
      split
      · exact ⟨rfl, accepted.of_same rfl rfl rfl, rfl, rfl⟩
      · exact ⟨rfl, accepted, rfl, rfl⟩

end Calls

/-! ### A move -/

/-- `M` during a move, and its pushes so far. -/
structure Judged (m : Motion ℝ) (pushes : List (Push ℝ)) : Prop where
  accepted : m.Accepted
  low : m.state = .moving → 50 ≤ m.speed
  first : m.state = .moving → pushes = [] → m.speed = 50
  last : m.state = .moving → ∀ push ∈ pushes.getLast?, push.after.speed = m.speed
  judged : List.IsChain Slewed pushes ↔ ∀ push ∈ pushes, ¬push.before.Overspeed

/-- A step which is fed is judged by the parameters of its moment. -/
theorem Judged.feed {m next : Motion ℝ} {pushes pushed : List (Push ℝ)} (judged : Judged m pushes)
    (stepped : motionStep m .feed = some (pushed, next)) : Judged next (pushes ++ pushed) := by
  rcases feed_cases stepped with
    ⟨_, rfl, rfl⟩ | ⟨_, _, rfl, rfl⟩ | ⟨moving, stopReq, remaining, rfl, rfl⟩
  · rwa [List.append_nil]
  · rw [List.append_nil]
    exact ⟨judged.accepted.of_same rfl rfl rfl, by simp, by simp, by simp, judged.judged⟩
  · obtain ⟨accepted, low, first, last, judged⟩ := judged
    have within := withinRates_nextSpeed_iff accepted (low moving)
    obtain ⟨lowAfter, _⟩ := Motion.nextSpeed_profile accepted (low moving)
    refine ⟨accepted.of_same rfl rfl rfl, fun _ => lowAfter, by simp, ?_, ?_⟩
    · simp [Motion.pushed]
    · -- The first push has no predecessor, but does not start overspeed either.
      have latest : (∀ push ∈ pushes.getLast?, Slewed push ⟨m, m.pushed⟩) ↔ ¬m.Overspeed := by
        cases isLast : pushes.getLast? with
        | none =>
            have start := first moving (List.getLast?_eq_none_iff.mp isLast)
            refine ⟨fun _ overspeed => ?_, fun _ => by simp⟩
            have below := overspeed.2
            rw [start] at below
            nlinarith [accepted.minSpeed, accepted.decel_pos]
        | some push =>
            have linked := last moving push isLast
            rw [← within, ← linked]
            exact ⟨fun slewed => slewed push rfl, fun slewed _ same => Option.some.inj same ▸ slewed⟩
      rw [List.isChain_append, judged]
      constructor
      · rintro ⟨earlier, _, slewed⟩ push member
        rcases List.mem_append.mp member with member | member
        · exact earlier push member
        · rw [List.mem_singleton.mp member]
          exact latest.mp fun push isLast => slewed push isLast _ rfl
      · intro kept
        refine ⟨fun push member => kept push (List.mem_append_left _ member), .singleton _, ?_⟩
        rintro push isLast _ same
        obtain rfl := Option.some.inj same
        exact latest.mpr (kept _ (List.mem_append_right _ (List.mem_singleton_self _))) push isLast

/-- A command pushes nothing. -/
theorem Judged.command {m next : Motion ℝ} {pushes pushed : List (Push ℝ)} {call : MotionCall ℝ}
    (judged : Judged m pushes) (command : call ≠ .feed)
    (stepped : motionStep m call = some (pushed, next)) : Judged next (pushes ++ pushed) := by
  obtain ⟨rfl, accepted, state, speed⟩ := command_keeps command judged.accepted stepped
  rw [List.append_nil]
  refine ⟨accepted, ?_, ?_, ?_, judged.judged⟩
  · rw [state, speed]
    exact judged.low
  · rw [state, speed]
    exact judged.first
  · rw [state, speed]
    exact judged.last

/-- In every run each change of speed is judged. -/
theorem judged_of_run {m : Motion ℝ} (accepted : m.Accepted) {steps : Int}
    {calls : List (MotionCall ℝ)} {pushes : List (Push ℝ)} {finish : Motion ℝ}
    (run : (moves ℝ).Run (moves ℝ).unguarded (m.motionStart steps) calls pushes finish) :
    Judged finish pushes := by
  refine run.invariant Judged ?_ ?_
  · exact ⟨accepted.of_same rfl rfl rfl, fun _ => Motion.minSpeedHz_exact.ge,
      fun _ _ => Motion.minSpeedHz_exact, nofun, by simp⟩
  · intro state pushes call pushed next judged _ stepped
    by_cases feeding : call = .feed
    · exact judged.feed (feeding ▸ stepped)
    · exact judged.command feeding stepped

/-- Whatever the commands between the steps of a move, its speeds change within the rates
in force if and only if no step is pushed overspeed. -/
theorem speed_changes_within_rates_iff {m : Motion ℝ} (accepted : m.Accepted) {steps : Int}
    {calls : List (MotionCall ℝ)} {pushes : List (Push ℝ)} {finish : Motion ℝ}
    (run : (moves ℝ).Run (moves ℝ).unguarded (m.motionStart steps) calls pushes finish) :
    List.IsChain Slewed pushes ↔ ∀ push ∈ pushes, ¬push.before.Overspeed :=
  (judged_of_run accepted run).judged

/-! ### A command after one step -/

/-- One step of ten is pushed, a command is handled, and another step is pushed. -/
private theorem two_pushes {m next : Motion ℝ} {call : MotionCall ℝ}
    (called : motionStep (m.motionStart 10).pushed call = some ([], next))
    (moving : next.state = .moving) (stopReq : next.stopReq = false) (left : 0 < next.remaining) :
    (moves ℝ).Run (moves ℝ).unguarded (m.motionStart 10) [.feed, call, .feed]
      [⟨m.motionStart 10, (m.motionStart 10).pushed⟩, ⟨next, next.pushed⟩] next.pushed := by
  have start : 0 < (m.motionStart 10).remaining := by
    rw [m.motionStart_remaining (by norm_num) (by norm_num)]
    norm_num
  have first : (moves ℝ).Run (moves ℝ).unguarded (m.motionStart 10) ([] ++ [.feed])
      ([] ++ [⟨m.motionStart 10, (m.motionStart 10).pushed⟩]) (m.motionStart 10).pushed :=
    .step .refl trivial (feed_pushes rfl rfl start)
  exact .step (.step first trivial called) trivial (feed_pushes moving stopReq left)

/-- The squared speed after the first of ten steps, on the way to a higher `max_speed`. -/
private theorem first_of_ten {m : Motion ℝ} (accepted : m.Accepted)
    (climbs : 2 * m.accel < m.maxSpeed ^ 2 - 50 ^ 2) :
    50 ≤ (m.motionStart 10).nextSpeed ∧ (m.motionStart 10).nextSpeed ^ 2 = 50 ^ 2 + 2 * m.accel := by
  have started : (m.motionStart 10).Accepted := accepted.of_same rfl rfl rfl
  obtain ⟨low, square⟩ := Motion.nextSpeed_profile started Motion.minSpeedHz_exact.ge
  refine ⟨low, ?_⟩
  have ten : (m.motionStart 10).remaining = 10 := m.motionStart_remaining (by norm_num) (by norm_num)
  have zero : (m.motionStart 10).excess = 0 := by
    have start : (m.motionStart 10).speed = 50 := Motion.minSpeedHz_exact
    rw [Motion.excess, start, sub_self]
  have early : ¬(Motion.profile started).BrakingDue 10 0 := by
    have fall : (Motion.profile started).fall = 2 * m.decel := rfl
    rw [Profile.BrakingDue, fall]
    push_cast
    linarith [accepted.decel_pos]
  have rise : (Motion.profile started).rise = 2 * m.accel := rfl
  have top : (Motion.profile started).top = m.maxSpeed ^ 2 - 50 ^ 2 := rfl
  rw [ten, zero, Profile.next, if_neg early, top, rise, if_pos (by linarith [accepted.accel_pos]), zero_add,
    min_eq_left climbs.le] at square
  linarith

/-- An acceleration of twice the deceleration. -/
private noncomputable def fastStart : Motion ℝ := { Motion.initial with accel := 2000000 }

/-- After the first step at about 2000 Hz, `CMD_SPEED` with 50 has the next one pushed at 50. -/
theorem lowered_speed_jumps : fastStart.Accepted ∧ ∃ calls pushes finish,
    (moves ℝ).Run (moves ℝ).unguarded (fastStart.motionStart 10) calls pushes finish ∧
    ¬List.IsChain Slewed pushes := by
  obtain ⟨maxSpeed, _, decel⟩ := initial_parameters
  have accepted : fastStart.Accepted := by
    obtain ⟨minSpeed, maxSpeed, _, _, decel_pos, decel⟩ := initial_accepted
    exact ⟨minSpeed, maxSpeed, by norm_num [fastStart], by norm_num [fastStart], decel_pos, decel⟩
  have climbs : 2 * fastStart.accel < fastStart.maxSpeed ^ 2 - 50 ^ 2 := by
    show 2 * (2000000 : ℝ) < (Motion.initial : Motion ℝ).maxSpeed ^ 2 - 50 ^ 2
    rw [maxSpeed]
    norm_num
  obtain ⟨low, square⟩ := first_of_ten accepted climbs
  have called : motionStep (fastStart.motionStart 10).pushed (.speed 50) =
      some ([], (fastStart.motionStart 10).pushed.withSpeed 50) := rfl
  have state : ((fastStart.motionStart 10).pushed.withSpeed 50).speed =
      (fastStart.motionStart 10).nextSpeed := rfl
  have remaining : ((fastStart.motionStart 10).pushed.withSpeed 50).remaining = 9 :=
    congrArg (· - 1) (fastStart.motionStart_remaining (by norm_num) (by norm_num))
  have fall : ((fastStart.motionStart 10).pushed.withSpeed 50).decel = 1000000 := decel
  have top : ((fastStart.motionStart 10).pushed.withSpeed 50).maxSpeed = 50 := by
    simp [Motion.withSpeed, Motion.minSpeedHz_exact, absMaxSpeed, SinglePrecision.lt, SinglePrecision.ofNat]
    norm_num
  have rise : fastStart.accel = 2000000 := rfl
  have run := two_pushes called rfl rfl (by omega)
  have started : (fastStart.motionStart 10).pushed.Accepted := accepted.of_same rfl rfl rfl
  refine ⟨accepted, _, _, _, run, fun chain => ?_⟩
  have slewed := List.isChain_pair.mp chain
  refine (withinRates_nextSpeed_iff (started.withSpeed 50) (state ▸ low)).mp slewed ⟨?_, ?_⟩
  · rw [remaining, fall, state, ← pow_two, square, rise, Int.floor_lt]
    norm_num
  · rw [top, fall, state, square, rise]
    norm_num

/-- An acceleration halved between two steps is in force for the second. -/
theorem halved_accel_kept : ∃ calls pushes finish,
    (moves ℝ).Run (moves ℝ).unguarded (Motion.initial.motionStart 10) calls pushes finish ∧
    pushes.length = 2 ∧ List.IsChain Slewed pushes := by
  obtain ⟨maxSpeed, accel, decel⟩ := initial_parameters
  have climbs : 2 * (Motion.initial : Motion ℝ).accel < (Motion.initial : Motion ℝ).maxSpeed ^ 2 - 50 ^ 2 := by
    rw [accel, maxSpeed]
    norm_num
  obtain ⟨low, square⟩ := first_of_ten initial_accepted climbs
  have called : motionStep (Motion.initial.motionStart 10).pushed (.accel (500000 : ℝ)) =
      some ([], (Motion.initial.motionStart 10).pushed.withAccel 500000) := rfl
  have remaining : ((Motion.initial.motionStart 10).pushed.withAccel (500000 : ℝ)).remaining = 9 :=
    congrArg (· - 1) (Motion.motionStart_remaining _ (by norm_num) (by norm_num))
  have run := two_pushes called rfl rfl (by omega)
  refine ⟨_, _, _, run, rfl, (speed_changes_within_rates_iff initial_accepted run).mpr ?_⟩
  intro push member overspeed
  have above : push.before.maxSpeed ^ 2 < push.before.speed ^ 2 - 2 * push.before.decel := overspeed.2
  rcases List.mem_pair.mp member with rfl | rfl
  · have start : (Motion.initial.motionStart 10 : Motion ℝ).speed = 50 := Motion.minSpeedHz_exact
    have top : (Motion.initial.motionStart 10 : Motion ℝ).maxSpeed = 100000 := maxSpeed
    have fall : (Motion.initial.motionStart 10 : Motion ℝ).decel = 1000000 := decel
    simp only at above
    rw [start, top, fall] at above
    norm_num at above
  · have state : ((Motion.initial.motionStart 10).pushed.withAccel (500000 : ℝ)).speed =
        (Motion.initial.motionStart 10).nextSpeed := rfl
    have top : ((Motion.initial.motionStart 10).pushed.withAccel (500000 : ℝ)).maxSpeed = 100000 :=
      maxSpeed
    have fall : ((Motion.initial.motionStart 10).pushed.withAccel (500000 : ℝ)).decel = 1000000 :=
      decel
    simp only at above
    rw [state, top, fall, square, accel] at above
    norm_num at above

end Rp2350Stepper.Core1
