import Rp2350Stepper.Core1.SpeedChanges

/-!
# The speeds of core1's own moves

What holds of a move by itself holds of each move core1 makes among its mailbox and its PIO:
the words it puts into the TX FIFO are the half periods of speeds within the bounds.
-/

namespace Rp2350Stepper.Core1

open Rp2350Stepper.Num Rp2350Stepper.Data Rp2350Stepper.Semantics

/-- core1 starts a move of so many steps. -/
def Starts {F : Type} [SinglePrecision F] (steps : Int) (earlier begun : State F) : Prop :=
  ∃ choice emitted, step earlier choice = some (emitted, begun) ∧ .started steps ∈ emitted

/-- The move is loaded into `M`, whose parameters stay. -/
theorem Starts.loads {F : Type} [SinglePrecision F] {steps : Int} {earlier begun : State F}
    (starts : Starts steps earlier begun) :
    earlier.point = .settle steps ∧ begun.motion = earlier.motion.motionStart steps := by
  obtain ⟨choice, emitted, stepped, started⟩ := starts
  cases move_of_step stepped with
  | settle other here =>
      obtain rfl : steps = other := by simpa using started
      exact ⟨here, rfl⟩
  | _ => simp at started

/-! ### Whenever a move may start -/

/-- The parameters are accepted, and a move about to start has a step count of `int32_t`. -/
structure Ready (s : State ℝ) : Prop where
  wellformed : Wellformed s
  accepted : s.motion.Accepted
  loading : ∀ steps, s.point = .direction steps ∨ s.point = .settle steps →
    -2 ^ 31 ≤ steps ∧ steps < 2 ^ 31

/-- At first core1 is ready. -/
theorem ready_initial : Ready initial := ⟨wellformed_initial, initial_accepted, by simp [initial]⟩

/-- Every call keeps the parameters accepted. -/
theorem accepted_of_call {m next : Motion ℝ} {call : MotionCall ℝ} {pushes : List (Push ℝ)}
    (accepted : m.Accepted) (stepped : motionStep m call = some (pushes, next)) : next.Accepted := by
  by_cases feeding : call = .feed
  · subst feeding
    rcases feed_cases stepped with ⟨_, _, rfl⟩ | ⟨_, _, _, rfl⟩ | ⟨_, _, _, _, rfl⟩
    · exact accepted
    · exact accepted.of_same rfl rfl rfl
    · exact accepted.of_same rfl rfl rfl
  · exact (command_keeps feeding accepted stepped).2.1

/-- A step count comes from a payload. -/
theorem loading_move {s next : State ℝ} {choice : Choice} {emitted : List Event}
    (loading : ∀ steps, s.point = .direction steps ∨ s.point = .settle steps →
      -2 ^ 31 ≤ steps ∧ steps < 2 ^ 31)
    (move : Move s choice emitted next) :
    ∀ steps, next.point = .direction steps ∨ next.point = .settle steps →
      -2 ^ 31 ≤ steps ∧ steps < 2 ^ 31 := by
  cases move with
  | iteration here => by_cases moving : s.motion.state = .moving <;> simp [moving]
  | payload cmd here word inbound read =>
      rcases handlePayload_point s.motion cmd word with ⟨reply, point⟩ | ⟨rfl, _, _, point⟩
      · simp [point]
      · have low := word.le_toInt
        have high := word.toInt_lt
        simp only [point, Point.direction.injEq, reduceCtorEq, or_false]
        rintro steps rfl
        exact ⟨by omega, by omega⟩
  | direction steps here =>
      have bounds := loading steps (.inl here)
      simpa using bounds
  | arrive | take | pull | rise => exact loading
  | _ => simp

/-- Each step keeps it so. -/
theorem ready_move {s next : State ℝ} {choice : Choice} {emitted : List Event} (ready : Ready s)
    (stepped : step s choice = some (emitted, next)) : Ready next := by
  have move := move_of_step stepped
  refine ⟨wellformed_move ready.wellformed move, ?_, loading_move ready.loading move⟩
  by_cases starting : ∃ steps, .started steps ∈ emitted
  · obtain ⟨steps, started⟩ := starting
    obtain ⟨_, loaded⟩ := Starts.loads ⟨choice, emitted, stepped, started⟩
    rw [loaded]
    exact ready.accepted.of_same rfl rfl rfl
  · rcases calls_of_move ready.wellformed move (not_exists.mp starting) with
      ⟨same, _⟩ | ⟨call, pushes, _, called, _⟩
    · exact same ▸ ready.accepted
    · exact accepted_of_call ready.accepted called

/-- core1 is ready wherever a run from reset ends. -/
theorem ready_of_run {guard : State ℝ → Choice → Prop} {s : State ℝ} {choices : List Choice}
    {events : List Event} (run : (system ℝ).Run guard initial choices events s) : Ready s := by
  refine System.Run.invariant (fun state _ => Ready state) ready_initial ?_ run
  intro state events choice emitted next ready _ transition
  exact ready_move ready transition

/-! ### One of core1's moves -/

/-- Speeds between `MIN_SPEED_HZ` and `max_speed`, which change within the rates, leave room to
brake, and end less than one step of acceleration above `MIN_SPEED_HZ`. -/
structure Enveloped (m finish : Motion ℝ) (pushes : List (Push ℝ)) : Prop where
  speed : ∀ push ∈ pushes, 50 ≤ push.after.speed ∧ push.after.speed ≤ m.maxSpeed
  rates : List.IsChain (WithinRates m.accel m.decel) (50 :: pushes.map (·.after.speed))
  braking : ∀ push ∈ pushes, (push.before.speed ^ 2 - 50 ^ 2) / (2 * m.decel) <
    push.before.remaining + m.accel / m.decel
  last : finish.remaining = 0 → ∃ last, pushes.getLast? = some last ∧
    last.after.speed ^ 2 < 50 ^ 2 + 2 * m.accel

section Own

variable {guard guard' : State ℝ → Choice → Prop} {earlier begun s : State ℝ} {steps : Int}
  {past events : List Event} {before choices : List Choice}
  (reached : (system ℝ).Run guard initial before past earlier) (starts : Starts steps earlier begun)
  (run : (system ℝ).Run guard' begun choices events s) (within : ∀ steps, .started steps ∉ events)

include reached starts run within

/-- From the start of a move to that of the next one, core1 pushes the words of one move of `M`. -/
theorem own_move : ∃ calls pushes,
    (moves ℝ).Run (CallsOf events) (earlier.motion.motionStart steps) calls pushes s.motion ∧
    stepWords events = pushes.map Push.word := by
  obtain ⟨_, loaded⟩ := starts.loads
  obtain ⟨choice, emitted, stepped, _⟩ := starts
  have ready := ready_move (ready_of_run reached) stepped
  exact loaded ▸ moves_of_run ready.wellformed run within

/-- The words of a move in which no command changes `M` are those of speeds within the
envelope. -/
theorem own_move_enveloped (negatable : steps ≠ -2 ^ 31) (unsteered : ¬Steered events) :
    ∃ pushes, stepWords events = pushes.map Push.word ∧
      Enveloped earlier.motion s.motion pushes := by
  obtain ⟨calls, pushes, move, words⟩ := own_move reached starts run within
  have ready := ready_of_run reached
  obtain ⟨here, _⟩ := starts.loads
  obtain ⟨low, high⟩ := ready.loading steps (.inr here)
  have nonzero := (ready.wellformed.starting steps (.inr here)).2
  have feeding : (moves ℝ).Run Feeding (earlier.motion.motionStart steps) calls pushes s.motion :=
    move.weaken fun _ _ called => called.resolve_right unsteered
  have fed : Fed ready.accepted steps.natAbs s.motion pushes :=
    fed_of_run (by omega) high feeding
  exact ⟨pushes, words, fun _ => fed.speed_le, fed.withinRates, fun _ => fed.distance,
    fed.last_lt (by omega)⟩

/-- Whatever the commands between its steps, the speeds of its words change within the rates in
force if and only if no step is pushed overspeed. -/
theorem own_move_slewed : ∃ pushes, stepWords events = pushes.map Push.word ∧
    (List.IsChain Slewed pushes ↔ ∀ push ∈ pushes, ¬push.before.Overspeed) := by
  obtain ⟨calls, pushes, move, words⟩ := own_move reached starts run within
  have whole : (moves ℝ).Run (moves ℝ).unguarded (earlier.motion.motionStart steps) calls pushes
      s.motion := move.weaken fun _ _ _ => trivial
  exact ⟨pushes, words, (judged_of_run (ready_of_run reached).accepted whole).judged⟩

end Own

end Rp2350Stepper.Core1
