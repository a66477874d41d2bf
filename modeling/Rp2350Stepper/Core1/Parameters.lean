import Mathlib.Tactic.NormNum
import Rp2350Stepper.Core1.Control

/-!
# The motion parameters over IEEE arithmetic

Each validator of `handle_command` lets its parameter leave its limits for one
kind of payload only: a NaN fails every comparison, so `CMD_SPEED` does not clamp
it and `CMD_ACCEL` and `CMD_DECEL` do not replace it. The validators are treated
one by one, then along runs.
-/

namespace Rp2350Stepper.Core1

open Rp2350Stepper.Num Rp2350Stepper.Data Rp2350Stepper.Semantics

/-- A number between `MIN_SPEED_HZ` and `ABS_MAX_SPEED`. -/
def WithinSpeed (x : Binary32) : Prop :=
  ∃ value, x.datum = .finite value ∧ 50 ≤ value ∧ value ≤ 160000

/-- A positive number up to `ABS_MAX_ACCEL`. -/
def WithinRate (x : Binary32) : Prop :=
  ∃ value, x.datum = .finite value ∧ 0 < value ∧ value ≤ 2666666

/-- Every parameter of `M` is a number within its limits. -/
structure Accepted (m : Motion Binary32) : Prop where
  maxSpeed : WithinSpeed m.maxSpeed
  accel : WithinRate m.accel
  decel : WithinRate m.decel

/-! ### The limits as numbers -/

/-- The lowest speed is a binary32 number. -/
theorem minSpeedHz_datum : (minSpeedHz : Binary32).datum = .finite 50 := by decide +kernel

theorem absMaxSpeed_datum : (absMaxSpeed : Binary32).datum = .finite 160000 := by
  decide +kernel

theorem absMaxAccel_datum : (absMaxAccel : Binary32).datum = .finite 2666666 := by
  decide +kernel

theorem zero_datum : (SinglePrecision.ofNat 0 : Binary32).datum = .finite 0 := by
  decide +kernel

/-- The default rate is within the limits. -/
theorem withinRate_defAccel : WithinRate defAccel :=
  ⟨1000000, by decide +kernel, by norm_num, by norm_num⟩

theorem accepted_initial : Accepted Motion.initial where
  maxSpeed := ⟨100000, by decide +kernel, by norm_num, by norm_num⟩
  accel := withinRate_defAccel
  decel := withinRate_defAccel

/-! ### The validators -/

/-- A number is not a NaN. -/
theorem not_isNaN_of_finite {x : Binary32} {value : ℚ} (number : x.datum = .finite value) :
    x.isNaN = false := by
  rw [← Binary32.datum_ne_nan_iff, number]
  simp

/-- `CMD_SPEED` accepts every payload but a NaN. -/
theorem withinSpeed_cmdSpeed (m : Motion Binary32) (payload : Word) :
    WithinSpeed (m.cmdSpeed payload).maxSpeed ↔ (Binary32.mk payload).isNaN = false := by
  have opened : (m.cmdSpeed payload).maxSpeed =
      if (Binary32.mk payload).datum.lt (.finite 50) then minSpeedHz
      else if (Datum.finite 160000).lt (Binary32.mk payload).datum then absMaxSpeed
      else Binary32.mk payload := by
    rw [← minSpeedHz_datum, ← absMaxSpeed_datum]
    rfl
  rw [opened]
  constructor
  · intro within
    rw [← Binary32.datum_ne_nan_iff]
    intro datum
    simp only [datum, Datum.nan_lt, Datum.lt_nan, Bool.false_eq_true, if_false] at within
    obtain ⟨value, number, _⟩ := within
    rw [datum] at number
    cases number
  · intro notNaN
    have number := Binary32.datum_ne_nan_iff.mpr notNaN
    cases below : (Binary32.mk payload).datum.lt (.finite 50) with
    | true => exact ⟨50, by simp [minSpeedHz_datum], by norm_num, by norm_num⟩
    | false =>
        cases above : (Datum.finite 160000).lt (Binary32.mk payload).datum with
        | true => exact ⟨160000, by simp [absMaxSpeed_datum], by norm_num, by norm_num⟩
        | false => simpa [WithinSpeed] using Datum.number_of_not_lt number below above

/-- The check of `CMD_ACCEL` and `CMD_DECEL` accepts every payload but a NaN. -/
theorem withinRate_acceptRate {default : Binary32} (within : WithinRate default)
    (payload : Word) :
    WithinRate (Motion.acceptRate default payload) ↔ (Binary32.mk payload).isNaN = false := by
  have opened : Motion.acceptRate default payload =
      if (Binary32.mk payload).datum.le (.finite 0) ||
          (Datum.finite 2666666).lt (Binary32.mk payload).datum then default
      else Binary32.mk payload := by
    rw [← zero_datum, ← absMaxAccel_datum]
    rfl
  rw [opened]
  constructor
  · intro accepted
    rw [← Binary32.datum_ne_nan_iff]
    intro datum
    simp only [datum, Datum.nan_le, Datum.lt_nan, Bool.or_self, Bool.false_eq_true,
      if_false] at accepted
    obtain ⟨value, number, _⟩ := accepted
    rw [datum] at number
    cases number
  · intro notNaN
    have number := Binary32.datum_ne_nan_iff.mpr notNaN
    cases below : (Binary32.mk payload).datum.le (.finite 0) with
    | true => simpa using within
    | false =>
        cases above : (Datum.finite 2666666).lt (Binary32.mk payload).datum with
        | true => simpa using within
        | false => simpa [WithinRate] using Datum.number_of_not_le number below above

/-! ### Along runs -/

/-- A parameter command has been decoded with a NaN payload. -/
def Event.LoadsNaN (event : Event) : Prop :=
  ∃ cmd payload, event = .decoded cmd (some payload) ∧
    (cmd = .speed ∨ cmd = .accel ∨ cmd = .decel) ∧ (Binary32.mk payload).isNaN = true

/-- A payload command keeps the parameters accepted unless it loads a NaN, and
then it does not. -/
theorem accepted_handlePayload {m : Motion Binary32} (accepted : Accepted m)
    (cmd : StepperCmd) (payload : Word) :
    Accepted (handlePayload m cmd payload).2 ↔
      ¬(Event.decoded cmd (some payload)).LoadsNaN := by
  have loads : (Event.decoded cmd (some payload)).LoadsNaN ↔
      (cmd = .speed ∨ cmd = .accel ∨ cmd = .decel) ∧
        (Binary32.mk payload).isNaN = true := by
    constructor
    · rintro ⟨_, _, same, kind, nan⟩
      cases same
      exact ⟨kind, nan⟩
    · rintro ⟨kind, nan⟩
      exact ⟨cmd, payload, rfl, kind, nan⟩
  rw [loads]
  obtain ⟨maxSpeed, accel, decel⟩ := accepted
  cases cmd with
  | speed =>
      have validated := withinSpeed_cmdSpeed m payload
      constructor
      · intro next
        simpa using validated.mp next.maxSpeed
      · intro notNaN
        exact ⟨validated.mpr (by simpa using notNaN), accel, decel⟩
  | accel =>
      have validated := withinRate_acceptRate withinRate_defAccel payload
      constructor
      · intro next
        simpa using validated.mp next.accel
      · intro notNaN
        exact ⟨maxSpeed, validated.mpr (by simpa using notNaN), decel⟩
  | decel =>
      have validated := withinRate_acceptRate withinRate_defAccel payload
      constructor
      · intro next
        simpa using validated.mp next.decel
      · intro notNaN
        exact ⟨maxSpeed, accel, validated.mpr (by simpa using notNaN)⟩
  | move =>
      have same : (handlePayload m .move payload).2 = m := by
        simp only [handlePayload]
        split
        · rfl
        · split <;> rfl
      simpa [same] using ⟨maxSpeed, accel, decel⟩
  | stop => simpa [handlePayload] using ⟨maxSpeed, accel, decel⟩
  | status => simpa [handlePayload] using ⟨maxSpeed, accel, decel⟩

/-- One step keeps the parameters accepted exactly when it loads no NaN. -/
theorem accepted_move {s next : State Binary32} {choice : Choice} {emitted : List Event}
    (wellformed : Wellformed s) (accepted : Accepted s.motion)
    (move : Move s choice emitted next) :
    Accepted next.motion ↔ ∀ event ∈ emitted, ¬event.LoadsNaN := by
  -- All steps but the payload ones leave the parameters alone and load nothing.
  have keeps : Accepted next.motion → (∀ event ∈ emitted, ∀ cmd payload,
      event ≠ .decoded cmd (some payload)) →
      (Accepted next.motion ↔ ∀ event ∈ emitted, ¬event.LoadsNaN) := by
    intro after quiet
    apply iff_of_true after
    rintro event member ⟨cmd, payload, same, _⟩
    exact quiet event member cmd payload same
  have parameters := accepted
  obtain ⟨maxSpeed, accel, decel⟩ := accepted
  cases move with
  | payload cmd here word inbound read =>
      simpa using accepted_handlePayload parameters cmd word
  | feedLoses here moving full =>
      have room := wellformed.room here
      omega
  | _ => exact keeps ⟨maxSpeed, accel, decel⟩ (by simp)

/-- `M`'s parameters are within their limits throughout a run exactly when the run
decodes no NaN payload for them. -/
theorem parameters_within_limits {choices : List Choice} {events : List Event}
    {s : State Binary32}
    (run : (system Binary32).Run (system Binary32).unguarded initial choices events s) :
    (system Binary32).Throughout (system Binary32).unguarded initial choices
        (fun state : State Binary32 => Accepted state.motion) ↔
      ∀ event ∈ events, ¬event.LoadsNaN := by
  refine System.Run.throughout_iff System.step_deterministic ⟨wellformed_initial, accepted_initial⟩ ?_ ?_ run
  · intro state choice emitted next wellformed transition
    exact wellformed_move wellformed (move_of_step transition)
  · intro state choice emitted next wellformed accepted transition
    exact accepted_move wellformed accepted (move_of_step transition)

/-- core1 reads and handles one `CMD_SPEED` while idle. -/
def speedChoices (payload : Word) : List Choice :=
  [.arrive StepperCmd.speed.toWord, .arrive payload, .core1, .core1, .core1]

/-- An infinite speed is clamped, and no state on the way is outside the limits. -/
theorem infinite_speed_accepted :
    (system Binary32).Throughout (system Binary32).unguarded initial (speedChoices 0x7F800000)
      (fun state : State Binary32 => Accepted state.motion) := by
  have executed : (System.execute step (fun (_ : State Binary32) _ => true) initial
      (speedChoices 0x7F800000)).map (·.1) = some [.decoded .speed (some 0x7F800000)] := by
    decide +kernel
  obtain ⟨⟨events, s⟩, executed, loaded⟩ := Option.map_eq_some_iff.mp executed
  have run : (system Binary32).Run (system Binary32).unguarded initial _ events s :=
    System.unguarded_run_of_execute executed
  apply (parameters_within_limits run).mpr
  subst loaded
  rintro event member ⟨cmd, payload, same, _, nan⟩
  simp only [List.mem_singleton] at member
  rw [member] at same
  cases same
  exact absurd nan (by decide +kernel)

/-- A NaN speed is stored as the speed limit. -/
theorem nan_speed_stored :
    ¬∀ choices events (s : State Binary32),
      (system Binary32).Run (system Binary32).unguarded initial choices events s →
      Accepted s.motion := by
  intro accepted
  have executed : (System.execute step (fun (_ : State Binary32) _ => true) initial
      (speedChoices 0x7FC00000)).map (fun result => result.2.motion.maxSpeed.isNaN) =
        some true := by
    decide +kernel
  obtain ⟨⟨events, s⟩, executed, nan⟩ := Option.map_eq_some_iff.mp executed
  have run : (system Binary32).Run (system Binary32).unguarded initial _ events s :=
    System.unguarded_run_of_execute executed
  obtain ⟨value, number, _⟩ := (accepted _ events s run).maxSpeed
  rw [not_isNaN_of_finite number] at nan
  exact absurd nan (by simp)

end Rp2350Stepper.Core1
