import Rp2350Stepper.Core1.Mailbox
import Rp2350Stepper.Num.SinglePrecision

/-!
# The motion state and its profile

The functions of `core1/core1_main.c` which read and write `M`. They are stated
over any `SinglePrecision` arithmetic: the firmware runs them over `Binary32`,
and results about directions and step counts hold whatever the FPU computes.
-/

namespace Rp2350Stepper.Core1

open Rp2350Stepper.Num

section Constants

variable {F : Type} [SinglePrecision F]

/-- `PIO_F_SYS`. -/
def pioFSys : F := SinglePrecision.ofNat 150000000

/-- `MIN_SPEED_HZ`. -/
def minSpeedHz : F := SinglePrecision.ofNat 50

/-- `ABS_MAX_SPEED`. -/
def absMaxSpeed : F := SinglePrecision.ofNat 160000

/-- `ABS_MAX_ACCEL`. -/
def absMaxAccel : F := SinglePrecision.ofNat 2666666

/-- `DEF_MAX_SPEED`. -/
def defMaxSpeed : F := SinglePrecision.ofNat 100000

/-- `DEF_ACCEL`. -/
def defAccel : F := SinglePrecision.ofNat 1000000

/-- `DEF_DECEL`. -/
def defDecel : F := SinglePrecision.ofNat 1000000

end Constants

/-- `motion_state_t`. -/
inductive MotionState where
  | idle
  | moving
deriving DecidableEq, Repr

/-- `M`. Step counts are the values of their `int32_t`. -/
structure Motion (F : Type) where
  state : MotionState
  maxSpeed : F
  accel : F
  decel : F
  speed : F
  remaining : Int
  stopReq : Bool
deriving DecidableEq, Repr

/-- The range of `int32_t`, with the wrap-around of its arithmetic on the target. -/
def int32 (value : Int) : Int := value.bmod (2 ^ 32)

namespace Motion

variable {F : Type} [SinglePrecision F]

/-- The initializer of `M`. -/
def initial : Motion F where
  state := .idle
  maxSpeed := defMaxSpeed
  accel := defAccel
  decel := defDecel
  speed := SinglePrecision.ofNat 0
  remaining := 0
  stopReq := false

section Profile

local instance : Add F := ⟨SinglePrecision.add⟩
local instance : Sub F := ⟨SinglePrecision.sub⟩
local instance : Mul F := ⟨SinglePrecision.mul⟩
local instance : Div F := ⟨SinglePrecision.div⟩

/-- `hz_to_half_period`. -/
def hzToHalfPeriod (hz : F) : Word :=
  let halfPeriod := pioFSys / (SinglePrecision.ofNat 2 * hz) - SinglePrecision.ofNat 3
  if SinglePrecision.lt (SinglePrecision.ofNat 0) halfPeriod then
    SinglePrecision.toUint32 halfPeriod
  else 0

/-- `next_speed`. -/
def nextSpeed (m : Motion F) : F :=
  let v := m.speed
  let vmax := m.maxSpeed
  let a := m.accel
  let d := m.decel
  let vmin : F := minSpeedHz
  let two : F := SinglePrecision.ofNat 2
  let brakeSteps := (v * v - vmin * vmin) / (two * d)
  if m.remaining ≤ SinglePrecision.toInt32 (brakeSteps + SinglePrecision.ofNat 1) then
    let v2 := v * v - two * d
    if SinglePrecision.lt (vmin * vmin) v2 then SinglePrecision.sqrt v2 else vmin
  else if SinglePrecision.lt v vmax then
    let v2 := v * v + two * a
    if SinglePrecision.lt v2 (vmax * vmax) then SinglePrecision.sqrt v2 else vmax
  else vmax

/-- What `next_speed` compares with `M.remaining`: `brake_steps`, one step longer, as an
integer. -/
def brakeDistance (m : Motion F) : Int :=
  SinglePrecision.toInt32
    ((m.speed * m.speed - minSpeedHz * minSpeedHz) / (SinglePrecision.ofNat 2 * m.decel) +
      SinglePrecision.ofNat 1)

/-- The comparison decides whether the step brakes. -/
theorem nextSpeed_braking {m : Motion F} (due : m.remaining ≤ m.brakeDistance) : m.nextSpeed =
    if SinglePrecision.lt (minSpeedHz * minSpeedHz)
        (m.speed * m.speed - SinglePrecision.ofNat 2 * m.decel) then
      SinglePrecision.sqrt (m.speed * m.speed - SinglePrecision.ofNat 2 * m.decel)
    else minSpeedHz :=
  if_pos due

end Profile

/-- `feed_step`: the motion state it leaves and the word it writes to the PIO
FIFO. It returns 1 exactly when it writes one. -/
def feedStep (m : Motion F) : Motion F × Option Word :=
  if m.state ≠ .moving then (m, none)
  else if m.stopReq ∨ m.remaining ≤ 0 then
    ({ m with state := .idle, speed := SinglePrecision.ofNat 0, stopReq := false }, none)
  else
    let speed := m.nextSpeed
    ({ m with speed := speed, remaining := m.remaining - 1 }, some (hzToHalfPeriod speed))

/-- The direction `motion_start` selects; true sets `PIN_DIR`. -/
def forward (steps : Int) : Bool := decide (0 < steps)

/-- The assignments `motion_start` makes once `PIN_DIR` has settled. -/
def motionStart (m : Motion F) (steps : Int) : Motion F :=
  { m with
    remaining := if forward steps then steps else int32 (-steps)
    speed := minSpeedHz
    stopReq := false
    state := .moving }

/-! ### Commands on the motion state -/

/-- `CMD_SPEED`: clamp the payload to the speed limits. -/
def cmdSpeed (m : Motion F) (payload : Word) : Motion F :=
  let v : F := SinglePrecision.ofBits payload
  { m with
    maxSpeed :=
      if SinglePrecision.lt v minSpeedHz then minSpeedHz
      else if SinglePrecision.lt absMaxSpeed v then absMaxSpeed
      else v }

/-- The check `CMD_ACCEL` and `CMD_DECEL` share: a payload outside
`(0, ABS_MAX_ACCEL]` becomes the default. -/
def acceptRate (default : F) (payload : Word) : F :=
  let v : F := SinglePrecision.ofBits payload
  if SinglePrecision.le v (SinglePrecision.ofNat 0) || SinglePrecision.lt absMaxAccel v then
    default
  else v

/-- `CMD_ACCEL`. -/
def cmdAccel (m : Motion F) (payload : Word) : Motion F :=
  { m with accel := acceptRate defAccel payload }

/-- `CMD_DECEL`. -/
def cmdDecel (m : Motion F) (payload : Word) : Motion F :=
  { m with decel := acceptRate defDecel payload }

/-- `CMD_STOP`: request the stop of a move in progress. -/
def cmdStop (m : Motion F) : Motion F :=
  if m.state = .moving then { m with stopReq := true } else m

/-- The reply to `CMD_STATUS` for one field; an unknown field replies 0. -/
def cmdStatus (m : Motion F) (field : Word) : Word :=
  match StatusField.ofWord field with
  | some .state => if m.state = .moving then 1 else 0
  | some .maxSpeed => SinglePrecision.toBits m.maxSpeed
  | some .accel => SinglePrecision.toBits m.accel
  | some .decel => SinglePrecision.toBits m.decel
  | some .speed => SinglePrecision.toBits m.speed
  | some .remaining => BitVec.ofInt 32 m.remaining
  | none => 0

/-! ### What one call does -/

/-- `feed_step` does nothing unless moving, ends a stopped or finished move, or
pushes one word and counts it. -/
theorem feedStep_cases (m : Motion F) :
    (m.state ≠ .moving ∧ m.feedStep = (m, none)) ∨
    (m.state = .moving ∧ (m.stopReq = true ∨ m.remaining ≤ 0) ∧
      m.feedStep =
        ({ m with state := .idle, speed := SinglePrecision.ofNat 0, stopReq := false }, none)) ∨
    (m.state = .moving ∧ m.stopReq = false ∧ 0 < m.remaining ∧
      m.feedStep = ({ m with speed := m.nextSpeed, remaining := m.remaining - 1 },
        some (hzToHalfPeriod m.nextSpeed))) := by
  by_cases moving : m.state = .moving
  · by_cases ends : m.stopReq = true ∨ m.remaining ≤ 0
    · exact .inr (.inl ⟨moving, ends, by simp [feedStep, moving, ends]⟩)
    · have stopReq : m.stopReq = false := by simp_all
      have remaining : 0 < m.remaining := by simp_all
      exact .inr (.inr ⟨moving, stopReq, remaining, by simp [feedStep, moving, ends]⟩)
  · exact .inl ⟨moving, by simp [feedStep, moving]⟩

/-- A started move is moving. -/
@[simp] theorem motionStart_state (m : Motion F) (steps : Int) :
    (m.motionStart steps).state = .moving := rfl

/-- It has not been stopped. -/
@[simp] theorem motionStart_stopReq (m : Motion F) (steps : Int) :
    (m.motionStart steps).stopReq = false := rfl

/-- Unless it is `INT32_MIN`, a step count loads its magnitude. -/
theorem motionStart_remaining (m : Motion F) {steps : Int}
    (low : -2 ^ 31 < steps) (high : steps < 2 ^ 31) :
    (m.motionStart steps).remaining = steps.natAbs := by
  by_cases positive : 0 < steps
  · simp only [motionStart, forward, positive, decide_true, if_true]
    omega
  · simp only [motionStart, forward, positive, decide_false, Bool.false_eq_true, if_false, int32]
    rw [Int.bmod_eq_of_le] <;> omega

end Motion
end Rp2350Stepper.Core1
