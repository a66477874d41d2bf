import Mathlib.Data.Nat.Notation

/-! The mailbox words core0 and core1 exchange (`core1/mailbox_proto.h`). -/

namespace Rp2350Stepper.Core1

/-- One word of an inter-core or PIO FIFO. -/
abbrev Word := BitVec 32

/-- `enum stepper_cmd`. -/
inductive StepperCmd where
  | speed
  | accel
  | decel
  | move
  | stop
  | status
deriving DecidableEq, Repr

namespace StepperCmd

/-- The word of a command. -/
def toWord : StepperCmd → Word
  | speed => 0
  | accel => 1
  | decel => 2
  | move => 3
  | stop => 4
  | status => 5

/-- The cases of `handle_command`'s `switch`; `none` is its empty default. -/
def ofWord (word : Word) : Option StepperCmd :=
  if word = speed.toWord then some speed
  else if word = accel.toWord then some accel
  else if word = decel.toWord then some decel
  else if word = move.toWord then some move
  else if word = stop.toWord then some stop
  else if word = status.toWord then some status
  else none

/-- A command is decoded from its word. -/
@[simp] theorem ofWord_toWord (cmd : StepperCmd) : ofWord cmd.toWord = some cmd := by
  cases cmd <;> decide

end StepperCmd

/-- `enum stepper_status_field`. -/
inductive StatusField where
  | state
  | maxSpeed
  | accel
  | decel
  | speed
  | remaining
deriving DecidableEq, Repr

namespace StatusField

/-- The word of a field. -/
def toWord : StatusField → Word
  | state => 0
  | maxSpeed => 1
  | accel => 2
  | decel => 3
  | speed => 4
  | remaining => 5

/-- The cases of the `CMD_STATUS` field `switch`. -/
def ofWord (word : Word) : Option StatusField :=
  if word = state.toWord then some state
  else if word = maxSpeed.toWord then some maxSpeed
  else if word = accel.toWord then some accel
  else if word = decel.toWord then some decel
  else if word = speed.toWord then some speed
  else if word = remaining.toWord then some remaining
  else none

/-- A field is decoded from its word. -/
@[simp] theorem ofWord_toWord (field : StatusField) : ofWord field.toWord = some field := by
  cases field <;> decide

end StatusField

/-- `STEPPER_ACK_OK`. -/
def stepperAckOk : Word := 0

/-- `STEPPER_ACK_BUSY`: a `CMD_MOVE` while already moving. -/
def stepperAckBusy : Word := 1

end Rp2350Stepper.Core1
