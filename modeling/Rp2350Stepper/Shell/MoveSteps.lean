import Rp2350Stepper.Core1.MoveCompletion
import Rp2350Stepper.Num.SinglePrecision
import Rp2350Stepper.Shell.RoundTrip

/-!
# `stepper move`, from the step count to the last step

`move_steps` refuses a count of zero and sends any other as the payload of a `CMD_MOVE`;
`move_steps_completes` follows an accepted one to the end of its move.
-/

namespace Rp2350Stepper.Shell

open Rp2350Stepper.Num Rp2350Stepper.Data Rp2350Stepper.Semantics
open Rp2350Stepper.Core1 (Word StepperCmd Request Fair Unstopped Spans NegationFits pushedBetween
  stepperAckBusy stepperAckOk)

/-- What `move_steps` prints after its round trip, as an error or not. -/
def moveReport (steps : Int) : Except Int Word → Except String String
  | .error _ => .error "core1 did not respond"
  | .ok reply =>
      if reply = stepperAckBusy then .error "already moving; use 'stepper stop' first"
      else .ok ("moving " ++ toString steps ++ " steps " ++
        (if 0 < steps then "forward" else "reverse") ++ "...")

/-- `move_steps`. -/
def moveSteps (steps : Int) : Program mboxInterface (Except String String) :=
  if steps = 0 then pure (.error "step count cannot be zero")
  else do
    let result ← (cmdRoundtrip1 StepperCmd.move.toWord (BitVec.ofInt 32 steps)).run
    pure (moveReport steps result)

/-- The request `move_steps` sends, if any. -/
def moveRequest (steps : Int) : Option Request :=
  if steps = 0 then none else some (.withPayload .move (BitVec.ofInt 32 steps) (by decide))

/-- `move_steps` makes the round trip of its request and reports the reply. -/
theorem moveSteps_eq (steps : Int) : moveSteps steps =
    match moveRequest steps with
    | none => pure (.error "step count cannot be zero")
    | some request => (roundtrip request).run >>= fun result => pure (moveReport steps result) := by
  unfold moveSteps moveRequest
  by_cases zero : steps = 0
  · rw [if_pos zero, if_pos zero]
  · rw [if_neg zero, if_neg zero]
    rfl

variable {F : Type} [SinglePrecision F] {s : (Core1.system F).State}
  {schedule : Schedule (Core1.system F) s}

/-- core1 is about to read, while it does not move, the payload of a request of `move_steps`. In
every schedule in which core1 and the PIO go on and no `CMD_STOP` interrupts the move, core1
starts it, acknowledges it and ends it with the pin at its level; it pushes as many words as
the step count says and overflows no negation exactly if the count is not `INT32_MIN`. -/
theorem move_steps_completes {choices : List Core1.Choice} {events : List Core1.Event}
    (run : (Core1.system F).Run (Core1.system F).unguarded Core1.initial choices events s)
    {steps : Int} (low : -2 ^ 31 ≤ steps) (high : steps < 2 ^ 31) {request : Request}
    (sends : moveRequest steps = some request) {rest : List Word}
    (here : (s : Core1.State F).point = .payload request.cmd)
    (sent : (s : Core1.State F).inbound = request.payload.toList ++ rest)
    (idle : (s : Core1.State F).motion.state ≠ .moving) (fair : Fair schedule)
    (unstopped : Unstopped schedule) :
    ((∃ start finish, Spans schedule steps start finish ∧
      pushedBetween schedule start finish = steps.natAbs) ∧ NegationFits steps) ↔
      steps ≠ -2 ^ 31 := by
  unfold moveRequest at sends
  split at sends
  · simp at sends
  · rename_i nonzero
    cases sends
    exact Core1.completes_iff low high nonzero (Core1.wellformed_of_run run)
      (.payload idle here rest sent) fair unstopped

/-- core1 about to read the payload of its first command. -/
def aboutToMove (steps : Int) : Core1.State Binary32 :=
  { Core1.initial with point := .payload .move, inbound := [BitVec.ofInt 32 steps] }

/-- core1 can go on, and stops nothing. -/
def goesOn (s : Core1.State Binary32) : Bool :=
  match Core1.core1Step s with
  | none => false
  | some (emitted, _) =>
      decide (s.txFifo.items.length < Core1.pioFifoDepth) && !emitted.contains .stopRequested

/-- core1 alone makes a move of one step and then looks for commands for ever. -/
theorem goesOn_one (index : Nat) :
    goesOn ((advance Core1.step .core1)^[index] (aboutToMove 1)) = true := by
  apply forever_of_lasso (fun s => goesOn s = true) 10 2 (by decide)
  · decide +kernel
  · decide +kernel

/-- The schedule of that move. -/
def moveOfOne : Schedule (Core1.system Binary32) (aboutToMove 1) :=
  Schedule.solo Core1.step .core1 (aboutToMove 1) fun index => by
    have goes := goesOn_one index
    unfold goesOn at goes
    split at goes
    · simp at goes
    · rename_i taken
      rw [Core1.step, taken]
      rfl

/-- Everyone in it goes on. -/
theorem fair_moveOfOne : Fair moveOfOne where
  core1 index := ⟨index, le_rfl, rfl⟩
  room index := by
    refine ⟨index, le_rfl, ?_⟩
    have goes := goesOn_one index
    unfold goesOn at goes
    split at goes
    · simp at goes
    · simp only [Bool.and_eq_true, decide_eq_true_eq] at goes
      exact goes.1

/-- Nobody stops the move. -/
theorem unstopped_moveOfOne : Unstopped moveOfOne := by
  intro index stopped
  have goes := goesOn_one index
  unfold goesOn at goes
  split at goes
  · simp at goes
  · rename_i emitted next taken
    have same : moveOfOne.emittedAt index = emitted := by
      simp [moveOfOne, Schedule.solo, Core1.step, taken]
    rw [same] at stopped
    simp [stopped] at goes

/-- A move of one step completes. -/
theorem one_step_completes :
    ((∃ start finish, Spans moveOfOne 1 start finish ∧
      pushedBetween moveOfOne start finish = (1 : Int).natAbs) ∧ NegationFits 1) ↔
      (1 : Int) ≠ -2 ^ 31 := by
  have executed : System.execute Core1.step (fun _ _ => true) (Core1.initial : Core1.State Binary32)
      [.arrive StepperCmd.move.toWord, .arrive 1, .core1, .core1] = some ([], aboutToMove 1) := by
    decide +kernel
  have run : (Core1.system Binary32).Run (Core1.system Binary32).unguarded Core1.initial _ []
      (aboutToMove 1) := System.unguarded_run_of_execute executed
  have sends : moveRequest 1 = some (.withPayload .move 1 (by decide)) := rfl
  have sent : (aboutToMove 1).inbound = [1] ++ [] := rfl
  exact move_steps_completes run (by decide) (by decide) sends rfl sent (by decide) fair_moveOfOne
    unstopped_moveOfOne

/-- `INT32_MIN`: the move is accepted, its negation overflows, and it ends without a word
pushed. -/
theorem lowest_count_lost :
    moveRequest (-2 ^ 31) = some (.withPayload .move (BitVec.ofInt 32 (-2 ^ 31)) (by decide)) ∧
    (∃ choices s, (Core1.system Binary32).Run (Core1.system Binary32).unguarded Core1.initial
      choices [.decoded .move (some (BitVec.ofInt 32 (-2 ^ 31))), .started (-2 ^ 31),
        .replied stepperAckOk, .idled] s) ∧
    ¬NegationFits (-2 ^ 31) := by
  refine ⟨rfl, ?_, ?_⟩
  · have executed : (System.execute Core1.step (fun _ _ => true)
        (Core1.initial : Core1.State Binary32)
        (.arrive StepperCmd.move.toWord :: .arrive (BitVec.ofInt 32 (-2 ^ 31)) ::
          List.replicate 9 .core1)).map Prod.fst =
        some [.decoded .move (some (BitVec.ofInt 32 (-2 ^ 31))), .started (-2 ^ 31),
          .replied stepperAckOk, .idled] := by
      decide +kernel
    obtain ⟨⟨events, s⟩, executed, rfl⟩ := Option.map_eq_some_iff.mp executed
    exact ⟨_, s, System.unguarded_run_of_execute executed⟩
  · intro fits
    exact absurd (fits (by decide)) (by decide)

end Rp2350Stepper.Shell
