import Rp2350Stepper.Core1.Main

/-!
# What one step of core1 can do

`Move` has one constructor for each kind of step and `move_of_step` is the only
place which unfolds the step function; every invariant is a case analysis on
`Move`. `Wellformed` is the control invariant: which motion state each point of
`core1_main` is reached in.
-/

namespace Rp2350Stepper.Core1

open Rp2350Stepper.Num Rp2350Stepper.Data Rp2350Stepper.Semantics

variable {F : Type} [SinglePrecision F]

/-- One step of the system, by what it does. -/
inductive Move (s : State F) : Choice → List Event → State F → Prop where
  | iteration (here : s.point = .iteration) :
      Move s .core1 [] { s with point := if s.motion.state = .moving then .txFull else .command }
  | txFull (here : s.point = .txFull) (full : s.txFifo.items.length = pioFifoDepth) :
      Move s .core1 [] { s with point := .command }
  | txRoom (here : s.point = .txFull) (room : s.txFifo.items.length < pioFifoDepth) :
      Move s .core1 [] { s with point := .feed }
  | feedIdle (here : s.point = .feed) (idle : s.motion.state ≠ .moving) :
      Move s .core1 [] { s with point := .command }
  | feedEnds (here : s.point = .feed) (moving : s.motion.state = .moving)
      (ends : s.motion.stopReq = true ∨ s.motion.remaining ≤ 0) :
      Move s .core1 [.idled]
        { s with
          point := .command
          motion := { s.motion with
            state := .idle, speed := SinglePrecision.ofNat 0, stopReq := false } }
  | feedPushes (here : s.point = .feed) (moving : s.motion.state = .moving)
      (stopReq : s.motion.stopReq = false) (remaining : 0 < s.motion.remaining) (word : Word)
      (txFifo : Fifo Word pioFifoDepth) (room : s.txFifo.items.length < pioFifoDepth)
      (queued : txFifo.items = s.txFifo.items ++ [word])
      (computed : word = Motion.hzToHalfPeriod s.motion.nextSpeed) :
      Move s .core1 [.pushed word]
        { s with
          point := .txFull
          motion := { s.motion with
            speed := s.motion.nextSpeed, remaining := s.motion.remaining - 1 }
          txFifo := txFifo }
  | feedLoses (here : s.point = .feed) (moving : s.motion.state = .moving)
      (full : s.txFifo.items.length = pioFifoDepth) (word : Word) (m : Motion F) :
      Move s .core1 [.lost word] { s with point := .txFull, motion := m }
  | noCommand (here : s.point = .command) (empty : s.inbound = []) :
      Move s .core1 [] { s with point := .iteration }
  | unknown (here : s.point = .command) (opcode : Word) (inbound : List Word)
      (read : s.inbound = opcode :: inbound) (unknown : StepperCmd.ofWord opcode = none) :
      Move s .core1 [] { s with point := .iteration, inbound := inbound }
  | stopMoving (here : s.point = .command) (inbound : List Word)
      (read : s.inbound = StepperCmd.stop.toWord :: inbound)
      (moving : s.motion.state = .moving) :
      Move s .core1 [.decoded .stop none, .stopRequested]
        { s with
          point := .reply stepperAckOk
          motion := { s.motion with stopReq := true }
          inbound := inbound }
  | stopIdle (here : s.point = .command) (inbound : List Word)
      (read : s.inbound = StepperCmd.stop.toWord :: inbound)
      (idle : s.motion.state ≠ .moving) :
      Move s .core1 [.decoded .stop none]
        { s with point := .reply stepperAckOk, inbound := inbound }
  | opcode (here : s.point = .command) (cmd : StepperCmd) (inbound : List Word)
      (read : s.inbound = cmd.toWord :: inbound) (takesPayload : cmd ≠ .stop) :
      Move s .core1 [] { s with point := .payload cmd, inbound := inbound }
  | payload (cmd : StepperCmd) (here : s.point = .payload cmd) (word : Word)
      (inbound : List Word) (read : s.inbound = word :: inbound) :
      Move s .core1 [.decoded cmd (some word)]
        { s with
          point := (handlePayload s.motion cmd word).1
          motion := (handlePayload s.motion cmd word).2
          inbound := inbound }
  | direction (steps : Int) (here : s.point = .direction steps) :
      Move s .core1 [] { s with point := .settle steps, dir := Motion.forward steps }
  | settle (steps : Int) (here : s.point = .settle steps) :
      Move s .core1 [.started steps]
        { s with point := .reply stepperAckOk, motion := s.motion.motionStart steps }
  | reply (word : Word) (here : s.point = .reply word) :
      Move s .core1 [.replied word]
        { s with point := .iteration, outbound := s.outbound ++ [word] }
  | arrive (word : Word) : Move s (.arrive word) [] { s with inbound := s.inbound ++ [word] }
  | take (reply : Word) (outbound : List Word) (queued : s.outbound = reply :: outbound) :
      Move s .take [] { s with outbound := outbound }
  | pull (word : Word) (txFifo : Fifo Word pioFifoDepth) (free : s.osr = none)
      (queued : s.txFifo.items = word :: txFifo.items) :
      Move s .pull [] { s with osr := some word, txFifo := txFifo }
  | rise (word : Word) (pulled : s.osr = some word) :
      Move s .rise [.rose s.dir] { s with osr := none }

/-- The opcode words `handle_command` knows are the ones the protocol gives. -/
theorem toWord_of_ofWord {word : Word} {cmd : StepperCmd}
    (known : StepperCmd.ofWord word = some cmd) : word = cmd.toWord := by
  simp only [StepperCmd.ofWord] at known
  split at known
  · rename_i same
    cases known
    exact same
  all_goals
    repeat' split at known
    all_goals first | (cases known; assumption) | simp at known

/-- What core1 does with its mailbox. -/
private theorem move_of_command {s next : State F} {emitted : List Event}
    (here : s.point = .command) (stepped : core1Step s = some (emitted, next)) :
    Move s .core1 emitted next := by
  unfold core1Step at stepped
  rw [here] at stepped
  cases read : s.inbound with
  | nil =>
      simp only [read, Option.some.injEq, Prod.mk.injEq] at stepped
      obtain ⟨rfl, rfl⟩ := stepped
      exact read ▸ .noCommand here read
  | cons opcode inbound =>
      simp only [read, dispatch] at stepped
      cases known : StepperCmd.ofWord opcode with
      | none =>
          simp only [known, Option.some.injEq, Prod.mk.injEq] at stepped
          obtain ⟨rfl, rfl⟩ := stepped
          exact .unknown here opcode inbound read known
      | some cmd =>
          obtain rfl := toWord_of_ofWord known
          cases cmd with
          | stop =>
              by_cases moving : s.motion.state = .moving
              · simp only [known, moving, if_true, Motion.cmdStop, Option.some.injEq,
                  Prod.mk.injEq] at stepped
                obtain ⟨rfl, rfl⟩ := stepped
                exact moving ▸ .stopMoving here inbound read moving
              · simp only [known, moving, if_false, Motion.cmdStop, Option.some.injEq,
                  Prod.mk.injEq] at stepped
                obtain ⟨rfl, rfl⟩ := stepped
                exact .stopIdle here inbound read moving
          | _ =>
              simp only [known, Option.some.injEq, Prod.mk.injEq] at stepped
              obtain ⟨rfl, rfl⟩ := stepped
              exact .opcode here _ inbound read (by simp)

/-- What it does in `feed_step`. -/
private theorem move_of_feed {s next : State F} {emitted : List Event}
    (here : s.point = .feed) (stepped : core1Step s = some (emitted, next)) :
    Move s .core1 emitted next := by
  unfold core1Step at stepped
  rw [here] at stepped
  rcases s.motion.feedStep_cases with
    ⟨idle, fed⟩ | ⟨moving, ends, fed⟩ | ⟨moving, stopReq, remaining, fed⟩
  · simp only [fed, idle, if_false, Option.some.injEq, Prod.mk.injEq] at stepped
    obtain ⟨rfl, rfl⟩ := stepped
    exact .feedIdle here idle
  · simp only [fed, moving, if_true, Option.some.injEq, Prod.mk.injEq] at stepped
    obtain ⟨rfl, rfl⟩ := stepped
    exact .feedEnds here moving ends
  · simp only [fed] at stepped
    cases pushed : s.txFifo.push? (Motion.hzToHalfPeriod s.motion.nextSpeed) with
    | some txFifo =>
        simp only [pushed, Option.some.injEq, Prod.mk.injEq] at stepped
        obtain ⟨rfl, rfl⟩ := stepped
        obtain ⟨room, queued⟩ := Fifo.push?_eq_some_iff.mp pushed
        exact .feedPushes here moving stopReq remaining _ txFifo room queued rfl
    | none =>
        simp only [pushed, Option.some.injEq, Prod.mk.injEq] at stepped
        obtain ⟨rfl, rfl⟩ := stepped
        have full := Fifo.push?_eq_none_iff.mp pushed
        simp only [Fifo.isFull, beq_iff_eq] at full
        exact .feedLoses here moving full _ _

/-- Every step is one of the moves. -/
theorem move_of_step {s next : State F} {choice : Choice} {emitted : List Event}
    (stepped : step s choice = some (emitted, next)) : Move s choice emitted next := by
  cases choice with
  | core1 =>
      simp only [step] at stepped
      cases here : s.point with
      | iteration =>
          simp only [core1Step, here, Option.some.injEq, Prod.mk.injEq] at stepped
          obtain ⟨rfl, rfl⟩ := stepped
          exact .iteration here
      | txFull =>
          have bounded := s.txFifo.bounded
          simp only [core1Step, here, Fifo.isFull, beq_iff_eq, Option.some.injEq,
            Prod.mk.injEq] at stepped
          obtain ⟨rfl, rfl⟩ := stepped
          by_cases full : s.txFifo.items.length = pioFifoDepth
          · simpa [full] using Move.txFull here full
          · simpa [full] using Move.txRoom here (by omega)
      | feed => exact move_of_feed here stepped
      | command => exact move_of_command here stepped
      | payload cmd =>
          cases read : s.inbound with
          | nil => simp [core1Step, here, read] at stepped
          | cons word inbound =>
              simp only [core1Step, here, read, Option.some.injEq, Prod.mk.injEq] at stepped
              obtain ⟨rfl, rfl⟩ := stepped
              exact .payload cmd here word inbound read
      | direction steps =>
          simp only [core1Step, here, Option.some.injEq, Prod.mk.injEq] at stepped
          obtain ⟨rfl, rfl⟩ := stepped
          exact .direction steps here
      | settle steps =>
          simp only [core1Step, here, Option.some.injEq, Prod.mk.injEq] at stepped
          obtain ⟨rfl, rfl⟩ := stepped
          exact .settle steps here
      | reply word =>
          simp only [core1Step, here, Option.some.injEq, Prod.mk.injEq] at stepped
          obtain ⟨rfl, rfl⟩ := stepped
          exact .reply word here
  | arrive word =>
      simp only [step, Option.some.injEq, Prod.mk.injEq] at stepped
      obtain ⟨rfl, rfl⟩ := stepped
      exact .arrive word
  | take =>
      cases queued : s.outbound with
      | nil => simp [step, queued] at stepped
      | cons reply outbound =>
          simp only [step, queued, Option.some.injEq, Prod.mk.injEq] at stepped
          obtain ⟨rfl, rfl⟩ := stepped
          exact .take reply outbound queued
  | pull =>
      cases free : s.osr with
      | some word => simp [step, free] at stepped
      | none =>
          cases popped : s.txFifo.pop? with
          | none => simp [step, free, popped] at stepped
          | some taken =>
              obtain ⟨word, txFifo⟩ := taken
              simp only [step, free, popped, Option.some.injEq, Prod.mk.injEq] at stepped
              obtain ⟨rfl, rfl⟩ := stepped
              exact .pull word txFifo free (Fifo.pop?_eq_some_iff.mp popped)
  | rise =>
      cases pulled : s.osr with
      | none => simp [step, pulled] at stepped
      | some word =>
          simp only [step, pulled, Option.some.injEq, Prod.mk.injEq] at stepped
          obtain ⟨rfl, rfl⟩ := stepped
          exact .rise word pulled

/-! ### Payload commands -/

/-- A payload command changes no field of `M` but the parameter it sets. -/
theorem handlePayload_motion (m : Motion F) (cmd : StepperCmd) (word : Word) :
    (handlePayload m cmd word).2.state = m.state ∧
    (handlePayload m cmd word).2.remaining = m.remaining ∧
    (handlePayload m cmd word).2.stopReq = m.stopReq ∧
    (handlePayload m cmd word).2.speed = m.speed := by
  cases cmd with
  | move =>
      simp only [handlePayload]
      split
      · exact ⟨rfl, rfl, rfl, rfl⟩
      · split <;> exact ⟨rfl, rfl, rfl, rfl⟩
  | _ => exact ⟨rfl, rfl, rfl, rfl⟩

/-- After its payload a command replies, or is an accepted move about to set
the direction. -/
theorem handlePayload_point (m : Motion F) (cmd : StepperCmd) (word : Word) :
    (∃ reply, (handlePayload m cmd word).1 = .reply reply) ∨
    (cmd = .move ∧ m.state ≠ .moving ∧ word.toInt ≠ 0 ∧
      (handlePayload m cmd word).1 = .direction word.toInt) := by
  cases cmd with
  | move =>
      simp only [handlePayload]
      split
      · exact .inl ⟨_, rfl⟩
      · rename_i idle
        split
        · exact .inl ⟨_, rfl⟩
        · rename_i nonzero
          exact .inr ⟨trivial, idle, nonzero, rfl⟩
  | _ => exact .inl ⟨_, rfl⟩

/-! ### The control invariant -/

/-- What holds of core1 at each point of its loop. -/
structure Wellformed (s : State F) : Prop where
  feeding : s.point = .txFull ∨ s.point = .feed → s.motion.state = .moving
  room : s.point = .feed → s.txFifo.items.length < pioFifoDepth
  payload : ∀ cmd, s.point = .payload cmd → cmd ≠ .stop
  starting : ∀ steps, s.point = .direction steps ∨ s.point = .settle steps →
    s.motion.state ≠ .moving ∧ steps ≠ 0

/-- At first core1 is well formed. -/
theorem wellformed_initial : Wellformed (initial : State F) := by
  constructor <;> simp [initial]

/-- Each step keeps it so. -/
theorem wellformed_move {s next : State F} {choice : Choice} {emitted : List Event}
    (wellformed : Wellformed s) (move : Move s choice emitted next) : Wellformed next := by
  obtain ⟨feeding, room, payload, starting⟩ := wellformed
  cases move with
  | iteration here =>
      by_cases moving : s.motion.state = .moving <;> constructor <;> simp [moving]
  | txRoom here free => constructor <;> simp [feeding (.inl here), free]
  | feedPushes here moving stopReq remaining word txFifo free queued =>
      constructor <;> simp [moving]
  | feedLoses here moving full =>
      have free := room here
      omega
  | opcode here cmd inbound read takesPayload =>
      constructor <;> simp [takesPayload]
  | payload cmd here word inbound read =>
      rcases handlePayload_point s.motion cmd word with
        ⟨reply, point⟩ | ⟨rfl, idle, nonzero, point⟩
      · constructor <;> simp [point]
      · have same := (handlePayload_motion s.motion .move word).1
        constructor <;> simp [point, same, idle, nonzero]
  | direction steps here =>
      obtain ⟨idle, nonzero⟩ := starting steps (.inl here)
      constructor <;> simp [idle, nonzero]
  | arrive word => exact ⟨feeding, room, payload, starting⟩
  | take reply outbound queued => exact ⟨feeding, room, payload, starting⟩
  | pull word txFifo free queued =>
      refine ⟨feeding, fun here => ?_, payload, starting⟩
      have before := room here
      have length := congrArg List.length queued
      simp only [List.length_cons] at length
      simp only
      omega
  | rise word pulled => exact ⟨feeding, room, payload, starting⟩
  | _ => constructor <;> simp

/-- The control invariant holds wherever a run from reset ends. -/
theorem wellformed_of_run {guard : State F → Choice → Prop} {s : State F}
    {choices : List Choice} {events : List Event}
    (run : (system F).Run guard initial choices events s) : Wellformed s := by
  refine System.Run.invariant (fun state _ => Wellformed state) wellformed_initial ?_ run
  intro state events choice emitted next wellformed _ transition
  exact wellformed_move wellformed (move_of_step transition)

end Rp2350Stepper.Core1
