import Rp2350Stepper.Core1.Control

/-!
# core1 as a server of requests

Seen from the mailbox, `core1_main` is between requests, or waits for a payload, or has an
answer to write; `Traffic` is all one of its steps can do there.
-/

namespace Rp2350Stepper.Core1

open Rp2350Stepper.Num Rp2350Stepper.Data Rp2350Stepper.Semantics

/-- The opcodes differ. -/
theorem StepperCmd.toWord_injective {cmd cmd' : StepperCmd} (same : cmd.toWord = cmd'.toWord) :
    cmd = cmd' := by
  have known := ofWord_toWord cmd
  rw [same, ofWord_toWord] at known
  exact (Option.some.inj known).symm

/-- A request: an opcode, with a payload word unless it is `CMD_STOP`. -/
structure Request where
  cmd : StepperCmd
  payload : Option Word
  complete : payload.isSome = true ↔ cmd ≠ .stop
deriving DecidableEq

namespace Request

/-- The words core0 sends for it. -/
def words (request : Request) : List Word := request.cmd.toWord :: request.payload.toList

/-- `CMD_STOP`. -/
def stop : Request := ⟨.stop, none, by simp⟩

/-- An opcode with its payload word. -/
def withPayload (cmd : StepperCmd) (word : Word) (takesPayload : cmd ≠ .stop) : Request :=
  ⟨cmd, some word, by simp [takesPayload]⟩

/-- A move has a payload. -/
theorem move_takesPayload : StepperCmd.move ≠ .stop := nofun

/-- A request is a stop or has a payload. -/
theorem eq_stop_or_withPayload (request : Request) :
    request = stop ∨ ∃ cmd word takesPayload, request = withPayload cmd word takesPayload := by
  obtain ⟨cmd, payload, complete⟩ := request
  cases payload with
  | none =>
      obtain rfl : cmd = .stop := by simpa using complete
      exact .inl rfl
  | some word => exact .inr ⟨cmd, word, by simpa using complete, rfl⟩

end Request

/-- What `core1_main` is about to do with the mailbox. -/
inductive Position where
  /-- To look for an opcode, sooner or later. -/
  | between
  | awaiting (cmd : StepperCmd)
  | answering (word : Word)
deriving DecidableEq, Repr

/-- The word written when `handle_command` gets to `fifo_write_blocking`; before that only an
accepted move has something left to do. -/
def Point.answer : Point → Word
  | .reply word => word
  | _ => stepperAckOk

/-- Where core1 is in the exchange with its mailbox. -/
def Point.position : Point → Position
  | .payload cmd => .awaiting cmd
  | .direction steps => .answering (direction steps).answer
  | .settle steps => .answering (settle steps).answer
  | .reply word => .answering word
  | _ => .between

section Semantics

variable {F : Type} [SinglePrecision F]

/-- The reply `handle_command` computes for a request. -/
def answer (m : Motion F) (request : Request) : Word :=
  match request.payload with
  | none => stepperAckOk
  | some word => (handlePayload m request.cmd word).1.answer

/-- After its payload a command has its answer to write. -/
theorem handlePayload_position (m : Motion F) (cmd : StepperCmd) (word : Word) :
    (handlePayload m cmd word).1.position = .answering (handlePayload m cmd word).1.answer := by
  rcases handlePayload_point m cmd word with ⟨reply, point⟩ | ⟨_, _, _, point⟩
  · rw [point]
    rfl
  · rw [point]
    rfl

/-- The commands core1 decodes and the replies it writes. -/
def Event.isMail : Event → Bool
  | .decoded _ _ | .replied _ => true
  | _ => false

/-- What a step does to the mailbox, with its decoded commands and replies. -/
inductive Traffic (s : State F) : List Event → State F → Prop where
  | quiet {next} (position : next.point.position = s.point.position)
      (inbound : next.inbound = s.inbound) (outbound : next.outbound = s.outbound) :
      Traffic s [] next
  | dropped {next} (opcode : Word) (here : s.point.position = .between)
      (position : next.point.position = .between) (read : s.inbound = opcode :: next.inbound)
      (outbound : next.outbound = s.outbound) (unknown : StepperCmd.ofWord opcode = none) :
      Traffic s [] next
  | opcode {next} (cmd : StepperCmd) (here : s.point.position = .between)
      (position : next.point.position = .awaiting cmd)
      (read : s.inbound = cmd.toWord :: next.inbound) (outbound : next.outbound = s.outbound)
      (takesPayload : cmd ≠ .stop) : Traffic s [] next
  | stop {next} (here : s.point.position = .between)
      (position : next.point.position = .answering stepperAckOk)
      (read : s.inbound = StepperCmd.stop.toWord :: next.inbound)
      (outbound : next.outbound = s.outbound) : Traffic s [.decoded .stop none] next
  | payload {next} (cmd : StepperCmd) (word : Word) (here : s.point.position = .awaiting cmd)
      (position : next.point.position = .answering (handlePayload s.motion cmd word).1.answer)
      (read : s.inbound = word :: next.inbound) (outbound : next.outbound = s.outbound) :
      Traffic s [.decoded cmd (some word)] next
  | replied {next} (word : Word) (here : s.point.position = .answering word)
      (position : next.point.position = .between) (inbound : next.inbound = s.inbound)
      (written : next.outbound = s.outbound ++ [word]) : Traffic s [.replied word] next

/-- The steps of core1 and of its PIO. -/
def Choice.own : Choice → Bool
  | .arrive _ | .take => false
  | _ => true

/-- A step of core1's own does one of these. -/
theorem traffic_of_move {s next : State F} {choice : Choice} {emitted : List Event}
    (move : Move s choice emitted next) (own : choice.own = true) :
    Traffic s (emitted.filter Event.isMail) next := by
  cases move with
  | iteration here =>
      refine .quiet ?_ rfl rfl
      rw [here]
      by_cases moving : s.motion.state = .moving <;> simp [moving, Point.position]
  | unknown here opcode inbound read unknown =>
      exact .dropped opcode (by rw [here]; rfl) rfl read rfl unknown
  | stopMoving here inbound read moving => exact .stop (by rw [here]; rfl) rfl read rfl
  | stopIdle here inbound read idle => exact .stop (by rw [here]; rfl) rfl read rfl
  | opcode here cmd inbound read takesPayload =>
      exact .opcode cmd (by rw [here]; rfl) rfl read rfl takesPayload
  | payload cmd here word inbound read =>
      exact .payload cmd word (by rw [here]; rfl) (handlePayload_position s.motion cmd word) read rfl
  | reply word here => exact .replied word (by rw [here]; rfl) rfl rfl rfl
  | arrive word => cases own
  | take reply outbound queued => cases own
  | txFull here | txRoom here | feedIdle here | feedEnds here | feedPushes here | feedLoses here
  | noCommand here | direction steps here | settle steps here =>
      refine .quiet ?_ rfl rfl
      rw [here]
      rfl
  | _ => exact .quiet rfl rfl rfl

/-! ### How far core1 is from the mailbox -/

/-- A bound on the steps core1 takes before its next access to the mailbox. -/
def State.distance (s : State F) : Nat :=
  let room := pioFifoDepth - s.txFifo.items.length
  match s.point with
  | .iteration => 2 * room + 3
  | .txFull => 2 * room + 2
  | .feed => max 3 (2 * room + 1)
  | .command => 1
  | .payload _ => 0
  | .direction _ => 2
  | .settle _ => 1
  | .reply _ => 0

omit [SinglePrecision F] in
/-- core1 is never far from its mailbox. -/
theorem State.distance_le (s : State F) : s.distance ≤ 11 := by
  unfold distance
  cases s.point <;> simp [pioFifoDepth] <;> omega

/-- core1 waits for nothing but a payload. -/
theorem core1_moves (s : State F) (ready : ∀ cmd, s.point = .payload cmd → s.inbound ≠ []) :
    (step s .core1).isSome = true := by
  simp only [step, core1Step]
  cases here : s.point with
  | feed =>
      simp only
      split
      · rfl
      · split <;> rfl
  | command => cases s.inbound <;> rfl
  | payload cmd =>
      cases read : s.inbound with
      | nil => exact absurd read (ready cmd here)
      | cons word inbound => rfl
  | _ => rfl

/-- With an opcode queued, a step brings core1 closer to the mailbox or decodes a command or
writes a reply. -/
theorem distance_of_move {s next : State F} {emitted : List Event}
    (move : Move s .core1 emitted next)
    (queued : s.point = .command → ∃ cmd inbound, s.inbound = StepperCmd.toWord cmd :: inbound) :
    next.distance < s.distance ∨ emitted.filter Event.isMail ≠ [] := by
  cases move with
  | noCommand here empty =>
      obtain ⟨cmd, inbound, read⟩ := queued here
      simp [empty] at read
  | unknown here opcode inbound read unknown =>
      obtain ⟨cmd, inbound', read'⟩ := queued here
      obtain ⟨rfl, _⟩ := List.cons.inj (read.symm.trans read')
      simp at unknown
  | stopMoving | stopIdle | payload | reply => exact .inr (by simp [Event.isMail])
  | iteration here =>
      by_cases moving : s.motion.state = .moving <;> simp [State.distance, here, moving]
  | feedPushes here moving stopReq remaining word txFifo room queued' =>
      left
      simp only [State.distance, here, queued', List.length_append, List.length_singleton]
      omega
  | txFull here full => simp [State.distance, here]
  | txRoom here room =>
      left
      simp only [State.distance, here]
      omega
  | feedLoses here moving full word m => simp [State.distance, here, full]
  | _ => simp [State.distance, *]

end Semantics
end Rp2350Stepper.Core1
