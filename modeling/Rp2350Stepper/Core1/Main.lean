import Rp2350Stepper.Core1.Motion
import Rp2350Stepper.Data.Fifo
import Rp2350Stepper.Semantics.Execution

/-!
# core1's main loop, the mailbox and the PIO

One `Choice.core1` is one step of `core1_main`: the test which opens an iteration,
or an access to the mailbox, a pin or the PIO together with the computation on `M`
that follows it. So the other parties may move between any two accesses: core0
appends a mailbox word or takes a reply, and the PIO pulls a word or raises STEP for
the word it has pulled. Polling does not make further steps: the setup delay, which
reads the timer again and again, is one step, and so is writing a reply, which reads
the mailbox's status until there is room.

The PIO side states only what the STEP program is assumed to do: one pulse for
each pulled word, in order, from a TX FIFO of four entries. The mailbox FIFOs have
no depth here: a full one makes its writer wait, and a schedule may already let
either core wait at any access.
-/

namespace Rp2350Stepper.Core1

open Rp2350Stepper.Num Rp2350Stepper.Data Rp2350Stepper.Semantics

/-- Where `core1_main` is about to access the hardware. -/
inductive Point where
  /-- At the test of `M.state` which opens an iteration. -/
  | iteration
  /-- At `pio_tx_full` in the feeding loop. -/
  | txFull
  /-- In `feed_step`, the FIFO having been seen not full. -/
  | feed
  /-- At the start of `handle_command`. -/
  | command
  /-- Waiting for the payload word of a command. -/
  | payload (cmd : StepperCmd)
  /-- In `motion_start`, about to write `PIN_DIR`. -/
  | direction (steps : Int)
  /-- In `motion_start`, through the setup delay. -/
  | settle (steps : Int)
  /-- At `fifo_write_blocking`. -/
  | reply (word : Word)
deriving DecidableEq, Repr

/-- What an observer of core1 and of its pins records. -/
inductive Event where
  /-- A command has been decoded, with the payload word it takes. -/
  | decoded (cmd : StepperCmd) (payload : Option Word)
  /-- `motion_start` has loaded a move. -/
  | started (steps : Int)
  /-- A `CMD_STOP` has been handled while moving. -/
  | stopRequested
  /-- A word has entered the PIO TX FIFO. -/
  | pushed (word : Word)
  /-- A word has been written to a full PIO TX FIFO. -/
  | lost (word : Word)
  /-- `feed_step` has ended a move. -/
  | idled
  /-- STEP has risen while `PIN_DIR` had this level. -/
  | rose (level : Bool)
  /-- A reply has been written to the mailbox. -/
  | replied (word : Word)
deriving DecidableEq, Repr

/-- The depth of a PIO TX FIFO. -/
def pioFifoDepth : Nat := 4

/-- core1 between two hardware accesses, with the hardware it shares. -/
structure State (F : Type) where
  point : Point
  motion : Motion F
  /-- The level of `PIN_DIR`. -/
  dir : Bool
  txFifo : Fifo Word pioFifoDepth
  /-- The word the PIO has pulled and not yet raised STEP for. -/
  osr : Option Word
  /-- Words from core0 which core1 has not read. -/
  inbound : List Word
  /-- Replies core0 has not taken. -/
  outbound : List Word
deriving DecidableEq, Repr

/-- The party that moves next. -/
inductive Choice where
  | core1
  | arrive (word : Word)
  | take
  | pull
  | rise
deriving DecidableEq, Repr

section Semantics

variable {F : Type} [SinglePrecision F]

/-- `handle_command` on the opcode word it has read. A command with a payload
goes on to read it; an unknown opcode is dropped. -/
def dispatch (m : Motion F) (opcode : Word) : List Event × Point × Motion F :=
  match StepperCmd.ofWord opcode with
  | none => ([], .iteration, m)
  | some .stop =>
      (.decoded .stop none :: if m.state = .moving then [.stopRequested] else [],
        .reply stepperAckOk, m.cmdStop)
  | some cmd => ([], .payload cmd, m)

/-- `handle_command` on the payload word of a command. -/
def handlePayload (m : Motion F) (cmd : StepperCmd) (payload : Word) : Point × Motion F :=
  match cmd with
  | .speed =>
      let next := m.cmdSpeed payload
      (.reply (SinglePrecision.toBits next.maxSpeed), next)
  | .accel =>
      let next := m.cmdAccel payload
      (.reply (SinglePrecision.toBits next.accel), next)
  | .decel =>
      let next := m.cmdDecel payload
      (.reply (SinglePrecision.toBits next.decel), next)
  | .move =>
      let steps := payload.toInt
      if m.state = .moving then (.reply stepperAckBusy, m)
      else if steps = 0 then (.reply stepperAckOk, m)
      else (.direction steps, m)
  | .status => (.reply (m.cmdStatus payload), m)
  | .stop => (.reply stepperAckOk, m)

/-- One hardware access of `core1_main`; `none` while it waits for a word. -/
def core1Step (s : State F) : Option (List Event × State F) :=
  match s.point with
  | .iteration =>
      some ([], { s with point := if s.motion.state = .moving then .txFull else .command })
  | .txFull => some ([], { s with point := if s.txFifo.isFull then .command else .feed })
  | .feed =>
      match s.motion.feedStep with
      | (m, none) =>
          some (if s.motion.state = .moving then [.idled] else [],
            { s with point := .command, motion := m })
      | (m, some word) =>
          match s.txFifo.push? word with
          | some txFifo =>
              some ([.pushed word], { s with point := .txFull, motion := m, txFifo := txFifo })
          | none => some ([.lost word], { s with point := .txFull, motion := m })
  | .command =>
      match s.inbound with
      | [] => some ([], { s with point := .iteration })
      | opcode :: inbound =>
          match dispatch s.motion opcode with
          | (emitted, point, m) =>
              some (emitted, { s with point := point, motion := m, inbound := inbound })
  | .payload cmd =>
      match s.inbound with
      | [] => none
      | word :: inbound =>
          match handlePayload s.motion cmd word with
          | (point, m) =>
              some ([.decoded cmd (some word)],
                { s with point := point, motion := m, inbound := inbound })
  | .direction steps =>
      some ([], { s with point := .settle steps, dir := Motion.forward steps })
  | .settle steps =>
      some ([.started steps],
        { s with point := .reply stepperAckOk, motion := s.motion.motionStart steps })
  | .reply word =>
      some ([.replied word], { s with point := .iteration, outbound := s.outbound ++ [word] })

/-- One step of whichever party moves. -/
def step (s : State F) : Choice → Option (List Event × State F)
  | .core1 => core1Step s
  | .arrive word => some ([], { s with inbound := s.inbound ++ [word] })
  | .take =>
      match s.outbound with
      | [] => none
      | _ :: outbound => some ([], { s with outbound := outbound })
  | .pull =>
      match s.osr, s.txFifo.pop? with
      | none, some (word, txFifo) => some ([], { s with osr := some word, txFifo := txFifo })
      | _, _ => none
  | .rise =>
      match s.osr with
      | some _ => some ([.rose s.dir], { s with osr := none })
      | none => none

/-- core1 as its initialization leaves it: driver enabled, `PIN_DIR` forward,
both FIFOs empty, about to enter the loop. -/
def initial : State F where
  point := .iteration
  motion := .initial
  dir := true
  txFifo := .empty
  osr := none
  inbound := []
  outbound := []

end Semantics

/-- core1, its mailbox and its PIO as a labelled system. -/
abbrev system (F : Type) [SinglePrecision F] : System Event :=
  System.ofFunction (fun s : State F => s = initial) step

/-- A step of the function is a run of one choice. -/
theorem run_of_step {F : Type} [SinglePrecision F] {s next : State F} {choice : Choice}
    {emitted : List Event} (stepped : step s choice = some (emitted, next)) :
    (system F).Run (system F).unguarded s [choice] emitted next :=
  .single trivial stepped

/-- core0 sends one `CMD_MOVE` and core1, about to poll the mailbox, handles it:
opcode, payload, `PIN_DIR`, the setup delay and the acknowledgement. -/
def moveChoices (steps : Int) : List Choice :=
  [.arrive StepperCmd.move.toWord, .arrive (BitVec.ofInt 32 steps),
    .core1, .core1, .core1, .core1, .core1]

end Rp2350Stepper.Core1
