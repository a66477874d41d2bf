import Rp2350Stepper.Core1.Control
import Rp2350Stepper.Pio.Stepper

/-!
# The PIO of core1, down to its cycles

The model of core1 lets its PIO pull a word and raise STEP for it, each in one step. On a
board the STEP program runs in its place, cycle by cycle; every run of the board is one of
the model of core1, with the same events.
-/

namespace Rp2350Stepper.Core1

open Rp2350Stepper.Num Rp2350Stepper.Data Rp2350Stepper.Semantics

/-- core1 with the state machine which runs the STEP program. -/
structure Board (F : Type) where
  core1 : State F
  machine : Pio.State 6 pioFifoDepth
  /-- The level of STEP. -/
  level : Bool
deriving DecidableEq, Repr

/-- The word the machine has pulled and not yet raised STEP for. -/
def pulled (machine : Pio.State 6 pioFifoDepth) : Option Word :=
  if machine.pc.val = 1 ∨ machine.pc.val = 2 then some machine.osr else none

/-- A pulled word waits in the first two instructions. -/
theorem pulled_eq (machine : Pio.State 6 pioFifoDepth) :
    pulled machine = if machine.pc = 1 ∨ machine.pc = 2 then some machine.osr else none := by
  simp only [pulled, Fin.ext_iff]
  rfl

/-- The party of a board that moves next. -/
inductive BoardChoice where
  | core1
  | arrive (word : Word)
  | take
  | cycle
deriving DecidableEq, Repr

variable {F : Type} [SinglePrecision F]

/-- core1 and core0 move as before, and share the TX FIFO with the machine. -/
def boardMove (b : Board F) (choice : Choice) : Option (List Event × Board F) :=
  (step b.core1 choice).map fun (emitted, next) =>
    (emitted, { b with core1 := next, machine.txFifo := next.txFifo })

/-- One cycle of the machine. -/
def boardCycle (b : Board F) : Option (List Event × Board F) :=
  match Pio.stepper.step b.machine .cycle with
  | some ([.cycle sample], machine) =>
      some (if sample.level && !b.level then [.rose b.core1.dir] else [],
        { core1 := { b.core1 with osr := pulled machine, txFifo := machine.txFifo }
          machine := machine
          level := sample.level })
  | _ => none

/-- One step of core1, of the outside or of the PIO's clock. -/
def boardStep (b : Board F) : BoardChoice → Option (List Event × Board F)
  | .core1 => boardMove b .core1
  | .arrive word => boardMove b (.arrive word)
  | .take => boardMove b .take
  | .cycle => boardCycle b

/-- A board whose machine is enabled and whose core1 is about to enter its loop. -/
structure Board.Initial (b : Board F) : Prop where
  core1 : b.core1 = initial
  machine : b.machine.pc = 0 ∧ b.machine.txFifo = .empty
  level : b.level = false

/-- core1 with the PIO program. -/
abbrev board (F : Type) [SinglePrecision F] : System Event :=
  System.ofFunction (Board.Initial (F := F)) boardStep

/-- The PIO of core1 is in the state of the machine. -/
structure Board.Agrees (b : Board F) : Prop where
  osr : b.core1.osr = pulled b.machine
  txFifo : b.core1.txFifo = b.machine.txFifo
  level : b.level = b.machine.high

section Refinement

variable {guard : State F → Choice → Prop}

/-- A cycle after which the same word is waiting, without an edge. -/
private theorem quiet_refines {b next : Board F} {emitted : List Event} (agrees : b.Agrees)
    {machine : Pio.State 6 pioFifoDepth} {level : Bool}
    (stepped : some (if level && !b.level then [.rose b.core1.dir] else [],
      Board.mk { b.core1 with osr := pulled machine, txFifo := machine.txFifo } machine level) =
        some (emitted, next))
    (osr : pulled machine = pulled b.machine) (txFifo : machine.txFifo = b.machine.txFifo)
    (high : level = machine.high) (flat : (level && !b.level) = false) : next.Agrees ∧
    ∃ choices, (system F).Run guard b.core1 choices emitted next.core1 := by
  rw [flat, if_neg Bool.false_ne_true, Option.some.injEq, Prod.mk.injEq] at stepped
  obtain ⟨rfl, rfl⟩ := stepped
  refine ⟨⟨rfl, rfl, high⟩, [], ?_⟩
  rw [osr, txFifo, ← agrees.osr, ← agrees.txFifo]
  exact .refl

/-- A cycle pulls the next word, or raises STEP for it, or changes nothing. -/
theorem boardCycle_refines {b next : Board F} {emitted : List Event}
    (others : ∀ s choice, choice ≠ .core1 → guard s choice) (agrees : b.Agrees)
    (stepped : boardCycle b = some (emitted, next)) : next.Agrees ∧
    ∃ choices, (system F).Run guard b.core1 choices emitted next.core1 := by
  obtain ⟨samples, machine, cycled, turn⟩ := Pio.turn_of_cycle b.machine
  rw [boardCycle, cycled] at stepped
  cases turn with
  | push => simp at stepped
  | stall here empty =>
      exact quiet_refines agrees stepped rfl rfl (by simp [Pio.State.high, here]) rfl
  | pull here word txFifo queued =>
      obtain ⟨osr, same, level⟩ := agrees
      simp only [Bool.false_and, Bool.false_eq_true, if_false, Option.some.injEq,
        Prod.mk.injEq] at stepped
      obtain ⟨rfl, rfl⟩ := stepped
      refine ⟨⟨rfl, rfl, by simp [Pio.State.high]⟩, [.pull],
        .single (others _ _ (by simp)) ?_⟩
      have free : b.core1.osr = none := by rw [osr, pulled, here]; rfl
      have popped : b.core1.txFifo.pop? = some (word, txFifo) := by
        rw [same]
        exact Fifo.pop?_eq_some_iff.mpr queued
      change step b.core1 .pull = some _
      simp [step, free, popped, pulled_eq]
  | load here =>
      exact quiet_refines agrees stepped (by simp [pulled_eq, here]) rfl (by simp [Pio.State.high]) rfl
  | rise here =>
      obtain ⟨osr, same, level⟩ := agrees
      have low : b.level = false := by rw [level, Pio.State.high, here]; rfl
      simp only [low, Bool.not_false, Bool.and_self, if_true, Option.some.injEq,
        Prod.mk.injEq] at stepped
      obtain ⟨rfl, rfl⟩ := stepped
      refine ⟨⟨rfl, rfl, by simp [Pio.State.high]⟩, [.rise],
        .single (others _ _ (by simp)) ?_⟩
      have waiting : b.core1.osr = some b.machine.osr := by rw [osr, pulled, here]; rfl
      change step b.core1 .rise = some _
      simp [step, waiting, pulled_eq, ← same]
  | highLoop here | highEnd here =>
      have high : b.level = true := by rw [agrees.level, Pio.State.high, here]; rfl
      exact quiet_refines agrees stepped (by simp [pulled_eq, here]) rfl
        (by simp [Pio.State.high, here]) (by simp [high])
  | fall here | lowLoop here | lowEnd here =>
      exact quiet_refines agrees stepped (by simp [pulled_eq, here]) rfl
        (by simp [Pio.State.high, here]) rfl

/-- The other parties leave the word alone which the machine has pulled. -/
theorem osr_of_step {s next : State F} {choice : Choice} {emitted : List Event}
    (stepped : step s choice = some (emitted, next)) (own : choice ≠ .pull ∧ choice ≠ .rise) :
    next.osr = s.osr := by
  cases move_of_step stepped with
  | pull => exact absurd rfl own.1
  | rise => exact absurd rfl own.2
  | _ => rfl

/-- A step of core1 or of the outside is one of core1's system. -/
theorem boardMove_refines {b next : Board F} {choice : Choice} {emitted : List Event}
    (allowed : guard b.core1 choice) (agrees : b.Agrees) (own : choice ≠ .pull ∧ choice ≠ .rise)
    (stepped : boardMove b choice = some (emitted, next)) : next.Agrees ∧
    ∃ choices, (system F).Run guard b.core1 choices emitted next.core1 := by
  simp only [boardMove, Option.map_eq_some_iff, Prod.mk.injEq] at stepped
  obtain ⟨⟨emitted, core1⟩, moved, rfl, rfl⟩ := stepped
  exact ⟨⟨(osr_of_step moved own).trans agrees.osr, rfl, agrees.level⟩, _,
    .single allowed moved⟩

/-- What a guard of the model asks of core1 on a board. -/
def Board.guarded (guard : State F → Choice → Prop) (b : Board F) (choice : BoardChoice) : Prop :=
  choice = .core1 → guard b.core1 .core1

/-- Every run of a board is one of the model of core1, under any guard which is about the moves of
core1 alone. -/
theorem board_refines (others : ∀ s choice, choice ≠ .core1 → guard s choice) {start b : Board F}
    {choices : List BoardChoice} {events : List Event} (initially : start.Initial)
    (run : (board F).Run (Board.guarded guard) start choices events b) : b.Agrees ∧
    ∃ moves, (system F).Run guard initial moves events b.core1 := by
  refine run.invariant (fun (b : Board F) events => b.Agrees ∧
    ∃ moves, (system F).Run guard initial moves events b.core1) ?_ ?_
  · obtain ⟨core1, ⟨here, empty⟩, level⟩ := initially
    refine ⟨⟨?_, ?_, ?_⟩, [], core1 ▸ .refl⟩
    · rw [core1, pulled, here]
      rfl
    · rw [core1, empty]
      rfl
    · rw [level, Pio.State.high, here]
      rfl
  · rintro b events choice emitted next ⟨agrees, moves, earlier⟩ allowed stepped
    have refined : next.Agrees ∧
        ∃ choices, (system F).Run guard b.core1 choices emitted next.core1 := by
      cases choice with
      | core1 => exact boardMove_refines (allowed rfl) agrees (by simp) stepped
      | arrive | take => exact boardMove_refines (others _ _ (by simp)) agrees (by simp) stepped
      | cycle => exact boardCycle_refines others agrees stepped
    obtain ⟨agrees, further, later⟩ := refined
    exact ⟨agrees, _, earlier.trans later⟩

end Refinement

end Rp2350Stepper.Core1
