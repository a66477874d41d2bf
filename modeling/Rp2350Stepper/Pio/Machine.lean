import Rp2350Stepper.Data.Fifo
import Rp2350Stepper.Semantics.Execution

/-!
# PIO state machines, cycle by cycle

The instructions are those with one side-set pin and no delay which read the TX FIFO, move
a register, or count `X` down. An instruction takes one cycle and drives its side-set level
for that cycle, also when it stalls. Words may be written to the TX FIFO between any two
cycles; a write to a full FIFO enters nothing.
-/

namespace Rp2350Stepper.Pio

open Rp2350Stepper.Data Rp2350Stepper.Semantics

/-- A word of a FIFO or of a register. -/
abbrev Word := BitVec 32

/-- The registers a program moves. -/
inductive Register where
  | x
  | y
  | osr
deriving DecidableEq, Repr

/-- What an instruction does. -/
inductive Operation (length : Nat) where
  /-- `pull block`. -/
  | pullBlock
  /-- `mov destination, source`. -/
  | mov (destination source : Register)
  /-- `jmp x-- target`. -/
  | jmpXDecrement (target : Fin length)
deriving DecidableEq, Repr

/-- An operation with its side-set level. -/
structure Instruction (length : Nat) where
  operation : Operation length
  side : Bool
deriving DecidableEq, Repr

/-- The instructions, and where they wrap. -/
structure Program (length : Nat) where
  instructions : Vector (Instruction length) length
  wrapTarget : Fin length
  wrap : Fin length
deriving DecidableEq, Repr

/-- A state machine between two cycles, with its TX FIFO. -/
structure State (length depth : Nat) where
  pc : Fin length
  x : Word
  y : Word
  osr : Word
  txFifo : Fifo Word depth
deriving DecidableEq, Repr

variable {length depth : Nat}

namespace State

/-- Read a scratch register. -/
def read (s : State length depth) : Register → Word
  | .x => s.x
  | .y => s.y
  | .osr => s.osr

/-- Write a scratch register. -/
def write (s : State length depth) (register : Register) (word : Word) : State length depth :=
  match register with
  | .x => { s with x := word }
  | .y => { s with y := word }
  | .osr => { s with osr := word }

end State

/-- What an observer sees of one cycle. -/
structure Sample where
  /-- The level of the side-set pin. -/
  level : Bool
  stalled : Bool
deriving DecidableEq, Repr

/-- What an observer records. -/
inductive Event where
  /-- A word has entered the TX FIFO. -/
  | pushed (word : Word)
  | cycle (sample : Sample)
deriving DecidableEq, Repr

/-- Who moves next. -/
inductive Choice where
  | push (word : Word)
  | cycle
deriving DecidableEq, Repr

namespace Program

variable (program : Program length)

/-- The instruction at a place. -/
def fetch (pc : Fin length) : Instruction length := program.instructions[pc]

/-- The instruction after this one. -/
def next (pc : Fin length) : Fin length :=
  if pc = program.wrap then program.wrapTarget
  else if within : pc + 1 < length then ⟨pc + 1, within⟩
  else program.wrapTarget

/-- One cycle: whether it stalls, and the state it leaves. -/
def execute (s : State length depth) (operation : Operation length) : Bool × State length depth :=
  match operation with
  | .pullBlock =>
      match s.txFifo.pop? with
      | none => (true, s)
      | some (word, txFifo) =>
          (false, { s with pc := program.next s.pc, osr := word, txFifo := txFifo })
  | .mov destination source =>
      (false, { s.write destination (s.read source) with pc := program.next s.pc })
  | .jmpXDecrement target =>
      (false, { s with pc := if s.x = 0 then program.next s.pc else target, x := s.x - 1 })

/-- `pull block` waits for a word. -/
theorem execute_pull_empty {s : State length depth} (empty : s.txFifo.items = []) :
    program.execute s .pullBlock = (true, s) := by
  simp only [execute, Fifo.pop?_eq_none_iff.mpr empty]

/-- A blocking pull takes a word which is there. -/
theorem execute_pull_queued {s : State length depth} {word : Word} {txFifo : Fifo Word depth}
    (queued : s.txFifo.items = word :: txFifo.items) : program.execute s .pullBlock =
      (false, { s with pc := program.next s.pc, osr := word, txFifo := txFifo }) := by
  simp only [execute, Fifo.pop?_eq_some_iff.mpr queued]

/-- One step of whoever moves. -/
def step (s : State length depth) : Choice → Option (List Event × State length depth)
  | .push word =>
      (s.txFifo.push? word).map fun txFifo => ([.pushed word], { s with txFifo := txFifo })
  | .cycle =>
      let instruction := program.fetch s.pc
      let (stalled, next) := program.execute s instruction.operation
      some ([.cycle ⟨instruction.side, stalled⟩], next)

/-- A cycle executes the instruction at `pc`. -/
theorem step_cycle {s : State length depth} {operation : Operation length} {side stalled : Bool}
    {next : State length depth} (fetched : program.fetch s.pc = ⟨operation, side⟩)
    (executed : program.execute s operation = (stalled, next)) :
    program.step s .cycle = some ([.cycle ⟨side, stalled⟩], next) := by
  simp only [step, fetched, executed]

/-- Enabled with an empty TX FIFO, whatever its registers hold. -/
abbrev system (depth : Nat) : System Event :=
  System.ofFunction (fun s : State length depth => s.pc = program.wrapTarget ∧ s.txFifo = .empty)
    program.step

end Program

/-! ### What a trace shows -/

/-- The words pushed, in order. -/
def pushedWords (events : List Event) : List Word :=
  events.filterMap fun
    | .pushed word => some word
    | .cycle _ => none

/-- The cycles, in order. -/
def cycles (events : List Event) : List Sample :=
  events.filterMap fun
    | .pushed _ => none
    | .cycle sample => some sample

/-- The words of two stretches, in order. -/
@[simp] theorem pushedWords_append (events later : List Event) :
    pushedWords (events ++ later) = pushedWords events ++ pushedWords later :=
  List.filterMap_append

/-- The cycles of two stretches, in order. -/
@[simp] theorem cycles_append (events later : List Event) :
    cycles (events ++ later) = cycles events ++ cycles later :=
  List.filterMap_append

/-- The level after some cycles. -/
def levelAfter (level : Bool) (samples : List Sample) : Bool :=
  samples.foldl (fun _ sample => sample.level) level

/-- The rising edges, as numbers of cycles. -/
def edgesFrom (level : Bool) (index : Nat) : List Sample → List Nat
  | [] => []
  | sample :: rest =>
      if sample.level && !level then index :: edgesFrom sample.level (index + 1) rest
      else edgesFrom sample.level (index + 1) rest

/-- The rising edges since the pin was low. -/
def risingEdges (samples : List Sample) : List Nat := edgesFrom false 0 samples

/-- The edges of two stretches, in order. -/
theorem edgesFrom_append (level : Bool) (index : Nat) (samples later : List Sample) :
    edgesFrom level index (samples ++ later) =
      edgesFrom level index samples ++
        edgesFrom (levelAfter level samples) (index + samples.length) later := by
  induction samples generalizing level index with
  | nil => rfl
  | cons sample rest inductionHypothesis =>
      have shift : index + (sample :: rest).length = index + 1 + rest.length := by
        rw [List.length_cons]
        omega
      rw [List.cons_append, edgesFrom, edgesFrom, inductionHypothesis, shift]
      split
      · rfl
      · rfl

/-- A cycle adds an edge exactly if it raises the pin. -/
theorem risingEdges_append_singleton (samples : List Sample) (sample : Sample) :
    risingEdges (samples ++ [sample]) = risingEdges samples ++
      if sample.level && !levelAfter false samples then [samples.length] else [] := by
  rw [risingEdges, edgesFrom_append, Nat.zero_add, ← risingEdges]
  rfl

/-- The cycles up to one which did not stall. -/
def busyBefore (samples : List Sample) (index : Nat) : Nat :=
  (samples.take index).countP fun sample => !sample.stalled

/-- The cycles from one to another which stalled. -/
def stallsBetween (samples : List Sample) (start finish : Nat) : Nat :=
  ((samples.drop start).take (finish - start)).countP (·.stalled)

/-- More cycles are no less busy. -/
theorem busyBefore_mono (samples : List Sample) {less more : Nat} (le : less ≤ more) :
    busyBefore samples less ≤ busyBefore samples more :=
  (List.take_prefix_take_left le).sublist.countP_le

/-- The cycles from one to another stalled or did not. -/
theorem cycles_between (samples : List Sample) {start finish : Nat} (le : start ≤ finish)
    (within : finish ≤ samples.length) :
    finish + busyBefore samples start =
      start + busyBefore samples finish + stallsBetween samples start finish := by
  have split : samples.take finish =
      samples.take start ++ (samples.drop start).take (finish - start) := by
    rw [← List.take_add, Nat.add_sub_cancel' le]
  have busy : busyBefore samples finish = busyBefore samples start +
      ((samples.drop start).take (finish - start)).countP fun sample => !sample.stalled := by
    rw [busyBefore, split, List.countP_append, ← busyBefore]
  have both := List.length_eq_countP_add_countP (fun sample : Sample => sample.stalled)
    (l := (samples.drop start).take (finish - start))
  have length : ((samples.drop start).take (finish - start)).length = finish - start := by
    rw [List.length_take, List.length_drop]
    omega
  have negated : (fun sample : Sample => decide ¬sample.stalled = true) =
      fun sample => !sample.stalled := by
    funext sample
    cases sample.stalled <;> rfl
  rw [length, negated] at both
  rw [stallsBetween]
  omega

end Rp2350Stepper.Pio
