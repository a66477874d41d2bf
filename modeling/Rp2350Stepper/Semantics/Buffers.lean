import Rp2350Stepper.Semantics.Program

/-!
# Programs which read a buffer

A function which is given a buffer and output parameters reads elements at offsets of its
choice and writes outputs. Its reads are requests, so that which offsets it reads is a
property of the program alone, whatever it finds there.
-/

namespace Rp2350Stepper.Semantics

variable {Element Output α β : Type}

/-- A read of the buffer or a write of an output. -/
inductive BufferRequest (Output : Type) where
  | read (offset : Nat)
  | write (output : Output)

/-- What is read. -/
@[reducible] def BufferResponse (Element : Type) {Output : Type} : BufferRequest Output → Type
  | .read _ => Element
  | .write _ => Unit

/-- The interface of such code. -/
abbrev bufferInterface (Element Output : Type) : Interface :=
  ⟨BufferRequest Output, BufferResponse Element⟩

/-- A function over a buffer of elements. -/
abbrev BufferProgram (Element Output α : Type) := Program (bufferInterface Element Output) α

namespace BufferProgram

/-- Read an element. -/
def read (offset : Nat) : BufferProgram Element Output Element := .ask (.read offset) .done

/-- Write an output. -/
def write (output : Output) : BufferProgram Element Output Unit := .ask (.write output) .done

/-- A read below a length, or a write. -/
def Within (len : Nat) : BufferRequest Output → Prop
  | .read offset => offset < len
  | .write _ => True

/-- The result over a buffer, and the outputs in the order in which they are written. -/
def evaluate (buffer : Nat → Element) : BufferProgram Element Output α → α × List Output
  | .done value => (value, [])
  | .ask (.read offset) next => evaluate buffer (next (buffer offset))
  | .ask (.write output) next =>
      ((evaluate buffer (next ())).1, output :: (evaluate buffer (next ())).2)

section Evaluate

variable {buffer buffer' : Nat → Element} {len : Nat}

@[simp] theorem evaluate_pure {value : α} :
    evaluate buffer (pure value : BufferProgram Element Output α) = (value, []) := rfl

/-- A read. -/
@[simp] theorem evaluate_read {offset : Nat} :
    evaluate buffer (read offset : BufferProgram Element Output Element) = (buffer offset, []) :=
  rfl

/-- A write. -/
@[simp] theorem evaluate_write {output : Output} :
    evaluate buffer (write output) = ((), [output]) := rfl

/-- Sequencing: the outputs of the second part follow those of the first. -/
@[simp] theorem evaluate_bind {program : BufferProgram Element Output α}
    {next : α → BufferProgram Element Output β} :
    evaluate buffer (program >>= next) =
      ((evaluate buffer (next (evaluate buffer program).1)).1,
        (evaluate buffer program).2 ++ (evaluate buffer (next (evaluate buffer program).1)).2) := by
  induction program with
  | done value => rfl
  | ask request rest inductionHypothesis =>
      cases request with
      | read offset => exact inductionHypothesis (buffer offset)
      | write output =>
          change evaluate buffer (.ask (.write output) fun response => rest response >>= next) = _
          rw [evaluate, inductionHypothesis ()]
          rfl

/-- The result changed. -/
@[simp] theorem evaluate_map {program : BufferProgram Element Output α} {image : α → β} :
    evaluate buffer (image <$> program) =
      (image (evaluate buffer program).1, (evaluate buffer program).2) := by
  rw [map_eq_pure_bind, evaluate_bind, evaluate_pure, List.append_nil]

/-- One of two. -/
@[simp] theorem evaluate_ite {condition : Prop} [Decidable condition]
    {yes no : BufferProgram Element Output α} :
    evaluate buffer (if condition then yes else no) =
      if condition then evaluate buffer yes else evaluate buffer no := by
  split <;> rfl

/-- What lies beyond the reads of a program does not matter to it. -/
theorem evaluate_congr {program : BufferProgram Element Output α} (only : program.Only (Within len))
    (agree : ∀ offset < len, buffer offset = buffer' offset) :
    evaluate buffer program = evaluate buffer' program := by
  induction program with
  | done value => rfl
  | ask request rest inductionHypothesis =>
      obtain ⟨within, later⟩ := only
      cases request with
      | read offset =>
          have same : evaluate buffer (rest (buffer offset)) = evaluate buffer' (rest (buffer offset)) :=
            inductionHypothesis (buffer offset) (later (buffer offset))
          rw [evaluate, evaluate, same, agree offset within]
      | write output =>
          have same : evaluate buffer (rest ()) = evaluate buffer' (rest ()) :=
            inductionHypothesis () (later ())
          rw [evaluate, evaluate, same]

end Evaluate

end BufferProgram

end Rp2350Stepper.Semantics
