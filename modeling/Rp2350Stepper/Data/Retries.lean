import Mathlib.Logic.Function.Conjugate
import Mathlib.Logic.Relation

/-!
# Retried sequences of steps

A sequence of steps which is given up anywhere and begun again has done some of its steps, some
of them several times. If each step done twice is done once, and their order does not matter, a
whole sequence ends where it would have ended had nothing been done before.
-/

namespace Rp2350Stepper.Data

variable {α β : Type} {steps : List (α → α)} {value next : α}

/-- Every step, one after the other. -/
def perform (steps : List (α → α)) (value : α) : α :=
  steps.foldl (fun value step => step value) value

@[simp] theorem perform_nil (value : α) : perform [] value = value := rfl

/-- A step, and then the others. -/
@[simp] theorem perform_cons (step : α → α) (steps : List (α → α)) (value : α) :
    perform (step :: steps) value = perform steps (step value) := rfl

/-- Each step may be done again, and the steps may be done in any order. -/
structure Repeatable (steps : List (α → α)) : Prop where
  idempotent : ∀ step ∈ steps, ∀ value, step (step value) = step value
  commute : ∀ step ∈ steps, ∀ other ∈ steps, Function.Commute step other

/-- What follows a step may be repeated as well. -/
theorem Repeatable.of_cons {step : α → α} (repeatable : Repeatable (step :: steps)) :
    Repeatable steps where
  idempotent other member := repeatable.idempotent other (List.mem_cons_of_mem step member)
  commute first member second member' := repeatable.commute first
    (List.mem_cons_of_mem step member) second (List.mem_cons_of_mem step member')

/-- A step done before the sequence makes no difference. -/
theorem Repeatable.perform_step {step : α → α} (repeatable : Repeatable steps)
    (member : step ∈ steps) (value : α) : perform steps (step value) = perform steps value := by
  induction steps generalizing value with
  | nil => simp at member
  | cons first rest inductionHypothesis =>
      rw [perform_cons, perform_cons]
      rcases List.mem_cons.mp member with rfl | later
      · rw [repeatable.idempotent step member]
      · have swapped := repeatable.commute first List.mem_cons_self step member value
        rw [swapped, inductionHypothesis repeatable.of_cons later]

/-- Some of the steps have been done, any number of times and in any order. -/
def Attempted (steps : List (α → α)) : α → α → Prop :=
  Relation.ReflTransGen fun before after => ∃ step ∈ steps, after = step before

namespace Attempted

/-- Nothing has been attempted. -/
theorem refl (value : α) : Attempted steps value value := Relation.ReflTransGen.refl

/-- Something has been attempted, and then more. -/
theorem trans {middle : α} (first : Attempted steps value middle)
    (second : Attempted steps middle next) : Attempted steps value next :=
  Relation.ReflTransGen.trans first second

/-- One more step has been attempted. -/
theorem step {step : α → α} (member : step ∈ steps) (attempted : Attempted steps value next) :
    Attempted steps value (step next) :=
  .tail attempted ⟨step, member, rfl⟩

/-- However much has been attempted, the whole sequence ends as it would have at first. -/
theorem converges (repeatable : Repeatable steps) (attempted : Attempted steps value next) :
    perform steps next = perform steps value := by
  induction attempted with
  | refl => rfl
  | tail _ done inductionHypothesis =>
      obtain ⟨step, member, rfl⟩ := done
      rw [repeatable.perform_step member, inductionHypothesis]

/-- What no step changes is not changed. -/
theorem unchanged (view : α → β) (kept : ∀ step ∈ steps, ∀ value, view (step value) = view value)
    (attempted : Attempted steps value next) : view next = view value := by
  induction attempted with
  | refl => rfl
  | tail _ done inductionHypothesis =>
      obtain ⟨step, member, rfl⟩ := done
      rw [kept step member, inductionHypothesis]

end Attempted
end Rp2350Stepper.Data
