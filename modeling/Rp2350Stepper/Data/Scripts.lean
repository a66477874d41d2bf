import Mathlib.Data.List.Count
import Rp2350Stepper.Semantics.Execution

/-!
# Scripts which start over

One party sends the commands of a script and the other answers each. An answer equal to its
command is an echo and moves the script on; any other answer starts it over. Nothing is assumed
about the answers or about the commands, which may repeat.
-/

namespace Rp2350Stepper.Data

open Semantics

variable {α : Type} [DecidableEq α]

/-- The echoes at the end of an exchange of commands and their answers. -/
def streak (exchange : List (α × α)) : Nat :=
  exchange.foldl (fun run pair => if pair.1 = pair.2 then run + 1 else 0) 0

/-- Nothing has been answered. -/
@[simp] theorem streak_nil : streak ([] : List (α × α)) = 0 := rfl

/-- One more answer continues the streak or ends it. -/
@[simp] theorem streak_append_singleton (exchange : List (α × α)) (pair : α × α) :
    streak (exchange ++ [pair]) = if pair.1 = pair.2 then streak exchange + 1 else 0 := by
  simp only [streak, List.foldl_append, List.foldl_cons, List.foldl_nil]

/-- Echoes prolong the streak. -/
theorem streak_append (before : List (α × α)) {window : List (α × α)}
    (echoed : ∀ pair ∈ window, pair.1 = pair.2) :
    streak (before ++ window) = streak before + window.length := by
  induction window using List.reverseRecOn with
  | nil => simp
  | append_singleton window pair inductionHypothesis =>
      have earlier := inductionHypothesis fun other member => echoed other (by simp [member])
      have last : pair.1 = pair.2 := echoed pair (by simp)
      rw [← List.append_assoc, streak_append_singleton, if_pos last, earlier,
        List.length_append, List.length_singleton, Nat.add_assoc]

/-- The answers which are not echoes. -/
def mismatches (exchange : List (α × α)) : Nat := exchange.countP fun pair => pair.1 ≠ pair.2

/-- Nothing has gone wrong. -/
@[simp] theorem mismatches_nil : mismatches ([] : List (α × α)) = 0 := rfl

/-- One more answer may be wrong. -/
@[simp] theorem mismatches_append_singleton (exchange : List (α × α)) (pair : α × α) :
    mismatches (exchange ++ [pair]) =
      mismatches exchange + if pair.1 = pair.2 then 0 else 1 := by
  by_cases same : pair.1 = pair.2 <;> simp [mismatches, same]

/-- Each command is the one the script has at the streak before it. -/
def Scripted (script : List α) : List (α × α) → Prop :=
  Recorded fun before pair => script[streak before]? = some pair.1

namespace Scripted

variable {script : List α} {exchange : List (α × α)}

/-- Nothing has been sent. -/
theorem nil : Scripted script [] := Recorded.nil

/-- A command taken from the script at the streak is scripted, whatever the answer. -/
theorem append_singleton (scripted : Scripted script exchange) {command : α}
    (next : script[streak exchange]? = some command) (answer : α) :
    Scripted script (exchange ++ [(command, answer)]) :=
  Recorded.append_singleton scripted next

/-- What was exchanged before the last command, and that command. -/
theorem of_append_singleton {pair : α × α} (scripted : Scripted script (exchange ++ [pair])) :
    Scripted script exchange ∧ script[streak exchange]? = some pair.1 := by
  refine ⟨?_, scripted exchange pair [] rfl⟩
  intro before other after split
  exact scripted before other (after ++ [pair]) (by rw [split]; simp)

/-- A streak is no longer than the script. -/
theorem streak_le (scripted : Scripted script exchange) : streak exchange ≤ script.length := by
  induction exchange using List.reverseRecOn with
  | nil => exact Nat.zero_le _
  | append_singleton exchange pair inductionHypothesis =>
      obtain ⟨earlier, next⟩ := scripted.of_append_singleton
      have within : streak exchange < script.length := (List.getElem?_eq_some_iff.mp next).1
      rw [streak_append_singleton]
      split <;> omega

/-- The streak is the beginning of the script, each command with its own echo. -/
theorem ends_with_streak (scripted : Scripted script exchange) : ∃ earlier, exchange =
    earlier ++ (script.take (streak exchange)).map fun command => (command, command) := by
  induction exchange using List.reverseRecOn with
  | nil => exact ⟨[], rfl⟩
  | append_singleton exchange pair inductionHypothesis =>
      obtain ⟨command, answer⟩ := pair
      obtain ⟨before, next⟩ := scripted.of_append_singleton
      obtain ⟨earlier, split⟩ := inductionHypothesis before
      rw [streak_append_singleton]
      by_cases echoed : command = answer
      · subst echoed
        refine ⟨earlier, ?_⟩
        rw [if_pos rfl, List.take_add_one, next, List.map_append, ← List.append_assoc, ← split]
        rfl
      · exact ⟨exchange ++ [(command, answer)], by simp [echoed]⟩

/-- After a whole script of echoes in a row nothing more is sent. -/
theorem nothing_after_echoes (scripted : Scripted script exchange)
    {before window after : List (α × α)} (split : exchange = before ++ window ++ after)
    (whole : window.length = script.length) (echoed : ∀ pair ∈ window, pair.1 = pair.2) :
    after = [] := by
  cases after with
  | nil => rfl
  | cons pair rest =>
      have next := scripted (before ++ window) pair rest split
      have within := (List.getElem?_eq_some_iff.mp next).1
      rw [streak_append before echoed] at within
      omega

/-- Each wrong answer costs at most one script. -/
theorem length_le (scripted : Scripted script exchange) :
    exchange.length ≤ script.length * mismatches exchange + streak exchange := by
  induction exchange using List.reverseRecOn with
  | nil => exact Nat.zero_le _
  | append_singleton exchange pair inductionHypothesis =>
      obtain ⟨earlier, next⟩ := scripted.of_append_singleton
      have within : streak exchange < script.length := (List.getElem?_eq_some_iff.mp next).1
      have shorter := inductionHypothesis earlier
      rw [streak_append_singleton, mismatches_append_singleton, List.length_append,
        List.length_singleton]
      split
      · simp only [Nat.add_zero]
        omega
      · rw [Nat.mul_succ]
        omega

end Scripted
end Rp2350Stepper.Data
