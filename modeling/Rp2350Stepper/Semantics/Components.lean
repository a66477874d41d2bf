import Rp2350Stepper.Semantics.Implementation

/-!
# Devices with parts

A device which answers the requests of two interfaces runs programs of either. As long as it
answers those of the second interface as some part of it does, what holds of a program on the part
holds of it on the whole device.
-/

namespace Rp2350Stepper.Semantics

variable {first second : Interface} {α : Type}

/-- The requests of two interfaces. -/
abbrev Interface.sum (first second : Interface) : Interface :=
  ⟨first.Request ⊕ second.Request, Sum.elim first.Response second.Response⟩

/-- A program of the second interface among requests of both. -/
abbrev Program.onSecond (program : Program second α) : Program (first.sum second) α :=
  program.translate fun request => .ask (.inr request) .done

namespace Device

variable {device : Device (first.sum second)} {guard : device.Guard} {part : Device second}
  {partGuard : part.Guard} {view : device.State → part.State} {kept : device.State → Prop}

/-- Where `kept` holds, the device answers the requests of the second interface as the part does
which `view` shows, and `kept` goes on holding. -/
structure AnswersAs (guard : device.Guard) (partGuard : part.Guard)
    (view : device.State → part.State) (kept : device.State → Prop) : Prop where
  shows : ∀ {state request choice response middle}, kept state →
    guard state (.inr request) choice →
    device.answer state (.inr request) choice = some (response, middle) →
    kept middle ∧ ∃ choice', partGuard (view state) request choice' ∧
      part.answer (view state) request choice' = some (response, view middle)
  answers : ∀ {state request choice response middle}, kept state →
    partGuard (view state) request choice →
    part.answer (view state) request choice = some (response, middle) →
    ∃ choice' response' middle', guard state (.inr request) choice' ∧
      device.answer state (.inr request) choice' = some (response', middle')

/-- What completes on the part, completes on the device. -/
theorem AnswersAs.completes (answersAs : AnswersAs guard partGuard view kept)
    {program : Program second α} {post : α → part.State → Prop} {state : device.State}
    (here : kept state) (completes : part.Completes partGuard program (view state) post) :
    device.Completes guard program.onSecond state fun value finish =>
      post value (view finish) ∧ kept finish := by
  induction program generalizing state with
  | done value => exact ⟨completes, here⟩
  | ask request rest inductionHypothesis =>
      obtain ⟨⟨choice, response, middle, allowed, answered⟩, continues⟩ := completes
      refine ⟨answersAs.answers here allowed answered, ?_⟩
      intro choice response middle allowed answered
      obtain ⟨there, choice', allowed', answered'⟩ := answersAs.shows here allowed answered
      exact inductionHypothesis response there
        (continues choice' response (view middle) allowed' answered')

end Device

end Rp2350Stepper.Semantics
