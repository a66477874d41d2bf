import Mathlib.Data.Nat.Find
import Mathlib.Dynamics.PeriodicPts.Defs
import Rp2350Stepper.Semantics.Execution

/-!
# Infinite runs

What a system reaches whatever its parties do, as long as some of them keep moving: if no step
raises a rank, and the steps which lower it keep coming, the goal is reached.
-/

namespace Rp2350Stepper.Semantics

variable {Event : Type}

/-- An infinite run. -/
structure Schedule (system : System Event) (start : system.State) where
  stateAt : Nat → system.State
  choiceAt : Nat → system.Choice
  emittedAt : Nat → List Event
  stateZero : stateAt 0 = start
  step : ∀ index, system.Step (stateAt index) (choiceAt index) (emittedAt index)
    (stateAt (index + 1))

namespace Schedule

variable {system : System Event} {start : system.State} (schedule : Schedule system start)

/-- The events of some steps. -/
def events (first : Nat) : Nat → List Event
  | 0 => []
  | count + 1 => events first count ++ schedule.emittedAt (first + count)

/-- One more step. -/
theorem events_succ (first count : Nat) : schedule.events first (count + 1) =
    schedule.events first count ++ schedule.emittedAt (first + count) := rfl

/-- A part of an infinite run is a run. -/
theorem run (first count : Nat) : ∃ choices, system.Run system.unguarded (schedule.stateAt first)
    choices (schedule.events first count) (schedule.stateAt (first + count)) := by
  induction count with
  | zero => exact ⟨[], .refl⟩
  | succ count inductionHypothesis =>
      obtain ⟨choices, earlier⟩ := inductionHypothesis
      exact ⟨_, .step earlier trivial (schedule.step (first + count))⟩

/-- The events of a longer part begin with those of a shorter one. -/
theorem events_add (first count more : Nat) : schedule.events first (count + more) =
    schedule.events first count ++ schedule.events (first + count) more := by
  induction more with
  | zero => exact (List.append_nil _).symm
  | succ more inductionHypothesis =>
      rw [← Nat.add_assoc, events_succ, events_succ, inductionHypothesis, List.append_assoc,
        Nat.add_assoc]

/-- One step, for ever, which leads back to where it starts. -/
def still {choice : system.Choice} (step : system.Step start choice [] start) :
    Schedule system start where
  stateAt _ := start
  choiceAt _ := choice
  emittedAt _ := []
  stateZero := rfl
  step _ := step

/-- A step before an infinite run. -/
def cons {choice : system.Choice} {emitted : List Event} {next : system.State}
    (step : system.Step start choice emitted next) (rest : Schedule system next) :
    Schedule system start where
  stateAt
    | 0 => start
    | index + 1 => rest.stateAt index
  choiceAt
    | 0 => choice
    | index + 1 => rest.choiceAt index
  emittedAt
    | 0 => emitted
    | index + 1 => rest.emittedAt index
  stateZero := rfl
  step
    | 0 => (rest.stateZero.symm ▸ step : system.Step start choice emitted (rest.stateAt 0))
    | index + 1 => rest.step index

/-- A finite run goes on as any infinite run from where it ends. -/
theorem exists_after_run {guard : system.State → system.Choice → Prop} {finish : system.State}
    {choices : List system.Choice} {events : List Event}
    (run : system.Run guard start choices events finish) (rest : Schedule system finish) :
    ∃ (schedule : Schedule system start) (count : Nat), schedule.events 0 count = events ∧
      ∀ index, schedule.stateAt (count + index) = rest.stateAt index ∧
        schedule.choiceAt (count + index) = rest.choiceAt index ∧
        schedule.emittedAt (count + index) = rest.emittedAt index := by
  induction run with
  | refl => exact ⟨rest, 0, rfl, fun index => by simp⟩
  | step _ _ transition inductionHypothesis =>
      obtain ⟨schedule, count, earlier, later⟩ := inductionHypothesis (cons transition rest)
      refine ⟨schedule, count + 1, ?_, fun index => ?_⟩
      · rw [events_succ, earlier, Nat.zero_add]
        exact congrArg _ (later 0).2.2
      · rw [Nat.add_assoc, Nat.add_comm 1]
        exact later (index + 1)

/-- A finite run which ends where a step leads nowhere goes on with that step, and emits nothing
more. -/
theorem exists_at_rest {guard : system.State → system.Choice → Prop} {finish : system.State}
    {choices : List system.Choice} {events : List Event} {choice : system.Choice}
    (run : system.Run guard start choices events finish)
    (rests : system.Step finish choice [] finish) :
    ∃ (schedule : Schedule system start) (count : Nat),
      (∀ index, schedule.stateAt (count + index) = finish ∧
        schedule.choiceAt (count + index) = choice) ∧
      ∀ index, schedule.events 0 index <+: events := by
  obtain ⟨schedule, count, whole, later⟩ := exists_after_run run (still rests)
  refine ⟨schedule, count, fun index => ⟨(later index).1, (later index).2.1⟩, fun index => ?_⟩
  have silent (index : Nat) : schedule.events (0 + count) index = [] := by
    induction index with
    | zero => rfl
    | succ index inductionHypothesis =>
        rw [events_succ, inductionHypothesis, Nat.zero_add, (later index).2.2]
        rfl
  have all : schedule.events 0 (count + index) = events := by
    rw [events_add, silent, whole, List.append_nil]
  rw [← all, Nat.add_comm, events_add]
  exact List.prefix_append _ _

section Ranks

variable {goal : Nat → Prop} {ranked : Nat → Nat → Prop}

/-- A rank which does not rise before the goal. -/
theorem rank_kept (kept : ∀ index rank, ranked index rank →
      goal index ∨ ∃ lower ≤ rank, ranked (index + 1) lower)
    {index rank : Nat} (here : ranked index rank) (count : Nat) :
    (∃ later, index ≤ later ∧ goal later) ∨ ∃ lower ≤ rank, ranked (index + count) lower := by
  induction count with
  | zero => exact .inr ⟨rank, le_rfl, here⟩
  | succ count inductionHypothesis =>
      rcases inductionHypothesis with reached | ⟨lower, less, there⟩
      · exact .inl reached
      · rcases kept _ _ there with reached | ⟨least, less', there'⟩
        · exact .inl ⟨_, Nat.le_add_right _ _, reached⟩
        · exact .inr ⟨least, less'.trans less, there'⟩

/-- A rank which no step raises and which helpful steps lower reaches the goal, if helpful
steps keep coming. -/
theorem eventually {helps : Nat → Prop} (often : ∀ index, ∃ later, index ≤ later ∧ helps later)
    (kept : ∀ index rank, ranked index rank → goal index ∨ ∃ lower ≤ rank,
      ranked (index + 1) lower ∧ (helps index → lower < rank))
    {index rank : Nat} (here : ranked index rank) : ∃ later, index ≤ later ∧ goal later := by
  induction rank using Nat.strong_induction_on generalizing index with
  | _ rank inductionHypothesis =>
      obtain ⟨helpful, after, helping⟩ := often index
      have still : (∃ later, index ≤ later ∧ goal later) ∨
          ∃ lower ≤ rank, ranked (index + (helpful - index)) lower :=
        rank_kept (fun index rank there => (kept index rank there).imp_right
          fun ⟨lower, less, next, _⟩ => ⟨lower, less, next⟩) here (helpful - index)
      rw [Nat.add_sub_cancel' after] at still
      rcases still with reached | ⟨lower, less, there⟩
      · exact reached
      · rcases kept helpful lower there with reached | ⟨least, _, there', falls⟩
        · exact ⟨helpful, after, reached⟩
        · have smaller := falls helping
          obtain ⟨later, beyond, reached⟩ := inductionHypothesis least (by omega) there'
          exact ⟨later, by omega, reached⟩

/-- The first time the goal is reached; until then the rank is kept. -/
theorem eventually_first (goal : Nat → Prop) (ranked : Nat → Nat → Prop) {helps : Nat → Prop}
    (often : ∀ index, ∃ later, index ≤ later ∧ helps later)
    (kept : ∀ index rank, ranked index rank → goal index ∨ ∃ lower ≤ rank,
      ranked (index + 1) lower ∧ (helps index → lower < rank))
    {index rank : Nat} (here : ranked index rank) : ∃ first, index ≤ first ∧ goal first ∧
      (∀ between, index ≤ between → between < first → ¬goal between) ∧
      ∀ between, index ≤ between → between ≤ first → ∃ rank, ranked between rank := by
  classical
  have reached := eventually often kept here
  refine ⟨Nat.find reached, (Nat.find_spec reached).1, (Nat.find_spec reached).2, ?_, ?_⟩
  · intro between after before goal
    exact Nat.find_min reached before ⟨after, goal⟩
  · intro between after before
    induction between, after using Nat.le_induction with
    | base => exact ⟨rank, here⟩
    | succ between after inductionHypothesis =>
        obtain ⟨rank, there⟩ := inductionHypothesis (by omega)
        rcases kept between rank there with goal | ⟨lower, _, next, _⟩
        · exact absurd ⟨after, goal⟩ (Nat.find_min reached (by omega))
        · exact ⟨lower, next⟩

end Ranks
end Schedule

/-! ### One party moving alone -/

section Solo

variable {State Choice : Type} {initial : State → Prop}
  (turn : State → Choice → Option (List Event × State)) (choice : Choice)

/-- Where a choice leads; it stays where it is not possible. -/
def advance (state : State) : State := ((turn state choice).map Prod.snd).getD state

/-- The schedule in which one choice, always possible, is made for ever. -/
def Schedule.solo (start : State)
    (able : ∀ index, (turn ((advance turn choice)^[index] start) choice).isSome = true) :
    Schedule (System.ofFunction initial turn) start where
  stateAt index := (advance turn choice)^[index] start
  choiceAt _ := choice
  emittedAt index :=
    ((turn ((advance turn choice)^[index] start) choice).map Prod.fst).getD []
  stateZero := rfl
  step index := by
    obtain ⟨⟨emitted, next⟩, taken⟩ := Option.isSome_iff_exists.mp (able index)
    have there : (advance turn choice)^[index + 1] start = next := by
      rw [Function.iterate_succ_apply', advance, taken]
      rfl
    rw [there, taken]
    exact taken

/-- What holds along a path which comes back to one of its states holds for ever. -/
theorem forever_of_lasso {next : State → State} {start : State} (holds : State → Prop)
    (stem loop : Nat) (positive : 0 < loop) (closed : next^[stem + loop] start = next^[stem] start)
    (path : ∀ index < stem + loop, holds (next^[index] start)) (index : Nat) :
    holds (next^[index] start) := by
  rcases Nat.lt_or_ge index (stem + loop) with near | far
  · exact path index near
  · have periodic : Function.IsPeriodicPt next loop (next^[stem] start) := by
      rw [Function.IsPeriodicPt, Function.IsFixedPt, ← Function.iterate_add_apply, Nat.add_comm]
      exact closed
    have turns := periodic.iterate_mod_apply (index - stem)
    rw [← Function.iterate_add_apply, ← Function.iterate_add_apply,
      Nat.sub_add_cancel (by omega)] at turns
    rw [← turns]
    have less := Nat.mod_lt (index - stem) positive
    exact path _ (by omega)

end Solo
end Rp2350Stepper.Semantics
