import Mathlib.Algebra.Order.Ring.Nat
import Mathlib.Data.List.Infix
import Mathlib.Logic.Basic

/-!
# Labelled systems and their finite runs

A choice names the party that moves; a step relates two states and emits the
audit events of that move. `System.Run` admits only steps whose choice meets a
guard, so a hypothesis about every step of a run is a run under that guard and
an unconditional run is one under `unguarded`.

`Run.invariant` is the induction every safety result of the development uses,
`Run.throughout_iff` the one for a property some events break, and `Recorded` turns a
fact about each event and the events before it into an invariant of the whole audit
trace.
-/

namespace Rp2350Stepper.Semantics

/-- A state machine with nondeterministic choices and audit events. -/
structure System (Event : Type) where
  State : Type
  Choice : Type
  Initial : State → Prop
  Step : State → Choice → List Event → State → Prop

namespace System

variable {Event : Type} {system : System Event}

/-- The guard which admits every step. -/
def unguarded (system : System Event) : system.State → system.Choice → Prop :=
  fun _ _ => True

/-- Zero or more steps, every one of them admitted by the guard. -/
inductive Run (system : System Event) (guard : system.State → system.Choice → Prop) :
    system.State → List system.Choice → List Event → system.State → Prop where
  | refl {state} : Run system guard state [] [] state
  | step {start choices events current choice emitted next}
      (prior : Run system guard start choices events current)
      (allowed : guard current choice)
      (transition : system.Step current choice emitted next) :
      Run system guard start (choices ++ [choice]) (events ++ emitted) next

namespace Run

variable {guard other : system.State → system.Choice → Prop}
  {start middle finish : system.State}
  {choices choices' : List system.Choice} {events events' : List Event}

/-- One admitted step is a run. -/
theorem single {choice : system.Choice} {emitted : List Event}
    (allowed : guard start choice) (transition : system.Step start choice emitted finish) :
    system.Run guard start [choice] emitted finish := by
  simpa using Run.step .refl allowed transition

/-- Runs compose where they meet. -/
theorem trans (first : system.Run guard start choices events middle)
    (second : system.Run guard middle choices' events' finish) :
    system.Run guard start (choices ++ choices') (events ++ events') finish := by
  induction second with
  | refl => simpa using first
  | step _ allowed transition inductionHypothesis =>
      simpa only [List.append_assoc] using Run.step inductionHypothesis allowed transition

/-- A run stays a run under any guard which admits its steps. -/
theorem weaken (run : system.Run guard start choices events finish)
    (implies : ∀ state choice, guard state choice → other state choice) :
    system.Run other start choices events finish := by
  induction run with
  | refl => exact .refl
  | step _ allowed transition inductionHypothesis =>
      exact .step inductionHypothesis (implies _ _ allowed) transition

/-- A property of the choices and events so far and of the state they lead to, which
every admitted step preserves, holds wherever a run ends. -/
theorem along (holds : List system.Choice → List Event → system.State → Prop)
    (initially : holds [] [] start)
    (preserved : ∀ {choices events choice emitted state next}, holds choices events state →
      guard state choice → system.Step state choice emitted next →
      holds (choices ++ [choice]) (events ++ emitted) next)
    (run : system.Run guard start choices events finish) : holds choices events finish := by
  induction run with
  | refl => exact initially
  | step _ allowed transition inductionHypothesis =>
      exact preserved inductionHypothesis allowed transition

/-- The same for a property of the state and of the events. -/
theorem invariant (holds : system.State → List Event → Prop)
    (initially : holds start [])
    (preserved : ∀ {state events choice emitted next}, holds state events →
      guard state choice → system.Step state choice emitted next →
      holds next (events ++ emitted))
    (run : system.Run guard start choices events finish) : holds finish events :=
  run.along (fun _ events state => holds state events) initially preserved

/-- Every step of a run starts in a state with a property the steps preserve. -/
theorem along_states (holds : system.State → Prop) (initially : holds start)
    (preserved : ∀ {state choice emitted next}, holds state → guard state choice →
      system.Step state choice emitted next → holds next)
    (run : system.Run guard start choices events finish) :
    system.Run (fun state choice => guard state choice ∧ holds state) start choices events finish ∧
      holds finish := by
  induction run with
  | refl => exact ⟨.refl, initially⟩
  | step _ allowed transition inductionHypothesis =>
      obtain ⟨prior, here⟩ := inductionHypothesis
      exact ⟨.step prior ⟨allowed, here⟩ transition, preserved here allowed transition⟩

/-- If every step is paid for from what the state has saved and what the step brings in, so is a
run. -/
theorem charged (cost income : system.Choice → Nat) (saved : system.State → Nat)
    (balanced : ∀ {state choice emitted next}, guard state choice →
      system.Step state choice emitted next →
      cost choice + saved next ≤ saved state + income choice)
    (run : system.Run guard start choices events finish) :
    (choices.map cost).sum + saved finish ≤ saved start + (choices.map income).sum := by
  induction run with
  | refl => simp
  | step _ allowed transition inductionHypothesis =>
      have last := balanced allowed transition
      simp only [List.map_append, List.map_cons, List.map_nil, List.sum_append, List.sum_cons,
        List.sum_nil]
      omega

/-- If an admitted step always reaches the goal or a state of smaller rank, a run reaches
the goal. -/
theorem of_descent (goal : system.State → Prop) (ranked : system.State → Nat → Prop)
    (descends : ∀ {state rank}, ranked state rank → ∃ choice emitted next,
      guard state choice ∧ system.Step state choice emitted next ∧
        (goal next ∨ ∃ smaller, smaller < rank ∧ ranked next smaller))
    {rank : Nat} (here : ranked start rank) :
    ∃ choices events finish, system.Run guard start choices events finish ∧ goal finish := by
  induction rank using Nat.strong_induction_on generalizing start with
  | _ rank inductionHypothesis =>
      obtain ⟨choice, emitted, next, allowed, transition, reached | ⟨smaller, less, there⟩⟩ :=
        descends here
      · exact ⟨[choice], emitted, next, single allowed transition, reached⟩
      · obtain ⟨choices, events, finish, later, reached⟩ :=
          inductionHypothesis smaller less there
        exact ⟨_, _, finish, (single allowed transition).trans later, reached⟩

/-- A function which takes steps to steps takes runs to runs. -/
theorem simulate {target : System Event} {admitted : target.State → target.Choice → Prop}
    (image : system.State → target.State) (relabel : system.Choice → target.Choice)
    (steps : ∀ {state choice emitted next}, guard state choice →
      system.Step state choice emitted next → admitted (image state) (relabel choice) ∧
        target.Step (image state) (relabel choice) emitted (image next))
    (run : system.Run guard start choices events finish) :
    target.Run admitted (image start) (choices.map relabel) events (image finish) := by
  induction run with
  | refl => exact .refl
  | step _ allowed transition inductionHypothesis =>
      obtain ⟨admits, stepped⟩ := steps allowed transition
      rw [List.map_append]
      exact .step inductionHypothesis admits stepped

/-- A run over a longer list of choices passes through the state its first
choices lead to. -/
theorem split (run : system.Run guard start (choices ++ choices') events finish) :
    ∃ middle before after, system.Run guard start choices before middle ∧
      system.Run guard middle choices' after finish ∧ events = before ++ after := by
  induction choices' using List.reverseRecOn generalizing events finish with
  | nil => exact ⟨finish, events, [], by simpa using run, .refl, by simp⟩
  | append_singleton rest last inductionHypothesis =>
      generalize whole : choices ++ (rest ++ [last]) = all at run
      cases run with
      | refl => simp at whole
      | @step _ _ current _ emitted _ prior allowed transition =>
          rw [← List.append_assoc] at whole
          obtain ⟨rfl, same⟩ := List.append_inj' whole rfl
          cases same
          obtain ⟨middle, before, after, first, second, rfl⟩ := inductionHypothesis prior
          exact ⟨middle, before, after ++ emitted, first, .step second allowed transition,
            by simp [List.append_assoc]⟩

end Run

/-- The system a step function describes. -/
def ofFunction {State Choice : Type} (initial : State → Prop)
    (step : State → Choice → Option (List Event × State)) : System Event where
  State := State
  Choice := Choice
  Initial := initial
  Step state choice emitted next := step state choice = some (emitted, next)

/-- Execute a list of choices, refusing one the guard does not admit. -/
def execute {State Choice : Type} (step : State → Choice → Option (List Event × State))
    (guard : State → Choice → Bool) : State → List Choice → Option (List Event × State)
  | state, [] => some ([], state)
  | state, choice :: rest =>
      if guard state choice then
        (step state choice).bind fun (emitted, next) =>
          (execute step guard next rest).map fun (later, finish) => (emitted ++ later, finish)
      else none

/-- An execution is a run under its guard. -/
theorem run_of_execute {State Choice : Type} {initial : State → Prop}
    {step : State → Choice → Option (List Event × State)} {guard : State → Choice → Bool}
    {start finish : State} {choices : List Choice} {events : List Event}
    (executed : execute step guard start choices = some (events, finish)) :
    (ofFunction initial step).Run (fun state choice => guard state choice = true)
      start choices events finish := by
  induction choices generalizing start events with
  | nil =>
      simp only [execute, Option.some.injEq, Prod.mk.injEq] at executed
      obtain ⟨rfl, rfl⟩ := executed
      exact .refl
  | cons choice rest inductionHypothesis =>
      simp only [execute] at executed
      split at executed
      · rename_i allowed
        simp only [Option.bind_eq_some_iff, Option.map_eq_some_iff, Prod.mk.injEq] at executed
        obtain ⟨⟨emitted, next⟩, stepped, ⟨later, finish'⟩, continued, rfl, rfl⟩ := executed
        have first : (ofFunction initial step).Run (fun state choice => guard state choice = true)
            start [choice] emitted next := Run.single allowed stepped
        exact first.trans (inductionHypothesis continued)
      · simp at executed

/-- An execution under no guard is an unguarded run. -/
theorem unguarded_run_of_execute {State Choice : Type} {initial : State → Prop}
    {step : State → Choice → Option (List Event × State)} {start finish : State}
    {choices : List Choice} {events : List Event}
    (executed : execute step (fun _ _ => true) start choices = some (events, finish)) :
    (ofFunction initial step).Run (unguarded _) start choices events finish :=
  (run_of_execute executed).weaken fun _ _ _ => trivial

/-- A step function emits one list of events and reaches one state. -/
theorem step_deterministic {State Choice : Type} {initial : State → Prop}
    {step : State → Choice → Option (List Event × State)} {state next next' : State}
    {choice : Choice} {emitted emitted' : List Event}
    (first : (ofFunction initial step).Step state choice emitted next)
    (second : (ofFunction initial step).Step state choice emitted' next') :
    emitted = emitted' ∧ next = next' := by
  have agree : some (emitted, next) = some (emitted', next') := first.symm.trans second
  simpa only [Option.some.injEq, Prod.mk.injEq] using agree

/-- In a system whose steps are determined by their choices, so are its runs. -/
theorem Run.deterministic {guard other : system.State → system.Choice → Prop}
    {start finish finish' : system.State} {choices : List system.Choice}
    {events events' : List Event}
    (determined : ∀ {state choice emitted next emitted' next'},
      system.Step state choice emitted next → system.Step state choice emitted' next' →
      emitted = emitted' ∧ next = next')
    (first : system.Run guard start choices events finish)
    (second : system.Run other start choices events' finish') :
    events = events' ∧ finish = finish' := by
  induction first generalizing events' finish' with
  | refl =>
      generalize none : ([] : List system.Choice) = empty at second
      cases second with
      | refl => exact ⟨rfl, rfl⟩
      | step => simp at none
  | @step choices events current choice emitted next _ _ transition inductionHypothesis =>
      generalize whole : choices ++ [choice] = all at second
      cases second with
      | refl => simp at whole
      | step prior _ transition' =>
          obtain ⟨rfl, same⟩ := List.append_inj' whole rfl
          cases same
          obtain ⟨rfl, rfl⟩ := inductionHypothesis prior
          obtain ⟨rfl, rfl⟩ := determined transition transition'
          exact ⟨rfl, rfl⟩

/-- A property of every state a list of choices leads through. -/
def Throughout (system : System Event) (guard : system.State → system.Choice → Prop)
    (start : system.State) (choices : List system.Choice) (holds : system.State → Prop) : Prop :=
  ∀ taken before middle, taken <+: choices → system.Run guard start taken before middle →
    holds middle

/-- When each step, under an invariant, keeps a property exactly if its events
are harmless, the property holds throughout a run exactly if all its events are. -/
theorem Run.throughout_iff {guard : system.State → system.Choice → Prop}
    {start finish : system.State} {choices : List system.Choice} {events : List Event}
    {sound holds : system.State → Prop} {harmless : Event → Prop}
    (determined : ∀ {state choice emitted next emitted' next'},
      system.Step state choice emitted next → system.Step state choice emitted' next' →
      emitted = emitted' ∧ next = next')
    (initially : sound start ∧ holds start)
    (preserved : ∀ {state choice emitted next}, sound state →
      system.Step state choice emitted next → sound next)
    (precise : ∀ {state choice emitted next}, sound state → holds state →
      system.Step state choice emitted next →
      (holds next ↔ ∀ event ∈ emitted, harmless event))
    (run : system.Run guard start choices events finish) :
    system.Throughout guard start choices holds ↔ ∀ event ∈ events, harmless event := by
  constructor
  · intro always
    induction run with
    | refl => simp
    | step prior allowed transition inductionHypothesis =>
        have earlier := inductionHypothesis fun taken before middle isPrefix =>
          always taken before middle (isPrefix.trans (List.prefix_append _ _))
        have sound := prior.invariant (fun state _ => sound state) initially.1
          fun sound _ transition => preserved sound transition
        have now := always _ _ _ (List.prefix_append _ _) prior
        have after := always _ _ _ List.prefix_rfl (.step prior allowed transition)
        have emitted := (precise sound now transition).mp after
        intro event member
        rcases List.mem_append.mp member with old | new
        · exact earlier event old
        · exact emitted event new
  · rintro quiet taken before middle ⟨rest, rfl⟩ reached
    obtain ⟨middle', before', after, first, _, rfl⟩ := run.split
    obtain ⟨rfl, rfl⟩ := Run.deterministic determined first reached
    have kept := first.invariant
      (fun state events => (∀ event ∈ events, harmless event) → sound state ∧ holds state)
      (fun _ => initially) fun {state events choice emitted next} before _ transition quiet => by
        obtain ⟨sound, holds⟩ := before fun event member => quiet event (by simp [member])
        exact ⟨preserved sound transition,
          (precise sound holds transition).mpr fun event member => quiet event (by simp [member])⟩
    exact (kept fun event member => quiet event (by simp [member])).2

end System

/-- Every event of a trace stands in `relation` to the events before it. -/
def Recorded {Event : Type} (relation : List Event → Event → Prop) (events : List Event) : Prop :=
  ∀ before event after, events = before ++ event :: after → relation before event

namespace Recorded

variable {Event : Type} {relation : List Event → Event → Prop} {events : List Event}

/-- Nothing is recorded. -/
theorem nil : Recorded relation [] := by
  intro before event after split
  simp at split

/-- Recording one more event needs the relation at that event only. -/
theorem append_singleton (recorded : Recorded relation events) {event : Event}
    (related : relation events event) : Recorded relation (events ++ [event]) := by
  intro before event' after split
  rcases List.eq_nil_or_concat after with rfl | ⟨rest, last, rfl⟩
  · obtain ⟨rfl, same⟩ := List.append_inj' split rfl
    cases same
    exact related
  · rw [List.concat_eq_append, ← List.cons_append, ← List.append_assoc] at split
    obtain ⟨same, _⟩ := List.append_inj' split rfl
    exact recorded before event' rest same

end Recorded

end Rp2350Stepper.Semantics
