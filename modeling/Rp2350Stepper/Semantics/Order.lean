import Mathlib.Data.Set.Basic
import Mathlib.Data.List.Basic
import Rp2350Stepper.Semantics.Program

/-!
# The order of a program's requests

Some requests of a program carry a label. The program is in one of a set of orders when, however
it is answered, the labels of its requests so far are the beginning of an order of the set, and
are all of one once it has returned a value which counts as finished. This is a fact about the
program alone, by recursion on it: after a request the orders left are the rests of those which
begin with its label.

`InOrder.of_returns` reads it off a run on any device.
-/

namespace Rp2350Stepper.Semantics

variable {interface : Interface} {Label α β : Type}

namespace Program

/-- The program makes its labelled requests in one of these orders. -/
def InOrder (label : interface.Request → Option Label) (finished : α → Prop) :
    Program interface α → Set (List Label) → Prop
  | done value, orders => orders.Nonempty ∧ (finished value → [] ∈ orders)
  | ask request next, orders => ∀ response,
      (next response).InOrder label finished {rest | (label request).toList ++ rest ∈ orders}

/-- Every order of one set followed by one of the other. -/
def followedBy (orders orders' : Set (List Label)) : Set (List Label) :=
  {order | ∃ first ∈ orders, ∃ second ∈ orders', order = first ++ second}

namespace InOrder

variable {label : interface.Request → Option Label} {orders orders' : Set (List Label)}
  {program : Program interface α} {finished : α → Prop} {finished' : β → Prop}

/-- More orders are allowed. -/
theorem weaken (inOrder : program.InOrder label finished orders) (more : orders ⊆ orders') :
    program.InOrder label finished orders' := by
  induction program generalizing orders orders' with
  | done value =>
      obtain ⟨⟨order, member⟩, whole⟩ := inOrder
      exact ⟨⟨order, more member⟩, fun done => more (whole done)⟩
  | ask request next inductionHypothesis =>
      intro response
      exact inductionHypothesis response (inOrder response) fun rest member => more member

/-- A program which makes no labelled request. -/
theorem of_unlabelled (only : program.Only fun request => label request = none) :
    program.InOrder label finished {[]} := by
  induction program with
  | done value => exact ⟨⟨[], rfl⟩, fun _ => rfl⟩
  | ask request next inductionHypothesis =>
      intro response
      refine (inductionHypothesis response (only.2 response)).weaken ?_
      rintro rest rfl
      simp [only.1]

/-- One request. -/
theorem of_ask {request : interface.Request} {finished : interface.Response request → Prop} :
    (ask request done).InOrder label finished {(label request).toList} := by
  intro response
  exact ⟨⟨[], by simp⟩, fun _ => by simp⟩

/-- Sequencing. What follows a value which is not finished is in any order: it makes no labelled
request, and does not finish. -/
theorem bind {next : α → Program interface β} {later : Set (List Label)}
    (inOrder : program.InOrder label finished orders) (possible : later.Nonempty)
    (continues : ∀ value, finished value → (next value).InOrder label finished' later)
    (stops : ∀ value, ¬finished value → ∀ any : Set (List Label), any.Nonempty →
      (next value).InOrder label finished' any) :
    (program >>= next).InOrder label finished' (followedBy orders later) := by
  induction program generalizing orders with
  | done value =>
      obtain ⟨⟨order, member⟩, whole⟩ := inOrder
      by_cases completed : finished value
      · refine (continues value completed).weaken fun rest second => ?_
        exact ⟨[], whole completed, rest, second, rfl⟩
      · obtain ⟨rest, second⟩ := possible
        exact stops value completed _ ⟨order ++ rest, order, member, rest, second, rfl⟩
  | ask request rest inductionHypothesis =>
      intro response
      refine (inductionHypothesis response (inOrder response)).weaken ?_
      rintro order ⟨first, member, second, member', rfl⟩
      exact ⟨_, member, second, member', by rw [List.append_assoc]⟩

/-- What follows makes no labelled request. -/
theorem bind_unlabelled {next : α → Program interface β}
    (inOrder : program.InOrder label finished orders)
    (continues : ∀ value, finished value → (next value).InOrder label finished' {[]})
    (stops : ∀ value, ¬finished value → ∀ any : Set (List Label), any.Nonempty →
      (next value).InOrder label finished' any) :
    (program >>= next).InOrder label finished' orders := by
  refine (inOrder.bind (Set.singleton_nonempty _) continues stops).weaken ?_
  rintro order ⟨first, member, _, rfl, rfl⟩
  rw [List.append_nil]
  exact member

/-- What is finished, of a program which may fail. -/
abbrev Succeeded {ε α : Type} (result : Except ε α) : Prop := ∃ value, result = .ok value

/-- Sequencing past a failure. -/
theorem run_bind {ε : Type} {first : ExceptT ε (Program interface) α}
    {next : α → ExceptT ε (Program interface) β} {later : Set (List Label)}
    (inOrder : first.run.InOrder label Succeeded orders) (possible : later.Nonempty)
    (continues : ∀ value, (next value).run.InOrder label Succeeded later) :
    (first >>= next).run.InOrder label Succeeded (followedBy orders later) := by
  rw [ExceptT.run_bind]
  refine inOrder.bind possible ?_ ?_
  · rintro result ⟨value, rfl⟩
    exact continues value
  · intro result unfinished
    cases result with
    | ok value => exact absurd ⟨value, rfl⟩ unfinished
    | error error => exact fun any possible => ⟨possible, by simp⟩

/-- A program which cannot fail. -/
theorem run_lift {ε : Type} (inOrder : program.InOrder label (fun _ => True) orders) :
    (liftM program : ExceptT ε (Program interface) α).run.InOrder label Succeeded orders := by
  have lifted : (liftM program : ExceptT ε (Program interface) α).run =
      program >>= fun value => pure (.ok value) := rfl
  rw [lifted]
  exact inOrder.bind_unlabelled (fun value _ => ⟨⟨[], rfl⟩, fun _ => rfl⟩)
    fun value unfinished => absurd trivial unfinished

end InOrder

end Program

namespace Device

/-- A device with the requests it has been asked so far. -/
abbrev recording (device : Device interface) : Device interface where
  State := device.State × List interface.Request
  Choice := device.Choice
  answer state request choice :=
    (device.answer state.1 request choice).map fun (response, next) =>
      (response, next, state.2 ++ [request])

end Device

/-- On any device the requests of a run which carry a label begin an order of the set, and are
all of one if the run has finished. -/
theorem Program.InOrder.of_returns {device : Device interface} {guard : device.recording.Guard}
    {label : interface.Request → Option Label} {finished : α → Prop}
    {program : Program interface α} {orders : Set (List Label)}
    {state finish : device.recording.State} {choices : List device.Choice} {value : α}
    (inOrder : program.InOrder label finished orders)
    (returns : device.recording.Returns guard program state choices value finish) :
    ∃ made, finish.2 = state.2 ++ made ∧ ∃ order ∈ orders, made.filterMap label <+: order ∧
      (finished value → made.filterMap label ∈ orders) := by
  induction returns generalizing orders with
  | done =>
      obtain ⟨⟨order, member⟩, whole⟩ := inOrder
      exact ⟨[], by simp, order, member, List.nil_prefix, whole⟩
  | @ask request next state choice response middle choices value finish allowed answered rest
      inductionHypothesis =>
      obtain ⟨made, later, order, member, first, whole⟩ := inductionHypothesis (inOrder response)
      simp only [Device.recording, Option.map_eq_some_iff] at answered
      obtain ⟨⟨response', next'⟩, answered, same⟩ := answered
      obtain ⟨rfl, rfl⟩ := Prod.mk.inj same
      have labels : (request :: made).filterMap label = (label request).toList ++ made.filterMap label := by
        cases known : label request <;> simp [known]
      refine ⟨request :: made, by simpa using later, _, member, ?_, ?_⟩
      · rw [labels]
        exact (List.prefix_append_right_inj _).mpr first
      · rw [labels]
        exact whole

end Rp2350Stepper.Semantics
