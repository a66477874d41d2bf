import Rp2350Stepper.Semantics.Program

/-!
# Implementing an interface over another

When the program which stands for each request does on the inner device what the outer device
does in one step, every program over the outer interface has the same results and leaves the
same states on both.
-/

namespace Rp2350Stepper.Semantics

variable {upper lower : Interface}

namespace Program

variable {α β : Type}

/-- A sequence is translated part by part. -/
theorem translate_bind (body : (request : upper.Request) → Program lower (upper.Response request))
    (program : Program upper α) (next : α → Program upper β) :
    (program >>= next).translate body =
      program.translate body >>= fun value => (next value).translate body := by
  induction program with
  | done value => rfl
  | ask request rest inductionHypothesis =>
      have opened : (Program.ask request rest >>= next).translate body =
          (body request).bind fun response => (rest response >>= next).translate body := rfl
      rw [opened]
      simp only [inductionHypothesis]
      exact (Program.bind_assoc _ _ _).symm

end Program

namespace Device

variable {α : Type}

/-- A device with the states of another one. -/
abbrev withStates (inner : Device lower) {Choice : Type}
    (answer : inner.State → (request : upper.Request) → Choice →
      Option (upper.Response request × inner.State)) : Device upper :=
  ⟨inner.State, Choice, answer⟩

/-- A run of a finished program. -/
theorem Returns.of_done {device : Device upper} {guard : device.Guard} {result value : α}
    {state finish : device.State} {choices : List device.Choice}
    (returned : device.Returns guard (.done result) state choices value finish) :
    result = value ∧ state = finish := by
  cases returned
  exact ⟨rfl, rfl⟩

/-- A run which begins with a request. -/
theorem Returns.of_asked {device : Device upper} {guard : device.Guard} {request : upper.Request}
    {rest : upper.Response request → Program upper α} {value : α} {state finish : device.State}
    {choices : List device.Choice}
    (returned : device.Returns guard (.ask request rest) state choices value finish) :
    ∃ choice response middle later, guard state request choice ∧
      device.answer state request choice = some (response, middle) ∧
      device.Returns guard (rest response) middle later value finish := by
  cases returned with
  | ask allowed answered continued => exact ⟨_, _, _, _, allowed, answered, continued⟩

/-- Each request is answered by a program over the inner device, with these answers. -/
def Implements (inner : Device lower) {Choice : Type}
    (body : (request : upper.Request) → Program lower (upper.Response request))
    (answer : inner.State → (request : upper.Request) → Choice →
      Option (upper.Response request × inner.State)) : Prop :=
  ∀ state request response next,
    (∃ choices, inner.Returns inner.unguarded (body request) state choices response next) ↔
      ∃ choice, answer state request choice = some (response, next)

/-- Then so is every program. -/
theorem Implements.returns_iff {inner : Device lower} {Choice : Type}
    {body : (request : upper.Request) → Program lower (upper.Response request)}
    {answer : inner.State → (request : upper.Request) → Choice →
      Option (upper.Response request × inner.State)}
    (implements : inner.Implements body answer) (program : Program upper α) (state : inner.State)
    (value : α) (finish : inner.State) :
    (∃ choices, inner.Returns inner.unguarded (program.translate body) state choices value finish) ↔
      ∃ choices, (inner.withStates answer).Returns (inner.withStates answer).unguarded program state
        choices value finish := by
  induction program generalizing state with
  | done result =>
      constructor
      · rintro ⟨_, returned⟩
        obtain ⟨rfl, rfl⟩ := Returns.of_done returned
        exact ⟨[], .done⟩
      · rintro ⟨_, returned⟩
        obtain ⟨rfl, rfl⟩ := Returns.of_done returned
        exact ⟨[], .done⟩
  | ask request rest inductionHypothesis =>
      constructor
      · rintro ⟨choices, returned⟩
        have sequence : inner.Returns inner.unguarded
            (body request >>= fun response => (rest response).translate body) state choices value
            finish := returned
        obtain ⟨first, response, middle, second, -, ran, continued⟩ := sequence.of_bind
        obtain ⟨choice, answered⟩ := (implements state request response middle).mp ⟨first, ran⟩
        obtain ⟨choices, continued⟩ := (inductionHypothesis response middle).mp ⟨second, continued⟩
        exact ⟨choice :: choices, .ask trivial answered continued⟩
      · rintro ⟨_, returned⟩
        obtain ⟨choice, response, middle, later, -, answered, continued⟩ :=
          Returns.of_asked returned
        obtain ⟨first, ran⟩ := (implements state request response middle).mpr ⟨choice, answered⟩
        obtain ⟨second, continued⟩ := (inductionHypothesis response middle).mpr ⟨later, continued⟩
        exact ⟨first ++ second, ran.bind continued⟩

/-- The runs of one request whose response is mapped. -/
theorem returns_mapped_iff {inner : Device lower} {guard : inner.Guard} {request : lower.Request}
    {change : lower.Response request → α} {state finish : inner.State} {value : α} :
    (∃ choices, inner.Returns guard (.ask request fun response => .done (change response)) state
        choices value finish) ↔
      ∃ choice response, guard state request choice ∧
        inner.answer state request choice = some (response, finish) ∧ change response = value := by
  constructor
  · rintro ⟨_, returned⟩
    obtain ⟨choice, response, middle, later, allowed, answered, rest⟩ := returned.of_asked
    obtain ⟨same, rfl⟩ := rest.of_done
    exact ⟨choice, response, allowed, answered, same⟩
  · rintro ⟨choice, response, allowed, answered, rfl⟩
    exact ⟨[choice], .ask allowed answered .done⟩

/-- The runs of one request. -/
theorem returns_asked_iff {inner : Device lower} {guard : inner.Guard} {request : lower.Request}
    {state finish : inner.State} {response : lower.Response request} :
    (∃ choices, inner.Returns guard (.ask request .done) state choices response finish) ↔
      ∃ choice, guard state request choice ∧
        inner.answer state request choice = some (response, finish) := by
  constructor
  · rintro ⟨_, returned⟩
    obtain ⟨choice, -, allowed, answered⟩ := returned.of_ask
    exact ⟨choice, allowed, answered⟩
  · rintro ⟨choice, allowed, answered⟩
    exact ⟨[choice], .ask allowed answered .done⟩

end Device

end Rp2350Stepper.Semantics
