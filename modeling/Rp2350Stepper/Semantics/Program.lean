import Rp2350Stepper.Semantics.Execution
import Mathlib.Data.List.FinRange

/-!
# Programs which talk to a device

A `Program` is a tree of requests, each with one continuation for every response,
so sequential code which calls into hardware or a kernel is a value that can be
inspected, run against a script, or reasoned about.

A `Device` answers requests under the choices of its environment. `Returns` is the
resulting big-step relation, with the choices made along the way; `Completes` is
the total weakest precondition: whatever the environment chooses within a guard,
the program is never left without an answer and ends in the postcondition. The
rules at the end are the ones a proof about a program uses: consequence,
sequencing, failure, loops, and the frame rule for programs which make only
requests of one kind.
-/

namespace Rp2350Stepper.Semantics

/-- The requests a program may make, with the type of each response. -/
structure Interface where
  Request : Type
  Response : Request → Type

/-- A sequential program over an interface. -/
inductive Program (interface : Interface) (α : Type) where
  | done (value : α)
  | ask (request : interface.Request)
      (next : interface.Response request → Program interface α)

namespace Program

variable {interface : Interface} {α β : Type}

/-- One program after another. -/
def bind : Program interface α → (α → Program interface β) → Program interface β
  | done value, next => next value
  | ask request rest, next => ask request fun response => (rest response).bind next

instance : Monad (Program interface) where
  pure := done
  bind := bind

/-- Nothing after a program. -/
theorem bind_done (program : Program interface α) : program.bind done = program := by
  induction program with
  | done value => rfl
  | ask request next inductionHypothesis =>
      simp only [bind, inductionHypothesis]

/-- Three programs in a row. -/
theorem bind_assoc {γ : Type} (program : Program interface α)
    (first : α → Program interface β) (second : β → Program interface γ) :
    (program.bind first).bind second = program.bind fun value => (first value).bind second := by
  induction program with
  | done value => rfl
  | ask request next inductionHypothesis =>
      simp only [bind, inductionHypothesis]

instance : LawfulMonad (Program interface) :=
  .mk' (Program interface) bind_done (fun _ _ => rfl) bind_assoc

/-- A program with each request replaced by a program over another interface. -/
def translate {inner : Interface}
    (body : (request : interface.Request) → Program inner (interface.Response request)) :
    Program interface α → Program inner α
  | done value => done value
  | ask request next => (body request).bind fun response => (next response).translate body

end Program

/-- A device answers a request as its environment chooses, or has no answer. -/
structure Device (interface : Interface) where
  State : Type
  Choice : Type
  answer : State → (request : interface.Request) → Choice →
    Option (interface.Response request × State)

namespace Device

variable {interface : Interface} (device : Device interface)

/-- What an environment may choose in a state, at a request. -/
abbrev Guard := device.State → interface.Request → device.Choice → Prop

/-- The guard which admits every choice. -/
def unguarded : device.Guard := fun _ _ _ => True

variable {α β : Type}

/-- A program returns a value and leaves a state, by admitted choices. -/
inductive Returns (guard : device.Guard) :
    Program interface α → device.State → List device.Choice → α → device.State → Prop where
  | done {value state} : Returns guard (.done value) state [] value state
  | ask {request next state choice response middle choices value finish}
      (allowed : guard state request choice)
      (answered : device.answer state request choice = some (response, middle))
      (rest : Returns guard (next response) middle choices value finish) :
      Returns guard (.ask request next) state (choice :: choices) value finish

/-- Under every admitted choice the program is answered at each request, and it
returns in the postcondition. -/
def Completes (guard : device.Guard) : Program interface α → device.State →
    (α → device.State → Prop) → Prop
  | .done value, state, post => post value state
  | .ask request next, state, post =>
      (∃ choice response middle, guard state request choice ∧
        device.answer state request choice = some (response, middle)) ∧
      ∀ choice response middle, guard state request choice →
        device.answer state request choice = some (response, middle) →
        Completes guard (next response) middle post

/-- Run a program on a script of admitted choices, and return the choices made; past
the end of the script the default choice is made. -/
def play [Inhabited device.Choice]
    (allowed : device.State → interface.Request → device.Choice → Bool) :
    Program interface α → device.State → List device.Choice →
      Option (List device.Choice × α × device.State)
  | .done value, state, _ => some ([], value, state)
  | .ask request next, state, script =>
      if allowed state request (script.headD default) then
        (device.answer state request (script.headD default)).bind fun (response, middle) =>
          (play allowed (next response) middle script.tail).map fun (choices, value, finish) =>
            (script.headD default :: choices, value, finish)
      else none

variable {device} {guard other : device.Guard} {state finish finish' : device.State}
  {choices choices' : List device.Choice}

namespace Returns

variable {program : Program interface α} {value value' : α}

/-- A run under a guard is one under a weaker guard. -/
theorem weaken (returns : device.Returns guard program state choices value finish)
    (implies : ∀ state request choice, guard state request choice →
      other state request choice) :
    device.Returns other program state choices value finish := by
  induction returns with
  | done => exact .done
  | ask allowed answered _ inductionHypothesis =>
      exact .ask (implies _ _ _ allowed) answered inductionHypothesis

/-- The choices determine the value and the state. -/
theorem deterministic (first : device.Returns guard program state choices value finish)
    (second : device.Returns other program state choices value' finish') :
    value = value' ∧ finish = finish' := by
  induction first generalizing value' finish' with
  | done =>
      cases second
      exact ⟨rfl, rfl⟩
  | ask allowed answered _ inductionHypothesis =>
      cases second with
      | ask allowed' answered' rest =>
          rw [answered, Option.some.injEq, Prod.mk.injEq] at answered'
          obtain ⟨rfl, rfl⟩ := answered'
          exact inductionHypothesis rest

/-- So do the choices made so far, whatever is chosen later. -/
theorem deterministic_prefix {rest rest' : List device.Choice}
    (first : device.Returns guard program state choices value finish)
    (second : device.Returns other program state choices' value' finish')
    (same : choices ++ rest = choices' ++ rest') :
    value = value' ∧ finish = finish' ∧ rest = rest' := by
  induction first generalizing choices' value' finish' with
  | done =>
      cases second
      exact ⟨rfl, rfl, same⟩
  | ask allowed answered _ inductionHypothesis =>
      cases second with
      | ask allowed' answered' continued =>
          obtain ⟨rfl, later⟩ := List.cons.inj same
          rw [answered, Option.some.injEq, Prod.mk.injEq] at answered'
          obtain ⟨rfl, rfl⟩ := answered'
          exact inductionHypothesis continued later

/-- What every answer relates, a run relates. -/
theorem relates (relation : device.State → device.State → Prop)
    (refl : ∀ state, relation state state)
    (trans : ∀ {first second third}, relation first second → relation second third →
      relation first third)
    (answers : ∀ {state request choice response middle}, guard state request choice →
      device.answer state request choice = some (response, middle) → relation state middle)
    (returns : device.Returns guard program state choices value finish) :
    relation state finish := by
  induction returns with
  | done => exact refl _
  | ask allowed answered _ inductionHypothesis =>
      exact trans (answers allowed answered) inductionHypothesis

/-- A device whose answers under the guard are those of another device seen through a function
runs its programs as the other one does. -/
theorem simulate (image : Device interface) (view : device.State → image.State)
    (answers : ∀ {state request choice response middle}, guard state request choice →
      device.answer state request choice = some (response, middle) →
      ∃ choice', image.answer (view state) request choice' = some (response, view middle))
    (returns : device.Returns guard program state choices value finish) :
    ∃ choices', image.Returns image.unguarded program (view state) choices' value (view finish) := by
  induction returns with
  | done => exact ⟨[], .done⟩
  | ask allowed answered _ inductionHypothesis =>
      obtain ⟨choice', answered'⟩ := answers allowed answered
      obtain ⟨choices', rest⟩ := inductionHypothesis
      exact ⟨choice' :: choices', .ask trivial answered' rest⟩

/-- A program which completes returns only in the postcondition. -/
theorem of_completes {post : α → device.State → Prop}
    (returns : device.Returns guard program state choices value finish)
    (completes : device.Completes guard program state post) : post value finish := by
  induction returns with
  | done => exact completes
  | ask allowed answered _ inductionHypothesis =>
      exact inductionHypothesis (completes.2 _ _ _ allowed answered)

/-- Two runs, one after the other. -/
theorem bind {next : α → Program interface β} {result : β} {middle : device.State}
    (first : device.Returns guard program state choices value middle)
    (second : device.Returns guard (next value) middle choices' result finish) :
    device.Returns guard (program >>= next) state (choices ++ choices') result finish := by
  induction first with
  | done => exact second
  | ask allowed answered _ inductionHypothesis =>
      exact .ask allowed answered (inductionHypothesis second)

/-- A run of a sequence passes through its middle. -/
theorem of_bind {next : α → Program interface β} {result : β}
    (returns : device.Returns guard (program >>= next) state choices result finish) :
    ∃ first value middle second, choices = first ++ second ∧
      device.Returns guard program state first value middle ∧
      device.Returns guard (next value) middle second result finish := by
  induction program generalizing state choices with
  | done value => exact ⟨[], value, state, choices, rfl, .done, returns⟩
  | ask request rest inductionHypothesis =>
      generalize opened : (Program.ask request rest >>= next) = whole at returns
      cases returns with
      | done => cases opened
      | ask allowed answered continued =>
          cases opened
          obtain ⟨first, value, middle, second, rfl, before, after⟩ := inductionHypothesis _ continued
          exact ⟨_ :: first, value, middle, second, rfl, .ask allowed answered before, after⟩

/-- A run of a sequence which may fail. -/
theorem of_run_bind {ε : Type} {first : ExceptT ε (Program interface) α}
    {next : α → ExceptT ε (Program interface) β} {result : Except ε β}
    (returns : device.Returns guard (first >>= next).run state choices result finish) :
    ∃ before outcome middle after, choices = before ++ after ∧
      device.Returns guard first.run state before outcome middle ∧
      ((∃ value, outcome = .ok value ∧
        device.Returns guard (next value).run middle after result finish) ∨
      ∃ error, outcome = .error error ∧ result = .error error ∧ finish = middle) := by
  rw [ExceptT.run_bind] at returns
  obtain ⟨before, outcome, middle, after, rfl, ran, rest⟩ := returns.of_bind
  refine ⟨before, outcome, middle, after, rfl, ran, ?_⟩
  cases outcome with
  | ok value => exact .inl ⟨value, rfl, rest⟩
  | error error =>
      cases rest
      exact .inr ⟨error, rfl, rfl, rfl⟩

/-- One which has not failed. -/
theorem of_run_bind_ok {ε : Type} {first : ExceptT ε (Program interface) α}
    {next : α → ExceptT ε (Program interface) β} {result : β}
    (returns : device.Returns guard (first >>= next).run state choices (.ok result) finish) :
    ∃ before value middle after, choices = before ++ after ∧
      device.Returns guard first.run state before (.ok value) middle ∧
      device.Returns guard (next value).run middle after (.ok result) finish := by
  obtain ⟨before, outcome, middle, after, rfl, ran, continued⟩ := returns.of_run_bind
  rcases continued with ⟨value, rfl, rest⟩ | ⟨error, _, failed, _⟩
  · exact ⟨before, value, middle, after, rfl, ran, rest⟩
  · cases failed

/-- A run of a program which cannot fail, in one which can. -/
theorem of_run_lift {ε : Type} {result : Except ε α}
    (returns : device.Returns guard (liftM program : ExceptT ε (Program interface) α).run state
      choices result finish) :
    ∃ value, result = .ok value ∧ device.Returns guard program state choices value finish := by
  have lifted : (liftM program : ExceptT ε (Program interface) α).run =
      program >>= fun value => pure (.ok value) := rfl
  rw [lifted] at returns
  obtain ⟨before, value, middle, after, rfl, ran, rest⟩ := returns.of_bind
  cases rest
  exact ⟨value, rfl, by simpa using ran⟩

/-- A run of one request is one answer. -/
theorem of_ask {request : interface.Request} {response : interface.Response request}
    (returns : device.Returns guard (.ask request .done) state choices response finish) :
    ∃ choice, choices = [choice] ∧ guard state request choice ∧
      device.answer state request choice = some (response, finish) := by
  cases returns with
  | ask allowed answered rest =>
      cases rest
      exact ⟨_, rfl, allowed, answered⟩

/-- A played script is a run of the program. -/
theorem of_play [Inhabited device.Choice]
    {allowed : device.State → interface.Request → device.Choice → Bool}
    {script : List device.Choice}
    (played : device.play allowed program state script = some (choices, value, finish)) :
    device.Returns (fun state request choice => allowed state request choice = true)
      program state choices value finish := by
  induction program generalizing state script choices with
  | done result =>
      simp only [play, Option.some.injEq, Prod.mk.injEq] at played
      obtain ⟨rfl, rfl, rfl⟩ := played
      exact .done
  | ask request next inductionHypothesis =>
      simp only [play] at played
      split at played
      · rename_i admitted
        simp only [Option.bind_eq_some_iff, Option.map_eq_some_iff, Prod.mk.injEq] at played
        obtain ⟨⟨response, middle⟩, answered, ⟨later, value', finish'⟩, rest, rfl, rfl, rfl⟩ :=
          played
        exact .ask admitted answered (inductionHypothesis response rest)
      · simp at played

end Returns

/-! ### Rules -/

section Rules

variable {program : Program interface α} {post post' : α → device.State → Prop}

theorem completes_pure {value : α} :
    device.Completes guard (pure value) state post ↔ post value state := Iff.rfl

/-- A request completes if something answers it, and whatever does lets the rest complete. -/
theorem completes_ask {request : interface.Request}
    {next : interface.Response request → Program interface α} :
    device.Completes guard (.ask request next) state post ↔
      (∃ choice response middle, guard state request choice ∧
        device.answer state request choice = some (response, middle)) ∧
      ∀ choice response middle, guard state request choice →
        device.answer state request choice = some (response, middle) →
        device.Completes guard (next response) middle post := Iff.rfl

/-- One request, which every admitted choice answers in the postcondition. -/
theorem Completes.ask {request : interface.Request}
    {post : interface.Response request → device.State → Prop}
    (admits : ∃ choice, guard state request choice)
    (answers : ∀ choice, guard state request choice → ∃ response finish,
      device.answer state request choice = some (response, finish) ∧ post response finish) :
    device.Completes guard (.ask request .done) state post := by
  obtain ⟨choice, allowed⟩ := admits
  obtain ⟨response, finish, answered, _⟩ := answers choice allowed
  refine ⟨⟨choice, response, finish, allowed, answered⟩, ?_⟩
  intro choice response middle allowed answered
  obtain ⟨response', finish', answered', holds⟩ := answers choice allowed
  rw [answered', Option.some.injEq] at answered
  obtain ⟨rfl, rfl⟩ := Prod.mk.inj answered
  exact holds

/-- Consequence. -/
theorem Completes.weaken (completes : device.Completes guard program state post)
    (implies : ∀ value finish, post value finish → post' value finish) :
    device.Completes guard program state post' := by
  induction program generalizing state with
  | done value => exact implies value state completes
  | ask request next inductionHypothesis =>
      obtain ⟨answered, continues⟩ := completes
      exact ⟨answered, fun choice response middle allowed answer =>
        inductionHypothesis response (continues choice response middle allowed answer)⟩

/-- Two postconditions hold together. -/
theorem Completes.and (completes : device.Completes guard program state post)
    (completes' : device.Completes guard program state post') :
    device.Completes guard program state fun value finish => post value finish ∧ post' value finish := by
  induction program generalizing state with
  | done value => exact ⟨completes, completes'⟩
  | ask request next inductionHypothesis =>
      refine ⟨completes.1, ?_⟩
      intro choice response middle allowed answered
      exact inductionHypothesis response (completes.2 choice response middle allowed answered)
        (completes'.2 choice response middle allowed answered)

/-- Sequencing. -/
theorem completes_bind {next : α → Program interface β} {after : β → device.State → Prop} :
    device.Completes guard (program >>= next) state after ↔
      device.Completes guard program state
        fun value middle => device.Completes guard (next value) middle after := by
  induction program generalizing state with
  | done value => exact Iff.rfl
  | ask request rest inductionHypothesis =>
      have opened : (Program.ask request rest >>= next) =
          .ask request fun response => rest response >>= next := rfl
      rw [opened, completes_ask, completes_ask]
      simp only [inductionHypothesis]

/-- Sequencing past a failure, which skips what follows. -/
theorem completes_run_bind {ε : Type} {first : ExceptT ε (Program interface) α}
    {next : α → ExceptT ε (Program interface) β}
    {after : Except ε β → device.State → Prop} :
    device.Completes guard (first >>= next).run state after ↔
      device.Completes guard first.run state fun result middle =>
        match result with
        | .ok value => device.Completes guard (next value).run middle after
        | .error error => after (.error error) middle := by
  rw [ExceptT.run_bind, completes_bind]
  constructor
  · intro completes
    apply completes.weaken
    intro result middle rest
    cases result <;> exact rest
  · intro completes
    apply completes.weaken
    intro result middle rest
    cases result <;> exact rest

/-- A program which cannot fail, in one which can. -/
theorem completes_run_lift {ε : Type} {post : Except ε α → device.State → Prop} :
    device.Completes guard (liftM program : ExceptT ε (Program interface) α).run state post ↔
      device.Completes guard program state fun value finish => post (.ok value) finish := by
  have lifted : (liftM program : ExceptT ε (Program interface) α).run =
      program >>= fun value => pure (.ok value) := rfl
  rw [lifted, completes_bind]
  exact Iff.rfl

/-- A program which completes can run to its end. -/
theorem Completes.returns (completes : device.Completes guard program state post) :
    ∃ choices value finish, device.Returns guard program state choices value finish := by
  induction program generalizing state with
  | done value => exact ⟨[], value, state, .done⟩
  | ask request next inductionHypothesis =>
      obtain ⟨⟨choice, response, middle, allowed, answered⟩, continues⟩ := completes
      obtain ⟨choices, value, finish, returns⟩ := inductionHypothesis response
        (continues choice response middle allowed answered)
      exact ⟨choice :: choices, value, finish, .ask allowed answered returns⟩

/-- A loop over a list keeps an invariant indexed by what it has gone through. -/
theorem Completes.forM {items : List α} {body : α → Program interface PUnit}
    (invariant : List α → device.State → Prop) (initially : invariant [] state)
    (preserved : ∀ done item rest state, items = done ++ item :: rest → invariant done state →
      device.Completes guard (body item) state fun _ next => invariant (done ++ [item]) next) :
    device.Completes guard (items.forM body) state fun _ finish => invariant items finish := by
  suffices general : ∀ done rest state, items = done ++ rest → invariant done state →
      device.Completes guard (rest.forM body) state fun _ finish => invariant items finish from
    general [] items state rfl initially
  intro done rest
  induction rest generalizing done with
  | nil =>
      intro state split holds
      rw [List.append_nil] at split
      exact split ▸ holds
  | cons item rest inductionHypothesis =>
      intro state split holds
      have opened : (item :: rest).forM body = body item >>= fun _ => rest.forM body := rfl
      rw [opened, completes_bind]
      apply (preserved done item rest state split holds).weaken
      intro _ next holds
      exact inductionHypothesis (done ++ [item]) next (by simpa using split) holds

end Rules

end Device

/-! ### Programs which make only some requests -/

namespace Program

variable {interface : Interface} {α β : Type} {kind other : interface.Request → Prop}

/-- Every request the program can make, whatever the responses, is of one kind. -/
def Only (kind : interface.Request → Prop) : Program interface α → Prop
  | done _ => True
  | ask request next => kind request ∧ ∀ response, (next response).Only kind

theorem only_pure {value : α} : (pure value : Program interface α).Only kind := trivial

/-- A single request. -/
theorem only_ask {request : interface.Request} : (ask request done).Only kind ↔ kind request :=
  and_iff_left fun _ => trivial

/-- Every program makes requests of a kind which excludes none. -/
theorem only_of_forall (program : Program interface α) (all : ∀ request, kind request) :
    program.Only kind := by
  induction program with
  | done value => trivial
  | ask request next inductionHypothesis =>
      exact ⟨all request, inductionHypothesis⟩

/-- One of two programs. -/
theorem only_ite {condition : Prop} [Decidable condition] {yes no : Program interface α}
    (yesOnly : yes.Only kind) (noOnly : no.Only kind) :
    (if condition then yes else no).Only kind := by
  split
  · exact yesOnly
  · exact noOnly

/-- One program after another. -/
theorem Only.bind {program : Program interface α} {next : α → Program interface β}
    (first : program.Only kind) (second : ∀ value, (next value).Only kind) :
    (program >>= next).Only kind := by
  induction program with
  | done value => exact second value
  | ask request rest inductionHypothesis =>
      exact ⟨first.1, fun response => inductionHypothesis response (first.2 response)⟩

/-- The same with an error returned early. -/
theorem Only.run_bind {ε : Type} {first : ExceptT ε (Program interface) α}
    {next : α → ExceptT ε (Program interface) β} (firstOnly : first.run.Only kind)
    (nextOnly : ∀ value, (next value).run.Only kind) : (first >>= next).run.Only kind := by
  rw [ExceptT.run_bind]
  refine firstOnly.bind fun result => ?_
  cases result with
  | ok value => exact nextOnly value
  | error error => trivial

/-- A program which cannot fail. -/
theorem Only.run_lift {ε : Type} {program : Program interface α} (only : program.Only kind) :
    (liftM program : ExceptT ε (Program interface) α).run.Only kind :=
  only.bind fun _ => trivial

/-- The same for each of several items. -/
theorem Only.forM {items : List α} {body : α → Program interface PUnit}
    (bodyOnly : ∀ item, (body item).Only kind) : (items.forM body).Only kind := by
  induction items with
  | nil => trivial
  | cons item rest inductionHypothesis =>
      exact (bodyOnly item).bind fun _ => inductionHypothesis

/-- Requests of one kind are of a wider one. -/
theorem Only.weaken {program : Program interface α} (only : program.Only kind)
    (implies : ∀ request, kind request → other request) : program.Only other := by
  induction program with
  | done value => trivial
  | ask request next inductionHypothesis =>
      exact ⟨implies request only.1, fun response => inductionHypothesis response (only.2 response)⟩

/-- The requests of a translated program are those of the bodies. -/
theorem Only.translate {inner : Interface} {kind' : inner.Request → Prop}
    {body : (request : interface.Request) → Program inner (interface.Response request)}
    {program : Program interface α} (only : program.Only kind)
    (bodyOnly : ∀ request, kind request → (body request).Only kind') :
    (program.translate body).Only kind' := by
  induction program with
  | done value => trivial
  | ask request next inductionHypothesis =>
      exact (bodyOnly request only.1).bind fun response =>
        inductionHypothesis response (only.2 response)

end Program

namespace Device

variable {interface : Interface} {device : Device interface} {guard other : device.Guard}
  {α : Type} {program : Program interface α} {kind : interface.Request → Prop}
  {state finish : device.State}

/-- What every request of a kind preserves, a program of such requests preserves. -/
theorem Completes.of_only {holds : device.State → Prop} (only : program.Only kind)
    (initially : holds state)
    (answers : ∀ state request, kind request → holds state →
      ∃ choice response middle, guard state request choice ∧
        device.answer state request choice = some (response, middle))
    (preserved : ∀ state request choice response middle, kind request → holds state →
      guard state request choice → device.answer state request choice = some (response, middle) →
      holds middle) :
    device.Completes guard program state fun _ finish => holds finish := by
  induction program generalizing state with
  | done value => exact initially
  | ask request next inductionHypothesis =>
      refine ⟨answers state request only.1 initially, ?_⟩
      intro choice response middle allowed answered
      exact inductionHypothesis response (only.2 response)
        (preserved state request choice response middle only.1 initially allowed answered)

/-- Guards which agree on a kind of requests admit the same runs of a program
which makes only such requests. -/
theorem Returns.of_only {choices : List device.Choice} {value : α} (only : program.Only kind)
    (agree : ∀ state request choice, kind request → guard state request choice →
      other state request choice)
    (returns : device.Returns guard program state choices value finish) :
    device.Returns other program state choices value finish := by
  induction returns with
  | done => exact .done
  | ask allowed answered _ inductionHypothesis =>
      exact .ask (agree _ _ _ only.1 allowed) answered (inductionHypothesis (only.2 _))

/-- What the answers to a kind of requests relate, a run of such requests relates. -/
theorem Returns.relates_only {choices : List device.Choice} {value : α}
    (relation : device.State → device.State → Prop) (only : program.Only kind)
    (refl : ∀ state, relation state state)
    (trans : ∀ {first second third}, relation first second → relation second third →
      relation first third)
    (answers : ∀ {state request choice response middle}, kind request →
      guard state request choice → device.answer state request choice = some (response, middle) →
      relation state middle)
    (returns : device.Returns guard program state choices value finish) :
    relation state finish := by
  induction returns with
  | done => exact refl _
  | ask allowed answered _ inductionHypothesis =>
      exact trans (answers only.1 allowed answered) (inductionHypothesis (only.2 _))

/-! ### Partial correctness -/

/-- Whenever the program returns it is in the postcondition; it need not return. -/
def Ensures (device : Device interface) (guard : device.Guard) (program : Program interface α)
    (state : device.State) (post : α → device.State → Prop) : Prop :=
  ∀ choices value finish, device.Returns guard program state choices value finish →
    post value finish

namespace Ensures

variable {β : Type} {post post' : α → device.State → Prop}

/-- Consequence. -/
theorem weaken (ensures : device.Ensures guard program state post)
    (implies : ∀ value finish, post value finish → post' value finish) :
    device.Ensures guard program state post' := by
  intro choices value finish returns
  exact implies value finish (ensures choices value finish returns)

theorem pure {value : α} (holds : post value state) :
    device.Ensures guard (pure value) state post := by
  intro choices result finish returns
  cases returns
  exact holds

/-- One request. -/
theorem ask {request : interface.Request}
    {post : interface.Response request → device.State → Prop}
    (answers : ∀ choice response finish, guard state request choice →
      device.answer state request choice = some (response, finish) → post response finish) :
    device.Ensures guard (.ask request .done) state post := by
  intro choices response finish returns
  obtain ⟨choice, _, allowed, answered⟩ := returns.of_ask
  exact answers choice response finish allowed answered

/-- Sequencing. -/
theorem bind {next : α → Program interface β} {after : β → device.State → Prop}
    (ensures : device.Ensures guard program state fun value middle =>
      device.Ensures guard (next value) middle after) :
    device.Ensures guard (program >>= next) state after := by
  intro choices value finish returns
  obtain ⟨first, middle, between, second, _, before, rest⟩ := returns.of_bind
  exact ensures first middle between before second value finish rest

/-- Sequencing past a failure. -/
theorem run_bind {ε : Type} {first : ExceptT ε (Program interface) α}
    {next : α → ExceptT ε (Program interface) β} {after : Except ε β → device.State → Prop}
    (ensures : device.Ensures guard first.run state fun result middle =>
      match result with
      | .ok value => device.Ensures guard (next value).run middle after
      | .error error => after (.error error) middle) :
    device.Ensures guard (first >>= next).run state after := by
  rw [ExceptT.run_bind]
  refine (ensures.weaken ?_).bind
  intro result middle rest
  cases result with
  | ok value => exact rest
  | error error => exact Ensures.pure rest

/-- A program which cannot fail, in one which can. -/
theorem run_lift {ε : Type} {after : Except ε α → device.State → Prop}
    (ensures : device.Ensures guard program state fun value finish => after (.ok value) finish) :
    device.Ensures guard (liftM program : ExceptT ε (Program interface) α).run state after := by
  intro choices result finish returns
  obtain ⟨value, rfl, ran⟩ := returns.of_run_lift
  exact ensures choices value finish ran

/-- What every request of a kind preserves, a program of such requests preserves. -/
theorem of_only {holds : device.State → Prop} (only : program.Only kind) (initially : holds state)
    (preserved : ∀ state request choice response middle, kind request → holds state →
      guard state request choice → device.answer state request choice = some (response, middle) →
      holds middle) :
    device.Ensures guard program state fun _ finish => holds finish := by
  intro choices value finish returns
  refine returns.relates_only (fun before after => holds before → holds after) only
    (fun _ => id) (fun first second => second ∘ first) ?_ initially
  intro before request choice response middle ofKind allowed answered here
  exact preserved before request choice response middle ofKind here allowed answered

/-- What completes, completes in every postcondition it ensures. -/
theorem completes (ensures : device.Ensures guard program state post')
    (completes : device.Completes guard program state post) :
    device.Completes guard program state post' := by
  induction program generalizing state with
  | done value => exact ensures [] value state .done
  | ask request next inductionHypothesis =>
      refine ⟨completes.1, ?_⟩
      intro choice response middle allowed answered
      refine inductionHypothesis response ?_ (completes.2 choice response middle allowed answered)
      intro choices value finish returns
      exact ensures (choice :: choices) value finish (.ask allowed answered returns)

end Ensures

/-! ### Runs of calls -/

/-- A finished call, with the states around it. -/
structure Finished (device : Device interface) (Call Result : Type) where
  call : Call
  choices : List device.Choice
  result : Result
  before : device.State
  after : device.State

/-- The system whose steps are whole calls, one after the other. -/
abbrev calls {Call Result : Type} (device : Device interface) (guard : device.Guard)
    (initial : device.State → Prop) (body : Call → Program interface Result) :
    System (Finished device Call Result) where
  State := device.State
  Choice := Call × List device.Choice
  Initial := initial
  Step before choice events after := ∃ result,
    device.Returns guard (body choice.1) before choice.2 result after ∧
    events = [⟨choice.1, choice.2, result, before, after⟩]

/-- A run of calls stays one under weaker guards. -/
theorem calls_weaken {Call Result : Type} {initial initial' : device.State → Prop}
    {body : Call → Program interface Result}
    {admitted admitted' : device.State → Call × List device.Choice → Prop}
    {calls : List (Call × List device.Choice)} {events : List (Finished device Call Result)}
    (run : (device.calls guard initial body).Run admitted state calls events finish)
    (implies : ∀ state request choice, guard state request choice → other state request choice)
    (admits : ∀ state call, admitted state call → admitted' state call) :
    (device.calls other initial' body).Run admitted' state calls events finish := by
  have steps {before call emitted after} (allowed : admitted before call)
      (step : (device.calls guard initial body).Step before call emitted after) :
      admitted' before call ∧ (device.calls other initial' body).Step before call emitted after := by
    obtain ⟨result, returns, shape⟩ := step
    exact ⟨admits before call allowed, result, returns.weaken implies, shape⟩
  have simulated := @System.Run.simulate _ (device.calls guard initial body) admitted state finish
    calls events (device.calls other initial' body) admitted' id id steps run
  rw [← List.map_id calls]
  exact simulated

/-- Every call of a run has returned. -/
theorem calls_returned {Call Result : Type} {initial : device.State → Prop}
    {body : Call → Program interface Result}
    {admitted : device.State → Call × List device.Choice → Prop}
    {calls : List (Call × List device.Choice)} {events : List (Finished device Call Result)}
    (run : (device.calls guard initial body).Run admitted state calls events finish) :
    ∀ event ∈ events, device.Returns guard (body event.call) event.before event.choices event.result
      event.after := by
  refine run.invariant (fun _ events => ∀ event ∈ events, device.Returns guard (body event.call)
    event.before event.choices event.result event.after) (by simp) ?_
  intro before events call emitted after earlier _ step
  obtain ⟨result, returns, rfl⟩ := step
  intro event member
  rcases List.mem_append.mp member with old | new
  · exact earlier event old
  · obtain rfl := List.mem_singleton.mp new
    exact returns

/-- Play calls one after the other, each on its own script. -/
def playCalls {Call Result : Type} (device : Device interface) [Inhabited device.Choice]
    (allowed : device.State → interface.Request → device.Choice → Bool)
    (admitted : device.State → Call → Bool) (body : Call → Program interface Result) :
    device.State → List (Call × List device.Choice) →
      Option (List (Finished device Call Result) × device.State)
  | state, [] => some ([], state)
  | state, (call, script) :: rest =>
      if admitted state call then
        (device.play allowed (body call) state script).bind fun (choices, result, next) =>
          (playCalls device allowed admitted body next rest).map fun (events, finish) =>
            (⟨call, choices, result, state, next⟩ :: events, finish)
      else none

/-- Played calls are a run. -/
theorem run_of_playCalls {Call Result : Type} [Inhabited device.Choice]
    {allowed : device.State → interface.Request → device.Choice → Bool}
    {admitted : device.State → Call → Bool} (initial : device.State → Prop)
    {body : Call → Program interface Result} {script : List (Call × List device.Choice)}
    {events : List (Finished device Call Result)}
    (played : device.playCalls allowed admitted body state script = some (events, finish)) :
    (device.calls (fun state request choice => allowed state request choice = true)
      initial body).Run (fun state choice => admitted state choice.1 = true) state
      (events.map fun event => (event.call, event.choices)) events finish := by
  induction script generalizing state events with
  | nil =>
      simp only [playCalls, Option.some.injEq, Prod.mk.injEq] at played
      obtain ⟨rfl, rfl⟩ := played
      exact .refl
  | cons first rest inductionHypothesis =>
      obtain ⟨call, script⟩ := first
      simp only [playCalls] at played
      split at played
      · rename_i admits
        simp only [Option.bind_eq_some_iff, Option.map_eq_some_iff, Prod.mk.injEq] at played
        obtain ⟨⟨choices, result, next⟩, returned, ⟨later, finish'⟩, continued, rfl, rfl⟩ := played
        have step : (device.calls (fun state request choice => allowed state request choice = true)
            initial body).Step state (call, choices) [⟨call, choices, result, state, next⟩] next :=
          ⟨result, .of_play returned, rfl⟩
        have run : (device.calls (fun state request choice => allowed state request choice = true)
            initial body).Run (fun state choice => admitted state choice.1 = true) state
            [(call, choices)] [⟨call, choices, result, state, next⟩] next :=
          .single admits step
        exact run.trans (inductionHypothesis continued)
      · simp at played

/-- The same calls with the same choices have the same results. -/
theorem calls_deterministic {Call Result : Type} {initial : device.State → Prop}
    {body : Call → Program interface Result} {before after after' : device.State}
    {choice : Call × List device.Choice} {events events' : List (Finished device Call Result)}
    (first : (device.calls guard initial body).Step before choice events after)
    (second : (device.calls guard initial body).Step before choice events' after') :
    events = events' ∧ after = after' := by
  obtain ⟨result, returns, rfl⟩ := first
  obtain ⟨result', returns', rfl⟩ := second
  obtain ⟨rfl, rfl⟩ := returns.deterministic returns'
  exact ⟨rfl, rfl⟩

end Device

end Rp2350Stepper.Semantics
