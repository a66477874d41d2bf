import Rp2350Stepper.Semantics.Locking
import Mathlib.Data.Finset.Card

/-!
# Threads and semaphores

Threads share one device and call programs over its interface; their requests interleave one by
one. Some requests take a unit of a semaphore, and wait while there is none, or give one; a mutex
is a semaphore of one unit. A call owes a unit from the request with which it takes it, or
promises it, to the one with which it gives it.

`Repays` follows one program: it takes a semaphore only when it owes none of the same or of a
higher rank, and gives only what it owes. In every run of such programs the count of a semaphore,
the calls which owe and those which have ended in debt add up to the first count and the promises,
while these are within its limit (`units_accounted`). If every call waits, one of them
waits for a unit which no call in progress owes (`exists_starving`).
-/

namespace Rp2350Stepper.Semantics

/-! ### Semaphores -/

namespace Semaphore

variable {Resource : Type} [DecidableEq Resource]

/-- What a request is to the semaphores. -/
inductive Use (Resource : Type) where
  | take (resource : Resource)
  /-- Announces a unit which the call has not taken. -/
  | promise (resource : Resource)
  | give (resource : Resource)
  | aside
deriving DecidableEq, Repr

/-- The semaphores of which a call owes a unit. -/
abbrev Debts (Resource : Type) := Resource → Bool

/-- No debts. -/
def Debts.none : Debts Resource := fun _ => false

namespace Use

/-- When a call may make a request. -/
def Allowed (rank : Resource → Nat) : Use Resource → Debts Resource → Prop
  | take resource, debts => ∀ other, debts other = true → rank other < rank resource
  | promise resource, debts => debts resource = false
  | give resource, debts => debts resource = true
  | aside, _ => True

/-- What it owes after the request. -/
def after : Use Resource → Debts Resource → Debts Resource
  | take resource, debts | promise resource, debts => Function.update debts resource true
  | give resource, debts => Function.update debts resource false
  | aside, debts => debts

/-- What a request makes of the counts, which do not pass a limit. -/
def Counts (limit : Resource → Nat) : Use Resource → (before after : Resource → Nat) → Prop
  | take resource, before, after =>
      before resource ≠ 0 ∧ after = Function.update before resource (before resource - 1)
  | give resource, before, after =>
      after = Function.update before resource (min (before resource + 1) (limit resource))
  | promise _, before, after | aside, before, after => after = before

/-- Whether a request promises a unit. -/
def promises (resource : Resource) (use : Use Resource) : Bool := use = .promise resource

/-- What a call comes to owe, the count pays for, or the promise does. -/
theorem Counts.balance {rank limit : Resource → Nat} {use : Use Resource} {debts : Debts Resource}
    {before now : Resource → Nat} (counts : use.Counts limit before now)
    (allowed : use.Allowed rank debts) (resource : Resource) :
    now resource + (use.after debts resource).toNat ≤
        before resource + (debts resource).toNat + (use.promises resource).toNat ∧
      (before resource + (debts resource).toNat ≤ limit resource →
        now resource + (use.after debts resource).toNat =
          before resource + (debts resource).toNat + (use.promises resource).toNat) := by
  cases use with
  | take taken =>
      obtain ⟨unit, rfl⟩ := counts
      by_cases same : resource = taken
      · subst same
        have free : debts resource = false := by
          by_contra owed
          exact absurd (allowed resource (by simpa using owed)) (Nat.lt_irrefl _)
        simp only [after, Function.update_self, free, promises, reduceCtorEq, decide_false]
        simp only [Bool.toNat_true, Bool.toNat_false]
        omega
      · simp [after, promises, same]
  | promise promised =>
      obtain rfl : now = before := counts
      by_cases same : resource = promised
      · subst same
        have free : debts resource = false := allowed
        simp [after, promises, free]
      · have other : promised ≠ resource := fun equal => same equal.symm
        simp [after, promises, same, other]
  | give given =>
      obtain rfl : now = _ := counts
      by_cases same : resource = given
      · subst same
        have owed : debts resource = true := allowed
        simp only [after, Function.update_self, owed, promises, reduceCtorEq, decide_false]
        simp only [Bool.toNat_true, Bool.toNat_false]
        omega
      · simp [after, promises, same]
  | aside =>
      obtain rfl : now = before := counts
      simp [after, promises]

end Use
end Semaphore

/-- The semaphores of a device. -/
structure Semaphores (Resource : Type) [DecidableEq Resource] {interface : Interface}
    (device : Device interface) where
  count : device.State → Resource → Nat
  limit : Resource → Nat
  /-- The order in which a call takes several. -/
  rank : Resource → Nat
  use : interface.Request → Semaphore.Use Resource
  counts : ∀ {state request choice response after},
    device.answer state request choice = some (response, after) →
      (use request).Counts limit (count state) (count after)

/-! ### Programs -/

namespace Program

open Semaphore

variable {interface : Interface} {α β Resource : Type} [DecidableEq Resource]
  {rank : Resource → Nat} {use : interface.Request → Use Resource}

/-- Whatever it is answered, the program makes no request it may not make, and ends in the
postcondition. -/
def Repays (rank : Resource → Nat) (use : interface.Request → Use Resource) :
    Program interface α → Debts Resource → (α → Debts Resource → Prop) → Prop
  | .done result, debts, post => post result debts
  | .ask request next, debts, post => (use request).Allowed rank debts ∧
      ∀ response, Repays rank use (next response) ((use request).after debts) post

namespace Repays

variable {program : Program interface α} {debts : Debts Resource}
  {post post' : α → Debts Resource → Prop}

theorem pure {result : α} (holds : post result debts) :
    (pure result : Program interface α).Repays rank use debts post := holds

/-- One request. -/
theorem ask {request : interface.Request}
    {post : interface.Response request → Debts Resource → Prop}
    (allowed : (use request).Allowed rank debts)
    (holds : ∀ response, post response ((use request).after debts)) :
    (Program.ask request .done).Repays rank use debts post := ⟨allowed, holds⟩

/-- Sequencing. -/
theorem bind {next : α → Program interface β} {last : β → Debts Resource → Prop}
    (repays : program.Repays rank use debts fun value debts =>
      (next value).Repays rank use debts last) :
    (program >>= next).Repays rank use debts last := by
  induction program generalizing debts with
  | done value => exact repays
  | ask request rest inductionHypothesis =>
      obtain ⟨allowed, continues⟩ := repays
      exact ⟨allowed, fun response => inductionHypothesis response (continues response)⟩

/-- Consequence. -/
theorem weaken (repays : program.Repays rank use debts post)
    (implies : ∀ value debts, post value debts → post' value debts) :
    program.Repays rank use debts post' := by
  induction program generalizing debts with
  | done value => exact implies value debts repays
  | ask request rest inductionHypothesis =>
      obtain ⟨allowed, continues⟩ := repays
      exact ⟨allowed, fun response => inductionHypothesis response (continues response)⟩

/-- Sequencing past a failure. -/
theorem run_bind {ε : Type} {first : ExceptT ε (Program interface) α}
    {next : α → ExceptT ε (Program interface) β} {last : Except ε β → Debts Resource → Prop}
    (repays : first.run.Repays rank use debts fun result debts =>
      match result with
      | .ok value => (next value).run.Repays rank use debts last
      | .error error => last (.error error) debts) :
    (first >>= next).run.Repays rank use debts last := by
  rw [ExceptT.run_bind]
  refine bind (repays.weaken ?_)
  intro result debts rest
  cases result with
  | ok value => exact rest
  | error error => exact rest

/-- A program which cannot fail, in one which can. -/
theorem run_lift {ε : Type} {last : Except ε α → Debts Resource → Prop}
    (repays : program.Repays rank use debts fun value debts => last (.ok value) debts) :
    (liftM program : ExceptT ε (Program interface) α).run.Repays rank use debts last :=
  bind repays

/-- The frame rule. -/
theorem of_only (only : program.Only fun request => use request = .aside)
    (holds : ∀ value, post value debts) : program.Repays rank use debts post := by
  induction program with
  | done value => exact holds value
  | ask request rest inductionHypothesis =>
      refine ⟨by rw [only.1]; trivial, fun response => ?_⟩
      rw [only.1]
      exact inductionHypothesis response (only.2 response)

/-- A program over another interface whose requests stand for these. -/
theorem translate {inner : Interface} {use' : inner.Request → Use Resource}
    {body : (request : interface.Request) → Program inner (interface.Response request)}
    (bodies : ∀ request debts, (use request).Allowed rank debts →
      (body request).Repays rank use' debts fun _ after => after = (use request).after debts)
    (repays : program.Repays rank use debts post) :
    (program.translate body).Repays rank use' debts post := by
  induction program generalizing debts with
  | done value => exact repays
  | ask request rest inductionHypothesis =>
      obtain ⟨allowed, continues⟩ := repays
      refine bind ((bodies request debts allowed).weaken ?_)
      rintro response _ rfl
      exact inductionHypothesis response (continues response)

end Repays
end Program

/-! ### Threads -/

namespace Semaphores

open Semaphore
open Lock (Turn)

variable {interface : Interface} {device : Device interface} {Resource : Type}
  [DecidableEq Resource]

/-- The device, and of each thread in a call what it owes and what is left of the call. -/
structure Threads (device : Device interface) (Resource ThreadId Call Result : Type) where
  state : device.State
  calls : ThreadId → Option (Call × Debts Resource × Program interface Result)

/-- What is recorded of the threads. -/
inductive Event (Resource ThreadId Call Result : Type) where
  | promised (thread : ThreadId) (call : Call) (resource : Resource)
  | ended (thread : ThreadId) (call : Call) (result : Result) (debts : Debts Resource)

namespace Event

variable {ThreadId Call Result : Type}

/-- Whether a unit of this resource has been promised. -/
def isPromise (resource : Resource) : Event Resource ThreadId Call Result → Bool
  | .promised _ _ unit => unit = resource
  | .ended _ _ _ _ => false

/-- A call has ended and owes its unit for ever. -/
def isLoss (resource : Resource) : Event Resource ThreadId Call Result → Bool
  | .promised _ _ _ => false
  | .ended _ _ _ debts => debts resource

/-- A promise is a request's, and a call ends as it should. -/
def Meets (semaphores : Semaphores Resource device)
    (post : Call → Result → Debts Resource → Prop) : Event Resource ThreadId Call Result → Prop
  | .promised _ _ resource => ∃ request, semaphores.use request = .promise resource
  | .ended _ call result debts => post call result debts

end Event

variable {ThreadId Call Result : Type} [DecidableEq ThreadId]
  (semaphores : Semaphores Resource device) (body : Call → Program interface Result)

/-- What a request tells of a promise. -/
def told (thread : ThreadId) (call : Call) (request : interface.Request) :
    List (Event Resource ThreadId Call Result) :=
  match semaphores.use request with
  | .promise resource => [.promised thread call resource]
  | _ => []

/-- One thread's next step. -/
def step (threads : Threads device Resource ThreadId Call Result) :
    ThreadId × Turn device Call → Option (List (Event Resource ThreadId Call Result) ×
      Threads device Resource ThreadId Call Result)
  | (thread, .begin call) =>
      match threads.calls thread with
      | none => some ([], { threads with
          calls := Function.update threads.calls thread (some (call, Debts.none, body call)) })
      | some _ => none
  | (thread, .go choice) =>
      match threads.calls thread with
      | none => none
      | some (call, debts, .done result) =>
          some ([.ended thread call result debts],
            { threads with calls := Function.update threads.calls thread none })
      | some (call, debts, .ask request next) =>
          (device.answer threads.state request choice).map fun (response, after) =>
            (semaphores.told thread call request,
              { state := after
                calls := Function.update threads.calls thread
                  (some (call, (semaphores.use request).after debts, next response)) })

/-- The threads, from a state in which none is in a call. -/
abbrev system (ThreadId : Type) [DecidableEq ThreadId] :
    System (Event Resource ThreadId Call Result) :=
  System.ofFunction (fun threads : Threads device Resource ThreadId Call Result =>
    ∀ thread, threads.calls thread = none) (semaphores.step body)

namespace Threads

/-- What a thread owes. -/
def debts (threads : Threads device Resource ThreadId Call Result) (thread : ThreadId) :
    Debts Resource :=
  match threads.calls thread with
  | none => Debts.none
  | some (_, debts, _) => debts

/-- A thread cannot go on for want of a unit. -/
def Waits (semaphores : Semaphores Resource device)
    (threads : Threads device Resource ThreadId Call Result) (thread : ThreadId)
    (resource : Resource) : Prop :=
  ∃ call debts request next, threads.calls thread = some (call, debts, .ask request next) ∧
    semaphores.use request = .take resource ∧ semaphores.count threads.state resource = 0

/-- What is left of each call repays what it owes. -/
def Solvent (semaphores : Semaphores Resource device)
    (post : Call → Result → Debts Resource → Prop)
    (threads : Threads device Resource ThreadId Call Result) : Prop :=
  ∀ thread call debts program, threads.calls thread = some (call, debts, program) →
    program.Repays semaphores.rank semaphores.use debts (post call)

/-- The calls which owe a unit of a semaphore are the debtors, and each unit is accounted for. -/
def Accounted (semaphores : Semaphores Resource device) (resource : Resource) (first : Nat)
    (threads : Threads device Resource ThreadId Call Result)
    (events : List (Event Resource ThreadId Call Result)) : Prop :=
  ∃ debtors : Finset ThreadId,
    (∀ thread, thread ∈ debtors ↔ threads.debts thread resource = true) ∧
    semaphores.count threads.state resource + debtors.card +
        events.countP (Event.isLoss resource) ≤
      first + events.countP (Event.isPromise resource) ∧
    (first + events.countP (Event.isPromise resource) ≤ semaphores.limit resource →
      semaphores.count threads.state resource + debtors.card +
          events.countP (Event.isLoss resource) =
        first + events.countP (Event.isPromise resource))

end Threads

/-! ### Runs -/

section Steps

variable {semaphores} {body} {threads next : Threads device Resource ThreadId Call Result}
  {thread : ThreadId} {post : Call → Result → Debts Resource → Prop} {resource : Resource}

omit [DecidableEq Resource] in
/-- One thread comes to owe, or owes no longer, and the others owe what they did. -/
private theorem debtors_update {debtors : Finset ThreadId} {state : device.State} {owing : Bool}
    (slot : Option (Call × Debts Resource × Program interface Result))
    (exactly : ∀ thread, thread ∈ debtors ↔ threads.debts thread resource = true)
    (slots : (slot.map fun call => call.2.1 resource).getD false = owing) :
    ∃ after : Finset ThreadId,
      (∀ other, other ∈ after ↔ ({
        state := state
        calls := Function.update threads.calls thread slot } :
          Threads device Resource ThreadId Call Result).debts other resource = true) ∧
      after.card + (threads.debts thread resource).toNat = debtors.card + owing.toNat ∧
      (threads.debts thread resource).toNat ≤ debtors.card := by
  have now : ∀ other, (⟨state, Function.update threads.calls thread slot⟩ :
      Threads device Resource ThreadId Call Result).debts other resource =
        if other = thread then owing else threads.debts other resource := by
    intro other
    unfold Threads.debts
    by_cases same : other = thread
    · subst same
      rw [← slots, if_pos rfl]
      simp only [Function.update_self]
      cases slot <;> rfl
    · rw [if_neg same]
      simp only [Function.update_of_ne same]
  have before : (debtors.erase thread).card + (threads.debts thread resource).toNat =
      debtors.card := by
    cases owed : threads.debts thread resource with
    | true => exact Finset.card_erase_add_one ((exactly thread).mpr owed)
    | false => rw [Finset.erase_eq_of_notMem (by simp [exactly, owed])]; rfl
  cases owing with
  | true =>
      refine ⟨insert thread (debtors.erase thread), fun other => ?_, ?_, by omega⟩
      · by_cases same : other = thread <;> simp [now, exactly, same]
      · rw [Finset.card_insert_of_notMem (Finset.notMem_erase thread debtors)]
        simp only [Bool.toNat_true]
        omega
  | false =>
      refine ⟨debtors.erase thread, fun other => ?_, before, by omega⟩
      by_cases same : other = thread <;> simp [now, exactly, same]

omit [DecidableEq ThreadId] in
/-- A request tells of the promises it makes, and of no loss. -/
private theorem countP_told (call : Call) (request : interface.Request) :
    (semaphores.told thread call request :
        List (Event Resource ThreadId Call Result)).countP (Event.isPromise resource) =
      ((semaphores.use request).promises resource).toNat ∧
    (semaphores.told thread call request :
        List (Event Resource ThreadId Call Result)).countP (Event.isLoss resource) = 0 := by
  unfold told
  cases semaphores.use request with
  | promise promised =>
      by_cases same : promised = resource <;>
        simp [Event.isPromise, Event.isLoss, Use.promises, same]
  | _ => simp [Use.promises]

/-- What a step can be: a thread begins a call, ends one, or makes a request. -/
private theorem step_cases {turn : Turn device Call}
    {emitted : List (Event Resource ThreadId Call Result)}
    (stepped : semaphores.step body threads (thread, turn) = some (emitted, next)) :
    (∃ call, threads.calls thread = none ∧ emitted = [] ∧ next = { threads with
      calls := Function.update threads.calls thread (some (call, Debts.none, body call)) }) ∨
    (∃ call debts result, threads.calls thread = some (call, debts, .done result) ∧
      emitted = [.ended thread call result debts] ∧
      next = { threads with calls := Function.update threads.calls thread none }) ∨
    ∃ call debts request rest choice response after,
      threads.calls thread = some (call, debts, .ask request rest) ∧
      device.answer threads.state request choice = some (response, after) ∧
      emitted = semaphores.told thread call request ∧
      next = ⟨after, Function.update threads.calls thread
        (some (call, (semaphores.use request).after debts, rest response))⟩ := by
  cases turn with
  | begin call =>
      cases here : threads.calls thread with
      | some other => simp [step, here] at stepped
      | none =>
          simp only [step, here, Option.some.injEq, Prod.mk.injEq] at stepped
          exact .inl ⟨call, rfl, stepped.1.symm, stepped.2.symm⟩
  | go choice =>
      cases here : threads.calls thread with
      | none => simp [step, here] at stepped
      | some slot =>
          obtain ⟨call, debts, program⟩ := slot
          cases program with
          | done result =>
              simp only [step, here, Option.some.injEq, Prod.mk.injEq] at stepped
              exact .inr (.inl ⟨call, debts, result, rfl, stepped.1.symm, stepped.2.symm⟩)
          | ask request rest =>
              simp only [step, here, Option.map_eq_some_iff, Prod.mk.injEq] at stepped
              obtain ⟨⟨response, after⟩, answered, told, same⟩ := stepped
              exact .inr (.inr ⟨call, debts, request, rest, choice, response, after, rfl, answered,
                told.symm, same.symm⟩)

/-- One step keeps the accounts, whatever the threads are in the middle of. -/
private theorem accounted_step {first : Nat} {turn : Turn device Call}
    {events emitted : List (Event Resource ThreadId Call Result)}
    (accounted : threads.Accounted semaphores resource first events)
    (solvent : threads.Solvent semaphores post)
    (stepped : semaphores.step body threads (thread, turn) = some (emitted, next)) :
    next.Accounted semaphores resource first (events ++ emitted) := by
  obtain ⟨debtors, exactly, total, accounted⟩ := accounted
  rcases step_cases stepped with ⟨call, here, rfl, rfl⟩ | ⟨call, debts, result, here, rfl, rfl⟩ |
    ⟨call, debts, request, rest, choice, response, after, here, answered, rfl, rfl⟩
  · have owed : threads.debts thread resource = false := by
      simp [Threads.debts, here, Debts.none]
    obtain ⟨debtors', exactly', card, _⟩ :=
      debtors_update (some (call, Debts.none, body call)) exactly rfl
    refine ⟨debtors', exactly', ?_⟩
    rw [owed] at card
    rw [List.append_nil]
    simp only [Option.map_some, Option.getD_some, Debts.none, Bool.toNat_false,
      Nat.add_zero] at card
    rw [card]
    exact ⟨total, accounted⟩
  · have owed : threads.debts thread resource = debts resource := by simp [Threads.debts, here]
    obtain ⟨debtors', exactly', card, member⟩ := debtors_update none exactly rfl
    refine ⟨debtors', exactly', ?_⟩
    rw [owed] at card member
    cases owes : debts resource <;>
      simp [Event.isLoss, Event.isPromise, owes] at card ⊢ <;> omega
  · have owed : threads.debts thread resource = debts resource := by simp [Threads.debts, here]
    obtain ⟨allowed, _⟩ := solvent thread call debts _ here
    have paid := (semaphores.counts answered).balance allowed resource
    obtain ⟨debtors', exactly', card, member⟩ := debtors_update
      (some (call, (semaphores.use request).after debts, rest response)) exactly rfl
    refine ⟨debtors', exactly', ?_⟩
    rw [owed] at card member
    simp only [Option.map_some, Option.getD_some] at card
    obtain ⟨promises, losses⟩ := @countP_told _ _ _ _ ThreadId Call Result
      semaphores thread resource call request
    simp only [List.countP_append, promises, losses]
    omega

/-- One step keeps what is left of every call. -/
private theorem solvent_step {turn : Turn device Call}
    {emitted : List (Event Resource ThreadId Call Result)}
    (bodies : ∀ call,
      (body call).Repays semaphores.rank semaphores.use Debts.none (post call))
    (solvent : threads.Solvent semaphores post)
    (stepped : semaphores.step body threads (thread, turn) = some (emitted, next)) :
    next.Solvent semaphores post ∧ ∀ event ∈ emitted, event.Meets semaphores post := by
  -- A step writes one thread's slot.
  have kept : ∀ {state slot}, (∀ call debts program, slot = some (call, debts, program) →
      program.Repays semaphores.rank semaphores.use debts (post call)) →
      Threads.Solvent semaphores post ⟨state, Function.update threads.calls thread slot⟩ := by
    intro state slot here other call debts program running
    by_cases same : other = thread
    · subst same
      exact here call debts program (by simpa using running)
    · exact solvent other call debts program (by simpa [same] using running)
  rcases step_cases stepped with ⟨call, here, rfl, rfl⟩ | ⟨call, debts, result, here, rfl, rfl⟩ |
    ⟨call, debts, request, rest, choice, response, after, here, answered, rfl, rfl⟩
  · refine ⟨kept ?_, by simp⟩
    rintro _ _ _ ⟨⟩
    exact bodies call
  · refine ⟨kept (by rintro _ _ _ ⟨⟩), ?_⟩
    rintro event member
    obtain rfl := List.mem_singleton.mp member
    exact solvent thread call debts _ here
  · refine ⟨kept ?_, ?_⟩
    · rintro _ _ _ ⟨⟩
      exact (solvent thread call debts _ here).2 response
    · unfold told
      cases used : semaphores.use request with
      | promise resource =>
          intro event member
          obtain rfl := List.mem_singleton.mp member
          exact ⟨request, used⟩
      | _ => simp

end Steps

section Runs

variable {ThreadId : Type} [DecidableEq ThreadId] {semaphores} {body}
  {start finish : Threads device Resource ThreadId Call Result}
  {choices : List (ThreadId × Turn device Call)}
  {events : List (Event Resource ThreadId Call Result)}
  {post : Call → Result → Debts Resource → Prop}

/-- In every run of threads whose calls repay what they owe, the units of each semaphore are
accounted for, every call ends as it should, and what is left of the others repays. -/
theorem units_accounted
    (bodies : ∀ call,
      (body call).Repays semaphores.rank semaphores.use Debts.none (post call))
    (initial : ∀ thread, start.calls thread = none)
    (run : (semaphores.system body ThreadId).Run (System.unguarded _) start choices events finish) :
    (∀ resource, finish.Accounted semaphores resource (semaphores.count start.state resource)
      events) ∧ finish.Solvent semaphores post ∧ ∀ event ∈ events, event.Meets semaphores post := by
  refine run.invariant (fun (threads : Threads device Resource ThreadId Call Result) events =>
    (∀ resource, threads.Accounted semaphores resource (semaphores.count start.state resource)
      events) ∧ threads.Solvent semaphores post ∧
    ∀ event ∈ events, event.Meets semaphores post) ?_ ?_
  · refine ⟨fun resource => ⟨∅, fun thread => ?_, by simp⟩, ?_, by simp⟩
    · simp [Threads.debts, initial thread, Debts.none]
    · intro thread call debts program running
      simp [initial thread] at running
  · rintro threads events ⟨thread, turn⟩ emitted next ⟨accounted, solvent, met⟩ _ stepped
    obtain ⟨solvent', here⟩ := solvent_step bodies solvent stepped
    refine ⟨fun resource => accounted_step (accounted resource) solvent stepped, solvent', ?_⟩
    intro event member
    exact (List.mem_append.mp member).elim (met event) (here event)

end Runs

/-! ### No circle of waiting calls -/

section Waiting

variable {semaphores} {threads : Threads device Resource ThreadId Call Result}
  {post : Call → Result → Debts Resource → Prop}

omit [DecidableEq ThreadId] in
/-- If every call waits, then behind each there is one which waits for a unit that no call in
progress owes: for the same semaphore, or for one of a higher rank. -/
theorem exists_starving {bound : Nat} (bounded : ∀ resource, semaphores.rank resource ≤ bound)
    (solvent : threads.Solvent semaphores post)
    (waiting : ∀ thread, threads.calls thread ≠ none →
      ∃ resource, threads.Waits semaphores thread resource)
    {thread : ThreadId} {resource : Resource} (waits : threads.Waits semaphores thread resource) :
    ∃ starved wanted, threads.Waits semaphores starved wanted ∧
      (∀ other, threads.debts other wanted = false) ∧
      (wanted = resource ∨ semaphores.rank resource < semaphores.rank wanted) := by
  -- Each call behind which there is another waits for a semaphore of a higher rank.
  generalize left : bound - semaphores.rank resource = distance
  induction distance using Nat.strong_induction_on generalizing thread resource with
  | _ distance inductionHypothesis =>
      by_cases owed : ∃ other, threads.debts other resource = true
      · obtain ⟨other, owes⟩ := owed
        have inside : threads.calls other ≠ none := by
          intro idle
          simp [Threads.debts, idle, Debts.none] at owes
        obtain ⟨wanted, waits'⟩ := waiting other inside
        obtain ⟨call, debts, request, next, running, takes, _⟩ := id waits'
        obtain ⟨allowed, _⟩ := solvent other call debts _ running
        rw [takes] at allowed
        have higher : semaphores.rank resource < semaphores.rank wanted :=
          allowed resource (by simpa [Threads.debts, running] using owes)
        have within := bounded wanted
        obtain ⟨starved, last, starves, free, above⟩ :=
          inductionHypothesis _ (by omega) waits' rfl
        refine ⟨starved, last, starves, free, .inr ?_⟩
        rcases above with rfl | above
        · exact higher
        · exact higher.trans above
      · refine ⟨thread, resource, waits, fun other => ?_, .inl rfl⟩
        by_contra owes
        exact owed ⟨other, by simpa using owes⟩

end Waiting
end Semaphores
end Rp2350Stepper.Semantics
