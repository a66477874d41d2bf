import Rp2350Stepper.Semantics.Program

/-!
# Threads and a lock

Threads share one device and call programs over its interface, at any time and as often as
they like. Their requests interleave one by one; a thread which asks for the lock waits until
nobody holds it.

The lock guards a part of the device's state. `Disciplined` follows one program and what it
knows of the guarded part: nothing until it has the lock, the value it has left there while it
holds it. A program which makes guarded requests only while it holds the lock, and only where
they are permitted, does so in every run, whatever the others do (`accesses_permitted`).
-/

namespace Rp2350Stepper.Semantics

/-- What a request is to a lock. -/
inductive Lock.Role where
  | acquire
  | release
  /-- Needs the lock. -/
  | guarded
  /-- May be made without it. -/
  | outside
deriving DecidableEq, Repr

/-- A lock over a part of a device's state. -/
structure Lock {interface : Interface} (device : Device interface) where
  Value : Type
  value : device.State → Value
  role : interface.Request → Lock.Role
  /-- Requests outside the lock leave the guarded part alone. -/
  outside_value : ∀ {state request choice response after}, role request = .outside →
    device.answer state request choice = some (response, after) → value after = value state

namespace Lock

variable {interface : Interface} {device : Device interface} (lock : Lock device) {α β : Type}
  {permits : interface.Request → lock.Value → Prop}

/-! ### Programs -/

/-- Whatever the others do while the lock is free, the program makes only permitted requests,
and ends in the postcondition. -/
def Disciplined (permits : interface.Request → lock.Value → Prop) :
    Program interface α → Option lock.Value → (α → Option lock.Value → Prop) → Prop
  | .done result, held, post => post result held
  | .ask request next, none, post =>
      match lock.role request with
      | .acquire => ∀ response value, Disciplined permits (next response) (some value) post
      | .outside => ∀ response, Disciplined permits (next response) none post
      | .release | .guarded => False
  | .ask request next, some value, post =>
      match lock.role request with
      | .acquire => False
      | .release => ∀ response, Disciplined permits (next response) none post
      | .outside => ∀ response, Disciplined permits (next response) (some value) post
      | .guarded => permits request value ∧ ∀ state choice response after,
          lock.value state = value → device.answer state request choice = some (response, after) →
          Disciplined permits (next response) (some (lock.value after)) post

namespace Disciplined

variable {lock} {program : Program interface α} {held : Option lock.Value} {value : lock.Value}
  {post post' : α → Option lock.Value → Prop}

theorem pure {result : α} (holds : post result held) :
    lock.Disciplined permits (pure result) held post := holds

/-! One request of each role, and what follows it. -/

section Requests

variable {request : interface.Request} {next : interface.Response request → Program interface α}

/-- A lock which is not held is acquired. -/
theorem acquire (role : lock.role request = .acquire)
    (continues : ∀ response value, lock.Disciplined permits (next response) (some value) post) :
    lock.Disciplined permits (.ask request next) none post := by
  simpa only [Disciplined, role] using continues

/-- It was not held, and then it is. -/
theorem of_acquire (disciplined : lock.Disciplined permits (.ask request next) held post)
    (role : lock.role request = .acquire) : held = none ∧
      ∀ response value, lock.Disciplined permits (next response) (some value) post := by
  cases held with
  | none => exact ⟨rfl, by simpa only [Disciplined, role] using disciplined⟩
  | some value => simp [Disciplined, role] at disciplined

/-- A lock which is held is released. -/
theorem release (role : lock.role request = .release)
    (continues : ∀ response, lock.Disciplined permits (next response) none post) :
    lock.Disciplined permits (.ask request next) (some value) post := by
  simpa only [Disciplined, role] using continues

/-- It was held, and then it is not. -/
theorem of_release (disciplined : lock.Disciplined permits (.ask request next) held post)
    (role : lock.role request = .release) : ∃ value, held = some value ∧
      ∀ response, lock.Disciplined permits (next response) none post := by
  cases held with
  | none => simp [Disciplined, role] at disciplined
  | some value => exact ⟨value, rfl, by simpa only [Disciplined, role] using disciplined⟩

/-- What the lock guards is done while it is held. -/
theorem guarded (role : lock.role request = .guarded) (permitted : permits request value)
    (continues : ∀ state choice response after, lock.value state = value →
      device.answer state request choice = some (response, after) →
      lock.Disciplined permits (next response) (some (lock.value after)) post) :
    lock.Disciplined permits (.ask request next) (some value) post := by
  simp only [Disciplined, role]
  exact ⟨permitted, continues⟩

/-- It was held, and is still. -/
theorem of_guarded (disciplined : lock.Disciplined permits (.ask request next) held post)
    (role : lock.role request = .guarded) : ∃ value, held = some value ∧ permits request value ∧
      ∀ state choice response after, lock.value state = value →
        device.answer state request choice = some (response, after) →
        lock.Disciplined permits (next response) (some (lock.value after)) post := by
  cases held with
  | none => simp [Disciplined, role] at disciplined
  | some value => exact ⟨value, rfl, by simpa only [Disciplined, role] using disciplined⟩

/-- Anything else may be done. -/
theorem outside (role : lock.role request = .outside)
    (continues : ∀ response, lock.Disciplined permits (next response) held post) :
    lock.Disciplined permits (.ask request next) held post := by
  cases held <;> simpa only [Disciplined, role] using continues

/-- It changes nothing of the lock. -/
theorem of_outside (disciplined : lock.Disciplined permits (.ask request next) held post)
    (role : lock.role request = .outside) :
    ∀ response, lock.Disciplined permits (next response) held post := by
  cases held <;> simpa only [Disciplined, role] using disciplined

end Requests

/-- Sequencing. -/
theorem bind {next : α → Program interface β} {after : β → Option lock.Value → Prop}
    (disciplined : lock.Disciplined permits program held post)
    (continues : ∀ result held, post result held →
      lock.Disciplined permits (next result) held after) :
    lock.Disciplined permits (program >>= next) held after := by
  induction program generalizing held with
  | done result => exact continues result held disciplined
  | ask request rest inductionHypothesis =>
      have opened : (Program.ask request rest >>= next) =
          .ask request fun response => rest response >>= next := rfl
      rw [opened]
      cases role : lock.role request with
      | acquire =>
          obtain ⟨rfl, goes⟩ := disciplined.of_acquire role
          exact acquire role fun response value => inductionHypothesis response (goes response value)
      | release =>
          obtain ⟨value, rfl, goes⟩ := disciplined.of_release role
          exact release role fun response => inductionHypothesis response (goes response)
      | guarded =>
          obtain ⟨value, rfl, permitted, goes⟩ := disciplined.of_guarded role
          apply guarded role permitted
          intro state choice response after here answered
          exact inductionHypothesis response (goes state choice response after here answered)
      | outside =>
          exact outside role fun response =>
            inductionHypothesis response (disciplined.of_outside role response)

/-- Consequence. -/
theorem weaken (disciplined : lock.Disciplined permits program held post)
    (implies : ∀ result held, post result held → post' result held) :
    lock.Disciplined permits program held post' := by
  have extended : lock.Disciplined permits (program >>= Pure.pure) held post' :=
    disciplined.bind implies
  rwa [bind_pure] at extended

/-- Sequencing past a failure. -/
theorem run_bind {ε : Type} {first : ExceptT ε (Program interface) α}
    {next : α → ExceptT ε (Program interface) β} {post : Except ε α → Option lock.Value → Prop}
    {after : Except ε β → Option lock.Value → Prop}
    (disciplined : lock.Disciplined permits first.run held post)
    (continues : ∀ result held, post (.ok result) held →
      lock.Disciplined permits (next result).run held after)
    (fails : ∀ error held, post (.error error) held → after (.error error) held) :
    lock.Disciplined permits (first >>= next).run held after := by
  rw [ExceptT.run_bind]
  apply disciplined.bind
  intro outcome held here
  cases outcome with
  | ok result => exact continues result held here
  | error error => exact fails error held here

/-- A program which cannot fail, in one which can. -/
theorem run_lift {ε : Type} {after : Except ε α → Option lock.Value → Prop}
    (disciplined : lock.Disciplined permits program held fun result held => after (.ok result) held) :
    lock.Disciplined permits (liftM program : ExceptT ε (Program interface) α).run held after :=
  disciplined.bind fun _ _ here => here

/-- The frame rule: what makes only requests outside the lock keeps what is known. -/
theorem of_only (only : program.Only fun request => lock.role request = .outside)
    (holds : ∀ result, post result held) : lock.Disciplined permits program held post := by
  induction program with
  | done result => exact holds result
  | ask request next inductionHypothesis =>
      exact outside only.1 fun response => inductionHypothesis response (only.2 response)

end Disciplined

/-! ### Threads -/

/-- The device, who holds the lock, and what is left of each thread's call. -/
structure Threads (lock : Lock device) (ThreadId Call : Type) where
  state : device.State
  holder : Option ThreadId
  calls : ThreadId → Option (Call × Program interface Unit)

/-- A thread begins a call, or goes on with it. -/
inductive Turn (device : Device interface) (Call : Type) where
  | begin (call : Call)
  | go (choice : device.Choice)

/-- A request a thread makes, and the state it finds. -/
structure Access (device : Device interface) (ThreadId Call : Type) where
  thread : ThreadId
  call : Call
  request : interface.Request
  choice : device.Choice
  before : device.State

variable {ThreadId Call : Type} [DecidableEq ThreadId] (body : Call → Program interface Unit)

/-- A request which needs the lock is permitted where it is made. -/
def Access.Permitted (permits : Call → interface.Request → lock.Value → Prop)
    (access : Access device ThreadId Call) : Prop :=
  lock.role access.request = .guarded →
    permits access.call access.request (lock.value access.before)

/-- Who holds the lock after a request. -/
def holderAfter (holder : Option ThreadId) (thread : ThreadId) (request : interface.Request) :
    Option ThreadId :=
  match lock.role request with
  | .acquire => some thread
  | .release => if holder = some thread then none else holder
  | .guarded | .outside => holder

/-- One thread's next step; nobody takes a lock which is held. -/
def step (threads : lock.Threads ThreadId Call) :
    ThreadId × Turn device Call → Option (List (Access device ThreadId Call) × lock.Threads ThreadId Call)
  | (thread, .begin call) =>
      match threads.calls thread with
      | none => some ([], { threads with
          calls := Function.update threads.calls thread (some (call, body call)) })
      | some _ => none
  | (thread, .go choice) =>
      match threads.calls thread with
      | none => none
      | some (_, .done _) =>
          some ([], { threads with calls := Function.update threads.calls thread none })
      | some (call, .ask request next) =>
          if lock.role request = .acquire ∧ threads.holder.isSome then none
          else (device.answer threads.state request choice).map fun (response, after) =>
            ([⟨thread, call, request, choice, threads.state⟩],
              { state := after
                holder := lock.holderAfter threads.holder thread request
                calls := Function.update threads.calls thread (some (call, next response)) })

/-- The threads, from a state in which none is in a call and the lock is free. -/
abbrev system (ThreadId : Type) [DecidableEq ThreadId] :
    System (Access device ThreadId Call) :=
  System.ofFunction (fun threads : lock.Threads ThreadId Call =>
    threads.holder = none ∧ ∀ thread, threads.calls thread = none) (lock.step body)

/-! ### Runs -/

namespace Threads

variable {lock} {body} {threads next : lock.Threads ThreadId Call} {thread : ThreadId}
  {permits : Call → interface.Request → lock.Value → Prop}

/-- What a thread knows of the guarded part. -/
def held (threads : lock.Threads ThreadId Call) (thread : ThreadId) : Option lock.Value :=
  if threads.holder = some thread then some (lock.value threads.state) else none

/-- The holder knows what the lock guards. -/
theorem held_holder (holds : threads.holder = some thread) :
    threads.held thread = some (lock.value threads.state) := if_pos holds

/-- Nobody else does. -/
theorem held_other (other : threads.holder ≠ some thread) : threads.held thread = none :=
  if_neg other

/-- Who knows a value is the holder, and that is the value. -/
theorem held_eq_some {value : lock.Value} : threads.held thread = some value ↔
    threads.holder = some thread ∧ lock.value threads.state = value := by
  unfold held
  split <;> simp_all

/-- What is left of a thread's call is disciplined from what the thread knows, and it ends
without the lock. -/
def Settled (permits : Call → interface.Request → lock.Value → Prop)
    (threads : lock.Threads ThreadId Call) (thread : ThreadId) : Prop :=
  match threads.calls thread with
  | none => threads.held thread = none
  | some (call, program) =>
      lock.Disciplined (permits call) program (threads.held thread) fun _ held => held = none

/-- A step which leaves a thread's call and what it knows leaves it settled. -/
theorem Settled.keep (settled : threads.Settled permits thread)
    (calls : next.calls thread = threads.calls thread)
    (held : next.held thread = threads.held thread) : next.Settled permits thread := by
  unfold Settled at settled ⊢
  rwa [calls, held]

/-- A request takes its thread on, and leaves what the others know. -/
private theorem request_held {mover : ThreadId} {call : Call} {request : interface.Request}
    {rest : interface.Response request → Program interface Unit} {choice : device.Choice}
    {response : interface.Response request} {after : device.State}
    (disciplined : lock.Disciplined (permits call) (.ask request rest) (threads.held mover)
      fun _ held => held = none)
    (free : lock.role request = .acquire → threads.holder = none)
    (answered : device.answer threads.state request choice = some (response, after))
    (state : next.state = after)
    (holder : next.holder = lock.holderAfter threads.holder mover request) :
    lock.Disciplined (permits call) (rest response) (next.held mover) (fun _ held => held = none) ∧
      (∀ other, other ≠ mover → next.held other = threads.held other) ∧
      (lock.role request = .guarded → permits call request (lock.value threads.state)) := by
  unfold holderAfter at holder
  cases role : lock.role request <;> simp only [role] at holder
  · have continues := (disciplined.of_acquire role).2
    refine ⟨?_, fun other distinct => ?_, nofun⟩
    · rw [held_holder holder]
      exact continues response _
    · have ignorant : threads.holder ≠ some other := by simp [free role]
      rw [held_other ignorant, held_other]
      exact fun same => distinct (Option.some.inj (same.symm.trans holder))
  · obtain ⟨value, known, continues⟩ := disciplined.of_release role
    obtain ⟨holds, rfl⟩ := held_eq_some.mp known
    have freed (other) : next.held other = none := held_other (by simp [holder, holds])
    refine ⟨?_, fun other distinct => ?_, nofun⟩
    · rw [freed]
      exact continues response
    · rw [freed, held_other]
      exact fun same => distinct (Option.some.inj (same.symm.trans holds))
  · obtain ⟨value, known, permitted, continues⟩ := disciplined.of_guarded role
    obtain ⟨holds, rfl⟩ := held_eq_some.mp known
    refine ⟨?_, fun other distinct => ?_, fun _ => permitted⟩
    · rw [held_holder (holder.trans holds), state]
      exact continues _ choice response after rfl answered
    · have ignorant : threads.holder ≠ some other :=
        fun same => distinct (Option.some.inj (same.symm.trans holds))
      rw [held_other ignorant]
      exact held_other (holder ▸ ignorant)
  · have same (other) : next.held other = threads.held other := by
      unfold held
      rw [holder, state, lock.outside_value role answered]
    refine ⟨?_, fun other _ => same other, nofun⟩
    rw [same]
    exact disciplined.of_outside role response

/-- One step keeps every thread settled, and makes only permitted requests. -/
theorem settled_step
    (disciplined : ∀ call, lock.Disciplined (permits call) (body call) none
      fun _ held => held = none)
    {choice : ThreadId × Turn device Call} {accesses : List (Access device ThreadId Call)}
    (settled : ∀ thread, threads.Settled permits thread)
    (stepped : lock.step body threads choice = some (accesses, next)) :
    (∀ thread, next.Settled permits thread) ∧ ∀ access ∈ accesses,
      access.Permitted lock permits := by
  obtain ⟨mover, turn⟩ := choice
  have here := settled mover
  unfold Settled at here
  -- What the mover leaves behind; the others keep their calls.
  have collect {entry : Option (Call × Program interface Unit)}
      (calls : next.calls = Function.update threads.calls mover entry)
      (others : ∀ other, other ≠ mover → next.held other = threads.held other)
      (moved : next.Settled permits mover) : ∀ thread, next.Settled permits thread := by
    intro thread
    by_cases own : thread = mover
    · exact own ▸ moved
    · exact (settled thread).keep (by rw [calls, Function.update_of_ne own]) (others thread own)
  cases turn with
  | begin call =>
      cases calls : threads.calls mover with
      | some => simp [step, calls] at stepped
      | none =>
          simp only [calls] at here
          simp only [step, calls, Option.some.injEq, Prod.mk.injEq] at stepped
          obtain ⟨rfl, rfl⟩ := stepped
          refine ⟨collect rfl (fun _ _ => rfl) ?_, by simp⟩
          simp only [Settled, Function.update_self]
          exact here.symm ▸ disciplined call
  | go choice =>
      cases calls : threads.calls mover with
      | none => simp [step, calls] at stepped
      | some entry =>
          obtain ⟨call, program⟩ := entry
          simp only [calls] at here
          cases program with
          | done result =>
              simp only [step, calls, Option.some.injEq, Prod.mk.injEq] at stepped
              obtain ⟨rfl, rfl⟩ := stepped
              refine ⟨collect rfl (fun _ _ => rfl) ?_, by simp⟩
              simp only [Settled, Function.update_self]
              exact here
          | ask request rest =>
              simp only [step, calls, Option.ite_none_left_eq_some, Option.map_eq_some_iff,
                Prod.mk.injEq] at stepped
              obtain ⟨free, ⟨response, after⟩, answered, rfl, reached⟩ := stepped
              have unheld (acquires : lock.role request = .acquire) : threads.holder = none := by
                simpa [acquires] using free
              obtain ⟨continues, others, permitted⟩ := request_held here unheld answered
                (congrArg Threads.state reached.symm) (congrArg Threads.holder reached.symm)
              refine ⟨collect (congrArg Threads.calls reached.symm) others ?_, ?_⟩
              · simp only [Settled, ← reached, Function.update_self]
                simpa only [← reached] using continues
              · intro access member
                rw [List.mem_singleton.mp member]
                exact permitted

end Threads

/-- In every run, every guarded request is permitted where it is made. -/
theorem accesses_permitted {permits : Call → interface.Request → lock.Value → Prop}
    (disciplined : ∀ call, lock.Disciplined (permits call) (body call) none
      fun _ held => held = none)
    {start finish : lock.Threads ThreadId Call} {choices : List (ThreadId × Turn device Call)}
    {accesses : List (Access device ThreadId Call)}
    (initially : (lock.system body ThreadId).Initial start)
    (run : (lock.system body ThreadId).Run (System.unguarded _) start choices accesses finish) :
    ∀ access ∈ accesses, access.Permitted lock permits := by
  refine (run.invariant (fun threads accesses =>
    (∀ thread, Threads.Settled permits threads thread) ∧
      ∀ access ∈ accesses, Access.Permitted lock permits access) ?_ ?_).2
  · obtain ⟨free, idle⟩ := initially
    refine ⟨fun thread => ?_, by simp⟩
    simp only [Threads.Settled, idle]
    exact Threads.held_other (by simp [free])
  · rintro threads accesses choice emitted next ⟨settled, earlier⟩ _ stepped
    obtain ⟨settled', now⟩ := Threads.settled_step disciplined settled stepped
    refine ⟨settled', fun access member => ?_⟩
    exact (List.mem_append.mp member).elim (earlier access) (now access)

end Lock
end Rp2350Stepper.Semantics
