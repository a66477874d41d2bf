import Rp2350Stepper.Semantics.Program

/-!
# Threads which share a device

Each thread runs a client program whose requests are calls; a call is implemented by a
program over the interface of one shared device. The threads take turns at single device
requests. Some of these open a call: from its first opening request to its return a call
relies on the others to open nothing.

`Secure` is the weakest precondition of a call under interference: between its requests
the others may do anything before the call is open and only what leaves the device as it
was afterwards. `Run.ended_of_secure` takes it to runs in which no request opens a call
while another is open.
-/

namespace Rp2350Stepper.Semantics

/-- The calls of `outer` as programs over the interface of `device`. -/
structure Implementation (outer : Interface) {inner : Interface} (device : Device inner) where
  body : (call : outer.Request) → Program inner (outer.Response call)
  /-- The requests which open a call. -/
  opens : inner.Request → Bool
  /-- What a call's first opening request relies on. -/
  ready : device.State → Prop

namespace Implementation

variable {outer inner : Interface} {device : Device inner}
  (implementation : Implementation outer device)

/-- Where a thread is: between calls, or inside one. -/
inductive Thread (outer : Interface) {inner : Interface} (device : Device inner) where
  | between (client : Program outer Unit)
  /-- `before` is the state the call has begun in, `opened` the one it has opened in. -/
  | inside (call : outer.Request) (client : outer.Response call → Program outer Unit)
      (program : Program inner (outer.Response call)) (before : device.State)
      (opened : Option device.State)

/-- Whether a thread is inside an open call. -/
def Thread.isOpen : Thread outer device → Bool
  | .between _ => false
  | .inside _ _ _ _ opened => opened.isSome

/-- A call which has returned. -/
structure Ended (outer : Interface) {inner : Interface} (device : Device inner) where
  call : outer.Request
  result : outer.Response call
  before : device.State
  opened : Option device.State
  after : device.State

/-- The device, and every thread. -/
structure Shared (ThreadId : Type) (outer : Interface) {inner : Interface} (device : Device inner) where
  state : device.State
  threads : ThreadId → Thread outer device

variable {ThreadId : Type} [DecidableEq ThreadId]

/-- One thread's next step: it begins a call, makes a request, or returns. -/
def advance (state : device.State) (choice : device.Choice) :
    Thread outer device → Option (List (Ended outer device) × device.State × Thread outer device)
  | .between (.done _) => none
  | .between (.ask call client) =>
      some ([], state, .inside call client (implementation.body call) state none)
  | .inside call client (.done result) before opened =>
      some ([⟨call, result, before, opened, state⟩], state, .between (client result))
  | .inside call client (.ask request next) before opened =>
      (device.answer state request choice).map fun (response, after) =>
        ([], after, .inside call client (next response) before
          (if implementation.opens request then opened.or (some state) else opened))

/-- One thread takes its next step. -/
def step (shared : Shared ThreadId outer device) (choice : ThreadId × device.Choice) :
    Option (List (Ended outer device) × Shared ThreadId outer device) :=
  (implementation.advance shared.state choice.2 (shared.threads choice.1)).map
    fun (ended, state, thread) =>
      (ended, ⟨state, fun other => if other = choice.1 then thread else shared.threads other⟩)

/-- The threads, from clients which have begun nothing. -/
abbrev system (ThreadId : Type) [DecidableEq ThreadId] : System (Ended outer device) :=
  System.ofFunction (fun shared : Shared ThreadId outer device =>
    ∀ thread, ∃ client, shared.threads thread = .between client) implementation.step

/-- Whether a thread's next step is an opening request, and whether it opens its call. -/
def Thread.opening (implementation : Implementation outer device) : Thread outer device → Bool
  | .inside _ _ (.ask request _) _ _ => implementation.opens request
  | _ => false

/-- An opening request is made only when no other call is open, and the first one of a call
only when the device is ready. -/
def Undisturbed (shared : Shared ThreadId outer device) (choice : ThreadId × device.Choice) : Prop :=
  (shared.threads choice.1).opening implementation = true →
    (∀ other, other ≠ choice.1 → (shared.threads other).isOpen = false) ∧
    ((shared.threads choice.1).isOpen = true ∨ implementation.ready shared.state)

/-- The same, decided for the threads of a list. -/
def isUndisturbed (ready : device.State → Bool) (threads : List ThreadId)
    (shared : Shared ThreadId outer device) (choice : ThreadId × device.Choice) : Bool :=
  !(shared.threads choice.1).opening implementation ||
    (threads.all fun other => other = choice.1 || !(shared.threads other).isOpen) &&
      ((shared.threads choice.1).isOpen || ready shared.state)

/-- What the decidable form admits, the guard admits. -/
theorem undisturbed_of_isUndisturbed {ready : device.State → Bool} {threads : List ThreadId}
    {shared : Shared ThreadId outer device} {choice : ThreadId × device.Choice}
    (sound : ∀ state, ready state = true → implementation.ready state)
    (complete : ∀ thread, thread ∈ threads)
    (decided : implementation.isUndisturbed ready threads shared choice = true) :
    implementation.Undisturbed shared choice := by
  intro opens
  simp only [isUndisturbed, opens, Bool.not_true, Bool.false_or, Bool.and_eq_true,
    List.all_eq_true, Bool.or_eq_true, decide_eq_true_eq, Bool.not_eq_true'] at decided
  obtain ⟨others, opened⟩ := decided
  exact ⟨fun other distinct => (others other (complete other)).resolve_left distinct,
    opened.imp_right (sound shared.state)⟩

/-! ### Calls under interference -/

/-- What the threads around a call may do to the device. -/
structure Interference where
  anything : device.State → device.State → Prop
  harmless : device.State → device.State → Prop
  anything_refl : ∀ state, anything state state
  anything_trans : ∀ {first second third}, anything first second → anything second third →
    anything first third
  harmless_refl : ∀ state, harmless state state
  harmless_trans : ∀ {first second third}, harmless first second → harmless second third →
    harmless first third
  answers : ∀ {state request choice response after},
    device.answer state request choice = some (response, after) → anything state after
  quiet : ∀ {state request choice response after}, implementation.opens request = false →
    device.answer state request choice = some (response, after) → harmless state after

namespace Interference

variable {implementation} (interference : implementation.Interference)

/-- What a call relies on: nothing before it is open. -/
def rely (opened : Option device.State) : device.State → device.State → Prop :=
  if opened.isSome then interference.harmless else interference.anything

theorem rely_refl (opened : Option device.State) (state : device.State) :
    interference.rely opened state state := by
  unfold rely
  split
  · exact interference.harmless_refl state
  · exact interference.anything_refl state

theorem rely_trans {opened : Option device.State} {first second third : device.State}
    (before : interference.rely opened first second)
    (after : interference.rely opened second third) : interference.rely opened first third := by
  cases opened with
  | none => exact interference.anything_trans before after
  | some => exact interference.harmless_trans before after

variable {α β : Type}

/-- Whatever the others do between its requests, a program returns only in the postcondition. -/
def Secure : Program inner α → Option device.State → device.State →
    (Option device.State → α → device.State → Prop) → Prop
  | .done value, opened, state, post =>
      ∀ later, interference.rely opened state later → post opened value later
  | .ask request next, opened, state, post =>
      ∀ later, interference.rely opened state later →
        (implementation.opens request = true → opened.isSome = true ∨ implementation.ready later) →
        ∀ choice response after, device.answer later request choice = some (response, after) →
          Secure (next response)
            (if implementation.opens request then opened.or (some later) else opened) after post

variable {interference} {program : Program inner α} {opened : Option device.State}
  {state later : device.State} {post post' : Option device.State → α → device.State → Prop}

namespace Secure

/-- Consequence. -/
theorem weaken (secure : interference.Secure program opened state post)
    (implies : ∀ opened value state, post opened value state → post' opened value state) :
    interference.Secure program opened state post' := by
  induction program generalizing opened state with
  | done value => exact fun later relied => implies _ _ _ (secure later relied)
  | ask request next inductionHypothesis =>
      intro later relied ready choice response after answered
      exact inductionHypothesis response (secure later relied ready choice response after answered)

/-- What the others do keeps a call secure. -/
theorem shift (secure : interference.Secure program opened state post)
    (relied : interference.rely opened state later) :
    interference.Secure program opened later post := by
  cases program with
  | done value => exact fun finish after => secure finish (interference.rely_trans relied after)
  | ask request next =>
      intro finish after
      exact secure finish (interference.rely_trans relied after)

/-- Sequencing. -/
theorem bind {next : α → Program inner β} {after : Option device.State → β → device.State → Prop}
    (secure : interference.Secure program opened state
      fun opened value state => interference.Secure (next value) opened state after) :
    interference.Secure (program >>= next) opened state after := by
  induction program generalizing opened state with
  | done value => exact secure state (interference.rely_refl opened state)
  | ask request rest inductionHypothesis =>
      intro later relied ready choice response finish answered
      exact inductionHypothesis response (secure later relied ready choice response finish answered)

/-- Sequencing past a failure. -/
theorem run_bind {ε : Type} {first : ExceptT ε (Program inner) α}
    {next : α → ExceptT ε (Program inner) β}
    {after : Option device.State → Except ε β → device.State → Prop}
    (secure : interference.Secure first.run opened state fun opened result state =>
      match result with
      | .ok value => interference.Secure (next value).run opened state after
      | .error error => ∀ later, interference.rely opened state later →
          after opened (.error error) later) :
    interference.Secure (first >>= next).run opened state after := by
  rw [ExceptT.run_bind]
  refine (secure.weaken ?_).bind
  intro opened result state rest
  cases result with
  | ok value => exact rest
  | error error => exact rest

/-- A program which cannot fail, in one which can. -/
theorem run_lift {ε : Type} {after : Option device.State → Except ε α → device.State → Prop}
    (secure : interference.Secure program opened state fun opened value state =>
      ∀ later, interference.rely opened state later → after opened (.ok value) later) :
    interference.Secure (liftM program : ExceptT ε (Program inner) α).run opened state after := by
  have lifted : (liftM program : ExceptT ε (Program inner) α).run =
      program >>= fun value => pure (.ok value) := rfl
  rw [lifted]
  exact secure.bind

end Secure
end Interference

/-! ### Runs -/

variable {implementation} {interference : implementation.Interference}
  {post : (call : outer.Request) → device.State → Option device.State → outer.Response call →
    device.State → Prop}

/-- Every call inside is secure, and at most one is open. -/
structure Guarded (interference : implementation.Interference)
    (post : (call : outer.Request) → device.State → Option device.State → outer.Response call →
      device.State → Prop) (shared : Shared ThreadId outer device) : Prop where
  secure : ∀ thread call client program before opened,
    shared.threads thread = .inside call client program before opened →
      interference.Secure program opened shared.state (post call before)
  alone : ∀ thread other, (shared.threads thread).isOpen = true →
    (shared.threads other).isOpen = true → thread = other

/-- Replace the thread which has moved. -/
private theorem Guarded.replace {shared : Shared ThreadId outer device}
    (guarded : Guarded interference post shared) {mover : ThreadId} {state : device.State}
    {thread : Thread outer device}
    (moved : ∀ call client program before opened, thread = .inside call client program before opened →
      interference.Secure program opened state (post call before))
    (others : ∀ other call client program before opened, other ≠ mover →
      shared.threads other = .inside call client program before opened →
      interference.rely opened shared.state state)
    (alone : thread.isOpen = true → ∀ other, other ≠ mover → (shared.threads other).isOpen = false) :
    Guarded interference post
      ⟨state, fun other => if other = mover then thread else shared.threads other⟩ := by
  constructor
  · intro other call client program before opened inside
    simp only at inside
    split at inside
    · exact moved call client program before opened inside
    · rename_i distinct
      exact (guarded.secure other call client program before opened inside).shift
        (others other call client program before opened distinct inside)
  · intro first second isOpen isOpen'
    simp only at isOpen isOpen'
    split at isOpen <;> split at isOpen'
    · rename_i same same'
      rw [same, same']
    · rename_i _ distinct
      simp [alone isOpen second distinct] at isOpen'
    · rename_i distinct _
      simp [alone isOpen' first distinct] at isOpen
    · exact guarded.alone first second isOpen isOpen'

/-- An undisturbed step keeps every call secure, and what it returns meets its postcondition. -/
theorem Guarded.step (secure : ∀ call before,
      interference.Secure (implementation.body call) none before (post call before))
    {shared next : Shared ThreadId outer device} {choice : ThreadId × device.Choice}
    {ended : List (Ended outer device)} (guarded : Guarded interference post shared)
    (undisturbed : implementation.Undisturbed shared choice)
    (stepped : implementation.step shared choice = some (ended, next)) :
    Guarded interference post next ∧
      ∀ event ∈ ended, post event.call event.before event.opened event.result event.after := by
  obtain ⟨mover, choice⟩ := choice
  obtain ⟨⟨ended', state, thread⟩, advanced, shape⟩ := Option.map_eq_some_iff.mp stepped
  obtain ⟨rfl, rfl⟩ := Prod.mk.inj shape
  unfold Undisturbed at undisturbed
  simp only at advanced undisturbed
  cases here : shared.threads mover with
  | between client =>
      rw [here] at advanced
      cases client with
      | done => simp [advance] at advanced
      | ask call client =>
          simp only [advance, Option.some.injEq, Prod.mk.injEq] at advanced
          obtain ⟨rfl, rfl, rfl⟩ := advanced
          refine ⟨guarded.replace ?_ ?_ (by simp [Thread.isOpen]), by simp⟩
          · intro call' client' program before opened inside
            cases inside
            exact secure call shared.state
          · intro other call' client' program before opened _ _
            exact interference.rely_refl opened shared.state
  | inside call client program before opened =>
      have secured := guarded.secure mover call client program before opened here
      rw [here] at advanced
      cases program with
      | done result =>
          simp only [advance, Option.some.injEq, Prod.mk.injEq] at advanced
          obtain ⟨rfl, rfl, rfl⟩ := advanced
          refine ⟨guarded.replace (by simp) ?_ (by simp [Thread.isOpen]), ?_⟩
          · intro other call' client' program before' opened' _ _
            exact interference.rely_refl opened' shared.state
          · intro event member
            rw [List.mem_singleton.mp member]
            exact secured shared.state (interference.rely_refl opened shared.state)
      | ask request rest =>
          simp only [advance, Option.map_eq_some_iff, Prod.mk.injEq] at advanced
          obtain ⟨⟨response, after⟩, answered, rfl, rfl, rfl⟩ := advanced
          simp only [here, Thread.opening] at undisturbed
          have continued := secured shared.state (interference.rely_refl opened shared.state)
            (fun opens => by simpa [Thread.isOpen] using (undisturbed opens).2) choice response after
            answered
          refine ⟨guarded.replace ?_ ?_ ?_, by simp⟩
          · intro call' client' program before' opened' inside
            cases inside
            exact continued
          · intro other call' client' program before' opened' distinct inside
            cases opens : implementation.opens request with
            | true =>
                have closed := (undisturbed opens).1 other distinct
                rw [inside, Thread.isOpen] at closed
                rw [Option.isSome_eq_false_iff, Option.isNone_iff_eq_none] at closed
                rw [closed]
                exact interference.answers answered
            | false =>
                cases opened' with
                | none => exact interference.answers answered
                | some => exact interference.quiet opens answered
          · intro isOpen other distinct
            cases opens : implementation.opens request with
            | true => exact (undisturbed opens).1 other distinct
            | false =>
                simp only [Thread.isOpen, opens, Bool.false_eq_true, if_false] at isOpen
                cases isOpen' : (shared.threads other).isOpen with
                | false => rfl
                | true =>
                    exact absurd (guarded.alone other mover isOpen' (by rw [here]; exact isOpen)) distinct

/-- In an undisturbed run every call that returns meets its postcondition. -/
theorem ended_of_secure (secure : ∀ call before,
      interference.Secure (implementation.body call) none before (post call before))
    {start finish : Shared ThreadId outer device} {choices : List (ThreadId × device.Choice)}
    {events : List (Ended outer device)} (initially : (implementation.system ThreadId).Initial start)
    (run : (implementation.system ThreadId).Run implementation.Undisturbed start choices events finish) :
    ∀ event ∈ events, post event.call event.before event.opened event.result event.after := by
  refine (run.invariant (fun shared events => Guarded interference post shared ∧
    ∀ event ∈ events, post event.call event.before event.opened event.result event.after) ?_ ?_).2
  · refine ⟨⟨?_, ?_⟩, by simp⟩
    · intro thread call client program before opened inside
      obtain ⟨client', between⟩ := initially thread
      simp [between] at inside
    · intro thread other isOpen
      obtain ⟨client', between⟩ := initially thread
      simp [between, Thread.isOpen] at isOpen
  · rintro shared events choice emitted next ⟨guarded, earlier⟩ undisturbed stepped
    obtain ⟨guarded', now⟩ := guarded.step secure undisturbed stepped
    refine ⟨guarded', fun event member => ?_⟩
    exact (List.mem_append.mp member).elim (earlier event) (now event)

end Implementation
end Rp2350Stepper.Semantics
