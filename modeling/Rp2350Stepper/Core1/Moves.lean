import Rp2350Stepper.Core1.Control

/-!
# One move, by itself

Between the start of a move and the next one, core1 does to `M` only what `feed_step` and
the handlers of `CMD_SPEED`, `CMD_ACCEL`, `CMD_DECEL` and `CMD_STOP` do. `moves` is the
system of these, in any order, which records `M` around every push of a step.
-/

namespace Rp2350Stepper.Core1

open Rp2350Stepper.Num Rp2350Stepper.Data Rp2350Stepper.Semantics

variable {F : Type} [SinglePrecision F]

namespace Motion

/-- `CMD_SPEED` with a value. -/
def withSpeed (m : Motion F) (v : F) : Motion F :=
  { m with
    maxSpeed :=
      if SinglePrecision.lt v minSpeedHz then minSpeedHz
      else if SinglePrecision.lt absMaxSpeed v then absMaxSpeed
      else v }

/-- The rate `CMD_ACCEL` and `CMD_DECEL` take for a value. -/
def acceptedRate (default v : F) : F :=
  if SinglePrecision.le v (SinglePrecision.ofNat 0) || SinglePrecision.lt absMaxAccel v then
    default
  else v

/-- `CMD_ACCEL` with a value. -/
def withAccel (m : Motion F) (v : F) : Motion F := { m with accel := acceptedRate defAccel v }

/-- `CMD_DECEL` with a value. -/
def withDecel (m : Motion F) (v : F) : Motion F := { m with decel := acceptedRate defDecel v }

/-- `M` after the push of a step. -/
def pushed (m : Motion F) : Motion F :=
  { m with speed := m.nextSpeed, remaining := m.remaining - 1 }

end Motion

/-- What core1 does to `M` during a move. -/
inductive MotionCall (F : Type) where
  | feed
  | speed (v : F)
  | accel (v : F)
  | decel (v : F)
  | stop

/-- A step has been pushed: `M` before and after. -/
structure Push (F : Type) where
  before : Motion F
  after : Motion F

/-- One call. -/
def motionStep (m : Motion F) : MotionCall F → Option (List (Push F) × Motion F)
  | .feed =>
      match m.feedStep with
      | (next, some _) => some ([⟨m, next⟩], next)
      | (next, none) => some ([], next)
  | .speed v => some ([], m.withSpeed v)
  | .accel v => some ([], m.withAccel v)
  | .decel v => some ([], m.withDecel v)
  | .stop => some ([], m.cmdStop)

/-- A move, from its start on. -/
abbrev moves (F : Type) [SinglePrecision F] : System (Push F) :=
  System.ofFunction (fun m : Motion F => ∃ idle steps, m = Motion.motionStart idle steps) motionStep

/-- Only `feed_step` is called. -/
def Feeding (_ : Motion F) (call : MotionCall F) : Prop := call = .feed

/-- What a call of `feed_step` does during a move. -/
theorem feed_cases {m next : Motion F} {pushes : List (Push F)}
    (stepped : motionStep m .feed = some (pushes, next)) :
    (m.state ≠ .moving ∧ pushes = [] ∧ next = m) ∨
    (m.state = .moving ∧ (m.stopReq = true ∨ m.remaining ≤ 0) ∧ pushes = [] ∧
      next = { m with state := .idle, speed := SinglePrecision.ofNat 0, stopReq := false }) ∨
    (m.state = .moving ∧ m.stopReq = false ∧ 0 < m.remaining ∧ pushes = [⟨m, m.pushed⟩] ∧
      next = m.pushed) := by
  rcases m.feedStep_cases with
    ⟨idle, fed⟩ | ⟨moving, ends, fed⟩ | ⟨moving, stopReq, remaining, fed⟩
  · simp only [motionStep, fed, Option.some.injEq, Prod.mk.injEq] at stepped
    exact .inl ⟨idle, stepped.1.symm, stepped.2.symm⟩
  · simp only [motionStep, fed, Option.some.injEq, Prod.mk.injEq] at stepped
    exact .inr (.inl ⟨moving, ends, stepped.1.symm, stepped.2.symm⟩)
  · simp only [motionStep, fed, Option.some.injEq, Prod.mk.injEq] at stepped
    obtain ⟨rfl, rfl⟩ := stepped
    exact .inr (.inr ⟨moving, stopReq, remaining, rfl, rfl⟩)

/-- A step is pushed. -/
theorem feed_pushes {m : Motion F} (moving : m.state = .moving) (stopReq : m.stopReq = false)
    (remaining : 0 < m.remaining) : motionStep m .feed = some ([⟨m, m.pushed⟩], m.pushed) := by
  simp [motionStep, Motion.feedStep, Motion.pushed, moving, stopReq, Int.not_le.mpr remaining]

/-! ### What core1 does to `M` -/

/-- The word of a pushed step. -/
def Push.word (push : Push F) : Word := Motion.hzToHalfPeriod push.after.speed

/-- The words which have entered the TX FIFO. -/
def stepWords (events : List Event) : List Word :=
  events.filterMap fun event => match event with
    | .pushed word => some word
    | _ => none

/-- A command which changes `M` has been decoded. -/
def Steered (events : List Event) : Prop :=
  ∃ cmd payload, .decoded cmd payload ∈ events ∧ cmd ≠ .move ∧ cmd ≠ .status

/-- During a move only `feed_step` is called, unless a command which changes `M` is decoded. -/
def CallsOf (events : List Event) (_ : Motion F) (call : MotionCall F) : Prop :=
  call = .feed ∨ Steered events

/-- The values of the payload commands are those of their payloads. -/
theorem handlePayload_calls (m : Motion F) (cmd : StepperCmd) (word : Word) :
    (handlePayload m cmd word).2 = m ∨ cmd ≠ .move ∧ cmd ≠ .status ∧
      ∃ call, motionStep m call = some ([], (handlePayload m cmd word).2) := by
  cases cmd with
  | speed => exact .inr ⟨nofun, nofun, .speed (SinglePrecision.ofBits word), rfl⟩
  | accel => exact .inr ⟨nofun, nofun, .accel (SinglePrecision.ofBits word), rfl⟩
  | decel => exact .inr ⟨nofun, nofun, .decel (SinglePrecision.ofBits word), rfl⟩
  | move =>
      simp only [handlePayload]
      split
      · exact .inl rfl
      · split <;> exact .inl rfl
  | status => exact .inl rfl
  | stop => exact .inl rfl

/-- Unless it starts a move, a step of the system makes one call or leaves `M` as it is. -/
theorem calls_of_move {s next : State F} {choice : Choice} {emitted : List Event}
    (wellformed : Wellformed s) (move : Move s choice emitted next)
    (within : ∀ steps, .started steps ∉ emitted) :
    (next.motion = s.motion ∧ stepWords emitted = []) ∨
      ∃ call pushes, CallsOf emitted s.motion call ∧
        motionStep s.motion call = some (pushes, next.motion) ∧
        stepWords emitted = pushes.map Push.word := by
  cases move with
  | feedEnds here moving ends =>
      exact .inr ⟨.feed, [], .inl rfl, by simp [motionStep, Motion.feedStep, moving, ends], rfl⟩
  | feedPushes here moving stopReq remaining word txFifo room queued computed =>
      exact .inr ⟨.feed, _, .inl rfl, feed_pushes moving stopReq remaining,
        by rw [computed]; rfl⟩
  | feedLoses here moving full =>
      have room := wellformed.room here
      omega
  | stopMoving here inbound read moving =>
      exact .inr ⟨.stop, [], .inr ⟨.stop, none, by simp, by decide, by decide⟩,
        by simp [motionStep, Motion.cmdStop, moving], rfl⟩
  | payload cmd here word =>
      rcases handlePayload_calls s.motion cmd word with same | ⟨notMove, notStatus, call, called⟩
      · exact .inl ⟨same, rfl⟩
      · exact .inr ⟨call, [], .inr ⟨cmd, some word, by simp, notMove, notStatus⟩, called, rfl⟩
  | settle steps => exact absurd (List.mem_singleton_self _) (within steps)
  | _ => exact .inl ⟨rfl, rfl⟩

/-- More events steer as well. -/
theorem Steered.mono {events later : List Event} (contained : events ⊆ later)
    (steered : Steered events) : Steered later := by
  obtain ⟨cmd, payload, member, known⟩ := steered
  exact ⟨cmd, payload, contained member, known⟩

/-- A run of the system in which no move starts is, on `M`, a run of one move, with the words
of its pushes. -/
theorem moves_of_run {guard : State F → Choice → Prop} {s next : State F} {choices : List Choice}
    {events : List Event} (wellformed : Wellformed s)
    (run : (system F).Run guard s choices events next) (within : ∀ steps, .started steps ∉ events) :
    ∃ calls pushes, (moves F).Run (CallsOf events) s.motion calls pushes next.motion ∧
      stepWords events = pushes.map Push.word := by
  suffices general : Wellformed next ∧
      ∃ calls pushes, (moves F).Run (CallsOf events) s.motion calls pushes next.motion ∧
        stepWords events = pushes.map Push.word from general.2
  refine run.invariant (fun (state : State F) events => (∀ steps, .started steps ∉ events) →
    Wellformed state ∧
      ∃ calls pushes, (moves F).Run (CallsOf events) s.motion calls pushes state.motion ∧
        stepWords events = pushes.map Push.word) ?_ ?_ within
  · exact fun _ => ⟨wellformed, [], [], .refl, rfl⟩
  · intro state events choice emitted later inductionHypothesis _ transition within
    have move := move_of_step transition
    obtain ⟨wellformed, calls, pushes, earlier, words⟩ :=
      inductionHypothesis fun steps started => within steps (List.mem_append_left _ started)
    have grown : (moves F).Run (CallsOf (events ++ emitted)) s.motion calls pushes state.motion :=
      earlier.weaken fun _ _ called =>
        called.imp_right (Steered.mono (List.subset_append_left _ _))
    have both : stepWords (events ++ emitted) = stepWords events ++ stepWords emitted :=
      List.filterMap_append
    refine ⟨wellformed_move wellformed move, ?_⟩
    rcases calls_of_move wellformed move
      fun steps started => within steps (List.mem_append_right _ started) with
      ⟨same, none⟩ | ⟨call, pushed, allowed, called, told⟩
    · exact ⟨calls, pushes, same ▸ grown, by rw [both, words, none, List.append_nil]⟩
    · have last : (moves F).Run (CallsOf (events ++ emitted)) s.motion _ (pushes ++ pushed)
          later.motion :=
        .step grown (allowed.imp_right (Steered.mono (List.subset_append_right _ _))) called
      exact ⟨_, _, last, by rw [both, words, told, List.map_append]⟩

end Rp2350Stepper.Core1
