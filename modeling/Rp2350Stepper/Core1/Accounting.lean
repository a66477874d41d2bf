import Rp2350Stepper.Core1.Control

/-!
# Step accounting

A monitor reads the audit events alone: it opens a move at `motion_start`, counts
the words pushed for it, notes a `CMD_STOP` handled during it and closes it when
`feed_step` ends it. `Lawful` says which events may follow a trace in terms of that
monitor, and `Accounted` ties the monitor to `M`.
-/

namespace Rp2350Stepper.Core1

open Rp2350Stepper.Num Rp2350Stepper.Data Rp2350Stepper.Semantics

/-- A move in progress, as its events tell. -/
structure Progress where
  /-- The steps its `CMD_MOVE` asked for. -/
  steps : Int
  /-- The words pushed since `motion_start`. -/
  pushed : Nat
  /-- Whether a `CMD_STOP` has been handled during the move. -/
  stopped : Bool
deriving DecidableEq, Repr

/-- The move in progress after one more event. -/
def Progress.after (progress : Option Progress) : Event → Option Progress
  | .started steps => some ⟨steps, 0, false⟩
  | .pushed _ => progress.map fun move => { move with pushed := move.pushed + 1 }
  | .stopRequested => progress.map fun move => { move with stopped := true }
  | .idled => none
  | _ => progress

/-- The move in progress after a trace from reset. -/
def progress (events : List Event) : Option Progress := events.foldl Progress.after none

/-- One more event moves the progress on. -/
@[simp] theorem progress_append_singleton (events : List Event) (event : Event) :
    progress (events ++ [event]) = Progress.after (progress events) event := by
  simp only [progress, List.foldl_append, List.foldl_cons, List.foldl_nil]

/-- What may follow a trace. A word is pushed only for a move in progress that has
not been stopped and is not complete; a move that ends without a `CMD_STOP` is
complete; no word is written to a full FIFO. -/
def Lawful (before : List Event) : Event → Prop
  | .started _ => progress before = none
  | .stopRequested => ∃ move, progress before = some move
  | .pushed _ => ∃ move, progress before = some move ∧ move.stopped = false ∧
      move.pushed < move.steps.natAbs
  | .idled => ∃ move, progress before = some move ∧
      (move.stopped = false → move.pushed = move.steps.natAbs)
  | .lost _ => False
  | _ => True

variable {F : Type} [SinglePrecision F]

/-- The step count of a `CMD_MOVE` about to be handled is not `INT32_MIN`. -/
def MovesNegatable (s : State F) (choice : Choice) : Prop :=
  choice = .core1 → s.point = .payload .move →
    ∀ payload rest, s.inbound = payload :: rest → payload.toInt ≠ -2 ^ 31

/-- `M` agrees with the move in progress. -/
structure Accounted (s : State F) (events : List Event) : Prop where
  wellformed : Wellformed s
  loading : ∀ steps, s.point = .direction steps ∨ s.point = .settle steps →
    -2 ^ 31 < steps ∧ steps < 2 ^ 31
  moving : s.motion.state = .moving → ∃ move, progress events = some move ∧
    (move.pushed : Int) + s.motion.remaining = move.steps.natAbs ∧
    0 ≤ s.motion.remaining ∧ move.stopped = s.motion.stopReq
  idle : s.motion.state ≠ .moving → progress events = none ∧ s.motion.stopReq = false
  recorded : Recorded Lawful events

/-- At first nothing has happened. -/
theorem accounted_initial : Accounted (initial : State F) [] where
  wellformed := wellformed_initial
  loading := by simp [initial]
  moving := by simp [initial, Motion.initial]
  idle := by simp [progress, initial, Motion.initial]
  recorded := .nil

omit [SinglePrecision F] in
/-- Steps which touch neither `M` nor the move in progress. -/
private theorem accounted_quiet {s next : State F} {events emitted : List Event}
    (accounted : Accounted s events) (wellformed : Wellformed next)
    (loading : ∀ steps, next.point = .direction steps ∨ next.point = .settle steps →
      -2 ^ 31 < steps ∧ steps < 2 ^ 31)
    (state : next.motion.state = s.motion.state)
    (remaining : next.motion.remaining = s.motion.remaining)
    (stopReq : next.motion.stopReq = s.motion.stopReq)
    (quiet : emitted = [] ∨ (∃ cmd payload, emitted = [.decoded cmd payload]) ∨
      (∃ level, emitted = [.rose level]) ∨ ∃ word, emitted = [.replied word]) :
    Accounted next (events ++ emitted) := by
  have same : progress (events ++ emitted) = progress events := by
    rcases quiet with rfl | ⟨cmd, payload, rfl⟩ | ⟨level, rfl⟩ | ⟨word, rfl⟩
    · rw [List.append_nil]
    all_goals rw [progress_append_singleton]; rfl
  refine ⟨wellformed, loading, ?_, ?_, ?_⟩
  · rw [same, state, remaining, stopReq]
    exact accounted.moving
  · rw [same, state, stopReq]
    exact accounted.idle
  · rcases quiet with rfl | ⟨cmd, payload, rfl⟩ | ⟨level, rfl⟩ | ⟨word, rfl⟩
    · simpa using accounted.recorded
    · exact accounted.recorded.append_singleton trivial
    · exact accounted.recorded.append_singleton trivial
    · exact accounted.recorded.append_singleton trivial

/-- A step keeps the account. -/
theorem accounted_move {s next : State F} {choice : Choice} {emitted events : List Event}
    (accounted : Accounted s events) (negatable : MovesNegatable s choice)
    (move : Move s choice emitted next) : Accounted next (events ++ emitted) := by
  have wellformed := wellformed_move accounted.wellformed move
  cases move with
  | iteration here =>
      refine accounted_quiet accounted wellformed ?_ rfl rfl rfl (.inl rfl)
      intro steps there
      by_cases running : s.motion.state = .moving <;> simp [running] at there
  | feedEnds here running ends =>
      obtain ⟨move, open_, count, bound, stopped⟩ := accounted.moving running
      refine ⟨wellformed, by simp, by simp, ?_, accounted.recorded.append_singleton ?_⟩
      · rw [progress_append_singleton]
        exact fun _ => ⟨rfl, rfl⟩
      · refine ⟨move, open_, fun notStopped => ?_⟩
        rw [stopped] at notStopped
        have finished : s.motion.remaining ≤ 0 := by simpa [notStopped] using ends
        omega
  | feedPushes here running stopReq remaining word txFifo room queued =>
      obtain ⟨move, open_, count, bound, stopped⟩ := accounted.moving running
      have next : progress (events ++ [.pushed word]) =
          some { move with pushed := move.pushed + 1 } := by
        rw [progress_append_singleton, open_]
        rfl
      refine ⟨wellformed, by simp, fun _ => ⟨_, next, ?_, ?_, stopped⟩,
        fun idle => absurd running idle, accounted.recorded.append_singleton ?_⟩
      · simp only
        omega
      · simp only
        omega
      · exact ⟨move, open_, by rw [stopped, stopReq], by omega⟩
  | feedLoses here running full =>
      have room := accounted.wellformed.room here
      omega
  | stopMoving here inbound read running =>
      obtain ⟨move, open_, count, bound, _⟩ := accounted.moving running
      have decoded : progress (events ++ [.decoded .stop none]) = some move := by
        rw [progress_append_singleton, open_]
        rfl
      have next : progress (events ++ [.decoded .stop none] ++ [.stopRequested]) =
          some { move with stopped := true } := by
        rw [progress_append_singleton, decoded]
        rfl
      have recorded : Recorded Lawful (events ++ [.decoded .stop none]) :=
        accounted.recorded.append_singleton trivial
      rw [List.append_cons]
      exact ⟨wellformed, by simp, fun _ => ⟨_, next, count, bound, rfl⟩,
        fun idle => absurd running idle, recorded.append_singleton ⟨move, decoded⟩⟩
  | payload cmd here word inbound read =>
      obtain ⟨state, remaining, stopReq, _⟩ := handlePayload_motion s.motion cmd word
      refine accounted_quiet accounted wellformed ?_ state remaining stopReq
        (.inr (.inl ⟨cmd, _, rfl⟩))
      intro steps there
      rcases handlePayload_point s.motion cmd word with
        ⟨reply, point⟩ | ⟨rfl, idle, nonzero, point⟩
      · simp [point] at there
      · simp only [point, Point.direction.injEq, reduceCtorEq, or_false] at there
        have low := word.le_two_mul_toInt
        have high := word.two_mul_toInt_lt
        have negatable := negatable rfl here word inbound read
        omega
  | direction steps here =>
      refine accounted_quiet accounted wellformed ?_ rfl rfl rfl (.inl rfl)
      intro steps' there
      simp only [reduceCtorEq, Point.settle.injEq, false_or] at there
      exact there ▸ accounted.loading steps (.inl here)
  | settle steps here =>
      obtain ⟨idle, _⟩ := accounted.wellformed.starting steps (.inr here)
      obtain ⟨low, high⟩ := accounted.loading steps (.inr here)
      have closed := (accounted.idle idle).1
      have next : progress (events ++ [.started steps]) = some ⟨steps, 0, false⟩ := by
        rw [progress_append_singleton]
        rfl
      have loaded := s.motion.motionStart_remaining low high
      refine ⟨wellformed, by simp, fun _ => ⟨_, next, ?_, ?_, rfl⟩, by simp,
        accounted.recorded.append_singleton closed⟩
      · simp [loaded]
      · simp [loaded]
  | reply word here =>
      exact accounted_quiet accounted wellformed (by simp) rfl rfl rfl
        (.inr (.inr (.inr ⟨word, rfl⟩)))
  | stopIdle here inbound read idle =>
      exact accounted_quiet accounted wellformed (by simp) rfl rfl rfl
        (.inr (.inl ⟨_, _, rfl⟩))
  | rise word pulled =>
      exact accounted_quiet accounted wellformed accounted.loading rfl rfl rfl
        (.inr (.inr (.inl ⟨_, rfl⟩)))
  | arrive word =>
      exact accounted_quiet accounted wellformed accounted.loading rfl rfl rfl (.inl rfl)
  | take reply outbound queued =>
      exact accounted_quiet accounted wellformed accounted.loading rfl rfl rfl (.inl rfl)
  | pull word txFifo free queued =>
      exact accounted_quiet accounted wellformed accounted.loading rfl rfl rfl (.inl rfl)
  | _ => exact accounted_quiet accounted wellformed (by simp) rfl rfl rfl (.inl rfl)

/-- `M` agrees with the move in progress wherever a run from reset ends. -/
theorem accounted_of_run {s : State F} {choices : List Choice} {events : List Event}
    (run : (system F).Run MovesNegatable initial choices events s) : Accounted s events := by
  refine System.Run.invariant Accounted accounted_initial ?_ run
  intro state events choice emitted next accounted negatable transition
  exact accounted_move accounted negatable (move_of_step transition)

/-! ### Commands which change nothing -/

/-- A command which is only answered: `CMD_STATUS`, or `CMD_MOVE` while moving. -/
def Answered (m : Motion F) (cmd : StepperCmd) : Prop :=
  cmd = .status ∨ (cmd = .move ∧ m.state = .moving)

/-- core1 is about to read the opcode or the payload of such a command, or to reply. -/
def Answering (s : State F) : Prop :=
  match s.point with
  | .command => ∃ cmd rest, s.inbound = cmd.toWord :: rest ∧ Answered s.motion cmd
  | .payload cmd => Answered s.motion cmd
  | .reply _ => True
  | _ => False

omit [SinglePrecision F] in
/-- An answered opcode is no other command's, and no unknown word. -/
private theorem answered_opcode {s : State F} {opcode : Word} {rest : List Word}
    (answering : Answering s) (here : s.point = .command) (read : s.inbound = opcode :: rest) :
    ∃ cmd, StepperCmd.ofWord opcode = some cmd ∧ Answered s.motion cmd := by
  simp only [Answering, here] at answering
  obtain ⟨cmd, rest', read', answered⟩ := answering
  rw [read, List.cons.injEq] at read'
  exact ⟨cmd, by rw [read'.1, StepperCmd.ofWord_toWord], answered⟩

/-- The payload of an answered command leads to a reply and leaves `M` alone. -/
private theorem answered_payload {m : Motion F} {cmd : StepperCmd} (answered : Answered m cmd)
    (word : Word) : ∃ reply, handlePayload m cmd word = (.reply reply, m) ∧
      (cmd = .move → reply = stepperAckBusy) := by
  rcases answered with rfl | ⟨rfl, moving⟩
  · exact ⟨_, rfl, by simp⟩
  · exact ⟨stepperAckBusy, by simp [handlePayload, moving], fun _ => rfl⟩

/-- While core1 answers a command no step changes `M` or `PIN_DIR`, the other parties
do not disturb it, and its own steps leave the PIO alone too and go on to the reply,
which for a move is the busy acknowledgement. -/
theorem answering_move {s next : State F} {choice : Choice} {emitted : List Event}
    (answering : Answering s) (move : Move s choice emitted next) :
    next.motion = s.motion ∧ next.dir = s.dir ∧
    (choice ≠ .core1 → Answering next ∧ next.point = s.point) ∧
    (choice = .core1 → next.txFifo = s.txFifo ∧ next.osr = s.osr ∧
      (s.point = .command → ∃ cmd, next.point = .payload cmd ∧ Answered next.motion cmd) ∧
      (∀ cmd, s.point = .payload cmd → ∃ reply, next.point = .reply reply ∧
        (cmd = .move → reply = stepperAckBusy)) ∧
      (∀ reply, s.point = .reply reply → emitted = [.replied reply] ∧
        next.outbound = s.outbound ++ [reply])) := by
  cases move with
  | arrive word =>
      refine ⟨rfl, rfl, fun _ => ⟨?_, rfl⟩, by simp⟩
      cases here : s.point <;> simp_all [Answering]
      obtain ⟨cmd, ⟨rest, read⟩, answered⟩ := answering
      exact ⟨cmd, ⟨rest ++ [word], by simp [read]⟩, answered⟩
  | take reply outbound queued => exact ⟨rfl, rfl, fun _ => ⟨answering, rfl⟩, by simp⟩
  | pull word txFifo free queued => exact ⟨rfl, rfl, fun _ => ⟨answering, rfl⟩, by simp⟩
  | rise word pulled => exact ⟨rfl, rfl, fun _ => ⟨answering, rfl⟩, by simp⟩
  | noCommand here empty => simp [Answering, here, empty] at answering
  | unknown here opcode inbound read unknown =>
      obtain ⟨cmd, known, _⟩ := answered_opcode answering here read
      simp [unknown] at known
  | stopMoving here inbound read running =>
      obtain ⟨cmd, known, answered⟩ := answered_opcode answering here read
      rw [StepperCmd.ofWord_toWord, Option.some.injEq] at known
      simp [Answered, ← known] at answered
  | stopIdle here inbound read idle =>
      obtain ⟨cmd, known, answered⟩ := answered_opcode answering here read
      rw [StepperCmd.ofWord_toWord, Option.some.injEq] at known
      simp [Answered, ← known] at answered
  | opcode here cmd inbound read takesPayload =>
      obtain ⟨cmd', known, answered⟩ := answered_opcode answering here read
      rw [StepperCmd.ofWord_toWord, Option.some.injEq] at known
      subst known
      exact ⟨rfl, rfl, by simp, fun _ => ⟨rfl, rfl, fun _ => ⟨cmd, rfl, answered⟩,
        by simp [here], by simp [here]⟩⟩
  | payload cmd here word inbound read =>
      have answered : Answered s.motion cmd := by simpa [Answering, here] using answering
      obtain ⟨reply, handled, busy⟩ := answered_payload answered word
      rw [handled]
      refine ⟨rfl, rfl, by simp, fun _ =>
        ⟨rfl, rfl, by simp [here], fun cmd' there => ?_, by simp [here]⟩⟩
      rw [here, Point.payload.injEq] at there
      exact ⟨reply, rfl, fun same => busy (there.trans same)⟩
  | reply word here =>
      refine ⟨rfl, rfl, by simp, fun _ =>
        ⟨rfl, rfl, by simp [here], by simp [here], fun reply there => ?_⟩⟩
      rw [here, Point.reply.injEq] at there
      subst there
      exact ⟨rfl, rfl⟩
  | _ => simp_all [Answering]

/-- Steps are neither lost nor invented: wherever a run without a `CMD_MOVE` of
`INT32_MIN` steps ends, `M` accounts for the move in progress; the whole trace is
lawful; and a command which is only answered changes nothing. -/
theorem steps_accounted (F : Type) [SinglePrecision F] (choices : List Choice)
    (events : List Event) (s : State F)
    (run : (system F).Run MovesNegatable initial choices events s) :
    (s.motion.state = .moving → ∃ move, progress events = some move ∧
      (move.pushed : Int) + s.motion.remaining = move.steps.natAbs ∧
      s.motion.stopReq = move.stopped) ∧
    (s.motion.state ≠ .moving → progress events = none ∧ s.motion.stopReq = false) ∧
    Recorded Lawful events ∧
    (Answering s → ∀ choice emitted next, step s choice = some (emitted, next) →
      next.motion = s.motion ∧ next.dir = s.dir ∧
      (choice ≠ .core1 → Answering next ∧ next.point = s.point) ∧
      (choice = .core1 → next.txFifo = s.txFifo ∧ next.osr = s.osr ∧
        (s.point = .command → ∃ cmd, next.point = .payload cmd ∧ Answered next.motion cmd) ∧
        (∀ cmd, s.point = .payload cmd → ∃ reply, next.point = .reply reply ∧
          (cmd = .move → reply = stepperAckBusy)) ∧
        (∀ reply, s.point = .reply reply → emitted = [.replied reply] ∧
          next.outbound = s.outbound ++ [reply]))) := by
  have accounted := accounted_of_run run
  refine ⟨fun running => ?_, accounted.idle, accounted.recorded, ?_⟩
  · obtain ⟨move, open_, count, _, stopped⟩ := accounted.moving running
    exact ⟨move, open_, count, stopped.symm⟩
  · intro answering choice emitted next stepped
    exact answering_move answering (move_of_step stepped)

/-- Decidable form of `MovesNegatable`. -/
def movesNegatable (s : State F) (choice : Choice) : Bool :=
  match choice, s.point, s.inbound with
  | .core1, .payload .move, payload :: _ => payload.toInt != -2 ^ 31
  | _, _, _ => true

omit [SinglePrecision F] in
/-- What the decidable form admits, the guard admits. -/
theorem movesNegatable_sound {s : State F} {choice : Choice}
    (negatable : movesNegatable s choice = true) : MovesNegatable s choice := by
  rintro rfl here payload rest read
  simpa [movesNegatable, here, read] using negatable

/-- Two steps asked for, one pushed and one remaining. -/
theorem half_a_move_accounted :
    ∃ choices events s, (system Binary32).Run MovesNegatable initial choices events s ∧
      s.motion.state = .moving ∧ ∃ move, progress events = some move ∧
      (move.pushed : Int) + s.motion.remaining = move.steps.natAbs ∧
      s.motion.stopReq = move.stopped := by
  have executed : (System.execute step movesNegatable (initial : State Binary32)
      (.core1 :: moveChoices 2 ++ [.core1, .core1, .core1])).map
        (fun result => (result.2.motion.state, result.2.motion.remaining)) =
      some (.moving, 1) := by
    decide +kernel
  obtain ⟨⟨events, s⟩, executed, reached⟩ := Option.map_eq_some_iff.mp executed
  have followed : (system Binary32).Run (fun s choice => movesNegatable s choice = true)
      initial _ events s := System.run_of_execute executed
  have run := followed.weaken fun _ _ => movesNegatable_sound
  have running : s.motion.state = .moving := congrArg Prod.fst reached
  exact ⟨_, events, s, run, running, (steps_accounted Binary32 _ events s run).1 running⟩

end Rp2350Stepper.Core1
