import Rp2350Stepper.Core1.Direction

/-!
# Stopping a move

`CMD_STOP` keeps core1 from pushing further words, and is acknowledged at once; the words the
PIO still holds are emitted all the same. A monitor reads from the trace whether the stop of
a move has been acknowledged, and counts the pulses since: there are as many as the PIO held
words at the acknowledgement, none exactly if it held none.
-/

namespace Rp2350Stepper.Core1

open Rp2350Stepper.Num Rp2350Stepper.Data Rp2350Stepper.Semantics

/-- How far the stop of a move has got, as the events tell. -/
inductive Halt where
  | running
  /-- `CMD_STOP` has been handled while moving. -/
  | requested
  /-- It has been acknowledged, and STEP has risen so many times since. -/
  | acknowledged (rises : Nat)
deriving DecidableEq, Repr

/-- The stop after one more event. -/
def Halt.after (halt : Halt) (event : Event) : Halt :=
  match halt, event with
  | _, .started _ => .running
  | .running, .stopRequested => .requested
  | .requested, .replied _ => .acknowledged 0
  | .acknowledged rises, .rose _ => .acknowledged (rises + 1)
  | halt, _ => halt

/-- The stop after a trace from reset. -/
def halt (events : List Event) : Halt := events.foldl Halt.after .running

/-- The halt after some events, and then more. -/
theorem halt_append (events later : List Event) :
    halt (events ++ later) = later.foldl Halt.after (halt events) :=
  List.foldl_append

/-- An event which no stop notices. -/
theorem halt_append_ignored (events : List Event) {event : Event}
    (ignored : ∀ halt : Halt, halt.after event = halt) : halt (events ++ [event]) = halt events := by
  rw [halt_append]
  exact ignored (halt events)

/-- A decoded command does not matter yet. -/
theorem Halt.after_decoded (cmd : StepperCmd) (payload : Option Word) (halt : Halt) :
    halt.after (.decoded cmd payload) = halt := by
  cases halt <;> rfl

theorem Halt.after_pushed (word : Word) (halt : Halt) : halt.after (.pushed word) = halt := by
  cases halt <;> rfl

theorem Halt.after_idled (halt : Halt) : halt.after .idled = halt := by
  cases halt <;> rfl

/-- The pulses since the acknowledgement of a stop, up to the next move. -/
def risesSinceStop (events : List Event) : Nat :=
  match halt events with
  | .acknowledged rises => rises
  | _ => 0

variable {F : Type} [SinglePrecision F]

/-- When core1 acknowledges a command while it stops a move, the PIO holds at most so many
words whose pulses are still to come. -/
def StopsWithin (limit : Nat) (s : State F) (choice : Choice) : Prop :=
  choice = .core1 → ∀ word, s.point = .reply word → s.motion.stopReq = true →
    s.pending.length ≤ limit

/-- The monitor agrees with core1. -/
structure Halting (limit : Nat) (s : State F) (events : List Event) : Prop where
  requested : halt events = .requested → (∃ word, s.point = .reply word) ∧ s.motion.stopReq = true
  stopping : s.motion.stopReq = true → halt events ≠ .running
  halted : ∀ rises, halt events = .acknowledged rises →
    (s.motion.state = .moving → s.motion.stopReq = true) ∧ rises + s.pending.length ≤ limit

variable {limit : Nat}

omit [SinglePrecision F] in
/-- At most five words are under way. -/
theorem State.length_pending (s : State F) : s.pending.length ≤ pioFifoDepth + 1 := by
  have bounded := s.txFifo.bounded
  rw [State.pending, List.length_append]
  cases s.osr <;> simp <;> omega

/-- At first nothing has been stopped. -/
theorem halting_initial : Halting limit (initial : State F) [] where
  requested := by simp [halt]
  stopping := by simp [initial, Motion.initial]
  halted := by simp [halt]

omit [SinglePrecision F] in
/-- Steps the monitor does not see, which leave the stop and the words to come alone. -/
private theorem halting_quiet {s next : State F} {events emitted : List Event}
    (halting : Halting limit s events) (same : halt (events ++ emitted) = halt events)
    (stopReq : next.motion.stopReq = s.motion.stopReq)
    (waits : next.point = s.point ∨ ∀ word, s.point ≠ .reply word)
    (moving : next.motion.state = .moving → s.motion.state = .moving)
    (pending : next.pending.length ≤ s.pending.length) : Halting limit next (events ++ emitted) := by
  refine ⟨?_, ?_, ?_⟩
  · rw [same, stopReq]
    intro requested
    obtain ⟨⟨word, here⟩, stops⟩ := halting.requested requested
    rcases waits with there | elsewhere
    · exact ⟨⟨word, there.trans here⟩, stops⟩
    · exact absurd here (elsewhere word)
  · rw [same, stopReq]
    exact halting.stopping
  · intro rises acknowledged
    rw [same] at acknowledged
    obtain ⟨stops, few⟩ := halting.halted rises acknowledged
    exact ⟨fun running => stopReq ▸ stops (moving running), by omega⟩

/-- A step keeps the count of the pulses since. -/
theorem halting_move {s next : State F} {choice : Choice} {emitted events : List Event}
    (wellformed : Wellformed s) (halting : Halting limit s events) (within : StopsWithin limit s choice)
    (move : Move s choice emitted next) : Halting limit next (events ++ emitted) := by
  -- Elsewhere than before a reply no stop is waiting for its acknowledgement.
  have elsewhere : (∀ word, s.point ≠ .reply word) → halt events ≠ .requested := by
    intro none requested
    obtain ⟨⟨word, here⟩, _⟩ := halting.requested requested
    exact none word here
  cases move with
  | iteration here =>
      exact halting_quiet halting (by simp) rfl (.inr (by simp [here])) (fun h => h) le_rfl
  | txFull here | txRoom here | feedIdle here | noCommand here | unknown here | opcode here =>
      exact halting_quiet halting (by simp) rfl (.inr (by simp [here])) (fun h => h) le_rfl
  | direction steps here =>
      exact halting_quiet halting (by simp) rfl (.inr (by simp [here])) (fun h => h) le_rfl
  | arrive word => exact halting_quiet halting (by simp) rfl (.inl rfl) (fun h => h) le_rfl
  | take reply outbound queued =>
      exact halting_quiet halting (by simp) rfl (.inl rfl) (fun h => h) le_rfl
  | pull word txFifo free queued =>
      refine halting_quiet halting (by simp) rfl (.inl rfl) (fun h => h) ?_
      simp [State.pending, free, queued]
  | stopIdle here inbound read idle =>
      have same := halt_append_ignored events (Halt.after_decoded .stop none)
      exact halting_quiet halting same rfl (.inr (by simp [here])) (fun h => h) le_rfl
  | payload cmd here word inbound read =>
      obtain ⟨state, _, stopReq, _⟩ := handlePayload_motion s.motion cmd word
      have same := halt_append_ignored events (Halt.after_decoded cmd (some word))
      exact halting_quiet halting same stopReq (.inr (by simp [here]))
        (fun moving => state ▸ moving) le_rfl
  | feedEnds here running ends =>
      have same := halt_append_ignored events Halt.after_idled
      refine ⟨fun requested => ?_, by simp, fun rises acknowledged => ⟨by simp, ?_⟩⟩
      · exact absurd (same ▸ requested) (elsewhere (by simp [here]))
      · exact (halting.halted rises (same ▸ acknowledged)).2
  | feedPushes here running stopReq remaining word txFifo room queued =>
      have same := halt_append_ignored events (Halt.after_pushed word)
      refine ⟨fun requested => ?_, fun stops => ?_, fun rises acknowledged => ?_⟩
      · exact absurd (same ▸ requested) (elsewhere (by simp [here]))
      · exact same ▸ halting.stopping stops
      · have stops := (halting.halted rises (same ▸ acknowledged)).1 running
        rw [stopReq] at stops
        cases stops
  | feedLoses here running full =>
      have room := wellformed.room here
      omega
  | stopMoving here inbound read running =>
      have next : halt (events ++ [.decoded .stop none, .stopRequested]) =
          (halt events).after .stopRequested := by
        rw [halt_append]
        cases halt events <;> rfl
      refine ⟨fun _ => ⟨⟨_, rfl⟩, rfl⟩, fun _ => ?_, fun rises acknowledged => ⟨fun _ => rfl, ?_⟩⟩
      · rw [next]
        cases halt events <;> simp [Halt.after]
      · rw [next] at acknowledged
        cases before : halt events with
        | running => simp [before, Halt.after] at acknowledged
        | requested => exact absurd before (elsewhere (by simp [here]))
        | acknowledged earlier =>
            simp only [before, Halt.after, Halt.acknowledged.injEq] at acknowledged
            exact acknowledged ▸ (halting.halted earlier before).2
  | settle steps here =>
      have next : halt (events ++ [.started steps]) = .running := by
        rw [halt_append]
        cases halt events <;> rfl
      exact ⟨by simp [next], by simp, by simp [next]⟩
  | reply word here =>
      have next : halt (events ++ [.replied word]) = (halt events).after (.replied word) :=
        halt_append _ _
      refine ⟨fun requested => ?_, fun stops => ?_, fun rises acknowledged => ?_⟩
      · rw [next] at requested
        cases before : halt events <;> simp [before, Halt.after] at requested
      · have stopping := halting.stopping stops
        rw [next]
        cases before : halt events <;> simp_all [Halt.after]
      · rw [next] at acknowledged
        cases before : halt events with
        | running => simp [before, Halt.after] at acknowledged
        | requested =>
            obtain ⟨_, stops⟩ := halting.requested before
            simp only [before, Halt.after, Halt.acknowledged.injEq] at acknowledged
            subst acknowledged
            refine ⟨fun _ => stops, ?_⟩
            rw [Nat.zero_add]
            exact within rfl word here stops
        | acknowledged earlier =>
            simp only [before, Halt.after, Halt.acknowledged.injEq] at acknowledged
            exact acknowledged ▸ halting.halted earlier before
  | rise word pulled =>
      have next : halt (events ++ [.rose s.dir]) = (halt events).after (.rose s.dir) :=
        halt_append _ _
      have fewer : s.pending.length = (State.pending { s with osr := none }).length + 1 := by
        simp [State.pending, pulled, Nat.add_comm]
      refine ⟨fun requested => ?_, fun stops => ?_, fun rises acknowledged => ?_⟩
      · rw [next] at requested
        cases before : halt events with
        | running | acknowledged => simp [before, Halt.after] at requested
        | requested => exact halting.requested before
      · have stopping := halting.stopping stops
        rw [next]
        cases before : halt events <;> simp_all [Halt.after]
      · rw [next] at acknowledged
        cases before : halt events with
        | running | requested => simp [before, Halt.after] at acknowledged
        | acknowledged earlier =>
            obtain ⟨stops, few⟩ := halting.halted earlier before
            simp only [before, Halt.after, Halt.acknowledged.injEq] at acknowledged
            exact ⟨stops, by omega⟩

/-- No more pulses follow a stop than the PIO held words at its acknowledgement. -/
theorem halting_of_run {s : State F} {choices : List Choice} {events : List Event}
    (run : (system F).Run (StopsWithin limit) initial choices events s) :
    Wellformed s ∧ Halting limit s events := by
  refine run.invariant (fun state events => Wellformed state ∧ Halting limit state events)
    ⟨wellformed_initial, halting_initial⟩ ?_
  rintro state events choice emitted next ⟨wellformed, halting⟩ within transition
  have move := move_of_step transition
  exact ⟨wellformed_move wellformed move, halting_move wellformed halting within move⟩

omit [SinglePrecision F] in
/-- There are no more pulses than words were under way. -/
theorem Halting.rises_le {s : State F} {events : List Event} (halting : Halting limit s events) :
    risesSinceStop events ≤ limit := by
  unfold risesSinceStop
  split
  · rename_i rises acknowledged
    have few := (halting.halted rises acknowledged).2
    omega
  · exact Nat.zero_le _

/-- After a stop which is acknowledged while the PIO holds words, a pulse can follow. -/
theorem pulse_after_stop {s : State F} {events : List Event} (halting : Halting 0 s events)
    (held : ¬StopsWithin 0 s .core1) :
    ∃ choices later next, (system F).Run (system F).unguarded s choices later next ∧
      risesSinceStop (events ++ later) ≠ 0 := by
  simp only [StopsWithin, forall_const, Classical.not_forall, Nat.le_zero,
    List.length_eq_zero_iff] at held
  obtain ⟨word, here, stops, waiting⟩ := held
  have asked : halt events = .requested := by
    cases before : halt events with
    | running => exact absurd before (halting.stopping stops)
    | requested => rfl
    | acknowledged rises =>
        have few := (halting.halted rises before).2
        exact absurd (List.eq_nil_of_length_eq_zero (by omega)) waiting
  let replied : State F := { s with point := .iteration, outbound := s.outbound ++ [word] }
  have replies : (system F).Run (system F).unguarded s [.core1] [.replied word] replied :=
    run_of_step (by simp [step, core1Step, here, replied])
  have still : replied.pending ≠ [] := waiting
  obtain ⟨choices, next, rises⟩ := rises_of_pending still
  refine ⟨_, _, next, replies.trans rises, ?_⟩
  simp [risesSinceStop, halt_append, asked, Halt.after]

/-- In every run whose stops are acknowledged with the PIO drained no pulse follows one before
the next move; from the first stop which is not, one can; and never do more follow than the
PIO can hold words. -/
theorem stop_at_boundary (F : Type) [SinglePrecision F] :
    (∀ choices events s, (system F).Run (StopsWithin 0) initial choices events s →
      risesSinceStop events = 0) ∧
    (∀ choices events s, (system F).Run (StopsWithin 0) initial choices events s →
      ¬StopsWithin 0 s .core1 →
      ∃ more later next, (system F).Run (system F).unguarded s more later next ∧
        risesSinceStop (events ++ later) ≠ 0) ∧
    ∀ choices events s, (system F).Run (system F).unguarded initial choices events s →
      risesSinceStop events ≤ pioFifoDepth + 1 := by
  refine ⟨fun _ _ _ run => ?_, fun _ _ _ run => pulse_after_stop (halting_of_run run).2,
    fun choices events s run => ?_⟩
  · exact Nat.le_zero.mp (halting_of_run run).2.rises_le
  · have within : (system F).Run (StopsWithin (pioFifoDepth + 1)) initial choices events s :=
      run.weaken fun s _ _ _ _ _ _ => s.length_pending
    exact (halting_of_run within).2.rises_le

/-! ### A stop with and without words in the PIO -/

/-- A move of ten steps, fed until the TX FIFO is full. -/
def fillChoices : List Choice := .core1 :: moveChoices 10 ++ List.replicate 10 .core1

/-- core0 sends `CMD_STOP`, core1 handles and acknowledges it. -/
def stopChoices : List Choice := [.arrive StepperCmd.stop.toWord, .core1, .core1]

/-- Decidable form of `StopsWithin`. -/
def stopsWithin (limit : Nat) (s : State F) (choice : Choice) : Bool :=
  match choice, s.point with
  | .core1, .reply _ => !s.motion.stopReq || decide (s.pending.length ≤ limit)
  | _, _ => true

omit [SinglePrecision F] in
/-- What the decidable form admits, the guard admits. -/
theorem stopsWithin_sound {s : State F} {choice : Choice}
    (within : stopsWithin limit s choice = true) : StopsWithin limit s choice := by
  rintro rfl word here stops
  simpa [stopsWithin, here, stops] using within

/-- The PIO has raised STEP for all four words before the stop is acknowledged. -/
theorem drained_stop_halts : ∃ choices events s,
    (system Binary32).Run (StopsWithin 0) initial choices events s ∧
    halt events = .acknowledged 0 ∧ s.motion.state = .idle ∧ risesSinceStop events = 0 := by
  have executed : (System.execute step (stopsWithin 0) (initial : State Binary32)
      (fillChoices ++ [.pull, .rise, .pull, .rise, .pull, .rise, .pull, .rise] ++ stopChoices ++
        [.core1, .core1, .core1])).map
        (fun result => (halt result.1, result.2.motion.state)) =
          some (.acknowledged 0, .idle) := by
    decide +kernel
  obtain ⟨⟨events, s⟩, executed, reached⟩ := Option.map_eq_some_iff.mp executed
  simp only [Prod.mk.injEq] at reached
  have followed : (system Binary32).Run (fun s choice => stopsWithin 0 s choice = true)
      initial _ events s := System.run_of_execute executed
  have run := followed.weaken fun _ _ => stopsWithin_sound
  exact ⟨_, events, s, run, reached.1, reached.2, (stop_at_boundary Binary32).1 _ events s run⟩

/-- A stop acknowledged while four words are queued is followed by four pulses. -/
theorem queued_steps_follow_stop :
    ¬∀ choices events s,
      (system Binary32).Run (system Binary32).unguarded initial choices events s →
      risesSinceStop events = 0 := by
  intro halts
  have executed : (System.execute step (fun (_ : State Binary32) _ => true) initial
      (fillChoices ++ stopChoices ++ [.pull, .rise, .pull, .rise, .pull, .rise, .pull, .rise])).map
        (fun result => risesSinceStop result.1) = some 4 := by
    decide +kernel
  obtain ⟨⟨events, s⟩, executed, rises⟩ := Option.map_eq_some_iff.mp executed
  have run : (system Binary32).Run (system Binary32).unguarded initial _ events s :=
    System.unguarded_run_of_execute executed
  rw [halts _ events s run] at rises
  cases rises

end Rp2350Stepper.Core1
