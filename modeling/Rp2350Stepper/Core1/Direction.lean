import Rp2350Stepper.Core1.Control
import Mathlib.Data.List.Infix

/-!
# The level of `PIN_DIR` at each STEP pulse

`pushLevels` reads from the trace the direction of the move whose `feed_step`
pushed each word, `riseLevels` the level of the pin at each rising edge. As the
PIO emits one pulse for each word in order, the pulses agree with their moves
exactly when the second list is a prefix of the first.

`M.state` returns to idle when the last word is pushed, not when it is emitted,
so an accepted reversal can find words of the last move still queued.
`ReversesDrained` is the condition under which it does not.
-/

namespace Rp2350Stepper.Core1

open Rp2350Stepper.Num Rp2350Stepper.Data Rp2350Stepper.Semantics

/-- The direction of the latest started move. -/
def moveLevel (level : Bool) : List Event → Bool
  | [] => level
  | .started steps :: events => moveLevel (Motion.forward steps) events
  | _ :: events => moveLevel level events

/-- The direction of the move each pushed word belongs to, in order. -/
def pushLevelsFrom (level : Bool) : List Event → List Bool
  | [] => []
  | .started steps :: events => pushLevelsFrom (Motion.forward steps) events
  | .pushed _ :: events => level :: pushLevelsFrom level events
  | _ :: events => pushLevelsFrom level events

/-- The directions of the pushed words of a run from reset. -/
def pushLevels (events : List Event) : List Bool := pushLevelsFrom true events

/-- The level of `PIN_DIR` at each rising edge of STEP, in order. -/
def riseLevels : List Event → List Bool
  | [] => []
  | .rose level :: events => level :: riseLevels events
  | _ :: events => riseLevels events

/-- The level of the last move. -/
theorem moveLevel_append (level : Bool) (events later : List Event) :
    moveLevel level (events ++ later) = moveLevel (moveLevel level events) later := by
  induction events generalizing level with
  | nil => rfl
  | cons event rest inductionHypothesis =>
      cases event <;> simp only [List.cons_append, moveLevel, inductionHypothesis]

/-- The levels of the words, in order. -/
theorem pushLevelsFrom_append (level : Bool) (events later : List Event) :
    pushLevelsFrom level (events ++ later) =
      pushLevelsFrom level events ++ pushLevelsFrom (moveLevel level events) later := by
  induction events generalizing level with
  | nil => rfl
  | cons event rest inductionHypothesis =>
      cases event <;>
        simp only [List.cons_append, pushLevelsFrom, moveLevel, inductionHypothesis]

/-- The levels at the edges, in order. -/
theorem riseLevels_append (events later : List Event) :
    riseLevels (events ++ later) = riseLevels events ++ riseLevels later := by
  induction events with
  | nil => rfl
  | cons event rest inductionHypothesis =>
      cases event <;> simp only [List.cons_append, riseLevels, inductionHypothesis]

variable {F : Type} [SinglePrecision F]

/-- The words whose pulses are still to come: pulled but not raised, then queued. -/
def State.pending (s : State F) : List Word := s.osr.toList ++ s.txFifo.items

/-- A step which reverses `PIN_DIR` finds no pulse still to come. -/
def ReversesDrained (s : State F) (choice : Choice) : Prop :=
  choice = .core1 → ∀ steps, s.point = .direction steps →
    s.pending = [] ∨ s.dir = Motion.forward steps

/-- Every word still to be emitted belongs to a move in the pin's direction. -/
structure Directed (s : State F) (events : List Event) : Prop where
  wellformed : Wellformed s
  moving : s.motion.state = .moving → moveLevel true events = s.dir
  settling : ∀ steps, s.point = .settle steps → s.dir = Motion.forward steps
  pending : pushLevels events =
    riseLevels events ++ List.replicate s.pending.length s.dir

/-- At first nothing is under way. -/
theorem directed_initial : Directed (initial : State F) [] where
  wellformed := wellformed_initial
  moving := by simp [initial, Motion.initial]
  settling := by simp [initial]
  pending := by simp [pushLevels, pushLevelsFrom, riseLevels, State.pending, initial]

/-- An event which neither starts a move, pushes a word nor raises STEP leaves
the levels alone. -/
private theorem levels_quiet (events : List Event) {emitted : List Event}
    (quiet : ∀ event ∈ emitted, (∃ cmd payload, event = .decoded cmd payload) ∨
      event = .stopRequested ∨ event = .idled ∨ ∃ word, event = .replied word) :
    moveLevel true (events ++ emitted) = moveLevel true events ∧
    pushLevels (events ++ emitted) = pushLevels events ∧
    riseLevels (events ++ emitted) = riseLevels events := by
  induction emitted using List.reverseRecOn with
  | nil => simp
  | append_singleton rest last inductionHypothesis =>
      obtain ⟨level, pushes, rises⟩ := inductionHypothesis
        fun event member => quiet event (by simp [member])
      rw [← List.append_assoc]
      simp only [pushLevels] at pushes ⊢
      simp only [moveLevel_append true (events ++ rest), level,
        pushLevelsFrom_append true (events ++ rest), pushes, riseLevels_append (events ++ rest),
        rises]
      rcases quiet last (by simp) with ⟨cmd, payload, rfl⟩ | rfl | rfl | ⟨word, rfl⟩ <;>
        simp [moveLevel, pushLevelsFrom, riseLevels]

omit [SinglePrecision F] in
/-- A quiet step which keeps the motion state, the pin and the words to come. -/
theorem directed_quiet {s next : State F} {emitted events : List Event}
    (directed : Directed s events) (wellformed : Wellformed next)
    (same : next.motion.state = .moving → s.motion.state = .moving)
    (point : ∀ steps, next.point = .settle steps → s.point = .settle steps)
    (dir : next.dir = s.dir) (count : next.pending.length = s.pending.length)
    (quiet : ∀ event ∈ emitted, (∃ cmd payload, event = .decoded cmd payload) ∨
      event = .stopRequested ∨ event = .idled ∨ ∃ word, event = .replied word) :
    Directed next (events ++ emitted) := by
  obtain ⟨level, pushes, rises⟩ := levels_quiet events quiet
  refine ⟨wellformed, fun h => ?_, fun steps h => ?_, ?_⟩
  · rw [level, dir, directed.moving (same h)]
  · rw [dir, directed.settling steps (point steps h)]
  · rw [pushes, rises, count, dir, directed.pending]

/-- A step keeps the levels in order. -/
theorem directed_move {s next : State F} {choice : Choice} {emitted events : List Event}
    (directed : Directed s events) (drained : ReversesDrained s choice)
    (move : Move s choice emitted next) : Directed next (events ++ emitted) := by
  have wellformed := wellformed_move directed.wellformed move
  cases move with
  | iteration here =>
      refine directed_quiet directed wellformed (fun h => h) (fun steps h => ?_) rfl rfl (by simp)
      simp only at h
      split at h <;> simp at h
  | feedEnds here running ends =>
      exact directed_quiet directed wellformed (by simp) (by simp) rfl rfl (by simp)
  | feedPushes here running stopReq remaining word txFifo room queued =>
      have level : moveLevel true events = s.dir := directed.moving running
      have rises : riseLevels (events ++ [.pushed word]) = riseLevels events := by
        simp [riseLevels_append, riseLevels]
      have pushes : pushLevels (events ++ [.pushed word]) = pushLevels events ++ [s.dir] := by
        simp [pushLevels, pushLevelsFrom_append, pushLevelsFrom, level]
      refine ⟨wellformed, fun _ => ?_, by simp, ?_⟩
      · simp [moveLevel_append, moveLevel, level]
      · rw [rises, pushes, directed.pending]
        simp only [State.pending, queued, List.length_append, List.length_singleton,
          List.append_assoc, ← List.replicate_succ']
        rfl
  | feedLoses here running full =>
      have room := directed.wellformed.room here
      omega
  | stopMoving here inbound read running =>
      exact directed_quiet directed wellformed (fun _ => running) (by simp) rfl rfl (by simp)
  | payload cmd here word inbound read =>
      refine directed_quiet directed wellformed (fun h => ?_) (fun steps h => ?_) rfl rfl (by simp)
      · rwa [← (handlePayload_motion s.motion cmd word).1]
      · rcases handlePayload_point s.motion cmd word with ⟨reply, point⟩ | ⟨_, _, _, point⟩ <;>
          simp [point] at h
  | direction steps here =>
      obtain ⟨idle, _⟩ := directed.wellformed.starting steps (.inl here)
      refine ⟨wellformed, fun h => absurd h idle, fun steps' h => ?_, ?_⟩
      · simp only [Point.settle.injEq] at h
        rw [h]
      · rw [List.append_nil, directed.pending]
        rcases drained rfl steps here with empty | same
        · simp [State.pending] at empty
          simp [State.pending, empty]
        · rw [← same]
          rfl
  | settle steps here =>
      have dir : s.dir = Motion.forward steps := directed.settling steps here
      have pushes : pushLevels (events ++ [.started steps]) = pushLevels events := by
        simp [pushLevels, pushLevelsFrom_append, pushLevelsFrom]
      have rises : riseLevels (events ++ [.started steps]) = riseLevels events := by
        simp [riseLevels_append, riseLevels]
      refine ⟨wellformed, fun _ => ?_, by simp, ?_⟩
      · simp [moveLevel_append, moveLevel, dir]
      · rw [pushes, rises, directed.pending]
        rfl
  | arrive word => exact directed_quiet directed wellformed (fun h => h) (fun _ h => h) rfl rfl (by simp)
  | take reply outbound queued =>
      exact directed_quiet directed wellformed (fun h => h) (fun _ h => h) rfl rfl (by simp)
  | pull word txFifo free queued =>
      refine directed_quiet directed wellformed (fun h => h) (fun _ h => h) rfl ?_ (by simp)
      simp [State.pending, free, queued]
  | rise word pulled =>
      have level : moveLevel true (events ++ [.rose s.dir]) = moveLevel true events := by
        simp [moveLevel_append, moveLevel]
      have pushes : pushLevels (events ++ [.rose s.dir]) = pushLevels events := by
        simp [pushLevels, pushLevelsFrom_append, pushLevelsFrom]
      have rises : riseLevels (events ++ [.rose s.dir]) = riseLevels events ++ [s.dir] := by
        simp [riseLevels_append, riseLevels]
      refine ⟨wellformed, fun h => ?_, directed.settling, ?_⟩
      · rw [level]
        exact directed.moving h
      · rw [pushes, rises, directed.pending]
        simp only [State.pending, pulled, Option.toList_some, Option.toList_none,
          List.nil_append, List.singleton_append, List.length_cons, List.replicate_succ,
          List.append_assoc]
  | _ => exact directed_quiet directed wellformed (fun h => h) (by simp) rfl rfl (by simp)

/-- The pending words stay directed along every run whose reversals are drained. -/
theorem directed_of_run {s : State F} {choices : List Choice} {events : List Event}
    (run : (system F).Run ReversesDrained initial choices events s) : Directed s events := by
  refine System.Run.invariant Directed directed_initial ?_ run
  intro state events choice emitted next directed drained transition
  exact directed_move directed drained (move_of_step transition)

/-- A word still to come can be raised STEP for. -/
theorem rises_of_pending {s : State F} (waiting : s.pending ≠ []) :
    ∃ choices next, (system F).Run (system F).unguarded s choices [.rose s.dir] next := by
  cases pulled : s.osr with
  | some word =>
      have rises : (system F).Run (system F).unguarded s [.rise] [.rose s.dir]
          { s with osr := none } := run_of_step (by simp [step, pulled])
      exact ⟨_, _, rises⟩
  | none =>
      have queued : s.txFifo.pop? ≠ none := by
        rw [ne_eq, Fifo.pop?_eq_none_iff]
        simpa [State.pending, pulled] using waiting
      obtain ⟨⟨word, txFifo⟩, popped⟩ := Option.ne_none_iff_exists'.mp queued
      let loaded : State F := { s with osr := some word, txFifo := txFifo }
      have pulls : (system F).Run (system F).unguarded s [.pull] [] loaded :=
        run_of_step (by simp [step, loaded, pulled, popped])
      have rises : (system F).Run (system F).unguarded loaded [.rise] [.rose s.dir]
          { loaded with osr := none } := run_of_step (by simp [step, loaded])
      exact ⟨_, _, pulls.trans rises⟩

/-- A reversal written over pending words raises STEP with the wrong level, once
the PIO goes on to its next word. -/
theorem misdirected_of_undrained {s : State F} {events : List Event}
    (directed : Directed s events) (undrained : ¬ReversesDrained s .core1) :
    ∃ choices later next, (system F).Run (system F).unguarded s choices later next ∧
      ¬riseLevels (events ++ later) <+: pushLevels (events ++ later) := by
  simp only [ReversesDrained, forall_const, Classical.not_forall, not_or] at undrained
  obtain ⟨steps, here, waiting, reverses⟩ := undrained
  have mismatch : ¬riseLevels (events ++ [.rose (Motion.forward steps)]) <+:
      pushLevels (events ++ [.rose (Motion.forward steps)]) := by
    have pushes : pushLevels (events ++ [.rose (Motion.forward steps)]) = pushLevels events := by
      simp [pushLevels, pushLevelsFrom_append, pushLevelsFrom]
    rw [pushes, directed.pending, riseLevels_append, List.prefix_append_right_inj]
    obtain ⟨count, count_eq⟩ := Nat.exists_eq_succ_of_ne_zero
      (fun none => waiting (List.eq_nil_of_length_eq_zero none))
    rw [count_eq, List.replicate_succ]
    simp only [riseLevels, List.cons_prefix_cons, not_and]
    intro same
    exact absurd same.symm reverses
  let turned : State F := { s with point := .settle steps, dir := Motion.forward steps }
  have turn : (system F).Run (system F).unguarded s [.core1] [] turned :=
    run_of_step (by simp [step, core1Step, here, turned])
  have still : turned.pending ≠ [] := waiting
  obtain ⟨choices, next, rises⟩ := rises_of_pending still
  exact ⟨_, _, next, turn.trans rises, mismatch⟩

/-- Every STEP pulse rises with the `PIN_DIR` level of its own move in every run
whose reversals find the PIO drained; and from the first reversal which does not,
a pulse with the other level can follow. -/
theorem pulse_levels (F : Type) [SinglePrecision F] :
    (∀ choices events s, (system F).Run ReversesDrained initial choices events s →
      riseLevels events <+: pushLevels events) ∧
    (∀ choices events s, (system F).Run ReversesDrained initial choices events s →
      ¬ReversesDrained s .core1 →
      ∃ more later next, (system F).Run (system F).unguarded s more later next ∧
        ¬riseLevels (events ++ later) <+: pushLevels (events ++ later)) := by
  constructor
  · intro choices events s run
    rw [(directed_of_run run).pending]
    exact List.prefix_append _ _
  · intro choices events s run undrained
    exact misdirected_of_undrained (directed_of_run run) undrained

/-! ### One step forward, one step back -/

/-- A one-step move fed to its end, with the PIO yet to pull its word. -/
def feedOneChoices : List Choice :=
  [.core1, .core1, .core1, .core1, .core1]

/-- Decidable form of `ReversesDrained`. -/
def reversesDrained (s : State F) (choice : Choice) : Bool :=
  match choice, s.point with
  | .core1, .direction steps => s.pending.isEmpty || s.dir == Motion.forward steps
  | _, _ => true

omit [SinglePrecision F] in
/-- What the decidable form admits, the guard admits. -/
theorem reversesDrained_sound {s : State F} {choice : Choice}
    (drained : reversesDrained s choice = true) : ReversesDrained s choice := by
  rintro rfl steps here
  simpa [reversesDrained, here, List.isEmpty_iff] using drained

/-- A reversal accepted after the pulse of the last move raises STEP at both
levels, each for its own move. -/
theorem drained_reversal_directed :
    ∃ choices events s, (system Binary32).Run ReversesDrained initial choices events s ∧
      riseLevels events = [true, false] ∧ riseLevels events <+: pushLevels events := by
  have executed : (System.execute step reversesDrained (initial : State Binary32)
      (.core1 :: moveChoices 1 ++ feedOneChoices ++ [.pull, .rise] ++
        moveChoices (-1) ++ feedOneChoices ++ [.pull, .rise])).map
        (fun result => riseLevels result.1) = some [true, false] := by
    decide +kernel
  obtain ⟨⟨events, s⟩, executed, levels⟩ := Option.map_eq_some_iff.mp executed
  have followed : (system Binary32).Run (fun s choice => reversesDrained s choice = true)
      initial _ events s := System.run_of_execute executed
  have run := followed.weaken fun _ _ => reversesDrained_sound
  exact ⟨_, events, s, run, levels, (pulse_levels Binary32).1 _ events s run⟩

/-- A reversal accepted while the last word of a finished move is queued emits
that word's pulse in the wrong direction. -/
theorem queued_pulse_misdirected :
    ¬∀ choices events s,
      (system Binary32).Run (system Binary32).unguarded initial choices events s →
      riseLevels events <+: pushLevels events := by
  intro agree
  have executed : (System.execute step (fun (_ : State Binary32) _ => true) initial
      (.core1 :: moveChoices 1 ++ feedOneChoices ++ moveChoices (-1) ++ [.pull, .rise])).map
        (fun result => (riseLevels result.1, pushLevels result.1)) = some ([false], [true]) := by
    decide +kernel
  obtain ⟨⟨events, s⟩, executed, levels⟩ := Option.map_eq_some_iff.mp executed
  simp only [Prod.mk.injEq] at levels
  have run : (system Binary32).Run (system Binary32).unguarded initial _ events s :=
    System.unguarded_run_of_execute executed
  have mismatch := agree _ events s run
  rw [levels.1, levels.2] at mismatch
  exact absurd mismatch (by decide)

end Rp2350Stepper.Core1
