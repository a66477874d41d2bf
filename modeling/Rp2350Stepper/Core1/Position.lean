import Rp2350Stepper.Core1.Accounting
import Rp2350Stepper.Core1.Direction
import Rp2350Stepper.Core1.Pulses
import Rp2350Stepper.Core1.Stops

/-!
# Where the axis is

The position of the axis is the pulses on STEP, each counted with the level of `PIN_DIR` at its
edge. At any moment it falls short of the moves started by what they have not pushed yet, what
the PIO has not emitted yet, and what moves which were stopped have left undone.
-/

namespace Rp2350Stepper.Core1

open Rp2350Stepper.Num Rp2350Stepper.Data Rp2350Stepper.Semantics

/-- Some steps in a direction. -/
def signed (level : Bool) (count : Int) : Int := if level then count else -count

/-- Steps in one direction add up. -/
theorem signed_add (level : Bool) (count count' : Int) :
    signed level (count + count') = signed level count + signed level count' := by
  cases level <;> simp only [signed, Bool.false_eq_true, if_false, if_true]
  omega

@[simp] theorem signed_zero (level : Bool) : signed level 0 = 0 := by
  cases level <;> rfl

/-- A step count is its magnitude in its direction. -/
theorem signed_forward {steps : Int} : signed (Motion.forward steps) steps.natAbs = steps := by
  by_cases positive : 0 < steps
  · simp only [signed, Motion.forward, positive, decide_true, if_true]
    omega
  · simp only [signed, Motion.forward, positive, decide_false, Bool.false_eq_true, if_false]
    omega

/-! ### What a trace tells -/

/-- The position after some events. -/
def position : List Event → Int
  | [] => 0
  | .rose level :: events => signed level 1 + position events
  | _ :: events => position events

/-- The sum of the moves started. -/
def commanded : List Event → Int
  | [] => 0
  | .started steps :: events => steps + commanded events
  | _ :: events => commanded events

/-- What a move which ends has left undone. -/
def undone : Option Progress → Event → Int
  | some move, .idled => signed (Motion.forward move.steps) (move.steps.natAbs - move.pushed)
  | _, _ => 0

/-- What the stops have left undone, from some progress on. -/
def abandonedFrom (open_ : Option Progress) : List Event → Int
  | [] => 0
  | event :: events => undone open_ event + abandonedFrom (Progress.after open_ event) events

/-- What the moves which have ended have left undone. -/
def abandoned (events : List Event) : Int := abandonedFrom none events

/-- The positions of two stretches add up. -/
theorem position_append (events later : List Event) :
    position (events ++ later) = position events + position later := by
  induction events with
  | nil => simp only [List.nil_append, position, Int.zero_add]
  | cons event rest inductionHypothesis =>
      cases event <;> simp only [List.cons_append, position, inductionHypothesis, Int.add_assoc]

theorem commanded_append (events later : List Event) :
    commanded (events ++ later) = commanded events + commanded later := by
  induction events with
  | nil => simp only [List.nil_append, commanded, Int.zero_add]
  | cons event rest inductionHypothesis =>
      cases event <;> simp only [List.cons_append, commanded, inductionHypothesis, Int.add_assoc]

theorem abandonedFrom_append (open_ : Option Progress) (events later : List Event) :
    abandonedFrom open_ (events ++ later) =
      abandonedFrom open_ events + abandonedFrom (events.foldl Progress.after open_) later := by
  induction events generalizing open_ with
  | nil => simp only [List.nil_append, abandonedFrom, List.foldl_nil, Int.zero_add]
  | cons event rest inductionHypothesis =>
      simp only [List.cons_append, abandonedFrom, List.foldl_cons, inductionHypothesis,
        Int.add_assoc]

/-- One more event may leave something undone. -/
theorem abandoned_append_singleton (events : List Event) (event : Event) :
    abandoned (events ++ [event]) = abandoned events + undone (progress events) event := by
  unfold abandoned
  rw [abandonedFrom_append]
  simp only [abandonedFrom, Int.add_zero]
  rfl

/-- Only the end of a move leaves steps undone. -/
theorem abandoned_going (events : List Event) {event : Event} (going : event ≠ .idled) :
    abandoned (events ++ [event]) = abandoned events := by
  rw [abandoned_append_singleton]
  cases event with
  | idled => exact absurd rfl going
  | _ => cases progress events <;> exact Int.add_zero _

/-- A move in progress is the one last started. -/
theorem moveLevel_of_progress {events : List Event} {move : Progress}
    (open_ : progress events = some move) :
    moveLevel true events = Motion.forward move.steps := by
  induction events using List.reverseRecOn generalizing move with
  | nil => cases open_
  | append_singleton events event inductionHypothesis =>
      rw [progress_append_singleton] at open_
      rw [moveLevel_append]
      cases event with
      | started steps =>
          obtain rfl := Option.some.inj open_
          rfl
      | pushed | stopRequested =>
          obtain ⟨earlier, before, rfl⟩ := Option.map_eq_some_iff.mp open_
          exact (inductionHypothesis before :)
      | idled => cases open_
      | _ => exact inductionHypothesis open_

/-! ### The balance -/

variable {F : Type} [SinglePrecision F]

/-- The steps of the move in progress which have not been pushed. -/
def State.unfed (s : State F) : Int := if s.motion.state = .moving then s.motion.remaining else 0

/-- `PIN_DIR` and the step count of a move are good for every pulse to come. -/
def Sound (s : State F) (choice : Choice) : Prop :=
  MovesNegatable s choice ∧ ReversesDrained s choice

/-- Pulses, words to come, steps to be pushed and steps left undone add up. -/
structure Balanced (s : State F) (events : List Event) : Prop where
  accounted : Accounted s events
  directed : Directed s events
  total : position events + signed s.dir (s.pending.length + s.unfed) + abandoned events =
    commanded events
  unstopped : .stopRequested ∉ events → abandoned events = 0 ∧ s.motion.stopReq = false

/-- At first there is nothing to balance. -/
theorem balanced_initial : Balanced (initial : State F) [] where
  accounted := accounted_initial
  directed := directed_initial
  total := by simp [position, commanded, abandoned, abandonedFrom, State.pending, State.unfed,
    initial, Motion.initial]
  unstopped _ := ⟨rfl, rfl⟩

/-- An event which tells nothing of the position. -/
def Event.Quiet : Event → Prop
  | .started _ | .idled | .rose _ => False
  | _ => True

/-- Quiet events change no sum. -/
theorem sums_quiet (events : List Event) {emitted : List Event}
    (quiet : ∀ event ∈ emitted, event.Quiet) :
    position (events ++ emitted) = position events ∧
      commanded (events ++ emitted) = commanded events ∧
      abandoned (events ++ emitted) = abandoned events := by
  induction emitted using List.reverseRecOn with
  | nil => rw [List.append_nil]; exact ⟨rfl, rfl, rfl⟩
  | append_singleton emitted event inductionHypothesis =>
      obtain ⟨position', commanded', abandoned'⟩ := inductionHypothesis fun event member =>
        quiet event (List.mem_append_left _ member)
      have last : event.Quiet := quiet event (by simp)
      rw [← List.append_assoc]
      have going : event ≠ .idled := by
        rintro rfl
        exact last
      refine ⟨?_, ?_, (abandoned_going _ going).trans abandoned'⟩
      · rw [position_append, position']
        cases event <;> first | exact last.elim | exact Int.add_zero _
      · rw [commanded_append, commanded']
        cases event <;> first | exact last.elim | exact Int.add_zero _

omit [SinglePrecision F] in
/-- A quiet step which keeps the pin, and the words to come and to be pushed together. -/
theorem balanced_quiet {s next : State F} {emitted events : List Event}
    (balanced : Balanced s events) (accounted : Accounted next (events ++ emitted))
    (directed : Directed next (events ++ emitted)) (quiet : ∀ event ∈ emitted, event.Quiet)
    (dir : next.dir = s.dir)
    (count : next.pending.length + next.unfed = s.pending.length + s.unfed)
    (stopReq : next.motion.stopReq = s.motion.stopReq ∨ .stopRequested ∈ emitted) :
    Balanced next (events ++ emitted) := by
  obtain ⟨position', commanded', abandoned'⟩ := sums_quiet events quiet
  refine ⟨accounted, directed, ?_, fun never => ?_⟩
  · rw [position', commanded', abandoned', dir, count]
    exact balanced.total
  · simp only [List.mem_append, not_or] at never
    obtain ⟨nothing, calm⟩ := balanced.unstopped never.1
    exact ⟨abandoned'.trans nothing, (stopReq.resolve_right never.2).trans calm⟩

/-- A step keeps the balance. -/
theorem balanced_move {s next : State F} {choice : Choice} {emitted events : List Event}
    (balanced : Balanced s events) (sound : Sound s choice) (move : Move s choice emitted next) :
    Balanced next (events ++ emitted) := by
  have accounted := accounted_move balanced.accounted sound.1 move
  have directed := directed_move balanced.directed sound.2 move
  cases move with
  | feedEnds here running ends =>
      obtain ⟨move, open_, count, bound, stopped⟩ := balanced.accounted.moving running
      have level : Motion.forward move.steps = s.dir := by
        rw [← moveLevel_of_progress open_, balanced.directed.moving running]
      have left : abandoned (events ++ [.idled]) =
          abandoned events + signed s.dir s.motion.remaining := by
        rw [abandoned_append_singleton, open_, undone, level, ← count,
          add_sub_cancel_left]
      refine ⟨accounted, directed, ?_, fun never => ?_⟩
      · have total := balanced.total
        simp only [State.unfed, running, if_true, signed_add] at total
        rw [position_append, commanded_append, left]
        simp only [position, commanded, State.unfed, reduceCtorEq, if_false, Int.add_zero,
          State.pending] at total ⊢
        omega
      · simp only [List.mem_append, not_or] at never
        obtain ⟨nothing, calm⟩ := balanced.unstopped never.1
        have finished : s.motion.remaining = 0 := by
          have none : s.motion.remaining ≤ 0 := by simpa [calm] using ends
          omega
        rw [left, nothing, finished, signed_zero]
        exact ⟨rfl, rfl⟩
  | feedPushes here running stopReq remaining word txFifo room queued =>
      refine balanced_quiet balanced accounted directed (by simp [Event.Quiet]) rfl ?_ (.inl rfl)
      simp only [State.pending, State.unfed, queued, running, if_true, List.length_append,
        List.length_singleton]
      omega
  | feedLoses here running full =>
      have room := balanced.directed.wellformed.room here
      omega
  | stopMoving here inbound read running =>
      exact balanced_quiet balanced accounted directed (by simp [Event.Quiet]) rfl rfl
        (.inr (by simp))
  | payload cmd here word inbound read =>
      obtain ⟨state, remaining, stopReq, _⟩ := handlePayload_motion s.motion cmd word
      refine balanced_quiet balanced accounted directed (by simp [Event.Quiet]) rfl ?_ (.inl stopReq)
      simp only [State.unfed, state, remaining]
      rfl
  | direction steps here =>
      have idle : s.motion.state ≠ .moving :=
        (balanced.directed.wellformed.starting steps (.inl here)).1
      refine ⟨accounted, directed, ?_, ?_⟩
      · have total := balanced.total
        simp only [State.unfed, idle, if_false, Int.add_zero, List.append_nil] at total ⊢
        rcases sound.2 rfl steps here with empty | same
        · have none : s.pending.length = 0 := by rw [empty]; rfl
          rw [none, Int.natCast_zero, signed_zero] at total
          change position events + signed _ (s.pending.length : Int) + _ = _
          rwa [none, Int.natCast_zero, signed_zero]
        · rw [← same]
          exact total
      · rw [List.append_nil]
        exact balanced.unstopped
  | settle steps here =>
      obtain ⟨idle, -⟩ := balanced.directed.wellformed.starting steps (.inr here)
      obtain ⟨low, high⟩ := balanced.accounted.loading steps (.inr here)
      have dir : s.dir = Motion.forward steps := balanced.directed.settling steps here
      refine ⟨accounted, directed, ?_, fun never => ?_⟩
      · have total := balanced.total
        have whole : signed s.dir steps.natAbs = steps := dir ▸ signed_forward
        simp only [State.unfed, idle, if_false, Int.add_zero] at total
        rw [position_append, commanded_append, abandoned_going _ (by simp)]
        simp only [position, commanded, State.unfed, Motion.motionStart_state, if_true,
          Motion.motionStart_remaining s.motion low high, State.pending, signed_add,
          Int.add_zero] at total ⊢
        omega
      · simp only [List.mem_append, not_or] at never
        obtain ⟨nothing, -⟩ := balanced.unstopped never.1
        exact ⟨(abandoned_going _ (by simp)).trans nothing, rfl⟩
  | pull word txFifo free queued =>
      refine balanced_quiet balanced accounted directed (by simp) rfl ?_ (.inl rfl)
      simp [State.pending, State.unfed, free, queued]
  | rise word pulled =>
      refine ⟨accounted, directed, ?_, fun never => ?_⟩
      · have total := balanced.total
        rw [position_append, commanded_append, abandoned_going _ (by simp)]
        simp only [position, commanded, State.unfed, State.pending, pulled,
          Option.toList_some, Option.toList_none, List.nil_append, List.length_append,
          List.length_singleton, Int.add_zero, signed_add, Int.natCast_add,
          Int.natCast_one] at total ⊢
        omega
      · simp only [List.mem_append, not_or] at never
        obtain ⟨nothing, calm⟩ := balanced.unstopped never.1
        exact ⟨(abandoned_going _ (by simp)).trans nothing, calm⟩
  | _ =>
      exact balanced_quiet balanced accounted directed (by simp [Event.Quiet]) rfl rfl (.inl rfl)

theorem balanced_of_run {s : State F} {choices : List Choice} {events : List Event}
    (run : (system F).Run Sound initial choices events s) : Balanced s events := by
  refine System.Run.invariant Balanced balanced_initial ?_ run
  intro state events choice emitted next balanced sound transition
  exact balanced_move balanced sound (move_of_step transition)

omit [SinglePrecision F] in
/-- Only core1's own steps can be unsound. -/
theorem sound_others (s : State F) (choice : Choice) (other : choice ≠ .core1) : Sound s choice :=
  ⟨fun own => absurd own other, fun own => absurd own other⟩

/-- On a board down to its cycles, in every run in which no `CMD_MOVE` of `INT32_MIN` steps is
handled and no move reverses `PIN_DIR` before the pulses of the last one are out: the position,
the at most five words on their way to STEP, the steps of the move in progress still to be pushed
and the steps which stopped moves have left undone add up to the moves started. So the axis is
where they lead once core1 is idle and the words are out, if no move has been stopped. -/
theorem position_balanced (F : Type) [SinglePrecision F] {start b : Board F}
    {choices : List BoardChoice} {events : List Event} (initially : start.Initial)
    (run : (board F).Run (Board.guarded Sound) start choices events b) :
    position events + signed b.core1.dir (b.core1.pending.length + b.core1.unfed) +
        abandoned events = commanded events ∧
      b.core1.pending.length ≤ 5 ∧
      (.stopRequested ∉ events → b.core1.motion.state ≠ .moving → b.core1.pending = [] →
        position events = commanded events) := by
  obtain ⟨-, moves, followed⟩ := board_refines sound_others initially run
  have balanced := balanced_of_run followed
  refine ⟨balanced.total, b.core1.length_pending, fun never idle drained => ?_⟩
  have total := balanced.total
  obtain ⟨nothing, -⟩ := balanced.unstopped never
  simp only [State.unfed, idle, drained, if_false, List.length_nil, Int.natCast_zero,
    Int.add_zero, signed_zero, nothing] at total
  exact total

/-- Decidable form of the guard. -/
def soundBoard (b : Board F) (choice : BoardChoice) : Bool :=
  choice != .core1 || movesNegatable b.core1 .core1 && reversesDrained b.core1 .core1

omit [SinglePrecision F] in
/-- What the decidable form admits, the guard admits. -/
theorem soundBoard_sound {b : Board F} {choice : BoardChoice} (sound : soundBoard b choice = true) :
    Board.guarded Sound b choice := by
  rintro rfl
  simp only [soundBoard, bne_self_eq_false, Bool.false_or, Bool.and_eq_true] at sound
  exact ⟨movesNegatable_sound sound.1, reversesDrained_sound sound.2⟩

/-- A board at reset. -/
def Board.initial : Board F where
  core1 := Core1.initial
  machine := ⟨Pio.stepper.wrapTarget, 0, 0, 0, .empty⟩
  level := false

/-- One step forward, with its pulse out and core1 idle again. -/
theorem one_step_forward : ∃ choices events b,
    (board Binary32).Run (Board.guarded Sound) Board.initial choices events b ∧
    commanded events = 1 ∧ position events = commanded events := by
  have executed : (System.execute boardStep soundBoard (Board.initial : Board Binary32)
      ([.core1, .arrive StepperCmd.move.toWord, .arrive 1] ++ List.replicate 11 .core1 ++
        List.replicate 4 .cycle)).map (fun result => (commanded result.1,
          decide (.stopRequested ∈ result.1), result.2.core1.motion.state, result.2.core1.pending)) =
      some (1, false, .idle, []) := by
    decide +kernel
  obtain ⟨⟨events, b⟩, executed, reached⟩ := Option.map_eq_some_iff.mp executed
  have followed : (board Binary32).Run (fun b choice => soundBoard b choice = true) Board.initial _
      events b := System.run_of_execute executed
  have run := followed.weaken fun _ _ => soundBoard_sound
  simp only [Prod.mk.injEq, decide_eq_false_iff_not] at reached
  obtain ⟨one, never, idle, drained⟩ := reached
  have initially : Board.Initial (Board.initial : Board Binary32) := ⟨rfl, ⟨rfl, rfl⟩, rfl⟩
  obtain ⟨-, -, exact_⟩ := position_balanced Binary32 initially run
  exact ⟨_, events, b, run, one, exact_ never (by simp [idle]) drained⟩

end Rp2350Stepper.Core1
