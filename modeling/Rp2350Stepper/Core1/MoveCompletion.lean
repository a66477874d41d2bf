import Rp2350Stepper.Core1.Control
import Rp2350Stepper.Semantics.Schedules

/-!
# Accepted moves run to completion

Whatever the parties do, as long as core1 keeps running and the PIO does not leave its TX FIFO
full for ever, an accepted move which is not stopped pushes all steps `motion_start` has
loaded and then ends. These are the magnitude of the step count, unless negating the count
overflows.
-/

namespace Rp2350Stepper.Core1

open Rp2350Stepper.Num Rp2350Stepper.Data Rp2350Stepper.Semantics

/-- The words pushed in a part of a trace. -/
def pushes (events : List Event) : Nat :=
  events.countP fun
    | .pushed _ => true
    | _ => false

/-- The words of two stretches add up. -/
theorem pushes_append (events later : List Event) :
    pushes (events ++ later) = pushes events + pushes later :=
  List.countP_append

/-- The steps `motion_start` loads into `M.remaining`. -/
def loaded (steps : Int) : Int := if Motion.forward steps then steps else int32 (-steps)

/-- `motion_start` does not overflow when it negates a step count. -/
def NegationFits (steps : Int) : Prop := Motion.forward steps = false → -steps < 2 ^ 31

/-- The steps are loaded as they are, except for the lowest number. -/
theorem loaded_toNat_iff {steps : Int} (low : -2 ^ 31 ≤ steps) (high : steps < 2 ^ 31) :
    (loaded steps).toNat = steps.natAbs ∧ NegationFits steps ↔ steps ≠ -2 ^ 31 := by
  constructor
  · rintro ⟨_, fits⟩ rfl
    exact absurd (fits (by decide)) (by decide)
  · intro above
    constructor
    · by_cases positive : 0 < steps
      · simp only [loaded, Motion.forward, positive, decide_true, if_true]
        omega
      · simp only [loaded, Motion.forward, positive, decide_false, Bool.false_eq_true, if_false,
          int32]
        rw [Int.bmod_eq_of_le] <;> omega
    · intro _
      omega

variable {F : Type} [SinglePrecision F]

/-! ### One step of a move -/

/-- `M` and the pin during a move which has pushed so many words and is not stopped. -/
structure During (steps : Int) (pushed : Nat) (s : State F) : Prop where
  moving : s.motion.state = .moving
  stopReq : s.motion.stopReq = false
  dir : s.dir = Motion.forward steps
  count : pushed + s.motion.remaining = loaded steps
  left : pushed = 0 ∨ 0 ≤ s.motion.remaining

omit [SinglePrecision F] in
/-- A step which leaves the state of the move alone. -/
private theorem during_quiet {steps : Int} {pushed : Nat} {s next : State F} {emitted : List Event}
    (during : During steps pushed s) (quiet : pushes emitted = 0)
    (state : next.motion.state = s.motion.state) (stopReq : next.motion.stopReq = s.motion.stopReq)
    (remaining : next.motion.remaining = s.motion.remaining) (dir : next.dir = s.dir) :
    During steps (pushed + pushes emitted) next := by
  obtain ⟨moving, running, forward, count, left⟩ := during
  rw [quiet]
  exact ⟨state.trans moving, stopReq.trans running, dir.trans forward, remaining ▸ count,
    remaining ▸ left⟩

/-- A step goes on with the move, or ends it when no step is left. -/
theorem during_move {steps : Int} {pushed : Nat} {s next : State F} {choice : Choice}
    {emitted : List Event} (wellformed : Wellformed s) (during : During steps pushed s)
    (move : Move s choice emitted next) (unstopped : .stopRequested ∉ emitted) :
    (emitted = [.idled] ∧ next.motion.state = .idle ∧ s.motion.remaining ≤ 0) ∨
    (.idled ∉ emitted ∧ During steps (pushed + pushes emitted) next) := by
  cases move with
  | feedEnds here moving ends =>
      rw [during.stopReq] at ends
      exact .inl ⟨rfl, rfl, by simpa using ends⟩
  | feedPushes here moving stopReq remaining word =>
      obtain ⟨_, _, forward, count, left⟩ := during
      refine .inr ⟨by simp, moving, stopReq, forward, ?_, .inr ?_⟩
      · simp [pushes]
        omega
      · simp only
        omega
  | feedLoses here moving full =>
      have room := wellformed.room here
      omega
  | stopMoving => simp at unstopped
  | payload cmd here word =>
      obtain ⟨state, remaining, stopReq, _⟩ := handlePayload_motion s.motion cmd word
      exact .inr ⟨by simp, during_quiet during rfl state stopReq remaining rfl⟩
  | direction steps here =>
      exact absurd during.moving (wellformed.starting steps (.inl here)).1
  | settle steps here =>
      exact absurd during.moving (wellformed.starting steps (.inr here)).1
  | _ => exact .inr ⟨by simp, during_quiet during rfl rfl rfl rfl rfl⟩

/-- How far core1 is from its next `feed_step`, while the TX FIFO has room. -/
def Point.untilFeed : Point → Nat
  | .feed => 0
  | .txFull => 1
  | .iteration => 2
  | .reply _ => 3
  | .payload _ => 4
  | .command => 5
  | .direction _ | .settle _ => 6

/-- How far a move is from its end. -/
def State.left (s : State F) : Nat :=
  8 * s.motion.remaining.toNat +
    if s.txFifo.items.length = pioFifoDepth then 7 else s.point.untilFeed

/-- The steps which bring a move closer to its end: core1's own while the TX FIFO has room,
and a pull from the full FIFO. -/
def Helps (s : State F) (choice : Choice) (next : State F) : Prop :=
  (choice = .core1 ∧ s.txFifo.items.length < pioFifoDepth) ∨
  (s.txFifo.items.length = pioFifoDepth ∧ next.txFifo.items.length < pioFifoDepth)

/-- It is six steps at most. -/
theorem Point.untilFeed_le (point : Point) : point.untilFeed ≤ 6 := by
  cases point <;> simp [untilFeed]

omit [SinglePrecision F] in
/-- A step of core1 towards its next `feed_step`. -/
private theorem left_closer {s next : State F} {choice : Choice} (txFifo : next.txFifo = s.txFifo)
    (remaining : next.motion.remaining = s.motion.remaining)
    (closer : next.point.untilFeed < s.point.untilFeed) :
    next.left ≤ s.left ∧ (Helps s choice next → next.left < s.left) := by
  simp only [State.left, Helps, txFifo, remaining]
  split
  · exact ⟨le_rfl, by omega⟩
  · exact ⟨by omega, by omega⟩

omit [SinglePrecision F] in
/-- A step of another party which leaves the TX FIFO alone. -/
private theorem left_same {s next : State F} {choice : Choice} (other : choice ≠ .core1)
    (txFifo : next.txFifo = s.txFifo) (motion : next.motion = s.motion)
    (point : next.point = s.point) :
    next.left ≤ s.left ∧ (Helps s choice next → next.left < s.left) := by
  have unhelpful : ¬Helps s choice next := by
    rintro (⟨own, _⟩ | ⟨full, room⟩)
    · exact other own
    · rw [txFifo] at room
      omega
  simp only [State.left, txFifo, motion, point]
  exact ⟨le_rfl, fun helps => absurd helps unhelpful⟩

/-- No step takes a move further from its end, and the helpful steps bring it closer. -/
theorem left_move {steps : Int} {pushed : Nat} {s next : State F} {choice : Choice}
    {emitted : List Event} (wellformed : Wellformed s) (during : During steps pushed s)
    (move : Move s choice emitted next) (unended : .idled ∉ emitted) :
    next.left ≤ s.left ∧ (Helps s choice next → next.left < s.left) := by
  cases move with
  | iteration here =>
      refine left_closer rfl rfl ?_
      simp [here, during.moving, Point.untilFeed]
  | txFull here full =>
      simp only [State.left, Helps, full]
      exact ⟨le_rfl, by omega⟩
  | feedIdle here idle => exact absurd during.moving idle
  | feedEnds => simp at unended
  | feedPushes here moving stopReq remaining word txFifo room queued =>
      have less : 8 * (s.motion.remaining - 1).toNat + 7 < 8 * s.motion.remaining.toNat := by
        omega
      have nearest : 8 * s.motion.remaining.toNat ≤ s.left := Nat.le_add_right _ _
      have later : State.left { s with
          point := .txFull
          motion := { s.motion with
            speed := s.motion.nextSpeed, remaining := s.motion.remaining - 1 }
          txFifo := txFifo } ≤ 8 * (s.motion.remaining - 1).toNat + 7 := by
        rw [State.left]
        apply Nat.add_le_add_left
        split
        · exact le_rfl
        · exact Nat.le_succ_of_le (Point.untilFeed_le _)
      exact ⟨by omega, fun _ => by omega⟩
  | feedLoses here moving full =>
      have room := wellformed.room here
      omega
  | payload cmd here word inbound read =>
      obtain ⟨_, remaining, _, _⟩ := handlePayload_motion s.motion cmd word
      refine left_closer rfl remaining ?_
      rcases handlePayload_point s.motion cmd word with ⟨reply, point⟩ | ⟨_, idle, _⟩
      · simp [here, point, Point.untilFeed]
      · exact absurd during.moving idle
  | direction steps here =>
      exact absurd during.moving (wellformed.starting steps (.inl here)).1
  | settle steps here =>
      exact absurd during.moving (wellformed.starting steps (.inr here)).1
  | arrive word => exact left_same (by simp) rfl rfl rfl
  | take reply outbound queued => exact left_same (by simp) rfl rfl rfl
  | rise word pulled => exact left_same (by simp) rfl rfl rfl
  | pull word txFifo free queued =>
      have bounded := s.txFifo.bounded
      have fewer := congrArg List.length queued
      rw [List.length_cons] at fewer
      have near := s.point.untilFeed_le
      have room : txFifo.items.length ≠ pioFifoDepth := by omega
      simp only [State.left, Helps, if_neg room]
      split
      · exact ⟨by omega, by omega⟩
      · exact ⟨by omega, by simp; omega⟩
  | _ =>
      refine left_closer rfl rfl ?_
      simp [*, Point.untilFeed]

/-! ### Before a move -/

/-- core1 handles a `CMD_MOVE` while it does not move, with so many accesses before the move. -/
inductive Approaching (steps : Int) (s : State F) : Nat → Prop where
  | payload (idle : s.motion.state ≠ .moving) (here : s.point = .payload .move) (rest : List Word)
      (read : s.inbound = BitVec.ofInt 32 steps :: rest) : Approaching steps s 3
  | direction (idle : s.motion.state ≠ .moving) (here : s.point = .direction steps) :
      Approaching steps s 2
  | settle (idle : s.motion.state ≠ .moving) (here : s.point = .settle steps)
      (dir : s.dir = Motion.forward steps) : Approaching steps s 1

/-- The move has been started and is about to be acknowledged. -/
structure Begun (steps : Int) (next : State F) : Prop where
  during : During steps 0 next
  acknowledges : next.point = .reply stepperAckOk

/-- A step goes on towards the move or starts it. -/
theorem approaching_move {steps : Int} (low : -2 ^ 31 ≤ steps) (high : steps < 2 ^ 31)
    (nonzero : steps ≠ 0) {rank : Nat} {s next : State F} {choice : Choice} {emitted : List Event}
    (approaching : Approaching steps s rank) (move : Move s choice emitted next) :
    (emitted = [.started steps] ∧ Begun steps next) ∨
    (.idled ∉ emitted ∧ ∃ lower ≤ rank, Approaching steps next lower ∧
      (choice = .core1 → lower < rank)) := by
  have value : (BitVec.ofInt 32 steps).toInt = steps := by
    rw [BitVec.toInt_ofInt, Int.bmod_eq_of_le] <;> omega
  cases move with
  | arrive word =>
      refine .inr ⟨by simp, rank, le_rfl, ?_, by simp⟩
      cases approaching with
      | payload idle here rest read => exact .payload idle here (rest ++ [word]) (by simp [read])
      | direction idle here => exact .direction idle here
      | settle idle here dir => exact .settle idle here dir
  | take | pull | rise =>
      refine .inr ⟨by simp, rank, le_rfl, ?_, by simp⟩
      cases approaching with
      | payload idle here rest read => exact .payload idle here rest read
      | direction idle here => exact .direction idle here
      | settle idle here dir => exact .settle idle here dir
  | payload cmd here word inbound read =>
      cases approaching with
      | payload idle there rest read' =>
          obtain ⟨rfl, _⟩ := List.cons.inj (read.symm.trans read')
          obtain rfl : cmd = .move := by simpa [here] using there
          have handled : handlePayload s.motion .move (BitVec.ofInt 32 steps) =
              (.direction steps, s.motion) := by
            simp [handlePayload, idle, value, nonzero]
          rw [handled]
          exact .inr ⟨by simp, 2, by omega, .direction idle rfl, by simp⟩
      | direction idle there => simp [here] at there
      | settle idle there dir => simp [here] at there
  | direction steps' here =>
      cases approaching with
      | payload idle there => simp [here] at there
      | direction idle there =>
          obtain rfl : steps' = steps := by simpa [here] using there
          exact .inr ⟨by simp, 1, by omega, .settle idle rfl rfl, by simp⟩
      | settle idle there dir => simp [here] at there
  | settle steps' here =>
      cases approaching with
      | payload idle there => simp [here] at there
      | direction idle there => simp [here] at there
      | settle idle there dir =>
          obtain rfl : steps' = steps := by simpa [here] using there
          exact .inl ⟨rfl, ⟨rfl, rfl, dir, by simp [Motion.motionStart, loaded], .inl rfl⟩, rfl⟩
  | iteration here | txFull here | txRoom here | feedIdle here | feedEnds here | feedPushes here
  | feedLoses here | noCommand here | unknown here | stopMoving here | stopIdle here | opcode here
  | reply word here =>
      cases approaching with
      | payload _ there | direction _ there | settle _ there => simp [here] at there

/-! ### A whole move -/

variable {s : (system F).State} {schedule : Schedule (system F) s}

/-- core1 runs for ever, and the PIO makes room in its TX FIFO again and again. -/
structure Fair (schedule : Schedule (system F) s) : Prop where
  core1 : ∀ index, ∃ later, index ≤ later ∧ schedule.choiceAt later = .core1
  room : ∀ index, ∃ later, index ≤ later ∧
    (schedule.stateAt later : State F).txFifo.items.length < pioFifoDepth

/-- No `CMD_STOP` is handled while moving before a move has ended. -/
def Unstopped (schedule : Schedule (system F) s) : Prop :=
  ∀ index, .stopRequested ∈ schedule.emittedAt index →
    ∃ earlier < index, .idled ∈ schedule.emittedAt earlier

/-- The first move of a schedule: core1 starts it, acknowledges it, moves with the pin at its
level, and becomes idle. -/
structure Spans (schedule : Schedule (system F) s) (steps : Int) (start finish : Nat) : Prop where
  started : schedule.emittedAt start = [.started steps]
  acknowledges : (schedule.stateAt (start + 1) : State F).point = .reply stepperAckOk
  moves : ∀ index, start < index → index ≤ finish →
    (schedule.stateAt index : State F).motion.state = .moving ∧
    (schedule.stateAt index : State F).dir = Motion.forward steps
  order : start < finish
  first : ∀ index < finish, .idled ∉ schedule.emittedAt index
  idled : schedule.emittedAt finish = [.idled]
  idle : (schedule.stateAt (finish + 1) : State F).motion.state = .idle

/-- The words pushed between the start and the end of a move. -/
def pushedBetween (schedule : Schedule (system F) s) (start finish : Nat) : Nat :=
  pushes (schedule.events (start + 1) (finish - (start + 1)))

/-- At every instant core1 is well formed. -/
theorem wellformed_at (wellformed : Wellformed s) (index : Nat) :
    Wellformed (schedule.stateAt index : State F) := by
  induction index with
  | zero =>
      rw [schedule.stateZero]
      exact wellformed
  | succ index inductionHypothesis =>
      exact wellformed_move inductionHypothesis (move_of_step (schedule.step index))

/-- A TX FIFO which is full and later is not has been pulled from in between. -/
theorem pulled_between {first count : Nat}
    (full : (schedule.stateAt first : State F).txFifo.items.length = pioFifoDepth)
    (room : (schedule.stateAt (first + count) : State F).txFifo.items.length < pioFifoDepth) :
    ∃ later, first ≤ later ∧
      (schedule.stateAt later : State F).txFifo.items.length = pioFifoDepth ∧
      (schedule.stateAt (later + 1) : State F).txFifo.items.length < pioFifoDepth := by
  induction count with
  | zero =>
      rw [Nat.add_zero] at room
      omega
  | succ count inductionHypothesis =>
      have bounded := (schedule.stateAt (first + count) : State F).txFifo.bounded
      rcases Nat.lt_or_ge (schedule.stateAt (first + count) : State F).txFifo.items.length
        pioFifoDepth with earlier | still
      · exact inductionHypothesis earlier
      · exact ⟨first + count, Nat.le_add_right _ _, by omega, room⟩

/-- Helpful steps keep coming. -/
theorem Fair.helps (fair : Fair schedule) (index : Nat) : ∃ later, index ≤ later ∧
    Helps (schedule.stateAt later : State F) (schedule.choiceAt later)
      (schedule.stateAt (later + 1)) := by
  obtain ⟨own, after, core1⟩ := fair.core1 index
  have bounded := (schedule.stateAt own : State F).txFifo.bounded
  rcases Nat.lt_or_ge (schedule.stateAt own : State F).txFifo.items.length pioFifoDepth with
    free | full
  · exact ⟨own, after, .inl ⟨core1, free⟩⟩
  · obtain ⟨later, beyond, room⟩ := fair.room own
    rw [← Nat.add_sub_cancel' beyond] at room
    obtain ⟨pull, between, still, pulled⟩ := pulled_between (by omega) room
    exact ⟨pull, after.trans between, .inr ⟨still, pulled⟩⟩

/-- A move which is not stopped, step by step. -/
theorem during_at {steps : Int} {start : Nat} (wellformed : Wellformed s)
    (unstopped : Unstopped schedule) (begun : Begun steps (schedule.stateAt (start + 1) : State F))
    (count : Nat) (first : ∀ index < start + 1 + count, .idled ∉ schedule.emittedAt index) :
    During steps (pushes (schedule.events (start + 1) count))
      (schedule.stateAt (start + 1 + count) : State F) := by
  induction count with
  | zero => exact begun.during
  | succ count inductionHypothesis =>
      have during := inductionHypothesis fun index before => first index (by omega)
      have here := first (start + 1 + count) (by omega)
      have running : .stopRequested ∉ schedule.emittedAt (start + 1 + count) := by
        intro stopped
        obtain ⟨earlier, before, ended⟩ := unstopped _ stopped
        exact first earlier (by omega) ended
      rcases during_move (wellformed_at wellformed _) during
        (move_of_step (schedule.step (start + 1 + count))) running with ⟨ended, _⟩ | ⟨_, next⟩
      · rw [ended] at here
        simp at here
      · rw [Schedule.events_succ, pushes_append]
        exact next

omit [SinglePrecision F] in
/-- The end of a move. -/
theorem During.ended {steps : Int} {pushed : Nat} {state : State F} (during : During steps pushed state)
    (done : state.motion.remaining ≤ 0) : pushed = (loaded steps).toNat := by
  obtain ⟨_, _, _, count, left⟩ := during
  omega

/-- `motion_start` leaves a begun move. -/
theorem begun_of_started {steps : Int} {state next : State F} {choice : Choice}
    (move : Move state choice [.started steps] next) (dir : next.dir = Motion.forward steps) :
    Begun steps next := by
  cases move
  exact ⟨⟨rfl, rfl, dir, by simp [Motion.motionStart, loaded], .inl rfl⟩, rfl⟩

/-- The first move pushes the steps it has loaded. -/
theorem Spans.pushed {steps : Int} {start finish : Nat} (spans : Spans schedule steps start finish)
    (wellformed : Wellformed s) (unstopped : Unstopped schedule) :
    pushedBetween schedule start finish = (loaded steps).toNat := by
  have begun : Begun steps (schedule.stateAt (start + 1) : State F) := by
    have started := move_of_step (schedule.step start)
    rw [spans.started] at started
    exact begun_of_started started (spans.moves (start + 1) (by omega) spans.order).2
  have whole : start + 1 + (finish - (start + 1)) = finish := Nat.add_sub_cancel' spans.order
  have during := during_at wellformed unstopped begun (finish - (start + 1))
    (by rw [whole]; exact spans.first)
  rw [whole] at during
  have running : .stopRequested ∉ schedule.emittedAt finish := by
    rw [spans.idled]
    simp
  rcases during_move (wellformed_at wellformed finish) during
    (move_of_step (schedule.step finish)) running with ⟨_, _, done⟩ | ⟨unended, _⟩
  · exact during.ended done
  · rw [spans.idled] at unended
    simp at unended

/-- core1 starts the move of a `CMD_MOVE` which it handles while idle. -/
theorem starts_of_fair {steps : Int} (low : -2 ^ 31 ≤ steps) (high : steps < 2 ^ 31)
    (nonzero : steps ≠ 0) (approaching : Approaching steps s 3) (fair : Fair schedule) :
    ∃ start, schedule.emittedAt start = [.started steps] ∧
      Begun steps (schedule.stateAt (start + 1) : State F) ∧
      ∀ index ≤ start, .idled ∉ schedule.emittedAt index := by
  have here : Approaching steps (schedule.stateAt 0 : State F) 3 := by
    rw [schedule.stateZero]
    exact approaching
  have approached := fun index rank
      (there : Approaching steps (schedule.stateAt index : State F) rank) =>
    approaching_move low high nonzero there (move_of_step (schedule.step index))
  obtain ⟨start, _, ⟨started, begun⟩, early, ranked⟩ := Schedule.eventually_first
    (fun index => schedule.emittedAt index = [.started steps] ∧
      Begun steps (schedule.stateAt (index + 1) : State F))
    (fun index rank => Approaching steps (schedule.stateAt index : State F) rank) fair.core1
    (fun index rank there => (approached index rank there).imp_right And.right) here
  refine ⟨start, started, begun, fun index before => ?_⟩
  rcases Nat.eq_or_lt_of_le before with rfl | before
  · rw [started]
    simp
  · obtain ⟨rank, there⟩ := ranked index (Nat.zero_le _) before.le
    rcases approached index rank there with goal | ⟨unended, _⟩
    · exact absurd goal (early index (Nat.zero_le _) before)
    · exact unended

/-- A move under way, with how far it is from its end. -/
structure Underway (schedule : Schedule (system F) s) (steps : Int) (index rank : Nat) : Prop where
  during : ∃ pushed, During steps pushed (schedule.stateAt index : State F)
  rank : (schedule.stateAt index : State F).left = rank
  first : ∀ earlier < index, .idled ∉ schedule.emittedAt earlier

/-- A move under way ends or goes on. -/
theorem Underway.next {steps : Int} {index rank : Nat} (wellformed : Wellformed s)
    (unstopped : Unstopped schedule) (underway : Underway schedule steps index rank) :
    (schedule.emittedAt index = [.idled] ∧
      (schedule.stateAt (index + 1) : State F).motion.state = .idle) ∨
    ∃ lower ≤ rank, Underway schedule steps (index + 1) lower ∧
      (Helps (schedule.stateAt index : State F) (schedule.choiceAt index)
        (schedule.stateAt (index + 1)) → lower < rank) := by
  obtain ⟨⟨pushed, during⟩, rfl, first⟩ := underway
  have move := move_of_step (schedule.step index)
  have wellformed : Wellformed (schedule.stateAt index : State F) := wellformed_at wellformed index
  have running : .stopRequested ∉ schedule.emittedAt index := by
    intro stopped
    obtain ⟨earlier, before, ended⟩ := unstopped index stopped
    exact first earlier before ended
  rcases during_move wellformed during move running with ⟨ended, idle, _⟩ | ⟨unended, further⟩
  · exact .inl ⟨ended, idle⟩
  · obtain ⟨less, falls⟩ := left_move wellformed during move unended
    refine .inr ⟨_, less, ⟨⟨_, further⟩, rfl, fun earlier before => ?_⟩, falls⟩
    rcases Nat.lt_succ_iff_lt_or_eq.mp before with earlier' | rfl
    · exact first earlier earlier'
    · exact unended

/-- A `CMD_MOVE` handled while idle is followed by a move. -/
theorem spans_of_fair {steps : Int} (low : -2 ^ 31 ≤ steps) (high : steps < 2 ^ 31)
    (nonzero : steps ≠ 0) (wellformed : Wellformed s) (approaching : Approaching steps s 3)
    (fair : Fair schedule) (unstopped : Unstopped schedule) :
    ∃ start finish, Spans schedule steps start finish := by
  obtain ⟨start, started, begun, before⟩ := starts_of_fair low high nonzero approaching fair
  have here : Underway schedule steps (start + 1) _ :=
    ⟨⟨0, begun.during⟩, rfl, fun index less => before index (by omega)⟩
  obtain ⟨finish, after, ⟨idled, idle⟩, _, underway⟩ := Schedule.eventually_first
    (fun index => schedule.emittedAt index = [.idled] ∧
      (schedule.stateAt (index + 1) : State F).motion.state = .idle)
    (Underway schedule steps) fair.helps (fun _ _ there => there.next wellformed unstopped) here
  obtain ⟨_, last⟩ := underway finish after le_rfl
  refine ⟨start, finish, started, begun.acknowledges, fun index later within => ?_, after,
    last.first, idled, idle⟩
  obtain ⟨_, ⟨_, during⟩, _⟩ := underway index later within
  exact ⟨during.moving, during.dir⟩

/-- In every fair schedule, an accepted `CMD_MOVE` which no `CMD_STOP` interrupts runs to its
end with the pin at its level; it pushes as many words as its step count asks for, and
overflows no negation, exactly if the step count is not `INT32_MIN`. -/
theorem completes_iff {steps : Int} (low : -2 ^ 31 ≤ steps) (high : steps < 2 ^ 31)
    (nonzero : steps ≠ 0) (wellformed : Wellformed s) (approaching : Approaching steps s 3)
    (fair : Fair schedule) (unstopped : Unstopped schedule) :
    ((∃ start finish, Spans schedule steps start finish ∧
      pushedBetween schedule start finish = steps.natAbs) ∧ NegationFits steps) ↔
      steps ≠ -2 ^ 31 := by
  obtain ⟨start, finish, spans⟩ :=
    spans_of_fair low high nonzero wellformed approaching fair unstopped
  have counted : (∃ start finish, Spans schedule steps start finish ∧
      pushedBetween schedule start finish = steps.natAbs) ↔
      (loaded steps).toNat = steps.natAbs := by
    constructor
    · rintro ⟨start, finish, spans, count⟩
      rw [← spans.pushed wellformed unstopped, count]
    · exact fun count => ⟨start, finish, spans, (spans.pushed wellformed unstopped).trans count⟩
  rw [counted, loaded_toNat_iff low high]

end Rp2350Stepper.Core1
