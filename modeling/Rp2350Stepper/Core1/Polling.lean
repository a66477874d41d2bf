import Rp2350Stepper.Core1.MoveCompletion

/-!
# core1 and its mailbox

core1 feeds the PIO in an inner loop and looks at its mailbox outside of it. The loop ends when
the TX FIFO is full or the move is over, so how long core1 does not look is bounded by the room in
the FIFO and the words the PIO takes from it meanwhile, and also by the motor steps which are left.

What is counted is core1's own steps: each is the test which opens an iteration, or one access to
`PIN_DIR`, to the FIFO's status or to the FIFO. The setup delay, which polls the timer, is a single
step, and so is writing a reply, which polls the mailbox for room: the polling is not counted.
-/

namespace Rp2350Stepper.Core1

open Rp2350Stepper.Num Rp2350Stepper.Data Rp2350Stepper.Semantics

variable {F : Type} [SinglePrecision F]

/-- core1 is at a read of its mailbox. -/
def Point.Looks : Point → Prop
  | .command | .payload _ => True
  | _ => False

instance (point : Point) : Decidable point.Looks := by
  cases point <;> unfold Point.Looks <;> infer_instance

/-- core1 does not look at its mailbox. -/
def NotLooking (s : State F) (choice : Choice) : Prop := choice = .core1 → ¬s.point.Looks

/-! ### How long core1 does not look -/

/-- The steps of core1 until it looks, if the TX FIFO has this much room and keeps what it
has. -/
def Point.untilLook (room : Nat) : Point → Nat
  | .command | .payload _ => 0
  | .feed => 2 * room
  | .txFull => 2 * room + 1
  | .iteration => 2 * room + 2
  | .reply _ => 2 * room + 3
  | .settle _ => 2 * room + 4
  | .direction _ => 2 * room + 5

/-- The words the TX FIFO still takes. -/
def State.room (s : State F) : Nat := pioFifoDepth - s.txFifo.items.length

/-- The steps of core1 until it looks, if the PIO takes nothing. -/
def State.untilLook (s : State F) : Nat := s.point.untilLook s.room

/-- One more free entry is at most one more turn of the feeding loop. -/
theorem Point.untilLook_add (point : Point) (room : Nat) :
    point.untilLook (room + 1) ≤ point.untilLook room + 2 := by
  cases point <;> simp only [untilLook] <;> omega

/-- A step brings core1 closer to its next look, a word the PIO takes two steps further away. -/
theorem untilLook_move {s next : State F} {choice : Choice} {emitted : List Event}
    (wellformed : Wellformed s) (elsewhere : NotLooking s choice)
    (move : Move s choice emitted next) :
    (if choice = .core1 then 1 else 0) + next.untilLook ≤
      s.untilLook + if choice = .pull then 2 else 0 := by
  cases move with
  | iteration here =>
      by_cases moving : s.motion.state = .moving
      · simp [State.untilLook, State.room, here, moving, Point.untilLook]
        omega
      · simp [State.untilLook, here, moving, Point.untilLook]
  | txFull here full => simp [State.untilLook, here, Point.untilLook]
  | txRoom here room => simp [State.untilLook, State.room, here, Point.untilLook]; omega
  | feedIdle here idle => exact absurd (wellformed.feeding (.inr here)) idle
  | feedEnds here moving ends =>
      have room := wellformed.room here
      simp [State.untilLook, State.room, here, Point.untilLook]
      omega
  | feedPushes here moving stopReq remaining word txFifo room queued =>
      have length := congrArg List.length queued
      rw [List.length_append, List.length_singleton] at length
      simp [State.untilLook, State.room, here, Point.untilLook]
      omega
  | feedLoses here moving full =>
      have room := wellformed.room here
      omega
  | noCommand here | unknown here | stopMoving here | stopIdle here | opcode here =>
      exact absurd (by rw [here]; trivial) (elsewhere rfl)
  | payload cmd here => exact absurd (by rw [here]; trivial) (elsewhere rfl)
  | direction steps here | settle steps here | reply word here =>
      simp [State.untilLook, State.room, here, Point.untilLook]
      omega
  | arrive word | take | rise => simp [State.untilLook, State.room]
  | pull word txFifo free queued =>
      have length := congrArg List.length queued
      rw [List.length_cons] at length
      have bounded := s.txFifo.bounded
      have more : pioFifoDepth - txFifo.items.length =
          pioFifoDepth - s.txFifo.items.length + 1 := by omega
      simp only [State.untilLook, State.room, more]
      simpa using s.point.untilLook_add _

/-- The choices of one kind, weighted. -/
private theorem sum_of_choices (choices : List Choice) (made : Choice) (weight : Nat) :
    (choices.map fun choice => if choice = made then weight else 0).sum =
      weight * choices.count made := by
  induction choices with
  | nil => rfl
  | cons choice rest inductionHypothesis =>
      rw [List.map_cons, List.sum_cons, inductionHypothesis, List.count_cons]
      by_cases same : choice = made
      · simp [same, Nat.mul_add, Nat.add_comm]
      · simp [same]

/-- Between two looks at its mailbox core1 makes at most 13 steps, and two more for each word
the PIO takes meanwhile. How long the setup delay and a reply poll within theirs is not counted. -/
theorem steps_between_looks {s finish : State F} {earlier choices : List Choice}
    {past events : List Event} (reached : (system F).Run (system F).unguarded initial earlier past s)
    (run : (system F).Run NotLooking s choices events finish) :
    choices.count .core1 ≤ 13 + 2 * choices.count .pull := by
  have wellformed : Wellformed s := wellformed_of_run reached
  obtain ⟨run, -⟩ := run.along_states Wellformed wellformed fun wellformed _ transition =>
    wellformed_move wellformed (move_of_step transition)
  have paid : 1 * choices.count .core1 + finish.untilLook ≤
      s.untilLook + 2 * choices.count .pull := by
    rw [← sum_of_choices, ← sum_of_choices]
    exact run.charged _ _ State.untilLook fun ⟨elsewhere, wellformed⟩ transition =>
      untilLook_move wellformed elsewhere (move_of_step transition)
  have most : s.untilLook ≤ 13 := by
    have room : s.room ≤ 4 := Nat.sub_le ..
    unfold State.untilLook Point.untilLook
    split <;> omega
  omega

/-- Decidable form of the guard. -/
def notLooking (s : State Binary32) (choice : Choice) : Bool :=
  choice != .core1 || !decide s.point.Looks

/-- What the decidable form admits, the guard admits. -/
theorem notLooking_sound (s : State Binary32) (choice : Choice)
    (unseen : notLooking s choice = true) : NotLooking s choice := by
  rintro rfl
  simpa [notLooking] using unseen

/-- core1 accepts a move and fills the TX FIFO of a PIO which takes nothing: 13 steps. -/
theorem thirteen_steps : ∃ s past finish events,
    (system Binary32).Run (system Binary32).unguarded initial
      ([.arrive StepperCmd.move.toWord, .arrive 10] ++ List.replicate 3 .core1) past s ∧
    (system Binary32).Run NotLooking s (List.replicate 13 .core1) events finish ∧
    (List.replicate 13 Choice.core1).count .core1 = 13 + 2 * 0 ∧
    (List.replicate 13 Choice.core1).count .core1 ≤
      13 + 2 * (List.replicate 13 Choice.core1).count .pull := by
  have executed : ((System.execute step (fun _ _ => true) (initial : State Binary32)
      ([.arrive StepperCmd.move.toWord, .arrive 10] ++ List.replicate 3 .core1)).bind
        fun reached => System.execute step notLooking reached.2 (List.replicate 13 .core1)).isSome =
      true := by
    decide +kernel
  obtain ⟨⟨events, finish⟩, executed⟩ := Option.isSome_iff_exists.mp executed
  obtain ⟨⟨past, s⟩, reached, filled⟩ := Option.bind_eq_some_iff.mp executed
  have before : (system Binary32).Run (system Binary32).unguarded initial _ past s :=
    System.unguarded_run_of_execute reached
  have admitted : (system Binary32).Run (fun s choice => notLooking s choice = true) s _ events
      finish := System.run_of_execute filled
  have run := admitted.weaken notLooking_sound
  exact ⟨s, past, finish, events, before, run, by decide, steps_between_looks before run⟩

/-! ### That core1 looks -/

/-- The steps of core1 until it looks, however the PIO empties the TX FIFO. -/
def State.untilOver (s : State F) : Nat :=
  match s.point with
  | .command | .payload _ => 0
  | .feed => 2 * s.motion.remaining.toNat + 1
  | .txFull => 2 * s.motion.remaining.toNat + 2
  | .iteration => 2 * s.motion.remaining.toNat + 3
  | .reply _ => 2 * s.motion.remaining.toNat + 4
  | .settle steps => 2 * (loaded steps).toNat + 5
  | .direction steps => 2 * (loaded steps).toNat + 6

/-- Nothing takes core1 further away from its next look, and each step of its own brings it
closer. -/
theorem untilOver_move {s next : State F} {choice : Choice} {emitted : List Event}
    (wellformed : Wellformed s) (elsewhere : NotLooking s choice)
    (move : Move s choice emitted next) :
    next.untilOver ≤ s.untilOver ∧ (choice = .core1 → next.untilOver < s.untilOver) := by
  suffices closer : next.untilOver + (if choice = .core1 then 1 else 0) ≤ s.untilOver by
    refine ⟨by omega, fun core1 => ?_⟩
    rw [if_pos core1] at closer
    omega
  cases move with
  | iteration here =>
      by_cases moving : s.motion.state = .moving
      · simp [State.untilOver, here, moving]
      · simp [State.untilOver, here, moving]
  | feedPushes here moving stopReq remaining =>
      simp [State.untilOver, here]
      omega
  | feedLoses here moving full =>
      have room := wellformed.room here
      omega
  | noCommand here | unknown here | stopMoving here | stopIdle here | opcode here =>
      exact absurd (by rw [here]; trivial) (elsewhere rfl)
  | payload cmd here => exact absurd (by rw [here]; trivial) (elsewhere rfl)
  | settle steps here => simp [State.untilOver, here, Motion.motionStart, loaded]
  | arrive | take | rise | pull => simp [State.untilOver]
  | txFull here | feedIdle here | feedEnds here | txRoom here | direction steps here
  | reply word here => simp [State.untilOver, here]

/-- The words a step puts into the mailbox. -/
def Choice.words : Choice → List Word
  | .arrive word => [word]
  | _ => []

/-- Only a look of core1 takes a word out of the mailbox. -/
theorem inbound_move {s next : State F} {choice : Choice} {emitted : List Event}
    (move : Move s choice emitted next) :
    next.inbound = s.inbound ++ choice.words ∨
      (choice = .core1 ∧ s.point.Looks ∧ ∃ word, s.inbound = word :: next.inbound) := by
  cases move with
  | unknown here opcode inbound read | stopMoving here inbound read | stopIdle here inbound read =>
      exact .inr ⟨rfl, by rw [here]; trivial, _, read⟩
  | opcode here cmd inbound read => exact .inr ⟨rfl, by rw [here]; trivial, _, read⟩
  | payload cmd here word inbound read => exact .inr ⟨rfl, by rw [here]; trivial, _, read⟩
  | arrive => exact .inl rfl
  | _ => exact .inl (List.append_nil _).symm

/-- A look at a mailbox with a word takes it. -/
theorem looked_move {s next : State F} {emitted : List Event} (looks : s.point.Looks) {word : Word}
    {rest : List Word} (queued : s.inbound = word :: rest) (move : Move s .core1 emitted next) :
    next.inbound = rest := by
  cases move with
  | noCommand here empty => simp [empty] at queued
  | unknown here opcode inbound read | stopMoving here inbound read | stopIdle here inbound read
  | opcode here cmd inbound read | payload cmd here word inbound read =>
      exact (List.cons.inj (read.symm.trans queued)).2
  | iteration here | txFull here | txRoom here | feedIdle here | feedEnds here | feedPushes here
  | feedLoses here | direction steps here | settle steps here | reply word here =>
      rw [here] at looks
      exact looks.elim

/-- core1 can move unless it waits for a payload. -/
theorem able_of_queued {s : State F} (queued : s.inbound ≠ []) : (core1Step s).isSome = true := by
  cases here : s.point with
  | feed =>
      simp only [core1Step, here]
      split
      · rfl
      · split <;> rfl
  | command =>
      simp only [core1Step, here]
      split <;> rfl
  | payload cmd =>
      simp only [core1Step, here]
      split
      · contradiction
      · rfl
  | iteration | txFull | direction | settle | reply => simp only [core1Step, here, Option.isSome]

/-! ### A whole schedule -/

variable {s : (system F).State} {schedule : Schedule (system F) s}

/-- Whenever core1 can move it does, sooner or later. -/
def KeepsMoving (schedule : Schedule (system F) s) : Prop :=
  ∀ index, (core1Step (schedule.stateAt index : State F)).isSome = true →
    ∃ later, index ≤ later ∧ schedule.choiceAt later = .core1

/-- The words core0 sends in some steps. -/
def arrivals (schedule : Schedule (system F) s) (first : Nat) : Nat → List Word
  | 0 => []
  | count + 1 => arrivals schedule first count ++ Choice.words (schedule.choiceAt (first + count))

/-- core1 takes a word out of its mailbox. -/
def TakesAt (schedule : Schedule (system F) s) (index : Nat) : Prop :=
  schedule.choiceAt index = .core1 ∧ (schedule.stateAt index : State F).point.Looks ∧
    (schedule.stateAt index : State F).inbound ≠ []

/-- A word is in the mailbox, and core1 is so far from the end of what it does. -/
def QueuedFor (schedule : Schedule (system F) s) (index rank : Nat) : Prop :=
  (schedule.stateAt index : State F).inbound ≠ [] ∧
    (schedule.stateAt index : State F).untilOver = rank

/-- A word in the mailbox makes core1 take one. -/
theorem takes_of_queued (wellformed : Wellformed s) (keeps : KeepsMoving schedule) {index : Nat}
    (queued : (schedule.stateAt index : State F).inbound ≠ []) :
    ∃ later, index ≤ later ∧ TakesAt schedule later := by
  have often : ∀ index, ∃ later, index ≤ later ∧ (schedule.choiceAt later = .core1 ∨
      (schedule.stateAt later : State F).inbound = []) := by
    intro index
    by_cases empty : (schedule.stateAt index : State F).inbound = []
    · exact ⟨index, le_rfl, .inr empty⟩
    · obtain ⟨later, after, core1⟩ := keeps index (able_of_queued empty)
      exact ⟨later, after, .inl core1⟩
  have closes : ∀ index rank, QueuedFor schedule index rank → TakesAt schedule index ∨
      ∃ lower ≤ rank, QueuedFor schedule (index + 1) lower ∧
        (schedule.choiceAt index = .core1 ∨ (schedule.stateAt index : State F).inbound = [] →
          lower < rank) := by
    rintro index _ ⟨here, rfl⟩
    have move := move_of_step (schedule.step index)
    by_cases looking : schedule.choiceAt index = .core1 ∧
        (schedule.stateAt index : State F).point.Looks
    · exact .inl ⟨looking.1, looking.2, here⟩
    · have elsewhere : NotLooking (schedule.stateAt index : State F) (schedule.choiceAt index) :=
        fun core1 looks => looking ⟨core1, looks⟩
      obtain ⟨kept, closer⟩ := untilOver_move (wellformed_at wellformed index) elsewhere move
      refine .inr ⟨_, kept, ⟨?_, rfl⟩, ?_⟩
      · rcases inbound_move move with kept | ⟨core1, looks, _⟩
        · rw [kept]
          exact List.append_ne_nil_of_left_ne_nil here _
        · exact absurd ⟨core1, looks⟩ looking
      · rintro (core1 | empty)
        · exact closer core1
        · exact absurd empty here
  exact Schedule.eventually often closes ⟨queued, rfl⟩

open Classical in
/-- How many words core1 takes out of its mailbox in some steps. -/
noncomputable def taken (schedule : Schedule (system F) s) (first : Nat) : Nat → Nat
  | 0 => 0
  | count + 1 => taken schedule first count + if TakesAt schedule (first + count) then 1 else 0

/-- The mailbox is a queue. -/
theorem inbound_at (schedule : Schedule (system F) s) (first count : Nat) :
    (schedule.stateAt (first + count) : State F).inbound =
        ((schedule.stateAt first : State F).inbound ++ arrivals schedule first count).drop
          (taken schedule first count) ∧
      taken schedule first count ≤
        ((schedule.stateAt first : State F).inbound ++ arrivals schedule first count).length := by
  induction count with
  | zero => simp [arrivals, taken]
  | succ count inductionHypothesis =>
      obtain ⟨same, within⟩ := inductionHypothesis
      have move := move_of_step (schedule.step (first + count))
      rw [arrivals, taken, ← List.append_assoc]
      by_cases takes : TakesAt schedule (first + count)
      · have ⟨core1, looks, nonempty⟩ := takes
        obtain ⟨word, rest, queued⟩ := List.exists_cons_of_ne_nil nonempty
        have left : (schedule.stateAt (first + count + 1) : State F).inbound = rest := by
          rw [core1] at move
          exact looked_move looks queued move
        rw [same] at queued
        have length := congrArg List.length queued
        rw [List.length_drop, List.length_cons] at length
        have nothing : Choice.words .core1 = [] := rfl
        rw [if_pos takes, core1, nothing, List.append_nil]
        refine ⟨?_, by omega⟩
        rw [← Nat.add_assoc, left, ← List.tail_drop, queued]
        rfl
      · have kept := (inbound_move move).resolve_right fun ⟨core1, looks, word, queued⟩ =>
          takes ⟨core1, looks, by rw [queued]; exact List.cons_ne_nil _ _⟩
        rw [if_neg takes, Nat.add_zero (taken _ _ _), List.drop_append_of_le_length within,
          List.length_append]
        refine ⟨?_, by omega⟩
        rw [← Nat.add_assoc, kept, same]

/-- What is taken stays taken. -/
theorem taken_le (schedule : Schedule (system F) s) (first count more : Nat) :
    taken schedule first count ≤ taken schedule first (count + more) := by
  induction more with
  | zero => exact le_rfl
  | succ more inductionHypothesis => exact inductionHypothesis.trans (Nat.le_add_right _ _)

/-- If core1 keeps moving, every word core0 has sent is taken: what is in the mailbox later on has
been sent since. It takes no help of the PIO. -/
theorem sent_words_taken {earlier : List Choice} {past : List Event}
    (reached : (system F).Run (system F).unguarded initial earlier past s)
    (keeps : KeepsMoving schedule) (first : Nat) : ∃ count,
    (schedule.stateAt (first + count) : State F).inbound <:+ arrivals schedule first count := by
  have wellformed : Wellformed (s : State F) := wellformed_of_run reached
  have takes : ∀ wanted ≤ (schedule.stateAt first : State F).inbound.length,
      ∃ count, wanted ≤ taken schedule first count := by
    intro wanted
    induction wanted with
    | zero => exact fun _ => ⟨0, Nat.zero_le _⟩
    | succ wanted inductionHypothesis =>
        intro within
        obtain ⟨count, enough⟩ := inductionHypothesis (by omega)
        rcases Nat.lt_or_ge wanted (taken schedule first count) with more | exactly
        · exact ⟨count, more⟩
        have queued : (schedule.stateAt (first + count) : State F).inbound ≠ [] := by
          intro empty
          have length := congrArg List.length empty
          rw [(inbound_at schedule first count).1, List.length_drop, List.length_append,
            List.length_nil] at length
          omega
        obtain ⟨later, after, takes⟩ := takes_of_queued wellformed keeps queued
        obtain ⟨more, rfl⟩ := Nat.exists_eq_add_of_le after
        refine ⟨count + more + 1, ?_⟩
        have before := taken_le schedule first count more
        rw [taken, ← Nat.add_assoc, if_pos takes]
        omega
  obtain ⟨count, enough⟩ := takes _ le_rfl
  refine ⟨count, ?_⟩
  rw [(inbound_at schedule first count).1, List.drop_append, List.drop_eq_nil_of_le enough,
    List.nil_append]
  exact List.drop_suffix _ _

/-- A word which is no opcode has been sent. -/
def Unread : State Binary32 := { initial with inbound := [9] }

/-- core1 never waits: it returns to the same state again and again. -/
theorem able_unread (index : Nat) :
    (step ((advance step .core1)^[index] Unread) .core1).isSome = true := by
  apply forever_of_lasso (fun s => (step s .core1).isSome = true) 2 2 (by decide)
  · decide +kernel
  · decide +kernel

/-- Only core1 makes steps. -/
abbrev unreadSchedule : Schedule (system Binary32) Unread :=
  Schedule.solo step .core1 Unread able_unread

/-- core1 takes it. -/
theorem unread_taken : ∃ count, (unreadSchedule.stateAt (0 + count)).inbound <:+
    arrivals unreadSchedule 0 count := by
  have executed : System.execute step (fun _ _ => true) (initial : State Binary32) [.arrive 9] =
      some ([], Unread) := by
    decide +kernel
  have run : (system Binary32).Run (system Binary32).unguarded initial _ [] Unread :=
    System.unguarded_run_of_execute executed
  exact sent_words_taken run (fun index _ => ⟨index, le_rfl, rfl⟩) 0

end Rp2350Stepper.Core1
