import Rp2350Stepper.Core1.MoveSpeeds
import Rp2350Stepper.Core1.Position
import Rp2350Stepper.Shell.Shells

/-!
# From the shells to the axis

core1 starts the moves whose requests it does not answer with `STEPPER_ACK_BUSY`, and no others.
So, while the round trips of the shells do not overlap and none of their sends and waits fails, the
axis goes where the shells have been told that it goes. How fast it goes depends on core1 alone,
whatever the shells do.
-/

namespace Rp2350Stepper.Shell

open Rp2350Stepper.Num Rp2350Stepper.Semantics
open Rp2350Stepper.Core1 (Word StepperCmd Motion Event Request Position Move Sound position commanded
  abandoned signed answer movesNegatable reversesDrained movesNegatable_sound reversesDrained_sound)

variable {F Client : Type}

/-! ### Moves granted and moves acknowledged -/

/-- The steps of a command core1 decodes which it goes on to start. -/
def granted (motion : Motion F) : StepperCmd → Option Word → Int
  | .move, some word => if motion.state = .moving then 0 else word.toInt
  | _, _ => 0

/-- The steps a decoded command grants. -/
def Record.granted : Record F Client → Int
  | .decoded motion cmd payload => Shell.granted motion cmd payload
  | _ => 0

/-- The steps of the `CMD_MOVE` of a round trip. -/
def stepsOf (request : Request) : Int :=
  match request.cmd, request.payload with
  | .move, some word => word.toInt
  | _, _ => 0

/-- The steps a shell reports as moving: `move_steps` does unless core1 is busy. -/
def Record.acknowledged : Record F Client → Int
  | .returned _ request (.ok reply) =>
      if reply = Core1.stepperAckBusy then 0 else stepsOf request
  | _ => 0

/-- What has been granted altogether. -/
def grants (records : List (Record F Client)) : Int := (records.map Record.granted).sum

/-- What has been reported altogether. -/
def acknowledgements (records : List (Record F Client)) : Int :=
  (records.map Record.acknowledged).sum

/-- What two stretches grant adds up. -/
theorem grants_append (records later : List (Record F Client)) :
    grants (records ++ later) = grants records + grants later := by
  rw [grants, List.map_append, List.sum_append]
  rfl

theorem acknowledgements_append (records later : List (Record F Client)) :
    acknowledgements (records ++ later) = acknowledgements records + acknowledgements later := by
  rw [acknowledgements, List.map_append, List.sum_append]
  rfl

/-- What is filtered out counts nothing. -/
private theorem sum_filter (value : Record F Client → Int) (keep : Record F Client → Bool)
    (records : List (Record F Client)) (nothing : ∀ record, keep record = false → value record = 0) :
    ((records.filter keep).map value).sum = (records.map value).sum := by
  induction records with
  | nil => rfl
  | cons record records inductionHypothesis =>
      cases kept : keep record with
      | false =>
          rw [List.filter_cons_of_neg (by simp [kept]), List.map_cons, List.sum_cons,
            nothing record kept, inductionHypothesis, Int.zero_add]
      | true =>
          rw [List.filter_cons_of_pos kept, List.map_cons, List.map_cons, List.sum_cons,
            List.sum_cons, inductionHypothesis]

/-- Only core1 grants. -/
theorem grants_ofCore1 (records : List (Record F Client)) :
    grants (ofCore1 records) = grants records := by
  refine sum_filter Record.granted _ records fun record other => ?_
  cases record <;> first | rfl | cases other

/-- What is granted is in the transcript. -/
theorem grants_transcript (records : List (Record F Client)) :
    grants (transcript records) = grants records := by
  refine sum_filter Record.granted _ records fun record other => ?_
  cases record <;> first | rfl | cases other

theorem acknowledgements_transcript (records : List (Record F Client)) :
    acknowledgements (transcript records) = acknowledgements records := by
  refine sum_filter Record.acknowledged _ records fun record other => ?_
  cases record <;> first | rfl | cases other

variable [SinglePrecision F]

/-- core1 answers with `STEPPER_ACK_BUSY` the moves it does not start. -/
theorem granted_eq_of_answer (motion : Motion F) (request : Request) :
    granted motion request.cmd request.payload =
      if answer motion request = Core1.stepperAckBusy then 0 else stepsOf request := by
  obtain ⟨cmd, payload, complete⟩ := request
  have accepted : Core1.stepperAckOk ≠ Core1.stepperAckBusy := by decide
  cases cmd with
  | move =>
      cases payload with
      | none => simp [granted, stepsOf]
      | some word =>
          by_cases moving : motion.state = .moving
          · have busy : answer motion ⟨.move, some word, complete⟩ = Core1.stepperAckBusy := by
              simp [answer, Core1.handlePayload, moving, Core1.Point.answer]
            rw [if_pos busy]
            simp [granted, moving]
          · have taken : answer motion ⟨.move, some word, complete⟩ = Core1.stepperAckOk := by
              simp only [answer, Core1.handlePayload, moving, if_false]
              split <;> rfl
            rw [taken, if_neg accepted]
            simp [granted, stepsOf, moving]
  | _ => cases payload <;> simp [granted, stepsOf]

/-- In whole exchanges what is granted is acknowledged. -/
theorem acknowledged_exchanges (exchanges : List (Exchange F Client)) :
    acknowledgements (exchanges.flatMap Exchange.records) =
      grants (exchanges.flatMap Exchange.records) := by
  induction exchanges with
  | nil => rfl
  | cons exchange exchanges inductionHypothesis =>
      rw [List.flatMap_cons, acknowledgements_append, grants_append, inductionHypothesis]
      congr 1
      simp [acknowledgements, grants, Exchange.records, Record.acknowledged, Record.granted,
        granted_eq_of_answer]

/-! ### What core1 starts -/

/-- The steps of a move which is accepted and not started yet. -/
def toStart (s : Core1.State F) : Int :=
  match s.point with
  | .direction steps | .settle steps => steps
  | _ => 0

/-- A payload which grants steps has core1 start them. -/
theorem handlePayload_toStart (motion : Motion F) (cmd : StepperCmd) (word : Word) :
    (match (Core1.handlePayload motion cmd word).1 with
      | .direction steps | .settle steps => steps
      | _ => 0) = granted motion cmd (some word) := by
  cases cmd with
  | move =>
      by_cases moving : motion.state = .moving
      · simp [Core1.handlePayload, granted, moving]
      · by_cases zero : word.toInt = 0
        · simp [Core1.handlePayload, granted, moving, zero]
        · simp [Core1.handlePayload, granted, moving, zero]
  | _ => rfl

/-- A step starts what it has accepted. -/
theorem started_of_move (Client : Type) {s next : Core1.State F} {choice : Core1.Choice}
    {emitted : List Event} (move : Move s choice emitted next) :
    commanded emitted + toStart next =
      toStart s + grants (emitted.map (Cores.recordOf s.motion : Event → Record F Client)) := by
  cases move with
  | payload cmd here word inbound read =>
      have accepts := handlePayload_toStart s.motion cmd word
      simp only [toStart, here, commanded, grants, List.map_cons, List.map_nil, List.sum_cons,
        List.sum_nil, Cores.recordOf, Record.granted, Int.add_zero, Int.zero_add]
      exact accepts
  | iteration here =>
      by_cases moving : s.motion.state = .moving <;> simp [toStart, here, moving, commanded, grants]
  | direction steps here | settle steps here =>
      simp [toStart, here, commanded, grants, Cores.recordOf, Record.granted]
  | arrive | take | pull | rise => simp [toStart, commanded, grants, Cores.recordOf, Record.granted]
  | _ => simp [toStart, *, commanded, grants, Cores.recordOf, Record.granted, granted]

variable [DecidableEq Client]

/-- The moves started, and the one accepted, are those granted. -/
theorem started_of_run {guard : Cores F Client → Turn Client → Prop} {s : Cores F Client}
    {turns : List (Turn Client)} {records : List (Record F Client)}
    (run : (system F Client).Run guard .initial turns records s) :
    commanded (records.filterMap Record.event?) + toStart s.core1 = grants records := by
  refine System.Run.invariant (fun (s : Cores F Client) records =>
    commanded (records.filterMap Record.event?) + toStart s.core1 = grants records) rfl ?_ run
  intro s records turn emitted next same _ stepped
  rw [List.filterMap_append, Core1.commanded_append, grants_append, ← grants_ofCore1 emitted,
    ← events_ofCore1 emitted]
  rcases core1Choice_of_step stepped with ⟨silent, still⟩ | ⟨choice, events, moved, -, told⟩
  · rw [silent, still]
    simpa [commanded, grants] using same
  · have started := started_of_move Client (Core1.move_of_step moved)
    have back : (events.map (Cores.recordOf s.core1.motion : Event → Record F Client)).filterMap
        Record.event? = events := by
      simp [List.filterMap_map, event?_recordOf]
    rw [told, back]
    omega

/-- While the round trips do not overlap, the moves started are those reported. -/
theorem commanded_of_run {s : Cores F Client} {turns : List (Turn Client)}
    {records : List (Record F Client)}
    (run : (system F Client).Run OneAtATime .initial turns records s)
    (idle : ∀ client, s.threads client = .idle) :
    commanded (records.filterMap Record.event?) = acknowledgements records := by
  have started := started_of_run run
  obtain ⟨exchanges, current, told, linked⟩ := linked_of_run run
  cases linked with
  | free _ clear =>
      have none : toStart s.core1 = 0 := by
        have between : s.core1.point.position = .between := clear.1
        unfold toStart
        split <;> rename_i here <;> first | rfl | (rw [here] at between; cases between)
      rw [List.append_nil] at told
      rw [← acknowledgements_transcript, told, acknowledged_exchanges, ← told, grants_transcript,
        ← started, none, Int.add_zero]
  | underway client request progress underway =>
      exact absurd (underway.here.symm.trans (idle client)) (by simp)
  | abandoned faulty => exact faulty.elim

/-! ### The axis -/

/-- The round trips do not overlap, no send fails and no wait times out; core1 handles no
`CMD_MOVE` of `INT32_MIN` steps, and no move reverses `PIN_DIR` before the pulses of the last one
are out. -/
def Orderly (s : Cores F Client) (turn : Turn Client) : Prop :=
  OneAtATime s turn ∧ (turn = .core1 → Sound s.core1 .core1)

/-- Then core1's own run is sound. -/
theorem sound_of_run {s : Cores F Client} {turns : List (Turn Client)}
    {records : List (Record F Client)}
    (run : (system F Client).Run Orderly .initial turns records s) :
    ∃ choices, (Core1.system F).Run Sound Core1.initial choices
      (records.filterMap Record.event?) s.core1 := by
  refine core1_run_of_run ?_ run
  intro s turn choice orderly mine
  by_cases own : choice = .core1
  · rw [own]
    exact orderly.2 (mine own)
  · exact Core1.sound_others _ _ own

/-- core1 stops a move for a `CMD_STOP` which it has decoded. -/
theorem decoded_of_stopRequested {guard : Cores F Client → Turn Client → Prop} {s : Cores F Client}
    {turns : List (Turn Client)} {records : List (Record F Client)}
    (run : (system F Client).Run guard .initial turns records s)
    (stopped : .core1 .stopRequested ∈ records) : (.stop, none) ∈ decodings records := by
  refine System.Run.invariant (fun (_ : Cores F Client) records =>
    Record.core1 .stopRequested ∈ records → (.stop, none) ∈ decodings records) (by simp) ?_ run stopped
  intro s records turn emitted next before _ stepped stopped
  rw [decodings_append]
  rcases List.mem_append.mp stopped with old | new
  · exact List.mem_append_left _ (before old)
  · apply List.mem_append_right
    have new : Record.core1 .stopRequested ∈ ofCore1 emitted := List.mem_filter.mpr ⟨new, rfl⟩
    rcases core1Choice_of_step stepped with ⟨silent, -⟩ | ⟨choice, events, moved, -, told⟩
    · rw [silent] at new
      cases new
    · rw [told] at new
      obtain ⟨event, member, same⟩ := List.mem_map.mp new
      obtain rfl : event = .stopRequested := by
        cases event <;> first | rfl | cases same
      generalize next.core1 = core1 at moved
      cases Core1.move_of_step moved with
      | stopMoving =>
          have decoded : Record.decoded s.core1.motion .stop none ∈ ofCore1 emitted := by
            rw [told]
            exact List.mem_cons_self
          exact List.mem_filterMap.mpr ⟨_, (List.mem_filter.mp decoded).1, rfl⟩
      | _ => simp at member

/-- Then a shell has issued it. -/
theorem issued_of_stopRequested {s : Cores F Client} {turns : List (Turn Client)}
    {records : List (Record F Client)}
    (run : (system F Client).Run OneAtATime .initial turns records s)
    (stopped : .stopRequested ∈ records.filterMap Record.event?) :
    ∃ client request, .issued client request ∈ records ∧ request.cmd = .stop := by
  obtain ⟨record, member, event⟩ := List.mem_filterMap.mp stopped
  obtain rfl : record = .core1 .stopRequested := by
    cases record with
    | core1 => exact congrArg Record.core1 (Option.some.inj event)
    | _ => cases event
  have decoded := decoded_of_stopRequested run member
  have issued := (exchanged_of_run run).decoded.1.subset decoded
  obtain ⟨record, member, request⟩ := List.mem_filterMap.mp issued
  cases record with
  | issued client request' =>
      exact ⟨client, request', member, congrArg Prod.fst (Option.some.inj request)⟩
  | _ => cases request

/-- Between the round trips of a run in which none overlap, none of their sends fails and none of
their waits times out: the pulses on STEP, those on their way to it, the steps of the move in
progress still to be pushed and the steps stopped moves have left undone add up to the moves the
shells have reported. If no shell has stopped a move, the axis is where they lead as soon as core1
is idle and the words are out. -/
theorem shells_move_axis (F : Type) [SinglePrecision F] {s : Cores F Client}
    {turns : List (Turn Client)} {records : List (Record F Client)}
    (run : (system F Client).Run Orderly .initial turns records s)
    (idle : ∀ client, s.threads client = .idle) :
    position (records.filterMap Record.event?) +
        signed s.core1.dir (s.core1.pending.length + s.core1.unfed) +
          abandoned (records.filterMap Record.event?) = acknowledgements records ∧
      ((∀ client request, .issued client request ∈ records → request.cmd ≠ .stop) →
        s.core1.motion.state ≠ .moving → s.core1.pending = [] →
          position (records.filterMap Record.event?) = acknowledgements records) := by
  obtain ⟨choices, core1⟩ := sound_of_run run
  have alone : (system F Client).Run OneAtATime .initial turns records s :=
    run.weaken fun s turn orderly => orderly.1
  have balanced := Core1.balanced_of_run core1
  have started := commanded_of_run alone idle
  refine ⟨balanced.total.trans started, fun unstopped resting drained => ?_⟩
  have never : .stopRequested ∉ records.filterMap Record.event? := by
    intro stopped
    obtain ⟨client, request, member, stop⟩ := issued_of_stopRequested alone stopped
    exact unstopped client request member stop
  have total := balanced.total.trans started
  obtain ⟨nothing, -⟩ := balanced.unstopped never
  simpa only [Core1.State.unfed, resting, drained, if_false, List.length_nil, Int.natCast_zero,
    Int.add_zero, Core1.signed_zero, nothing] using total

/-- `Orderly`, decided for two shells. -/
def isOrderly (s : Cores Binary32 ShellInstance) (turn : Turn ShellInstance) : Bool :=
  isOneAtATime s turn && match turn with
    | .core1 => movesNegatable s.core1 .core1 && reversesDrained s.core1 .core1
    | _ => true

/-- What the decidable form admits, the guard admits. -/
theorem isOrderly_sound (s : Cores Binary32 ShellInstance) (turn : Turn ShellInstance)
    (decided : isOrderly s turn = true) : Orderly s turn := by
  simp only [isOrderly, Bool.and_eq_true] at decided
  refine ⟨isOneAtATime_sound decided.1, ?_⟩
  rintro rfl
  simp only [Bool.and_eq_true] at decided
  exact ⟨movesNegatable_sound decided.2.1, reversesDrained_sound decided.2.2⟩

/-- A shell moves by some steps, which are pushed and come out. -/
def journeyTurns (client : ShellInstance) (steps : Int) : List (Turn ShellInstance) :=
  .core1 :: .issue client (.withPayload .move (BitVec.ofInt 32 steps) Request.move_takesPayload) ::
    [.thread client 0, .thread client 0] ++ List.replicate 5 .core1 ++
    [.interrupt, .drain, .thread client 0, .thread client 0, .core1] ++
    (List.replicate steps.natAbs [.core1, .core1, .pull, .rise]).flatten ++
    [.core1, .core1, .core1]

/-- The USB shell moves two steps forward, then the telnet shell one step back. -/
theorem one_step_ahead : ∃ turns records s,
    (system Binary32 ShellInstance).Run Orderly .initial turns records s ∧
      acknowledgements records = 1 ∧ position (records.filterMap Record.event?) = 1 := by
  have executed : (System.execute Cores.step isOrderly (.initial : Cores Binary32 ShellInstance)
      (journeyTurns .usb 2 ++ journeyTurns .telnet (-1))).map (fun result =>
        (acknowledgements result.1, (issues result.1).map (·.1),
          (result.2.threads .usb).isIdle && (result.2.threads .telnet).isIdle,
          result.2.core1.motion.state, result.2.core1.pending)) =
      some (1, [.move, .move], true, .idle, []) := by
    decide +kernel
  obtain ⟨⟨records, s⟩, executed, reached⟩ := Option.map_eq_some_iff.mp executed
  simp only [Prod.mk.injEq, Bool.and_eq_true] at reached
  obtain ⟨one, commands, ⟨usb, telnet⟩, resting, drained⟩ := reached
  have admitted : (system Binary32 ShellInstance).Run (fun s turn => isOrderly s turn = true)
      .initial _ records s := System.run_of_execute executed
  have run := admitted.weaken isOrderly_sound
  have idle : ∀ client, s.threads client = .idle := by
    intro client
    apply Thread.eq_idle_of_isIdle
    cases client <;> assumption
  have unstopped : ∀ client request, .issued client request ∈ records → request.cmd ≠ .stop := by
    intro client request member stop
    have issued : request.cmd ∈ (issues records).map (·.1) :=
      List.mem_map.mpr ⟨_, List.mem_filterMap.mpr ⟨_, member, rfl⟩, rfl⟩
    rw [commands, stop] at issued
    exact absurd issued (by decide)
  obtain ⟨-, there⟩ := shells_move_axis Binary32 run idle
  exact ⟨_, records, s, run, one, one ▸ there unstopped (by simp [resting]) drained⟩

/-! ### How fast the axis goes -/

section Speeds

variable {guard guard' : Cores ℝ Client → Turn Client → Prop} {earlier begun s : Cores ℝ Client}
  {turn : Turn Client} {turns turns' : List (Turn Client)}
  {past told records : List (Record ℝ Client)} {steps : Int}

/-- Whatever the shells do, overlapping or failing: the words of each move of core1 are those of
speeds within the envelope of its parameters, as long as no command changes `M`. -/
theorem shells_move_enveloped (reached : (system ℝ Client).Run guard .initial turns past earlier)
    (stepped : earlier.step turn = some (told, begun))
    (started : .started steps ∈ told.filterMap Record.event?) (negatable : steps ≠ -2 ^ 31)
    (run : (system ℝ Client).Run guard' begun turns' records s)
    (within : ∀ steps, .started steps ∉ records.filterMap Record.event?)
    (unsteered : ¬Core1.Steered (records.filterMap Record.event?)) :
    ∃ pushes, Core1.stepWords (records.filterMap Record.event?) = pushes.map Core1.Push.word ∧
      Core1.Enveloped earlier.core1.motion s.core1.motion pushes := by
  have anything {guard : Cores ℝ Client → Turn Client → Prop} : ∀ s turn choice, guard s turn →
      (choice = .core1 → turn = .core1) →
        (Core1.system ℝ).unguarded s.core1 choice := fun _ _ _ _ _ => trivial
  obtain ⟨_, before⟩ := core1_run_of_run anything reached
  obtain ⟨_, after⟩ := core1_run_of_run anything run
  rcases core1Step_of_step stepped with ⟨silent, _⟩ | ⟨choice, moved, _⟩
  · rw [silent] at started
    cases started
  · exact Core1.own_move_enveloped before ⟨choice, _, moved, started⟩ after within negatable unsteered

end Speeds

end Rp2350Stepper.Shell
