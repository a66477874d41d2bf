import Rp2350Stepper.Semantics.Implementation
import Rp2350Stepper.Shell.Shells

/-!
# core1 as the shells see it

Behind the mailbox, its FIFOs and the interrupt core1 is a server: it has only `M`, and either
feeds a step or answers one request at once. As long as the round trips have not overlapped, no
send has failed and no wait has timed out, the shells cannot tell the difference.
`cmd_stepper_status` makes six round trips, so what it prints is of one moment only as far as
feeding leaves it alone.
-/

namespace Rp2350Stepper.Shell

open Rp2350Stepper.Num Rp2350Stepper.Semantics
open Rp2350Stepper.Core1 (Word StepperCmd StatusField Motion Event Request Move Wellformed answer)

variable {F Client : Type} [SinglePrecision F]

/-! ### The server -/

/-- A command which has been served. -/
structure Service where
  cmd : StepperCmd
  payload : Option Word
  reply : Word
deriving DecidableEq, Repr

/-- The reply to a command. -/
def replyTo (motion : Motion F) (cmd : StepperCmd) : Option Word → Word
  | none => Core1.stepperAckOk
  | some word => (Core1.handlePayload motion cmd word).1.answer

/-- What a command makes of `M`. -/
def handled (motion : Motion F) (cmd : StepperCmd) : Option Word → Motion F
  | none => motion.cmdStop
  | some word =>
      let next := (Core1.handlePayload motion cmd word).2
      match (Core1.handlePayload motion cmd word).1 with
      | .direction steps => next.motionStart steps
      | _ => next

/-- Feed a step, or serve a command. -/
inductive ServerChoice where
  | feed
  | serve (cmd : StepperCmd) (payload : Option Word)

/-- One step of the server. -/
def serverStep (motion : Motion F) : ServerChoice → Option (List Service × Motion F)
  | .feed => some ([], motion.feedStep.1)
  | .serve cmd payload =>
      some ([⟨cmd, payload, replyTo motion cmd payload⟩], handled motion cmd payload)

/-- The server, from reset. -/
abbrev server (F : Type) [SinglePrecision F] : System Service :=
  System.ofFunction (fun motion : Motion F => motion = .initial) serverStep

/-! ### core1 refines it -/

/-- `M`, with an accepted move started. -/
def settled (s : Core1.State F) : Motion F :=
  match s.point with
  | .direction steps | .settle steps => s.motion.motionStart steps
  | _ => s.motion

/-- What core1 serves when it decodes a command. -/
def Record.service? : Record F Client → Option Service
  | .decoded motion cmd payload => some ⟨cmd, payload, replyTo motion cmd payload⟩
  | _ => none

/-- What a shell has been served. -/
def Record.served? : Record F Client → Option Service
  | .returned _ request (.ok reply) => some ⟨request.cmd, request.payload, reply⟩
  | _ => none

/-- What the shells have been served, in order. -/
def served (records : List (Record F Client)) : List Service := records.filterMap Record.served?

/-- One step is a run. -/
theorem serves {motion next : Motion F} {choice : ServerChoice} {services : List Service}
    (stepped : serverStep motion choice = some (services, next)) :
    (server F).Run (server F).unguarded motion [choice] services next :=
  .single trivial stepped

/-- A step of core1 is some steps of the server. -/
theorem server_of_move (Client : Type) {s next : Core1.State F} {choice : Core1.Choice}
    {emitted : List Event} (wellformed : Wellformed s) (move : Move s choice emitted next) :
    ∃ choices, (server F).Run (server F).unguarded (settled s) choices
      ((emitted.map (Cores.recordOf s.motion : Event → Record F Client)).filterMap Record.service?)
      (settled next) := by
  have still {emitted : List Event} {next : Core1.State F} (same : settled next = settled s)
      (silent : (emitted.map (Cores.recordOf s.motion : Event → Record F Client)).filterMap
        Record.service? = []) : ∃ choices, (server F).Run (server F).unguarded (settled s) choices
      ((emitted.map (Cores.recordOf s.motion : Event → Record F Client)).filterMap Record.service?)
      (settled next) := by
    rw [same, silent]
    exact ⟨[], .refl⟩
  cases move with
  | iteration here =>
      refine still ?_ rfl
      by_cases moving : s.motion.state = .moving <;> simp [settled, here, moving]
  | feedEnds here moving ends =>
      refine ⟨[.feed], serves ?_⟩
      simp [serverStep, settled, here, Motion.feedStep, moving, ends, Cores.recordOf,
        Record.service?]
  | feedPushes here moving stopReq remaining =>
      refine ⟨[.feed], serves ?_⟩
      simp [serverStep, settled, here, Motion.feedStep, moving, stopReq, Int.not_le.mpr remaining,
        Cores.recordOf, Record.service?]
  | feedLoses here moving full =>
      have room := wellformed.room here
      omega
  | stopMoving here inbound read moving =>
      refine ⟨[.serve .stop none], serves ?_⟩
      simp [serverStep, settled, here, handled, Motion.cmdStop, moving, Cores.recordOf,
        Record.service?]
  | stopIdle here inbound read idle =>
      refine ⟨[.serve .stop none], serves ?_⟩
      simp [serverStep, settled, here, handled, Motion.cmdStop, idle, Cores.recordOf,
        Record.service?]
  | payload cmd here word inbound read =>
      have after : settled { s with
          point := (Core1.handlePayload s.motion cmd word).1
          motion := (Core1.handlePayload s.motion cmd word).2
          inbound := inbound } = handled s.motion cmd (some word) := by
        unfold settled handled
        rcases Core1.handlePayload_point s.motion cmd word with ⟨reply, point⟩ | ⟨_, _, _, point⟩
        · simp only [point]
        · simp only [point]
      have before : settled s = s.motion := by simp [settled, here]
      refine ⟨[.serve cmd (some word)], ?_⟩
      rw [after, before]
      exact serves rfl
  | direction steps here | settle steps here => exact still (by simp [settled, here]) rfl
  | arrive | take | pull => exact still rfl rfl
  | rise => exact still rfl rfl
  | _ => exact still (by simp [settled, *]) rfl

variable [DecidableEq Client]

/-- Whatever the shells do, core1 is a server of the commands it decodes. -/
theorem server_of_run {guard : Cores F Client → Turn Client → Prop} {s : Cores F Client}
    {turns : List (Turn Client)} {records : List (Record F Client)}
    (run : (system F Client).Run guard .initial turns records s) :
    ∃ choices, (server F).Run (server F).unguarded .initial choices
      (records.filterMap Record.service?) (settled s.core1) := by
  suffices both : Wellformed s.core1 ∧ ∃ choices, (server F).Run (server F).unguarded .initial choices
      (records.filterMap Record.service?) (settled s.core1) from both.2
  refine System.Run.invariant (fun (s : Cores F Client) records =>
    Wellformed s.core1 ∧ ∃ choices, (server F).Run (server F).unguarded .initial choices
      (records.filterMap Record.service?) (settled s.core1))
    ⟨Core1.wellformed_initial, [], .refl⟩ ?_ run
  rintro s records turn emitted next ⟨wellformed, choices, prior⟩ _ stepped
  have told : (ofCore1 emitted).filterMap Record.service? = emitted.filterMap Record.service? := by
    rw [ofCore1, List.filterMap_filter]
    congr 1
    funext record
    cases record with
    | core1 event => cases event <;> rfl
    | _ => rfl
  rw [List.filterMap_append, ← told]
  rcases core1Choice_of_step stepped with ⟨silent, still⟩ | ⟨choice, events, moved, -, same⟩
  · rw [silent, still]
    exact ⟨wellformed, choices, by simpa using prior⟩
  · have move := Core1.move_of_step moved
    obtain ⟨more, later⟩ := server_of_move Client wellformed move
    rw [same]
    exact ⟨Core1.wellformed_move wellformed move, _, prior.trans later⟩

omit [SinglePrecision F] [DecidableEq Client] in
/-- What two stretches serve, in order. -/
theorem served_append (records later : List (Record F Client)) :
    served (records ++ later) = served records ++ served later := List.filterMap_append ..

omit [DecidableEq Client] in
/-- In whole exchanges the shells are served what core1 serves. -/
theorem served_exchanges (exchanges : List (Exchange F Client)) :
    served (exchanges.flatMap Exchange.records) =
      (exchanges.flatMap Exchange.records).filterMap Record.service? := by
  induction exchanges with
  | nil => rfl
  | cons exchange exchanges inductionHypothesis =>
      rw [List.flatMap_cons, served_append, List.filterMap_append, inductionHypothesis]
      rfl

omit [DecidableEq Client] in
/-- The transcript leaves out nothing which core1 serves or a shell is served. -/
theorem services_of_transcript (records : List (Record F Client)) :
    (transcript records).filterMap Record.service? = records.filterMap Record.service? ∧
      served (transcript records) = served records := by
  constructor
  · rw [transcript, List.filterMap_filter]
    congr 1
    funext record
    cases record with
    | core1 event => cases event <;> rfl
    | _ => rfl
  · rw [served, transcript, List.filterMap_filter]
    apply congrArg (fun f => records.filterMap f)
    funext record
    cases record with
    | core1 event => cases event <;> rfl
    | _ => rfl

/-- Between round trips which do not overlap, the shells have been served what core1 has served,
and no move waits to be started. -/
theorem served_between {s : Cores F Client} {turns : List (Turn Client)}
    {records : List (Record F Client)}
    (run : (system F Client).Run OneAtATime .initial turns records s)
    (idle : ∀ client, s.threads client = .idle) :
    served records = records.filterMap Record.service? ∧ settled s.core1 = s.core1.motion := by
  obtain ⟨exchanges, current, told, linked⟩ := linked_of_run run
  cases linked with
  | free _ clear =>
      rw [List.append_nil] at told
      obtain ⟨services, returned⟩ := services_of_transcript records
      refine ⟨by rw [← returned, told, served_exchanges, ← told, services], ?_⟩
      have between : s.core1.point.position = .between := clear.1
      unfold settled
      split <;> rename_i here <;> first | rfl | (rw [here] at between; cases between)
  | underway client request progress underway =>
      exact absurd (underway.here.symm.trans (idle client)) (by simp)
  | abandoned faulty => exact faulty.elim

/-- In a run whose round trips do not overlap, in which no send fails and no wait times out, the
shells are served by a server: it feeds the steps and answers each request at once, in the order
in which they return. -/
theorem shells_see_server (F : Type) [SinglePrecision F] {s : Cores F Client}
    {turns : List (Turn Client)} {records : List (Record F Client)}
    (run : (system F Client).Run OneAtATime .initial turns records s)
    (idle : ∀ client, s.threads client = .idle) :
    ∃ choices, (server F).Run (server F).unguarded .initial choices (served records)
      s.core1.motion := by
  obtain ⟨choices, followed⟩ := server_of_run run
  obtain ⟨all, started⟩ := served_between run idle
  rw [all, ← started]
  exact ⟨choices, followed⟩

/-- The telnet shell asks for the state after the USB shell has stopped. -/
theorem two_shells_served : ∃ turns records s,
    (system Binary32 ShellInstance).Run OneAtATime .initial turns records s ∧
      served records = [⟨.stop, none, 0⟩, ⟨.status, some 0, 0⟩] ∧
      ∃ choices, (server Binary32).Run (server Binary32).unguarded .initial choices
        (served records) s.core1.motion := by
  have executed : (System.execute Cores.step isOneAtATime (.initial : Cores Binary32 ShellInstance)
      (roundTripTurns .usb .stop ++
        roundTripTurns .telnet (.withPayload .status StatusField.state.toWord (by decide)))).map
          (fun result => (served result.1,
            (result.2.threads .usb).isIdle && (result.2.threads .telnet).isIdle)) =
      some ([⟨.stop, none, 0⟩, ⟨.status, some 0, 0⟩], true) := by
    decide +kernel
  obtain ⟨⟨records, s⟩, executed, reached⟩ := Option.map_eq_some_iff.mp executed
  simp only [Prod.mk.injEq, Bool.and_eq_true] at reached
  have admitted : (system Binary32 ShellInstance).Run (fun s turn => isOneAtATime s turn = true)
      .initial _ records s := System.run_of_execute executed
  have run := admitted.weaken fun _ _ => isOneAtATime_sound
  have idle : ∀ client, s.threads client = .idle := by
    intro client
    apply Thread.eq_idle_of_isIdle
    cases client
    · exact reached.2.1
    · exact reached.2.2
  exact ⟨_, records, s, run, reached.1, shells_see_server Binary32 run idle⟩

/-! ### `stepper status` -/

/-- The round trips a command of the shell makes. -/
abbrev roundTrips : Interface := ⟨Request, fun _ => Except Int Word⟩

/-- Code which makes round trips. -/
abbrev Trips (α : Type) := ExceptT Int (Program roundTrips) α

/-- `cmd_roundtrip1` or `cmd_roundtrip0`, whose return code the caller checks. -/
def roundTrip (request : Request) : Trips (Except Int Word) :=
  ExceptT.lift (Program.ask request .done)

/-- `status_query`. -/
def statusQuery (field : StatusField) : Trips Word := do
  match ← roundTrip (.withPayload .status field.toWord (by decide)) with
  | .ok reply => return reply
  | .error _ => throw (-1)

/-- What `cmd_stepper_status` prints. -/
structure Report where
  maxSpeed : Word
  accel : Word
  decel : Word
  /-- The steps remaining and the speed, while moving. -/
  moving : Option (Int × Word)
deriving DecidableEq, Repr

/-- `cmd_stepper_status`. -/
def cmdStepperStatus : Trips Report := do
  let state ← statusQuery .state
  let maxSpeed ← statusQuery .maxSpeed
  let accel ← statusQuery .accel
  let decel ← statusQuery .decel
  let speed ← statusQuery .speed
  let remaining ← statusQuery .remaining
  return ⟨maxSpeed, accel, decel, if state ≠ 0 then some (remaining.toInt, speed) else none⟩

/-- What has been served answers the round trips. -/
abbrev replay : Device roundTrips where
  State := List Service
  Choice := Unit
  answer services request _ :=
    match services with
    | [] => none
    | service :: rest =>
        if service.cmd = request.cmd ∧ service.payload = request.payload then
          some (.ok service.reply, rest)
        else none

/-- A query is the next service. -/
theorem query_replayed {α : Type} {field : StatusField} {next : Word → Trips α}
    {services finish : List Service} {choices : List Unit} {result : Except Int α}
    (returns : replay.Returns replay.unguarded (statusQuery field >>= next).run services choices
      result finish) :
    ∃ reply rest choices, services = ⟨.status, some field.toWord, reply⟩ :: rest ∧
      replay.Returns replay.unguarded (next reply).run rest choices result finish := by
  obtain ⟨choice, response, middle, later, -, answered, continued⟩ := returns.of_asked
  cases services with
  | nil => cases answered
  | cons service rest =>
      obtain ⟨cmd, payload, reply⟩ := service
      obtain ⟨⟨rfl, rfl⟩, answered⟩ := Option.ite_none_right_eq_some.mp answered
      obtain ⟨rfl, rfl⟩ := Prod.ext_iff.mp (Option.some.inj answered)
      exact ⟨reply, rest, later, rfl, continued⟩

/-- `cmd_stepper_status` makes six round trips. -/
theorem status_replayed {services : List Service} {choices : List Unit} {report : Report}
    (returns : replay.Returns replay.unguarded cmdStepperStatus.run services choices (.ok report)
      []) :
    ∃ state maxSpeed accel decel speed remaining,
      services = [⟨.status, some StatusField.state.toWord, state⟩,
        ⟨.status, some StatusField.maxSpeed.toWord, maxSpeed⟩,
        ⟨.status, some StatusField.accel.toWord, accel⟩,
        ⟨.status, some StatusField.decel.toWord, decel⟩,
        ⟨.status, some StatusField.speed.toWord, speed⟩,
        ⟨.status, some StatusField.remaining.toWord, remaining⟩] ∧
      report = ⟨maxSpeed, accel, decel,
        if state ≠ 0 then some (remaining.toInt, speed) else none⟩ := by
  obtain ⟨state, _, _, first, afterState⟩ := query_replayed returns
  obtain ⟨maxSpeed, _, _, second, afterMaxSpeed⟩ := query_replayed afterState
  obtain ⟨accel, _, _, third, afterAccel⟩ := query_replayed afterMaxSpeed
  obtain ⟨decel, _, _, fourth, afterDecel⟩ := query_replayed afterAccel
  obtain ⟨speed, _, _, fifth, afterSpeed⟩ := query_replayed afterDecel
  obtain ⟨remaining, _, _, sixth, afterRemaining⟩ := query_replayed afterSpeed
  obtain ⟨printed, last⟩ := afterRemaining.of_done
  refine ⟨state, maxSpeed, accel, decel, speed, remaining, ?_, (Except.ok.inj printed).symm⟩
  rw [first, second, third, fourth, fifth, sixth, last]

/-! ### What the server serves -/

/-- Some steps are fed. -/
def Fed (motion later : Motion F) : Prop :=
  ∃ count, later = (fun m => (Motion.feedStep m).1)^[count] motion

/-- Feeding is a run of the server. -/
theorem Fed.run {motion later : Motion F} (fed : Fed motion later) :
    ∃ choices, (server F).Run (server F).unguarded motion choices [] later := by
  obtain ⟨count, rfl⟩ := fed
  induction count with
  | zero => exact ⟨[], .refl⟩
  | succ count inductionHypothesis =>
      obtain ⟨choices, prior⟩ := inductionHypothesis
      rw [Function.iterate_succ_apply']
      generalize (fun m => (Motion.feedStep m).1)^[count] motion = fed at prior ⊢
      have feeds : (server F).Run (server F).unguarded fed [.feed] [] fed.feedStep.1 := serves rfl
      exact ⟨_, prior.trans feeds⟩

/-- What a run of the server does first: it only feeds, or feeds and then serves. -/
theorem served_first {motion finish : Motion F} {choices : List ServerChoice}
    {services : List Service}
    (run : (server F).Run (server F).unguarded motion choices services finish) :
    (services = [] ∧ Fed motion finish) ∨
      ∃ before cmd payload rest choices, Fed motion before ∧
        services = ⟨cmd, payload, replyTo before cmd payload⟩ :: rest ∧
        (server F).Run (server F).unguarded (handled before cmd payload) choices rest finish := by
  refine System.Run.invariant (fun finish services => (services = [] ∧ Fed motion finish) ∨
      ∃ before cmd payload rest choices, Fed motion before ∧
        services = ⟨cmd, payload, replyTo before cmd payload⟩ :: rest ∧
        (server F).Run (server F).unguarded (handled before cmd payload) choices rest finish)
    (.inl ⟨rfl, 0, rfl⟩) ?_ run
  rintro current services choice emitted next
    (⟨rfl, count, rfl⟩ | ⟨before, cmd, payload, rest, _, fed, rfl, more⟩) _ stepped
  · cases choice with
    | feed =>
        obtain ⟨rfl, rfl⟩ := Prod.ext_iff.mp (Option.some.inj stepped)
        exact .inl ⟨rfl, count + 1, by rw [Function.iterate_succ_apply']⟩
    | serve cmd payload =>
        obtain ⟨rfl, rfl⟩ := Prod.ext_iff.mp (Option.some.inj stepped)
        exact .inr ⟨_, cmd, payload, [], [], ⟨count, rfl⟩, rfl, .refl⟩
  · exact .inr ⟨before, cmd, payload, rest ++ emitted, _, fed, rfl, .step more trivial stepped⟩

/-- The services of a run split it. -/
theorem split_services {motion finish : Motion F} {choices : List ServerChoice}
    {services later : List Service}
    (run : (server F).Run (server F).unguarded motion choices (services ++ later) finish) :
    ∃ middle first second, (server F).Run (server F).unguarded motion first services middle ∧
      (server F).Run (server F).unguarded middle second later finish := by
  induction services generalizing motion choices with
  | nil => exact ⟨motion, [], choices, .refl, run⟩
  | cons service services inductionHypothesis =>
      rcases served_first run with ⟨none, _⟩ | ⟨before, cmd, payload, rest, choices', fed, told, more⟩
      · cases none
      · obtain ⟨rfl, rfl⟩ := List.cons.inj told
        obtain ⟨middle, first, second, ran, continued⟩ := inductionHypothesis more
        obtain ⟨feeds, ran'⟩ := fed.run
        have service : (server F).Run (server F).unguarded before [.serve cmd payload]
            [⟨cmd, payload, replyTo before cmd payload⟩] (handled before cmd payload) := serves rfl
        exact ⟨middle, _, second, ran'.trans (service.trans ran), continued⟩

/-- A query is answered after some feeding, and changes nothing. -/
theorem query_served {motion finish : Motion F} {choices : List ServerChoice} {field reply : Word}
    {services : List Service}
    (run : (server F).Run (server F).unguarded motion choices
      (⟨.status, some field, reply⟩ :: services) finish) :
    ∃ asked, Fed motion asked ∧ reply = asked.cmdStatus field ∧
      ∃ choices, (server F).Run (server F).unguarded asked choices services finish := by
  rcases served_first run with ⟨none, _⟩ | ⟨asked, cmd, payload, rest, choices', fed, told, more⟩
  · cases none
  · obtain ⟨same, rfl⟩ := List.cons.inj told
    obtain ⟨rfl, rfl, rfl⟩ := Service.mk.inj same
    exact ⟨asked, fed, rfl, choices', more⟩

/-- Feeding changes no setting, and nothing at all once core1 is idle. -/
theorem Fed.settings {motion later : Motion F} (fed : Fed motion later) :
    later.maxSpeed = motion.maxSpeed ∧ later.accel = motion.accel ∧ later.decel = motion.decel := by
  obtain ⟨count, rfl⟩ := fed
  induction count with
  | zero => exact ⟨rfl, rfl, rfl⟩
  | succ count inductionHypothesis =>
      rw [Function.iterate_succ_apply']
      rcases ((fun m => (Motion.feedStep m).1)^[count] motion).feedStep_cases with
        ⟨_, fed⟩ | ⟨_, _, fed⟩ | ⟨_, _, _, fed⟩ <;> (rw [fed]; exact inductionHypothesis)

/-- Steps are fed, and then more. -/
theorem Fed.trans {motion later last : Motion F} (fed : Fed motion later) (more : Fed later last) :
    Fed motion last := by
  obtain ⟨count, rfl⟩ := fed
  obtain ⟨count', rfl⟩ := more
  exact ⟨count' + count, (Function.iterate_add_apply _ _ _ _).symm⟩

/-- What `stepper status` prints: the settings are those core1 has at the first of the six
queries, and so is whether it moves. If it does, speed and remaining steps are those of one and
of another moment later on, with only steps fed in between. This is so if no other shell makes a
round trip between the six, and in the whole run the round trips do not overlap, no send fails and
no wait times out: an earlier fault leaves a reply behind which the queries would take. -/
theorem status_coherent (F : Type) [SinglePrecision F] {s : Cores F Client}
    {turns : List (Turn Client)} {records : List (Record F Client)}
    (run : (system F Client).Run OneAtATime .initial turns records s)
    (idle : ∀ client, s.threads client = .idle) {before trips after : List Service}
    (told : served records = before ++ (trips ++ after)) {choices : List Unit} {report : Report}
    (returns : replay.Returns replay.unguarded cmdStepperStatus.run trips choices (.ok report) []) :
    ∃ (queried timed counted : Motion F) (earlier later : List ServerChoice),
      (server F).Run (server F).unguarded .initial earlier before queried ∧
      Fed queried timed ∧ Fed timed counted ∧
      (server F).Run (server F).unguarded counted later after s.core1.motion ∧
      report = {
        maxSpeed := SinglePrecision.toBits queried.maxSpeed
        accel := SinglePrecision.toBits queried.accel
        decel := SinglePrecision.toBits queried.decel
        moving :=
          if queried.state = .moving then
            some ((BitVec.ofInt 32 counted.remaining).toInt, SinglePrecision.toBits timed.speed)
          else none } := by
  obtain ⟨whole, followed⟩ := server_of_run run
  obtain ⟨all, started⟩ := served_between run idle
  rw [← all, started, told] at followed
  obtain ⟨start, first, second, ran, rest⟩ := split_services followed
  obtain ⟨state, maxSpeed, accel, decel, speed, remaining, rfl, rfl⟩ := status_replayed returns
  obtain ⟨queried, fed, rfl, _, rest⟩ := query_served rest
  obtain ⟨second, fedSecond, rfl, _, rest⟩ := query_served rest
  obtain ⟨third, fedThird, rfl, _, rest⟩ := query_served rest
  obtain ⟨fourth, fedFourth, rfl, _, rest⟩ := query_served rest
  obtain ⟨timed, fedTimed, rfl, _, rest⟩ := query_served rest
  obtain ⟨counted, fedCounted, rfl, later, rest⟩ := query_served rest
  obtain ⟨feeds, fedRun⟩ := fed.run
  have earlier := ran.trans fedRun
  rw [List.append_nil] at earlier
  have between := fedSecond.trans (fedThird.trans fedFourth)
  refine ⟨queried, timed, counted, _, later, earlier, between.trans fedTimed, fedCounted, rest, ?_⟩
  obtain ⟨sameSpeed, -, -⟩ := fedSecond.settings
  obtain ⟨-, sameAccel, -⟩ := (fedSecond.trans fedThird).settings
  obtain ⟨-, -, sameDecel⟩ := between.settings
  simp only [Motion.cmdStatus, StatusField.ofWord_toWord, sameSpeed, sameAccel, sameDecel]
  by_cases moving : queried.state = .moving <;> simp [moving]

/-- The USB shell moves ten steps; the PIO takes none of the four core1 can push. -/
def heldMoveTurns : List (Turn ShellInstance) :=
  .issue .usb (.withPayload .move 10 Request.move_takesPayload) ::
    [.thread .usb 0, .thread .usb 0] ++ List.replicate 6 .core1 ++
    [.interrupt, .drain, .thread .usb 0, .thread .usb 0] ++ List.replicate 11 .core1

/-- A query of the USB shell while the TX FIFO is full. -/
def heldQueryTurns (field : StatusField) : List (Turn ShellInstance) :=
  .issue .usb (.withPayload .status field.toWord (by decide)) ::
    [.thread .usb 0, .thread .usb 0] ++ List.replicate 5 .core1 ++
    [.interrupt, .drain, .thread .usb 0, .thread .usb 0]

/-- It is reported with six steps left. -/
theorem held_move_reported : ∃ turns records s,
    (system Binary32 ShellInstance).Run OneAtATime .initial turns records s ∧
      ∃ trips choices report, served records = [⟨.move, some 10, 0⟩] ++ (trips ++ []) ∧
        replay.Returns replay.unguarded cmdStepperStatus.run trips choices (.ok report) [] ∧
        report.moving.map Prod.fst = some 6 ∧
        ∃ counted : Motion Binary32, (BitVec.ofInt 32 counted.remaining).toInt = 6 := by
  have executed : (System.execute Cores.step isOneAtATime (.initial : Cores Binary32 ShellInstance)
      (heldMoveTurns ++ [StatusField.state, .maxSpeed, .accel, .decel, .speed, .remaining].flatMap
        heldQueryTurns)).map (fun result => ((served result.1).take 1,
          (replay.play (fun _ _ _ => true) cmdStepperStatus.run ((served result.1).drop 1) []).map
            (fun (_, printed, left) =>
              ((printed.toOption.bind Report.moving).map Prod.fst, List.isEmpty left)),
          (result.2.threads .usb).isIdle && (result.2.threads .telnet).isIdle)) =
      some ([⟨.move, some 10, 0⟩], some (some 6, true), true) := by
    decide +kernel
  obtain ⟨⟨records, s⟩, executed, reached⟩ := Option.map_eq_some_iff.mp executed
  simp only [Prod.mk.injEq, Bool.and_eq_true] at reached
  obtain ⟨moved, played, usb, telnet⟩ := reached
  have admitted : (system Binary32 ShellInstance).Run (fun s turn => isOneAtATime s turn = true)
      .initial _ records s := System.run_of_execute executed
  have run := admitted.weaken fun _ _ => isOneAtATime_sound
  have idle : ∀ client, s.threads client = .idle := by
    intro client
    apply Thread.eq_idle_of_isIdle
    cases client <;> assumption
  obtain ⟨⟨choices, printed, left⟩, played, shown⟩ := Option.map_eq_some_iff.mp played
  obtain ⟨ok, empty⟩ := Prod.ext_iff.mp shown
  obtain rfl : left = [] := List.isEmpty_iff.mp empty
  obtain ⟨report, rfl, six⟩ : ∃ report, printed = .ok report ∧
      report.moving.map Prod.fst = some 6 := by
    cases printed with
    | ok report => exact ⟨report, rfl, ok⟩
    | error => cases ok
  have told : served records = [⟨.move, some 10, 0⟩] ++ ((served records).drop 1 ++ []) := by
    rw [← moved, List.append_nil, List.take_append_drop]
  have returns : replay.Returns replay.unguarded cmdStepperStatus.run ((served records).drop 1)
      choices (.ok report) [] := (Device.Returns.of_play played).weaken fun _ _ _ _ => trivial
  obtain ⟨queried, timed, counted, _, _, _, _, _, _, rfl⟩ :=
    status_coherent Binary32 run idle told returns
  refine ⟨_, records, s, run, _, choices, _, told, returns, six, counted, ?_⟩
  split at six
  · exact Option.some.inj six
  · cases six

end Rp2350Stepper.Shell
