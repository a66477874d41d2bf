import Rp2350Stepper.Shell.RoundTrip

/-!
# The line between a shell and core1

`Line` is what the two cores' mailbox holds: core1's position in `handle_command`, both FIFOs,
the semaphore and the last reply. `Carried` says what it holds at each stage of the exchange of
one request; a step of core1 or of the interrupt takes one stage to the next.
-/

namespace Rp2350Stepper.Shell

open Rp2350Stepper.Num Rp2350Stepper.Semantics
open Rp2350Stepper.Core1 (Word StepperCmd Motion Event Request Position Traffic answer)

/-! ### The rest of a round trip -/

/-- A call whose return code is checked. -/
theorem checked_run (first : Program mboxInterface Int) (error : Int → Int) (rest : Mbox Word) :
    (do let ret ← first
        if ret ≠ 0 then throw (error ret)
        rest : Mbox Word).run =
      first.bind fun ret => if ret ≠ 0 then .done (.error (error ret)) else rest.run := by
  have lifted : (liftM first : Mbox Int).run = first.bind fun ret => .done (.ok ret) := rfl
  rw [ExceptT.run_bind, lifted]
  apply (Program.bind_assoc first _ _).trans
  congr 1

/-- The wait for a reply, one request after another. -/
theorem mboxWaitReply_run : mboxWaitReply.run = .ask .semTake fun ret =>
    if ret ≠ 0 then .done (.error (-etimedout)) else .ask .lastReply fun word => .done (.ok word) :=
  checked_run (mboxCall .semTake) (fun _ => -etimedout) _

/-- A round trip whose opcode has been sent. -/
def afterOpcode (request : Request) : Program mboxInterface (Except Int Word) :=
  match request.payload with
  | none => mboxWaitReply.run
  | some word => .ask (.send word) fun ret =>
      if ret ≠ 0 then .done (.error ret) else mboxWaitReply.run

/-- A round trip up to its opcode. -/
theorem roundtrip_run (request : Request) : (roundtrip request).run =
    .ask (.send request.cmd.toWord) fun ret =>
      if ret ≠ 0 then .done (.error ret) else afterOpcode request := by
  unfold roundtrip afterOpcode
  cases request.payload with
  | none => exact checked_run (mboxSendWord request.cmd.toWord) id _
  | some word =>
      apply (checked_run (mboxSendWord request.cmd.toWord) id _).trans
      have afterwards := checked_run (mboxSendWord word) id mboxWaitReply
      simp only [id_eq] at afterwards ⊢
      rw [afterwards]
      rfl

/-! ### The line -/

/-- What the mailbox between the cores holds. -/
structure Line where
  position : Position
  inbound : List Word
  outbound : List Word
  replySem : Bool
  lastReply : Word
  draining : Bool

/-- core1 is between requests and nothing is queued or given. -/
def Line.Clear (line : Line) : Prop :=
  line.position = .between ∧ line.inbound = [] ∧ line.outbound = [] ∧ line.replySem = false ∧
    line.draining = false

variable {F Client : Type}

/-- A clear line is known but for its last reply. -/
theorem Line.Clear.eq {line : Line} (clear : line.Clear) :
    line = ⟨.between, [], [], false, line.lastReply, false⟩ := by
  obtain ⟨position, inbound, outbound, replySem, lastReply, draining⟩ := line
  obtain ⟨rfl, rfl, rfl, rfl, rfl⟩ := clear
  rfl

/-- What the round trips see of the two cores. -/
def Cores.line (s : Cores F Client) : Line where
  position := s.core1.point.position
  inbound := s.core1.inbound
  outbound := s.core1.outbound
  replySem := s.replySem
  lastReply := s.lastReply
  draining := s.draining

/-- A word is queued on the line. -/
@[simp] theorem line_queueWord (s : Cores F Client) (word : Word) :
    (s.queueWord word).line = { s.line with inbound := s.line.inbound ++ [word] } := rfl

/-- A thread is not on the line. -/
@[simp] theorem line_setThread [DecidableEq Client] (s : Cores F Client) (client : Client)
    (thread : Thread) : (s.setThread client thread).line = s.line := rfl

/-- core1 changes its own end. -/
theorem line_core1 (s : Cores F Client) (core1 : Core1.State F) :
    ({ s with core1 := core1 } : Cores F Client).line =
      { s.line with
        position := core1.point.position, inbound := core1.inbound, outbound := core1.outbound } :=
  rfl

/-- How far the exchange of a request has come. -/
inductive Progress (F : Type) where
  /-- No word of it is sent. -/
  | issued
  /-- Its opcode is sent and its payload is not. -/
  | opened
  /-- All its words are sent. -/
  | sent
  /-- core1 has decoded it, with `M` at that time. -/
  | decoded (motion : Motion F)
  | replied (motion : Motion F)
  /-- `mbox_cb` has given `reply_sem`. -/
  | delivered (motion : Motion F)
  /-- The shell has taken it and not yet read `last_reply`. -/
  | taken (motion : Motion F)

variable [SinglePrecision F]

namespace Progress

/-- What the shell's thread has left to run. -/
def rest (request : Request) : Progress F → Program mboxInterface (Except Int Word)
  | issued => (roundtrip request).run
  | opened => afterOpcode request
  | taken _ => .ask .lastReply fun word => .done (.ok word)
  | _ => mboxWaitReply.run

/-- The stages in their order. -/
def rank : Progress F → Nat
  | issued => 0
  | opened => 1
  | sent => 2
  | decoded _ => 3
  | replied _ => 4
  | delivered _ => 5
  | taken _ => 6

/-- What has been recorded of it. -/
def records (request : Request) : Progress F → List (Record F Client)
  | decoded motion => [.decoded motion request.cmd request.payload]
  | replied motion | delivered motion | taken motion =>
      [.decoded motion request.cmd request.payload, .core1 (.replied (answer motion request))]
  | _ => []

/-- A word of it is sent and its token is not taken. -/
def unfinished : Progress F → Bool
  | issued | taken _ => false
  | _ => true

end Progress

/-- What the line holds at each stage of a request's exchange. -/
inductive Carried (request : Request) : Progress F → Line → Prop where
  | issued (last : Word) : Carried request .issued ⟨.between, [], [], false, last, false⟩
  | opened (takesPayload : request.cmd ≠ .stop) (last : Word) :
      Carried request .opened ⟨.between, [request.cmd.toWord], [], false, last, false⟩
  | awaited (takesPayload : request.cmd ≠ .stop) (last : Word) :
      Carried request .opened ⟨.awaiting request.cmd, [], [], false, last, false⟩
  | sent (last : Word) : Carried request .sent ⟨.between, request.words, [], false, last, false⟩
  | read (word : Word) (payload : request.payload = some word) (last : Word) :
      Carried request .sent ⟨.awaiting request.cmd, [word], [], false, last, false⟩
  | decoded (motion : Motion F) (last : Word) :
      Carried request (.decoded motion)
        ⟨.answering (answer motion request), [], [], false, last, false⟩
  | replied (motion : Motion F) (last : Word) :
      Carried request (.replied motion) ⟨.between, [], [answer motion request], false, last, false⟩
  | delivered (motion : Motion F) (draining : Bool) :
      Carried request (.delivered motion)
        ⟨.between, [], [], true, answer motion request, draining⟩
  | taken (motion : Motion F) :
      Carried request (.taken motion) ⟨.between, [], [], false, answer motion request, false⟩

namespace Carried

variable {request : Request} {progress : Progress F} {line : Line}

/-- Before its first word a request finds the line clear. -/
theorem issued_iff : Carried (F := F) request .issued line ↔ line.Clear := by
  constructor
  · rintro ⟨last⟩
    exact ⟨rfl, rfl, rfl, rfl, rfl⟩
  · obtain ⟨position, inbound, outbound, replySem, last, draining⟩ := line
    rintro ⟨rfl, rfl, rfl, rfl, rfl⟩
    exact .issued last

/-- An unfinished exchange leaves its line not clear. -/
theorem not_clear (carried : Carried request progress line)
    (unfinished : progress.unfinished = true) : ¬line.Clear := by
  rintro ⟨position, inbound, outbound, replySem, draining⟩
  cases carried with
  | issued last => cases unfinished
  | taken motion => cases unfinished
  | opened takesPayload last => cases inbound
  | awaited takesPayload last => cases position
  | sent last => cases inbound
  | read word payload last => cases position
  | decoded motion last => cases position
  | replied motion last => cases outbound
  | delivered motion draining => cases replySem

/-- An opcode core1 reads is the request's. -/
theorem reads_opcode {word : Word} {inbound : List Word} (carried : Carried request progress line)
    (here : line.position = .between) (read : line.inbound = word :: inbound) :
    word = request.cmd.toWord ∧
      ((progress = .opened ∧ request.cmd ≠ .stop ∧
        line = ⟨.between, [word], [], false, line.lastReply, false⟩ ∧ inbound = []) ∨
      (progress = .sent ∧ line = ⟨.between, request.words, [], false, line.lastReply, false⟩ ∧
        inbound = request.payload.toList)) := by
  cases carried with
  | opened takesPayload last =>
      obtain ⟨rfl, rfl⟩ := List.cons.inj read
      exact ⟨rfl, .inl ⟨rfl, takesPayload, rfl, rfl⟩⟩
  | sent last =>
      obtain ⟨rfl, rfl⟩ := List.cons.inj read
      exact ⟨rfl, .inr ⟨rfl, rfl, rfl⟩⟩
  | awaited takesPayload last => cases here
  | read word payload last => cases here
  | decoded motion last => cases here
  | _ => cases read

/-- A payload core1 reads is the request's. -/
theorem reads_payload {cmd : StepperCmd} {word : Word} {inbound : List Word}
    (carried : Carried request progress line) (here : line.position = .awaiting cmd)
    (read : line.inbound = word :: inbound) :
    progress = .sent ∧ cmd = request.cmd ∧ request.payload = some word ∧
      line = ⟨.awaiting cmd, [word], [], false, line.lastReply, false⟩ ∧ inbound = [] := by
  cases carried with
  | read word payload last =>
      cases here
      obtain ⟨rfl, rfl⟩ := List.cons.inj read
      exact ⟨rfl, rfl, payload, rfl, rfl⟩
  | awaited takesPayload last => cases read
  | _ => cases here

/-- The word core1 has to write is the answer to the request. -/
theorem writes {word : Word} (carried : Carried request progress line)
    (here : line.position = .answering word) :
    ∃ motion, progress = .decoded motion ∧ word = answer motion request ∧
      line = ⟨.answering word, [], [], false, line.lastReply, false⟩ := by
  cases carried with
  | decoded motion last =>
      cases here
      exact ⟨motion, rfl, rfl, rfl⟩
  | _ => cases here

/-- A word core0 finds is the answer to the request. -/
theorem queues {word : Word} {outbound : List Word} (carried : Carried request progress line)
    (queued : line.outbound = word :: outbound) :
    ∃ motion, progress = .replied motion ∧ word = answer motion request ∧ outbound = [] ∧
      line = ⟨.between, [], [word], false, line.lastReply, false⟩ := by
  cases carried with
  | replied motion last =>
      obtain ⟨rfl, rfl⟩ := List.cons.inj queued
      exact ⟨motion, rfl, rfl, rfl, rfl⟩
  | _ => cases queued

/-- The interrupt has one word to deliver and finds none to discard. -/
theorem drains (carried : Carried request progress line) (draining : line.draining = true) :
    ∃ motion, progress = .delivered motion ∧
      line = ⟨.between, [], [], true, answer motion request, true⟩ := by
  cases carried with
  | delivered motion held =>
      cases draining
      exact ⟨motion, rfl, rfl⟩
  | _ => cases draining

/-- `reply_sem` is given for the request's answer. -/
theorem given (carried : Carried request progress line) (replySem : line.replySem = true) :
    ∃ motion, progress = .delivered motion ∧
      line = ⟨.between, [], [], true, answer motion request, line.draining⟩ := by
  cases carried with
  | delivered motion draining => exact ⟨motion, rfl, rfl⟩
  | _ => cases replySem

/-- The payload is queued behind the opcode, or core1 waits for it. -/
theorem queue_payload {word : Word} (carried : Carried (F := F) request .opened line)
    (payload : request.payload = some word) :
    Carried (F := F) request .sent { line with inbound := line.inbound ++ [word] } := by
  cases carried with
  | opened takesPayload last =>
      have words : [request.cmd.toWord] ++ [word] = request.words := by
        simp [Request.words, payload]
      rw [words]
      exact .sent last
  | awaited takesPayload last => exact .read word payload last

/-- Once the shell has taken the token the line is clear. -/
theorem taken_clear {motion : Motion F} (carried : Carried request (.taken motion) line) :
    line.Clear := by
  cases carried
  exact ⟨rfl, rfl, rfl, rfl, rfl⟩

/-- Once it is taken the last reply is the answer. -/
theorem taken_lastReply {motion : Motion F} (carried : Carried request (.taken motion) line) :
    line.lastReply = answer motion request := by
  cases carried
  rfl

/-- Only a command with a payload waits for one. -/
theorem opened_takesPayload (carried : Carried (F := F) request .opened line) :
    request.cmd ≠ .stop := by
  cases carried <;> assumption

/-- At most one reply is queued. -/
theorem outbound_length (carried : Carried request progress line) : line.outbound.length ≤ 1 := by
  cases carried <;> simp

end Carried

/-! ### Steps of core1 and of the interrupt -/

/-- A stage leads to another without the shell, with more recorded of the exchange. -/
structure Onward (request : Request) (progress : Progress F) (mail : List (Record F Client))
    (progress' : Progress F) : Prop where
  rest : progress'.rest request = progress.rest request
  unfinished : progress'.unfinished = progress.unfinished
  rank : progress.rank ≤ progress'.rank
  records : progress'.records request = progress.records request ++ mail

variable {request : Request} {progress : Progress F} {s : Cores F Client}

theorem Onward.refl : Onward request progress ([] : List (Record F Client)) progress :=
  ⟨rfl, rfl, Nat.le_refl _, by simp⟩

/-- core1 does nothing to a clear line. -/
theorem Line.Clear.traffic {mail : List Event} {core1 : Core1.State F} (clear : s.line.Clear)
    (traffic : Traffic s.core1 mail core1) :
    mail = [] ∧ Line.Clear ({ s with core1 := core1 } : Cores F Client).line := by
  obtain ⟨between, inbound, outbound, replySem, draining⟩ := clear
  simp only [Cores.line] at between inbound outbound replySem draining
  cases traffic with
  | quiet position inbound' outbound' =>
      exact ⟨rfl, position.trans between, inbound'.trans inbound, outbound'.trans outbound,
        replySem, draining⟩
  | dropped opcode here position read => simp [inbound] at read
  | opcode cmd here position read => simp [inbound] at read
  | stop here position read => simp [inbound] at read
  | payload cmd word here => simp [between] at here
  | replied word here => simp [between] at here

/-- core1 takes the exchange on. -/
theorem Carried.traffic {mail : List Event} {core1 : Core1.State F}
    (carried : Carried request progress s.line) (traffic : Traffic s.core1 mail core1) :
    ∃ progress', Carried request progress' ({ s with core1 := core1 } : Cores F Client).line ∧
      Onward request progress
        (mail.map (Cores.recordOf s.core1.motion : Event → Record F Client)) progress' := by
  rw [line_core1]
  cases traffic with
  | quiet position inbound outbound =>
      refine ⟨progress, ?_, .refl⟩
      rw [position, inbound, outbound]
      exact carried
  | dropped opcode here position read outbound unknown =>
      obtain ⟨rfl, _⟩ := carried.reads_opcode here read
      simp at unknown
  | opcode cmd here position read outbound takesPayload =>
      have outbound : core1.outbound = s.line.outbound := outbound
      obtain ⟨same, stage⟩ := carried.reads_opcode here read
      obtain rfl := StepperCmd.toWord_injective same
      rcases stage with ⟨rfl, _, line, inbound⟩ | ⟨rfl, line, inbound⟩
      · refine ⟨.opened, ?_, .refl⟩
        rw [position, inbound, outbound, line]
        exact .awaited takesPayload _
      · refine ⟨.sent, ?_, .refl⟩
        obtain ⟨word, payload⟩ := Option.isSome_iff_exists.mp (request.complete.mpr takesPayload)
        rw [position, inbound, outbound, line, payload]
        exact .read word payload _
  | stop here position read outbound =>
      have outbound : core1.outbound = s.line.outbound := outbound
      obtain ⟨same, stage⟩ := carried.reads_opcode here read
      have stop : request.cmd = .stop := (StepperCmd.toWord_injective same).symm
      have payload : request.payload = none := by
        have complete := request.complete
        simpa [stop] using complete
      rcases stage with ⟨_, takesPayload, _⟩ | ⟨rfl, line, inbound⟩
      · exact absurd stop takesPayload
      · have answered : answer s.core1.motion request = Core1.stepperAckOk := by
          simp only [answer, payload]
        refine ⟨.decoded s.core1.motion, ?_, rfl, rfl, Nat.le_succ _, ?_⟩
        · rw [position, inbound, outbound, line, payload, ← answered]
          exact .decoded _ _
        · simp only [Progress.records, stop, payload, Cores.recordOf, List.map_cons, List.map_nil,
            List.nil_append]
  | payload cmd word here position read outbound =>
      have outbound : core1.outbound = s.line.outbound := outbound
      obtain ⟨rfl, rfl, payload, line, inbound⟩ := carried.reads_payload here read
      have answered : answer s.core1.motion request =
          (Core1.handlePayload s.core1.motion request.cmd word).1.answer := by
        simp only [answer, payload]
      refine ⟨.decoded s.core1.motion, ?_, rfl, rfl, Nat.le_succ _, ?_⟩
      · rw [position, inbound, outbound, line, ← answered]
        exact .decoded _ _
      · simp only [Progress.records, payload, Cores.recordOf, List.map_cons, List.map_nil,
          List.nil_append]
  | replied word here position inbound written =>
      have inbound : core1.inbound = s.line.inbound := inbound
      have written : core1.outbound = s.line.outbound ++ [word] := written
      obtain ⟨motion, rfl, rfl, line⟩ := carried.writes here
      refine ⟨.replied motion, ?_, rfl, rfl, Nat.le_succ _, ?_⟩
      · rw [position, inbound, written, line]
        exact .replied motion _
      · simp only [Progress.records, Cores.recordOf, List.map_cons, List.map_nil,
          List.cons_append, List.nil_append]

/-- What of a record concerns the mailbox. -/
def Record.isMail : Record F Client → Bool
  | .core1 event => event.isMail
  | _ => true

/-- What has been recorded of the mailbox. -/
def transcript (records : List (Record F Client)) : List (Record F Client) :=
  records.filter Record.isMail

omit [SinglePrecision F] in
/-- The transcript of what core1 records. -/
theorem transcript_map_recordOf (motion : Motion F) (emitted : List Event) :
    transcript (emitted.map (Cores.recordOf motion : Event → Record F Client)) =
      (emitted.filter Event.isMail).map (Cores.recordOf motion) := by
  have same : Record.isMail ∘ (Cores.recordOf motion : Event → Record F Client) = Event.isMail := by
    funext event
    cases event <;> rfl
  rw [transcript, List.filter_map, same]

/-- The turns which are no shell's. -/
def Turn.isHardware : Turn Client → Bool
  | .issue _ _ | .thread _ _ => false
  | _ => true

/-- What a turn of core1, of the PIO or of the interrupt does. -/
theorem hardware_cases [DecidableEq Client] {turn : Turn Client} {next : Cores F Client}
    {records : List (Record F Client)} (hardware : turn.isHardware = true)
    (stepped : s.step turn = some (records, next)) :
    (∃ mail core1, Traffic s.core1 mail core1 ∧ next = { s with core1 := core1 } ∧
      transcript records = mail.map (Cores.recordOf s.core1.motion)) ∨
    (∃ word outbound, s.draining = false ∧ s.core1.outbound = word :: outbound ∧ records = [] ∧
      next = { s.mboxCb word with
        core1 := { s.core1 with outbound := outbound }, draining := true }) ∨
    (s.draining = true ∧ s.core1.outbound = [] ∧ records = [] ∧
      next = { s with draining := false }) ∨
    ∃ word outbound, s.draining = true ∧ s.core1.outbound = word :: outbound := by
  have own : ∀ choice : Core1.Choice, choice.own = true → s.core1Turn choice = some (records, next) →
      ∃ mail core1, Traffic s.core1 mail core1 ∧ next = { s with core1 := core1 } ∧
        transcript records = mail.map (Cores.recordOf s.core1.motion) := by
    intro choice own stepped
    simp only [Cores.core1Turn, Option.map_eq_some_iff, Prod.mk.injEq] at stepped
    obtain ⟨⟨emitted, core1⟩, moved, rfl, rfl⟩ := stepped
    have traffic := Core1.traffic_of_move (Core1.move_of_step moved) own
    exact ⟨_, core1, traffic, rfl, transcript_map_recordOf s.core1.motion emitted⟩
  cases turn with
  | issue client request => cases hardware
  | thread client ret => cases hardware
  | core1 => exact .inl (own .core1 rfl stepped)
  | pull => exact .inl (own .pull rfl stepped)
  | rise => exact .inl (own .rise rfl stepped)
  | interrupt =>
      simp only [Cores.step] at stepped
      split at stepped
      · rename_i word outbound still queued
        simp only [Option.some.injEq, Prod.mk.injEq] at stepped
        exact .inr (.inl ⟨word, outbound, still, queued, stepped.1.symm, stepped.2.symm⟩)
      · cases stepped
  | drain =>
      simp only [Cores.step] at stepped
      split at stepped
      · rename_i word outbound draining queued
        exact .inr (.inr (.inr ⟨word, outbound, draining, queued⟩))
      · rename_i draining empty
        simp only [Option.some.injEq, Prod.mk.injEq] at stepped
        exact .inr (.inr (.inl ⟨draining, empty, stepped.1.symm, stepped.2.symm⟩))
      · cases stepped

/-- Between exchanges nothing happens on the line. -/
theorem Line.Clear.hardware [DecidableEq Client] {turn : Turn Client} {next : Cores F Client}
    {records : List (Record F Client)} (clear : s.line.Clear) (hardware : turn.isHardware = true)
    (stepped : s.step turn = some (records, next)) :
    transcript records = [] ∧ next.line.Clear ∧ next.threads = s.threads := by
  have outbound : s.core1.outbound = [] := clear.2.2.1
  have draining : s.draining = false := clear.2.2.2.2
  rcases hardware_cases hardware stepped with
    ⟨mail, core1, traffic, rfl, told⟩ | ⟨word, rest, _, queued, _⟩ | ⟨held, _⟩ | ⟨word, rest, held, _⟩
  · obtain ⟨rfl, clear⟩ := clear.traffic traffic
    exact ⟨told, clear, rfl⟩
  · simp [outbound] at queued
  · simp [draining] at held
  · simp [draining] at held

/-- core1 and the interrupt take an exchange on, and no word of it is discarded. -/
theorem Carried.hardware [DecidableEq Client] {turn : Turn Client} {next : Cores F Client}
    {records : List (Record F Client)} (carried : Carried request progress s.line)
    (hardware : turn.isHardware = true) (stepped : s.step turn = some (records, next)) :
    ∃ progress', Carried request progress' next.line ∧
      Onward request progress (transcript records) progress' ∧ next.threads = s.threads := by
  rcases hardware_cases hardware stepped with
    ⟨mail, core1, traffic, rfl, told⟩ | ⟨word, rest, still, queued, rfl, rfl⟩ |
    ⟨held, empty, rfl, rfl⟩ | ⟨word, rest, held, queued⟩
  · obtain ⟨progress', carried', onward⟩ := carried.traffic traffic
    exact ⟨progress', carried', told ▸ onward, rfl⟩
  · obtain ⟨motion, rfl, rfl, rfl, line⟩ := carried.queues queued
    refine ⟨.delivered motion, ?_, ⟨rfl, rfl, Nat.le_succ 4, by simp [Progress.records, transcript]⟩, rfl⟩
    change Carried request (.delivered motion)
      { s.line with
        outbound := [], replySem := true, lastReply := answer motion request, draining := true }
    rw [line]
    exact .delivered motion true
  · obtain ⟨motion, rfl, line⟩ := carried.drains held
    refine ⟨.delivered motion, ?_, .refl, rfl⟩
    change Carried request (.delivered motion) { s.line with draining := false }
    rw [line]
    exact .delivered motion false
  · obtain ⟨motion, _, line⟩ := carried.drains held
    have empty : s.line.outbound = [] := by rw [line]
    rw [show s.line.outbound = s.core1.outbound from rfl, queued] at empty
    cases empty

end Rp2350Stepper.Shell
