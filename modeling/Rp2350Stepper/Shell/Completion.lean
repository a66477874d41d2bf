import Rp2350Stepper.Shell.Exchanges

/-!
# A round trip under way can end

At every stage of an exchange some party has a step, which takes the exchange on or brings
core1 closer to the mailbox; so the parties never wait for each other.
-/

namespace Rp2350Stepper.Shell

open Rp2350Stepper.Num Rp2350Stepper.Semantics
open Rp2350Stepper.Core1 (Word StepperCmd Motion Event Request Position)

variable {F Client : Type} [SinglePrecision F] [DecidableEq Client]

/-- No call of the driver or of the kernel fails. -/
def Faultless (_ : Cores F Client) (turn : Turn Client) : Prop := ¬turn.Fails

namespace Cores

/-- A bound on the steps the exchange still takes. -/
def weight (s : Cores F Client) (progress : Progress F) : Nat :=
  16 * (6 - progress.rank) + s.core1.distance + if s.draining then 1 else 0

omit [SinglePrecision F] [DecidableEq Client] in
/-- A later stage weighs less. -/
theorem weight_lt_of_rank {s next : Cores F Client} {progress progress' : Progress F}
    (rank : progress.rank < progress'.rank) : next.weight progress' < s.weight progress := by
  have highest : progress'.rank ≤ 6 := by cases progress' <;> simp [Progress.rank]
  have close := next.core1.distance_le
  unfold weight
  split <;> split <;> omega

end Cores

omit [DecidableEq Client] in
/-- How much of an exchange is recorded at each point of it. -/
theorem Progress.records_length (request : Request) (progress : Progress F) :
    (progress.records request : List (Record F Client)).length = min 2 (progress.rank - 2) := by
  cases progress <;> rfl

omit [DecidableEq Client] in
/-- A stage at which something has been recorded is a later one. -/
theorem Onward.rank_lt {request : Request} {progress progress' : Progress F}
    {mail : List (Record F Client)} (onward : Onward request progress mail progress')
    (recorded : mail ≠ []) : progress.rank < progress'.rank := by
  have length := congrArg List.length onward.records
  rw [List.length_append, Progress.records_length, Progress.records_length] at length
  have some := List.length_pos_iff.mpr recorded
  omega

namespace Underway

variable {s : Cores F Client} {client : Client} {request : Request} {progress : Progress F}

/-- Some party takes the round trip on or ends it. -/
def Advances (s : Cores F Client) (client : Client) (request : Request)
    (progress : Progress F) : Prop :=
  ∃ turn records next, Faultless s turn ∧ s.step turn = some (records, next) ∧
    ((∀ other, next.threads other = .idle) ∨
      ∃ progress', next.weight progress' < s.weight progress ∧
        Underway next client request progress')

/-- Its shell does, when its call can be answered. -/
theorem advances_of_thread {records : List (Record F Client)} {next : Cores F Client}
    (underway : Underway s client request progress)
    (stepped : s.step (.thread client 0) = some (records, next)) :
    Advances s client request progress := by
  refine ⟨.thread client 0, records, next, by simp [Faultless, Turn.Fails], stepped, ?_⟩
  cases called underway.carried underway.here stepped with
  | onward progress' rank carried threads =>
      exact .inr ⟨progress', Cores.weight_lt_of_rank rank, underway.onward carried threads⟩
  | answered motion taken => exact .inl underway.freed
  | failed code error stage => exact absurd rfl error

/-- A call for which there is an answer. -/
theorem advances_of_call {asked : MboxRequest}
    {rest : MboxResponse asked → Program mboxInterface (Except Int Word)}
    (underway : Underway s client request progress) (call : progress.rest request = .ask asked rest)
    (still : s.draining = false) (answered : (s.mboxAnswer asked 0).isSome = true) :
    Advances s client request progress := by
  have here := underway.here
  rw [call] at here
  obtain ⟨⟨response, middle⟩, answer⟩ := Option.isSome_iff_exists.mp answered
  have stepped : s.step (.thread client 0) =
      some (middle.resume client request (rest response)) := by
    simp [Cores.step, still, here, answer]
  exact underway.advances_of_thread stepped

/-- core1 or the interrupt does, when this makes the stage a later one or lessens the distance. -/
theorem advances_of_hardware {turn : Turn Client} {records : List (Record F Client)}
    {next : Cores F Client} (underway : Underway s client request progress)
    (hardware : turn.isHardware = true) (stepped : s.step turn = some (records, next))
    (lighter : ∀ progress', Onward request progress (transcript records) progress' →
      Carried request progress' next.line → next.weight progress' < s.weight progress) :
    Advances s client request progress := by
  obtain ⟨progress', onward, further⟩ := underway.hardware hardware stepped
  refine ⟨turn, records, next, ?_, stepped, .inr ⟨progress', ?_, further⟩⟩
  · cases turn with
    | issue client request => cases hardware
    | thread client ret => cases hardware
    | _ => exact id
  · exact lighter progress' onward further.carried

/-- core1 does, while it has an opcode or a payload to read or an answer to write. -/
theorem advances_of_core1 (underway : Underway s client request progress)
    (ready : ∀ cmd, s.core1.point = .payload cmd → s.core1.inbound ≠ [])
    (queued : s.core1.point = .command →
      ∃ cmd inbound, s.core1.inbound = StepperCmd.toWord cmd :: inbound) :
    Advances s client request progress := by
  obtain ⟨⟨emitted, core1⟩, moved⟩ := Option.isSome_iff_exists.mp (Core1.core1_moves s.core1 ready)
  have stepped : s.step .core1 =
      some (emitted.map (Cores.recordOf s.core1.motion), { s with core1 := core1 }) := by
    simp [Cores.step, Cores.core1Turn, moved]
  apply underway.advances_of_hardware rfl stepped
  intro progress' onward carried
  rcases Core1.distance_of_move (Core1.move_of_step moved) queued with closer | recorded
  · have later := onward.rank
    simp only [Cores.weight]
    omega
  · refine Cores.weight_lt_of_rank (onward.rank_lt ?_)
    rw [transcript_map_recordOf]
    simpa using recorded

/-- A round trip under way is never stuck. -/
theorem advances (underway : Underway s client request progress) :
    Advances s client request progress := by
  have carried := underway.carried
  generalize same : s.line = line at carried
  have point : s.core1.point.position = line.position := congrArg Line.position same
  have inbound : s.core1.inbound = line.inbound := congrArg Line.inbound same
  have outbound : s.core1.outbound = line.outbound := congrArg Line.outbound same
  have replySem : s.replySem = line.replySem := congrArg Line.replySem same
  have draining : s.draining = line.draining := congrArg Line.draining same
  cases carried with
  | issued last => exact underway.advances_of_call (roundtrip_run request) draining rfl
  | opened takesPayload last | awaited takesPayload last =>
      obtain ⟨word, payload⟩ :=
        Option.isSome_iff_exists.mp (request.complete.mpr takesPayload)
      have call : (Progress.opened : Progress F).rest request = .ask (.send word) fun ret =>
          if ret ≠ 0 then .done (.error ret) else mboxWaitReply.run := by
        simp [Progress.rest, afterOpcode, payload]
      exact underway.advances_of_call call draining rfl
  | sent last =>
      refine underway.advances_of_core1 ?_ fun _ => ⟨request.cmd, request.payload.toList, inbound⟩
      intro cmd here
      simp [here, Core1.Point.position] at point
  | read word payload last =>
      refine underway.advances_of_core1 ?_ ?_
      · intro cmd here
        simp [inbound]
      · intro here
        simp [here, Core1.Point.position] at point
  | decoded motion last =>
      refine underway.advances_of_core1 ?_ ?_
      · intro cmd here
        simp [here, Core1.Point.position] at point
      · intro here
        simp [here, Core1.Point.position] at point
  | replied motion last =>
      have stepped : s.step .interrupt = some ([], { s.mboxCb (Core1.answer motion request) with
          core1 := { s.core1 with outbound := [] }, draining := true }) := by
        simp [Cores.step, draining, outbound]
      apply underway.advances_of_hardware rfl stepped
      intro progress' onward carried
      obtain ⟨motion', rfl, _⟩ := carried.given rfl
      exact Cores.weight_lt_of_rank (Nat.lt_succ_self 4)
  | delivered motion held =>
      cases held with
      | true =>
          have stepped : s.step .drain = some ([], { s with draining := false }) := by
            simp [Cores.step, draining, outbound]
          apply underway.advances_of_hardware rfl stepped
          intro progress' onward carried
          have later := onward.rank
          simp only [Cores.weight, draining, if_true]
          simp only [Bool.false_eq_true, if_false]
          omega
      | false =>
          apply underway.advances_of_call mboxWaitReply_run draining
          simp [Cores.mboxAnswer, replySem]
  | taken motion => exact underway.advances_of_call rfl draining rfl

/-- A round trip under way whose exchange has this weight. -/
def Weighs (client : Client) (request : Request) (s : Cores F Client) (weight : Nat) : Prop :=
  ∃ progress, weight = s.weight progress ∧ Underway s client request progress

/-- Without another fault, the parties can bring a round trip under way to its end. -/
theorem finishes (underway : Underway s client request progress) :
    ∃ turns records finish, (system F Client).Run Faultless s turns records finish ∧
      ∀ other, finish.threads other = .idle := by
  have descends : ∀ {s : (system F Client).State} {weight : Nat}, Weighs client request s weight →
      ∃ turn records next, Faultless s turn ∧ (system F Client).Step s turn records next ∧
        ((∀ other, next.threads other = .idle) ∨
          ∃ lighter, lighter < weight ∧ Weighs client request next lighter) := by
    rintro s weight ⟨progress, rfl, underway⟩
    obtain ⟨turn, records, next, faultless, stepped, ended⟩ := underway.advances
    refine ⟨turn, records, next, faultless, stepped, ended.imp_right ?_⟩
    rintro ⟨progress', lighter, further⟩
    exact ⟨next.weight progress', lighter, progress', rfl, further⟩
  exact System.Run.of_descent _ _ descends ⟨progress, rfl, underway⟩

end Underway
end Rp2350Stepper.Shell
