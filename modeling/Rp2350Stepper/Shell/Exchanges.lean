import Rp2350Stepper.Shell.Line

/-!
# One round trip at a time

While at most one shell is inside a round trip and each begins on a clear line, `Linked`
holds: the line carries the exchange of one request, whose records are those since it was
issued, or is clear. A round trip which fails after its first word leaves its exchange
abandoned on the line.
-/

namespace Rp2350Stepper.Shell

open Rp2350Stepper.Num Rp2350Stepper.Semantics
open Rp2350Stepper.Core1 (Word StepperCmd Motion Event Request Position Traffic answer)

variable {F Client : Type} [SinglePrecision F] [DecidableEq Client]

namespace Cores

/-- A shell begins a round trip between round trips. -/
theorem idle_of_issue {s next : Cores F Client} {client : Client} {request : Request}
    {records : List (Record F Client)}
    (stepped : s.step (.issue client request) = some (records, next)) :
    s.threads client = .idle := by
  simp only [step] at stepped
  split at stepped
  · assumption
  · cases stepped

/-- A thread's step is the answer to its call and what it then goes on with. -/
theorem thread_step {s next : Cores F Client} {client : Client} {request : Request} {ret : Int}
    {asked : MboxRequest} {rest : MboxResponse asked → Program mboxInterface (Except Int Word)}
    {records : List (Record F Client)} (here : s.threads client = .inside request (.ask asked rest))
    (stepped : s.step (.thread client ret) = some (records, next)) :
    s.draining = false ∧ ∃ response middle, s.mboxAnswer asked ret = some (response, middle) ∧
      middle.resume client request (rest response) = (records, next) := by
  cases still : s.draining with
  | true => simp [step, still] at stepped
  | false =>
      simp only [step, still, here, Option.map_eq_some_iff] at stepped
      obtain ⟨⟨response, middle⟩, answered, resumed⟩ := stepped
      exact ⟨rfl, response, middle, answered, resumed⟩

end Cores

/-- What a step of the shell inside a round trip does: the exchange goes on, or ends with its
answer, or the call has failed. -/
inductive Called (s : Cores F Client) (client : Client) (request : Request)
    (progress : Progress F) (ret : Int) :
    List (Record F Client) → Cores F Client → Prop where
  | onward (progress' : Progress F) {next} (rank : progress.rank < progress'.rank)
      (carried : Carried request progress' next.line)
      (threads : next.threads =
        (s.setThread client (.inside request (progress'.rest request))).threads)
      (records : progress'.records request = (progress.records request : List (Record F Client))) :
      Called s client request progress ret [] next
  | answered (motion : Motion F) (taken : progress = .taken motion) :
      Called s client request progress ret
        [.returned client request (.ok (answer motion request))] (s.setThread client .idle)
  | failed (code : Int) (error : ret ≠ 0)
      (stage : progress = .issued ∨ progress.unfinished = true) :
      Called s client request progress ret [.returned client request (.error code)]
        (s.setThread client .idle)

section Thread

variable {s next : Cores F Client} {client : Client} {request : Request} {progress : Progress F}
  {ret : Int} {records : List (Record F Client)}

omit [SinglePrecision F] in
/-- A program which is not at its end goes on inside. -/
theorem resume_ask (s : Cores F Client) (client : Client) (request : Request)
    (progress : Progress F) : s.resume client request (progress.rest request) =
      ([], s.setThread client (.inside request (progress.rest request))) := by
  have asks : ∃ asked rest, progress.rest request = .ask asked rest := by
    cases progress with
    | issued => exact ⟨_, _, roundtrip_run request⟩
    | opened =>
        simp only [Progress.rest, afterOpcode]
        cases request.payload with
        | none => exact ⟨_, _, mboxWaitReply_run⟩
        | some word => exact ⟨_, _, rfl⟩
    | taken motion => exact ⟨_, _, rfl⟩
    | _ => exact ⟨_, _, mboxWaitReply_run⟩
  obtain ⟨asked, rest, same⟩ := asks
  rw [same]
  rfl

/-- A send either fails, and the round trip with it, or queues its word. -/
theorem called_send {word : Word} {rest : Program mboxInterface (Except Int Word)}
    (here : s.threads client = .inside request
      (.ask (.send word) fun ret => if ret ≠ 0 then .done (.error ret) else rest))
    (stepped : s.step (.thread client ret) = some (records, next)) :
    (ret ≠ 0 ∧ records = [.returned client request (.error ret)] ∧ next = s.setThread client .idle) ∨
    (s.queueWord word).resume client request rest = (records, next) := by
  obtain ⟨_, response, middle, answered, resumed⟩ := Cores.thread_step here stepped
  by_cases failed : ret ≠ 0
  · simp only [Cores.mboxAnswer, failed, if_false, Option.some.injEq, Prod.mk.injEq] at answered
    obtain ⟨rfl, rfl⟩ := answered
    simp only [failed, ne_eq, not_false_eq_true, if_true, Cores.resume, Prod.mk.injEq] at resumed
    exact .inl ⟨failed, resumed.1.symm, resumed.2.symm⟩
  · have sent : ret = 0 := by simpa using failed
    simp only [Cores.mboxAnswer, sent, if_true, Option.some.injEq, Prod.mk.injEq] at answered
    obtain ⟨rfl, rfl⟩ := answered
    rw [if_neg (by simp)] at resumed
    exact .inr resumed

/-- The send of the opcode. -/
theorem called_issued (carried : Carried (F := F) request .issued s.line)
    (here : s.threads client = .inside request (roundtrip request).run)
    (stepped : s.step (.thread client ret) = some (records, next)) :
    Called s client request .issued ret records next := by
  rw [roundtrip_run] at here
  have line := (Carried.issued_iff.mp carried).eq
  rcases called_send here stepped with ⟨failed, rfl, rfl⟩ | resumed
  · exact .failed ret failed (.inl rfl)
  · rcases request.eq_stop_or_withPayload with rfl | ⟨cmd, word, takesPayload, rfl⟩
    · have resumed := (resume_ask _ client .stop (.sent : Progress F)).symm.trans resumed
      obtain ⟨rfl, rfl⟩ := Prod.mk.inj resumed
      refine .onward .sent (Nat.zero_lt_succ 1) ?_ rfl rfl
      rw [line_setThread, line_queueWord, line]
      exact .sent _
    · have resumed := (resume_ask _ client _ (.opened : Progress F)).symm.trans resumed
      obtain ⟨rfl, rfl⟩ := Prod.mk.inj resumed
      refine .onward .opened (Nat.zero_lt_succ 0) ?_ rfl rfl
      rw [line_setThread, line_queueWord, line]
      exact .opened takesPayload _

/-- The send of the payload. -/
theorem called_opened (carried : Carried (F := F) request .opened s.line)
    (here : s.threads client = .inside request (afterOpcode request))
    (stepped : s.step (.thread client ret) = some (records, next)) :
    Called s client request .opened ret records next := by
  obtain ⟨word, payload⟩ :=
    Option.isSome_iff_exists.mp (request.complete.mpr carried.opened_takesPayload)
  simp only [afterOpcode, payload] at here
  rcases called_send here stepped with ⟨failed, rfl, rfl⟩ | resumed
  · exact .failed ret failed (.inr rfl)
  · have resumed := (resume_ask _ client request (.sent : Progress F)).symm.trans resumed
    obtain ⟨rfl, rfl⟩ := Prod.mk.inj resumed
    refine .onward .sent (Nat.lt_succ_self 1) ?_ rfl rfl
    exact carried.queue_payload payload

/-- The wait for the reply. -/
theorem called_waiting (carried : Carried (F := F) request progress s.line)
    (waiting : progress.rest request = mboxWaitReply.run) (unfinished : progress.unfinished = true)
    (here : s.threads client = .inside request (progress.rest request))
    (stepped : s.step (.thread client ret) = some (records, next)) :
    Called s client request progress ret records next := by
  rw [waiting, mboxWaitReply_run] at here
  obtain ⟨still, response, middle, answered, resumed⟩ := Cores.thread_step here stepped
  by_cases failed : ret ≠ 0
  · cases given : s.replySem with
    | true => simp [Cores.mboxAnswer, failed, given] at answered
    | false =>
        simp only [Cores.mboxAnswer, failed, given, if_false, Bool.false_eq_true,
          Option.some.injEq, Prod.mk.injEq] at answered
        obtain ⟨rfl, rfl⟩ := answered
        simp only [failed, ne_eq, not_false_eq_true, if_true, Cores.resume, Prod.mk.injEq] at resumed
        obtain ⟨rfl, rfl⟩ := resumed
        exact .failed _ failed (.inr unfinished)
  · have taken : ret = 0 := by simpa using failed
    cases given : s.replySem with
    | false => simp [Cores.mboxAnswer, taken, given] at answered
    | true =>
        simp only [Cores.mboxAnswer, taken, given, if_true, Option.some.injEq,
          Prod.mk.injEq] at answered
        obtain ⟨rfl, rfl⟩ := answered
        rw [if_neg (by simp)] at resumed
        obtain ⟨motion, rfl, line⟩ := carried.given given
        obtain ⟨rfl, rfl⟩ := Prod.mk.inj resumed
        refine .onward (.taken motion) (Nat.lt_succ_self 5) ?_ rfl rfl
        change Carried request (.taken motion) { s.line with replySem := false }
        rw [line, show s.line.draining = false from still]
        exact .taken motion

/-- The read of the reply. -/
theorem called_taken {motion : Motion F} (carried : Carried request (.taken motion) s.line)
    (here : s.threads client = .inside request ((Progress.taken motion).rest request))
    (stepped : s.step (.thread client ret) = some (records, next)) :
    Called s client request (.taken motion) ret records next := by
  obtain ⟨still, response, middle, answered, resumed⟩ := Cores.thread_step here stepped
  simp only [Cores.mboxAnswer, Option.some.injEq, Prod.mk.injEq] at answered
  obtain ⟨rfl, rfl⟩ := answered
  obtain ⟨rfl, rfl⟩ := Prod.mk.inj resumed
  rw [show s.lastReply = answer motion request from carried.taken_lastReply]
  exact .answered motion rfl

/-- A step of the shell inside a round trip. -/
theorem called (carried : Carried request progress s.line)
    (here : s.threads client = .inside request (progress.rest request))
    (stepped : s.step (.thread client ret) = some (records, next)) :
    Called s client request progress ret records next := by
  cases progress with
  | issued => exact called_issued carried here stepped
  | opened => exact called_opened carried here stepped
  | taken motion => exact called_taken carried here stepped
  | _ => exact called_waiting carried rfl rfl here stepped

end Thread

/-! ### The invariant -/

/-- A turn in which a call of the driver or of the kernel fails. -/
def Turn.Fails : Turn Client → Prop
  | .thread _ ret => ret ≠ 0
  | _ => False

/-- A round trip begins while no other is under way and the line is clear. -/
def Begins (s : Cores F Client) (turn : Turn Client) : Prop :=
  ∀ client request, turn = .issue client request →
    (∀ other, s.threads other = .idle) ∧ s.line.Clear

/-- One request, the state of `M` in which core1 decoded it, and its reply. -/
structure Exchange (F Client : Type) where
  client : Client
  request : Request
  motion : Motion F

/-- What is recorded of a round trip: it is issued, core1 decodes it and writes one reply,
and it returns that reply. -/
def Exchange.records (exchange : Exchange F Client) : List (Record F Client) :=
  let reply := answer exchange.motion exchange.request
  [.issued exchange.client exchange.request,
    .decoded exchange.motion exchange.request.cmd exchange.request.payload,
    .core1 (.replied reply), .returned exchange.client exchange.request (.ok reply)]

/-- The records which end on a clear line: nothing, an exchange, or a round trip whose first
send has failed. -/
inductive Settled (faults : Prop) : List (Record F Client) → Prop where
  | none : Settled faults []
  | exchanged (exchange : Exchange F Client) : Settled faults exchange.records
  | refused (faulty : faults) (client : Client) (request : Request) (code : Int) :
      Settled faults [.issued client request, .returned client request (.error code)]

/-- One shell is inside a round trip, whose exchange has come to this stage. -/
structure Underway (s : Cores F Client) (client : Client) (request : Request)
    (progress : Progress F) : Prop where
  here : s.threads client = .inside request (progress.rest request)
  alone : ∀ other, other ≠ client → s.threads other = .idle
  carried : Carried request progress s.line

/-- The line and the records since the last round trip was issued; calls may fail if
`faults` holds. -/
inductive Linked (faults : Prop) (s : Cores F Client) : List (Record F Client) → Prop where
  | free (idle : ∀ client, s.threads client = .idle) (clear : s.line.Clear) : Linked faults s []
  | underway (client : Client) (request : Request) (progress : Progress F)
      (underway : Underway s client request progress) :
      Linked faults s (.issued client request :: progress.records request)
  | abandoned (faulty : faults) (client : Client) (request : Request) (progress : Progress F)
      (code : Int) (before after : List (Record F Client))
      (idle : ∀ client, s.threads client = .idle) (carried : Carried request progress s.line)
      (unfinished : progress.unfinished = true) (told : before ++ after = progress.records request) :
      Linked faults s
        (.issued client request :: before ++ .returned client request (.error code) :: after)

namespace Underway

variable {s next : Cores F Client} {client : Client} {request : Request}
  {progress progress' : Progress F} {records : List (Record F Client)}

/-- It is the only one. -/
theorem freed (underway : Underway s client request progress) (other : Client) :
    (s.setThread client .idle).threads other = .idle := by
  by_cases same : other = client
  · simp [Cores.setThread, same]
  · simp [Cores.setThread, same, underway.alone other same]

/-- The shell has gone on to another stage. -/
theorem onward (underway : Underway s client request progress)
    (carried : Carried request progress' next.line)
    (threads : next.threads =
      (s.setThread client (.inside request (progress'.rest request))).threads) :
    Underway next client request progress' := by
  refine ⟨by simp [threads, Cores.setThread], ?_, carried⟩
  intro other distinct
  simp [threads, Cores.setThread, distinct, underway.alone other distinct]

/-- core1 or the interrupt has. -/
theorem hardware {turn : Turn Client} (underway : Underway s client request progress)
    (hardware : turn.isHardware = true) (stepped : s.step turn = some (records, next)) :
    ∃ progress', Onward request progress (transcript records) progress' ∧
      Underway next client request progress' := by
  obtain ⟨progress', carried, onward, threads⟩ := underway.carried.hardware hardware stepped
  exact ⟨progress', onward, by rw [threads, onward.rest, underway.here],
    by simpa [threads] using underway.alone, carried⟩

end Underway

namespace Linked

variable {faults : Prop} {s next : Cores F Client} {current records : List (Record F Client)}

/-- A round trip begins. -/
theorem issue {client : Client} {request : Request} (linked : Linked faults s current)
    (begins : Begins s (.issue client request))
    (stepped : s.step (.issue client request) = some (records, next)) :
    current = [] ∧ Linked faults next (transcript records) := by
  obtain ⟨idle, clear⟩ := begins client request rfl
  simp only [Cores.step, idle client, show s.draining = false from clear.2.2.2.2,
    Option.some.injEq, Prod.mk.injEq] at stepped
  obtain ⟨rfl, rfl⟩ := stepped
  constructor
  · cases linked with
    | free => rfl
    | underway client request progress underway =>
        exact absurd (underway.here.symm.trans (idle client)) (by simp)
    | abandoned faulty client request progress code before after idle carried unfinished =>
        exact absurd clear (carried.not_clear unfinished)
  · refine .underway client request .issued ⟨by simp [Cores.setThread, Progress.rest], ?_, ?_⟩
    · intro other distinct
      simp [Cores.setThread, distinct, idle other]
    · exact Carried.issued_iff.mpr clear

/-- core1 and the interrupt only add to the records of the exchange. -/
theorem hardware {turn : Turn Client} (linked : Linked faults s current)
    (hardware : turn.isHardware = true) (stepped : s.step turn = some (records, next)) :
    Linked faults next (current ++ transcript records) := by
  cases linked with
  | free idle clear =>
      obtain ⟨told, clear, threads⟩ := clear.hardware hardware stepped
      rw [told]
      exact .free (by simpa [threads] using idle) clear
  | underway client request progress underway =>
      obtain ⟨progress', onward, underway⟩ := underway.hardware hardware stepped
      rw [List.cons_append, ← onward.records]
      exact .underway client request progress' underway
  | abandoned faulty client request progress code before after idle carried unfinished told =>
      obtain ⟨progress', carried, onward, threads⟩ := carried.hardware hardware stepped
      rw [List.append_assoc, List.cons_append]
      exact .abandoned faulty client request progress' code before (after ++ transcript records)
        (by simpa [threads] using idle) carried (onward.unfinished.trans unfinished)
        (by rw [← List.append_assoc, told, onward.records])

/-- A shell goes on with its round trip, or ends it. -/
theorem thread {client : Client} {ret : Int} (linked : Linked faults s current)
    (allowed : ret ≠ 0 → faults) (stepped : s.step (.thread client ret) = some (records, next)) :
    ∃ settled rest, current ++ transcript records = settled ++ rest ∧
      Settled faults settled ∧ Linked faults next rest := by
  have idle_refuses : s.threads client ≠ .idle := by
    intro idle
    cases still : s.draining <;> simp [Cores.step, still, idle] at stepped
  cases linked with
  | free idle => exact absurd (idle client) idle_refuses
  | abandoned faulty client' request progress code before after idle =>
      exact absurd (idle client) idle_refuses
  | underway client' request progress underway =>
      obtain ⟨here, alone, carried⟩ := underway
      obtain rfl : client' = client := by
        by_contra distinct
        exact idle_refuses (alone client (Ne.symm distinct))
      have freed := Underway.freed ⟨here, alone, carried⟩
      cases called carried here stepped with
      | onward progress' rank carried' threads records =>
          refine ⟨[], .issued client' request :: progress'.records request, ?_, .none, ?_⟩
          · simp [transcript, records]
          · exact .underway client' request progress'
              (Underway.onward ⟨here, alone, carried⟩ carried' threads)
      | answered motion taken =>
          subst taken
          exact ⟨(Exchange.mk client' request motion).records, [],
            by simp [Exchange.records, Progress.records, transcript, Record.isMail],
            .exchanged ⟨client', request, motion⟩, .free freed carried.taken_clear⟩
      | failed code error stage =>
          rcases stage with rfl | unfinished
          · exact ⟨[.issued client' request, .returned client' request (.error code)], [],
              by simp [Progress.records, transcript, Record.isMail],
              .refused (allowed error) client' request code,
              .free freed (Carried.issued_iff.mp carried)⟩
          · refine ⟨[], _, rfl, .none, ?_⟩
            exact .abandoned (allowed error) client' request progress code
              (progress.records request) [] freed carried unfinished (List.append_nil _)

/-- One step of any party. -/
theorem step {turn : Turn Client} (linked : Linked faults s current) (begins : Begins s turn)
    (allowed : turn.Fails → faults) (stepped : s.step turn = some (records, next)) :
    ∃ settled rest, current ++ transcript records = settled ++ rest ∧
      Settled faults settled ∧ Linked faults next rest := by
  cases turn with
  | issue client request =>
      obtain ⟨rfl, onward⟩ := linked.issue begins stepped
      exact ⟨[], _, rfl, .none, onward⟩
  | thread client ret => exact linked.thread allowed stepped
  | _ => exact ⟨[], _, rfl, .none, linked.hardware rfl stepped⟩

end Linked
end Rp2350Stepper.Shell
