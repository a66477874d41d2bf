import Rp2350Stepper.Shell.Shells

/-!
# Round trips after a failed one

A send which fails for the first word leaves the line clear. A later failure leaves core1
in the middle of the request, or its reply to come; nothing then clears the line, and the
next round trip is taken for the rest of the old one or takes its reply.
-/

namespace Rp2350Stepper.Shell

open Rp2350Stepper.Num Rp2350Stepper.Semantics
open Rp2350Stepper.Core1 (Word StepperCmd Motion Event Request answer)

variable {F Client : Type} [SinglePrecision F]

/-- A decoded command is the request issued last, and a returned reply is the one core1 has
written since then, to that request. -/
def Faithful (before : List (Record F Client)) : Record F Client → Prop
  | .decoded _ cmd payload => ∃ earlier client request later,
      before = earlier ++ .issued client request :: later ∧
        request.cmd = cmd ∧ request.payload = payload ∧
        ∀ record ∈ later, ∃ code, record = .returned client request (.error code)
  | .returned client request (.ok reply) => ∃ earlier motion,
      before = earlier ++ [.issued client request,
        .decoded motion request.cmd request.payload, .core1 (.replied reply)] ∧
      reply = answer motion request
  | _ => True

section Faithful

variable {past : List (Record F Client)}

/-- One more record, if it is faithful. -/
theorem recorded_append (recorded : Recorded Faithful past) (record : Record F Client)
    (faithful : Faithful past record) : Recorded Faithful (past ++ [record]) :=
  recorded.append_singleton faithful

/-- A request is decoded after it has been issued. -/
theorem recorded_decoded (recorded : Recorded Faithful past) (client : Client)
    (request : Request) (motion : Motion F) :
    Recorded Faithful (past ++ [.issued client request] ++
      [.decoded motion request.cmd request.payload]) :=
  recorded_append (recorded_append recorded (.issued client request) trivial) _
    ⟨past, client, request, [], rfl, rfl, rfl, by simp⟩

/-- The records which settle a round trip are faithful. -/
theorem recorded_settled {settled : List (Record F Client)} (recorded : Recorded Faithful past)
    (whole : Settled True settled) : Recorded Faithful (past ++ settled) := by
  cases whole with
  | none => rwa [List.append_nil]
  | exchanged exchange =>
      obtain ⟨client, request, motion⟩ := exchange
      have decoded := recorded_decoded recorded client request motion
      have replied := recorded_append decoded (.core1 (.replied (answer motion request))) trivial
      have returned := recorded_append replied
        (.returned client request (.ok (answer motion request))) ⟨past, motion, by simp, rfl⟩
      simpa [Exchange.records] using returned
  | refused _ client request code =>
      have issued := recorded_append recorded (.issued client request) trivial
      have returned := recorded_append issued (.returned client request (.error code)) trivial
      simpa using returned

/-- The records of a round trip under way are faithful. -/
theorem recorded_underway (recorded : Recorded Faithful past) (client : Client)
    (request : Request) (progress : Progress F) :
    Recorded Faithful (past ++ .issued client request :: progress.records request) := by
  cases progress with
  | issued | opened | sent => exact recorded_append recorded (.issued client request) trivial
  | decoded motion => simpa [Progress.records] using recorded_decoded recorded client request motion
  | replied motion | delivered motion | taken motion =>
      have decoded := recorded_decoded recorded client request motion
      have replied := recorded_append decoded (.core1 (.replied (answer motion request))) trivial
      simpa [Progress.records] using replied

/-- So are those of one which has failed, wherever its failure stands among them. -/
theorem recorded_abandoned (recorded : Recorded Faithful past) {client : Client}
    {request : Request} {progress : Progress F} {code : Int}
    {before after : List (Record F Client)} (told : before ++ after = progress.records request) :
    Recorded Faithful (past ++
      (.issued client request :: before ++ .returned client request (.error code) :: after)) := by
  have issued := recorded_append recorded (.issued client request) trivial
  have failed := recorded_append issued (.returned client request (.error code)) trivial
  have late : ∀ motion, Recorded Faithful (past ++ [.issued client request] ++
      [.returned client request (.error code)] ++
        [.decoded motion request.cmd request.payload]) := by
    intro motion
    exact recorded_append failed _ ⟨past, client, request,
      [.returned client request (.error code)], by simp, rfl, rfl, by simp⟩
  cases progress with
  | issued | opened | sent =>
      obtain ⟨rfl, rfl⟩ := List.append_eq_nil_iff.mp told
      simpa using failed
  | decoded motion =>
      have decoded := recorded_decoded recorded client request motion
      rcases List.append_eq_cons_iff.mp told with ⟨rfl, rfl⟩ | ⟨rest, rfl, split⟩
      · simpa using late motion
      · obtain ⟨rfl, rfl⟩ := List.append_eq_nil_iff.mp split.symm
        simpa using recorded_append decoded (.returned client request (.error code)) trivial
  | replied motion | delivered motion | taken motion =>
      have decoded := recorded_decoded recorded client request motion
      rcases List.append_eq_cons_iff.mp told with ⟨rfl, rfl⟩ | ⟨rest, rfl, split⟩
      · simpa using recorded_append (late motion) (.core1 (.replied (answer motion request))) trivial
      · rcases List.append_eq_cons_iff.mp split.symm with ⟨rfl, rfl⟩ | ⟨rest', rfl, split'⟩
        · have failed := recorded_append decoded (.returned client request (.error code)) trivial
          simpa using recorded_append failed (.core1 (.replied (answer motion request))) trivial
        · obtain ⟨rfl, rfl⟩ := List.append_eq_nil_iff.mp split'.symm
          have replied := recorded_append decoded (.core1 (.replied (answer motion request))) trivial
          simpa using recorded_append replied (.returned client request (.error code)) trivial

end Faithful

/-! ### Runs with failures -/

/-- A round trip begins on a clear line: core1 is between requests, no word is queued either
way, and `reply_sem` is not given. -/
def StartsClear (s : Cores F Client) (turn : Turn Client) : Prop :=
  ∀ client request, turn = .issue client request → s.line.Clear

/-- In every run what is recorded is faithful, and the line is linked to it. -/
theorem faithful_linked_of_run {s : Cores F Unit} {turns : List (Turn Unit)}
    {records : List (Record F Unit)}
    (run : (system F Unit).Run StartsClear .initial turns records s) :
    ∃ past current : List (Record F Unit), transcript records = past ++ current ∧
      Recorded Faithful past ∧ Linked True s current := by
  refine System.Run.invariant
    (fun (s : Cores F Unit) records => ∃ past current : List (Record F Unit),
      transcript records = past ++ current ∧ Recorded Faithful past ∧ Linked True s current)
    ?_ ?_ run
  · exact ⟨[], [], rfl, .nil, .free (fun _ => rfl) ⟨rfl, rfl, rfl, rfl, rfl⟩⟩
  · rintro s records turn emitted next ⟨past, current, told, recorded, linked⟩ clear stepped
    have begins : Begins s turn := by
      rintro client request rfl
      exact ⟨fun _ => Cores.idle_of_issue stepped, clear client request rfl⟩
    obtain ⟨settled, rest, split, whole, linked'⟩ :=
      linked.step begins (fun _ => trivial) stepped
    refine ⟨past ++ settled, rest, ?_, recorded_settled recorded whole, linked'⟩
    rw [List.append_assoc, ← split, ← List.append_assoc, ← told]
    exact List.filter_append _ _

/-- Whatever fails, as long as every round trip begins on a clear line, core1 decodes nothing
but the request issued last, and a round trip which returns a reply has had its own. -/
theorem clear_starts_faithful (F : Type) [SinglePrecision F] {s : Cores F Unit}
    {turns : List (Turn Unit)} {records : List (Record F Unit)}
    (run : (system F Unit).Run StartsClear .initial turns records s) :
    Recorded Faithful (transcript records) := by
  obtain ⟨past, current, told, recorded, linked⟩ := faithful_linked_of_run run
  rw [told]
  cases linked with
  | free => rwa [List.append_nil]
  | underway client request progress => exact recorded_underway recorded client request progress
  | abandoned faulty client request progress code before after idle carried unfinished mail =>
      exact recorded_abandoned recorded mail

/-- `StartsClear`, decided. -/
def startsClear (s : Cores F Client) : Turn Client → Bool
  | .issue _ _ => decide (s.core1.point.position = .between) && s.core1.inbound.isEmpty &&
      s.core1.outbound.isEmpty && !s.replySem && !s.draining
  | _ => true

omit [SinglePrecision F] in
/-- What the decidable form admits, the guard admits. -/
theorem startsClear_sound {s : Cores F Client} {turn : Turn Client}
    (decided : startsClear s turn = true) : StartsClear s turn := by
  rintro client request rfl
  simp only [startsClear, Bool.and_eq_true, decide_eq_true_eq, List.isEmpty_iff,
    Bool.not_eq_true'] at decided
  obtain ⟨⟨⟨⟨between, inbound⟩, outbound⟩, replySem⟩, draining⟩ := decided
  exact ⟨between, inbound, outbound, replySem, draining⟩

/-- A first send fails, a `CMD_STOP` succeeds and a wait times out. -/
theorem failed_send_then_stop_faithful :
    ∃ turns records s, (system Binary32 Unit).Run StartsClear .initial turns records s ∧
      replies records = [((), none), ((), some 0), ((), none)] ∧
      Recorded Faithful (transcript records) := by
  have executed : (System.execute Cores.step startsClear (.initial : Cores Binary32 Unit)
      ([.issue () .stop, .thread () (-5)] ++ roundTripTurns () .stop ++
        [.issue () .stop, .thread () 0, .thread () (-11)])).map
          (fun result => replies result.1) = some [((), none), ((), some 0), ((), none)] := by
    decide +kernel
  obtain ⟨⟨records, s⟩, executed, returned⟩ := Option.map_eq_some_iff.mp executed
  have followed : (system Binary32 Unit).Run (fun s turn => startsClear s turn = true)
      .initial _ records s := System.run_of_execute executed
  have run := followed.weaken fun _ _ => startsClear_sound
  exact ⟨_, records, s, run, returned, clear_starts_faithful Binary32 run⟩

/-- In faithful records core1 decodes only what has been issued. -/
theorem decodings_subset_issues {records : List (Record F Client)}
    (recorded : Recorded Faithful records) :
    ∀ command ∈ decodings records, command ∈ issues records := by
  intro command decoded
  obtain ⟨record, member, same⟩ := List.mem_filterMap.mp decoded
  obtain ⟨before, after, split⟩ := List.append_of_mem member
  have faithful := recorded before record after split
  cases record with
  | decoded motion cmd payload =>
      obtain ⟨earlier, client, request, later, rfl, rfl, rfl, _⟩ := faithful
      cases same
      rw [split]
      exact List.mem_filterMap.mpr ⟨.issued client request, by simp, rfl⟩
  | _ => cases same

/-- The payload of a `CMD_SPEED` is not sent, and the opcode of the `CMD_STOP` that follows
becomes the speed; the stop returns with the speed's reply. -/
theorem failed_payload_swallows_stop :
    ¬∀ turns records s, (system Binary32 Unit).Run (system Binary32 Unit).unguarded .initial
      turns records s → Recorded Faithful (transcript records) := by
  intro faithful
  have executed : (System.execute Cores.step (fun (_ : Cores Binary32 Unit) _ => true) .initial
      [.issue () (.withPayload .speed 0x447a0000 (by decide)), .thread () 0, .thread () (-5),
        .issue () .stop, .thread () 0, .core1, .core1, .core1, .core1, .interrupt, .drain,
        .thread () 0, .thread () 0]).map
          (fun result => decodings result.1 == [(.speed, some 4)] &&
            issues result.1 == [(.speed, some 0x447a0000), (.stop, none)] &&
            replies result.1 == [((), none), ((), some 0x42480000)]) = some true := by
    decide +kernel
  obtain ⟨⟨records, s⟩, executed, recorded⟩ := Option.map_eq_some_iff.mp executed
  simp only [Bool.and_eq_true, beq_iff_eq] at recorded
  obtain ⟨⟨decoded, issued⟩, returned⟩ := recorded
  have run : (system Binary32 Unit).Run (system Binary32 Unit).unguarded .initial _ records s :=
    System.unguarded_run_of_execute executed
  have member := decodings_subset_issues (faithful _ records s run) (.speed, some 4)
    (by rw [decodings_transcript, decoded]; exact List.mem_singleton.mpr rfl)
  rw [issues_transcript, issued] at member
  exact absurd member (by decide)

end Rp2350Stepper.Shell
