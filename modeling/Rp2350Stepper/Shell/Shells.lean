import Rp2350Stepper.Shell.Completion

/-!
# One shell, and two

With one shell every call which does not fail leaves its exchange whole. The USB and the
telnet shell share `reply_sem`, `last_reply` and the FIFO to core1 without a lock, so with
both an exchange is whole only while their round trips do not overlap. A send which fails or a
wait which times out spoils the exchanges after it, whichever shell they are of.
-/

namespace Rp2350Stepper.Shell

open Rp2350Stepper.Num Rp2350Stepper.Semantics
open Rp2350Stepper.Core1 (Word StepperCmd StatusField Motion Event Request answer)

/-! ### What is recorded -/

section Records

variable {F Client : Type}

/-- The commands issued, with their payloads. -/
def issues (records : List (Record F Client)) : List (StepperCmd × Option Word) :=
  records.filterMap fun
    | .issued _ request => some (request.cmd, request.payload)
    | _ => none

/-- The commands core1 has decoded, with their payloads. -/
def decodings (records : List (Record F Client)) : List (StepperCmd × Option Word) :=
  records.filterMap fun
    | .decoded _ cmd payload => some (cmd, payload)
    | _ => none

/-- The replies returned. -/
def replies (records : List (Record F Client)) : List (Client × Option Word) :=
  records.filterMap fun
    | .returned client _ result => some (client, result.toOption)
    | _ => none

/-- What is issued is in the transcript. -/
theorem issues_transcript (records : List (Record F Client)) :
    issues (transcript records) = issues records := by
  rw [issues, issues, transcript, List.filterMap_filter]
  congr 1
  funext record
  cases record with
  | core1 event => cases event <;> rfl
  | _ => rfl

theorem decodings_transcript (records : List (Record F Client)) :
    decodings (transcript records) = decodings records := by
  rw [decodings, decodings, transcript, List.filterMap_filter]
  congr 1
  funext record
  cases record with
  | core1 event => cases event <;> rfl
  | _ => rfl

/-- What two stretches issue, in order. -/
theorem issues_append (records later : List (Record F Client)) :
    issues (records ++ later) = issues records ++ issues later := List.filterMap_append ..

/-- What they decode, in order. -/
theorem decodings_append (records later : List (Record F Client)) :
    decodings (records ++ later) = decodings records ++ decodings later := List.filterMap_append ..

end Records

variable {F Client : Type} [SinglePrecision F] [DecidableEq Client]

omit [DecidableEq Client] in
/-- In whole exchanges core1 decodes what was issued. -/
theorem decodings_exchanges (exchanges : List (Exchange F Client)) :
    decodings (exchanges.flatMap Exchange.records) = issues (exchanges.flatMap Exchange.records) := by
  induction exchanges with
  | nil => rfl
  | cons exchange exchanges inductionHypothesis =>
      rw [List.flatMap_cons, decodings_append, issues_append, inductionHypothesis]
      rfl

/-- No send fails and no wait times out, and a shell begins a round trip only while no other is
inside one. -/
def OneAtATime (s : Cores F Client) (turn : Turn Client) : Prop :=
  ¬turn.Fails ∧ ∀ client request, turn = .issue client request →
    ∀ other, other ≠ client → s.threads other = .idle

/-- Without faults a round trip which may begin finds the line clear. -/
theorem begins_of_oneAtATime {s next : Cores F Client} {turn : Turn Client}
    {current records : List (Record F Client)} (linked : Linked False s current)
    (alone : OneAtATime s turn) (stepped : s.step turn = some (records, next)) : Begins s turn := by
  rintro client request rfl
  have idle : ∀ other, s.threads other = .idle := by
    intro other
    by_cases same : other = client
    · rw [same]
      exact Cores.idle_of_issue stepped
    · exact alone.2 client request rfl other same
  refine ⟨idle, ?_⟩
  cases linked with
  | free _ clear => exact clear
  | underway client' request' progress underway =>
      exact absurd (underway.here.symm.trans (idle client')) (by simp)
  | abandoned faulty => exact faulty.elim

/-- The records of a run are whole exchanges, and those since the last round trip was issued. -/
theorem linked_of_run {s : Cores F Client} {turns : List (Turn Client)}
    {records : List (Record F Client)}
    (run : (system F Client).Run OneAtATime .initial turns records s) :
    ∃ (exchanges : List (Exchange F Client)) (current : List (Record F Client)),
      transcript records = exchanges.flatMap Exchange.records ++ current ∧
        Linked False s current := by
  refine System.Run.invariant
    (fun (s : Cores F Client) records =>
      ∃ (exchanges : List (Exchange F Client)) (current : List (Record F Client)),
      transcript records = exchanges.flatMap Exchange.records ++ current ∧ Linked False s current)
    ?_ ?_ run
  · exact ⟨[], [], rfl, .free (fun _ => rfl) ⟨rfl, rfl, rfl, rfl, rfl⟩⟩
  · rintro s records turn emitted next ⟨exchanges, current, told, linked⟩ alone stepped
    obtain ⟨settled, rest, split, whole, linked'⟩ :=
      linked.step (begins_of_oneAtATime linked alone stepped) (fun fails => alone.1 fails) stepped
    have told' : transcript (records ++ emitted) =
        exchanges.flatMap Exchange.records ++ (settled ++ rest) := by
      rw [← split, ← List.append_assoc, ← told]
      exact List.filter_append _ _
    cases whole with
    | none => exact ⟨exchanges, rest, told', linked'⟩
    | exchanged exchange =>
        exact ⟨exchanges ++ [exchange], rest, by simp [told'], linked'⟩
    | refused faulty => exact faulty.elim

omit [DecidableEq Client] in
/-- What has been recorded of a request is the beginning of an exchange. -/
theorem records_prefix (client : Client) (request : Request) (progress : Progress F)
    (motion : Motion F) : ∃ exchange : Exchange F Client,
      .issued client request :: progress.records request <+: exchange.records := by
  cases progress with
  | issued | opened | sent => exact ⟨⟨client, request, motion⟩, by simp [Exchange.records, Progress.records]⟩
  | decoded motion | replied motion | delivered motion | taken motion =>
      exact ⟨⟨client, request, motion⟩, by simp [Exchange.records, Progress.records]⟩

/-- What a run without faults keeps. -/
structure Exchanged (s : Cores F Client) (records : List (Record F Client)) : Prop where
  /-- What is recorded of the mailbox is one whole exchange after another, up to the one
  under way: each request is decoded as it was issued, and its one reply is returned. -/
  whole : ∃ exchanges : List (Exchange F Client),
    transcript records <+: exchanges.flatMap Exchange.records ∧
      ((∀ client, s.threads client = .idle) →
        transcript records = exchanges.flatMap Exchange.records)
  /-- core1 decodes the requests issued, in order. -/
  decoded : decodings records <+: issues records ∧
    ((∀ client, s.threads client = .idle) → decodings records = issues records)
  /-- core1 never has two replies outstanding. -/
  outstanding : s.core1.outbound.length ≤ 1
  /-- The interrupt discards nothing. -/
  kept : ∀ word, .discarded word ∉ records
  /-- A round trip under way can end. -/
  finishes : ∃ turns later finish, (system F Client).Run Faultless s turns later finish ∧
    ∀ client, finish.threads client = .idle

/-- Every run without faults keeps this. -/
theorem exchanged_of_run {s : Cores F Client} {turns : List (Turn Client)}
    {records : List (Record F Client)}
    (run : (system F Client).Run OneAtATime .initial turns records s) : Exchanged s records := by
  obtain ⟨exchanges, current, told, linked⟩ := linked_of_run run
  have whole : ∃ exchanges : List (Exchange F Client),
      transcript records <+: exchanges.flatMap Exchange.records ∧
        ((∀ client, s.threads client = .idle) →
          transcript records = exchanges.flatMap Exchange.records) := by
    cases linked with
    | free idle clear => exact ⟨exchanges, by simp [told], fun _ => by simp [told]⟩
    | underway client request progress underway =>
        obtain ⟨exchange, started⟩ := records_prefix client request progress s.core1.motion
        refine ⟨exchanges ++ [exchange], ?_, ?_⟩
        · rw [told, List.flatMap_append]
          simpa using started
        · intro idle
          exact absurd (underway.here.symm.trans (idle client)) (by simp)
    | abandoned faulty => exact faulty.elim
  refine ⟨whole, ?_, ?_, ?_, ?_⟩
  · rw [← decodings_transcript, ← issues_transcript, told, decodings_append, issues_append,
      decodings_exchanges]
    cases linked with
    | free => exact ⟨List.prefix_rfl, fun _ => rfl⟩
    | underway client request progress underway =>
        refine ⟨(List.prefix_append_right_inj _).mpr ?_, ?_⟩
        · cases progress <;> simp [decodings, issues, Progress.records]
        · intro idle
          exact absurd (underway.here.symm.trans (idle client)) (by simp)
    | abandoned faulty => exact faulty.elim
  · cases linked with
    | free idle clear => simp [show s.core1.outbound = [] from clear.2.2.1]
    | underway client request progress underway => exact underway.carried.outbound_length
    | abandoned faulty => exact faulty.elim
  · intro word discarded
    obtain ⟨exchanges, started, _⟩ := whole
    have member : Record.discarded word ∈ transcript records := by
      simp [transcript, discarded, Record.isMail]
    have recorded := started.subset member
    simp [Exchange.records] at recorded
  · cases linked with
    | free idle clear => exact ⟨[], [], s, .refl, idle⟩
    | underway client request progress underway => exact underway.finishes
    | abandoned faulty => exact faulty.elim

/-! ### One shell -/

/-- However the words of one shell's round trips interleave with core1 and the interrupt,
every exchange is whole. -/
theorem round_trips_exchanged (F : Type) [SinglePrecision F] {s : Cores F Unit}
    {turns : List (Turn Unit)} {records : List (Record F Unit)}
    (run : (system F Unit).Run Faultless .initial turns records s) : Exchanged s records := by
  refine exchanged_of_run (run.weaken ?_)
  intro s turn faultless
  exact ⟨faultless, fun _ _ _ _ distinct => absurd rfl distinct⟩

/-- `Faultless`, decided. -/
def isFaultless (_ : Cores F Client) : Turn Client → Bool
  | .thread _ ret => ret == 0
  | _ => true

omit [SinglePrecision F] [DecidableEq Client] in
/-- What the decidable form admits, the guard admits. -/
theorem isFaultless_sound {s : Cores F Client} {turn : Turn Client}
    (decided : isFaultless s turn = true) : Faultless s turn := by
  cases turn <;> simp_all [Faultless, Turn.Fails, isFaultless]

/-- A round trip by itself, from the loop's first test on. -/
def roundTripTurns {Client : Type} (client : Client) (request : Request) : List (Turn Client) :=
  .issue client request :: request.words.map (fun _ => .thread client 0) ++
    .core1 :: request.words.map (fun _ => .core1) ++
    [.core1, .interrupt, .drain, .thread client 0, .thread client 0]

/-- A shell sets the maximum speed to 2.0, which core1 clamps to 50.0, and stops. -/
theorem two_round_trips_exchanged :
    ∃ turns records s, (system Binary32 Unit).Run Faultless .initial turns records s ∧
      replies records = [((), some 0x42480000), ((), some 0)] ∧ Exchanged s records := by
  have executed : (System.execute Cores.step isFaultless (.initial : Cores Binary32 Unit)
      (roundTripTurns () (.withPayload .speed 0x40000000 (by decide)) ++
        roundTripTurns () .stop)).map (fun result => replies result.1) =
      some [((), some 0x42480000), ((), some 0)] := by
    decide +kernel
  obtain ⟨⟨records, s⟩, executed, returned⟩ := Option.map_eq_some_iff.mp executed
  have followed : (system Binary32 Unit).Run (fun s turn => isFaultless s turn = true)
      .initial _ records s := System.run_of_execute executed
  have run := followed.weaken fun _ _ => isFaultless_sound
  exact ⟨_, records, s, run, returned, round_trips_exchanged Binary32 run⟩

/-! ### Two shells -/

/-- The shells whose commands run in threads of their own. -/
inductive ShellInstance where
  | usb
  | telnet
deriving DecidableEq, Repr

/-- While the two shells' round trips do not overlap, every exchange is whole. -/
theorem separate_round_trips_exchanged (F : Type) [SinglePrecision F] {s : Cores F ShellInstance}
    {turns : List (Turn ShellInstance)} {records : List (Record F ShellInstance)}
    (run : (system F ShellInstance).Run OneAtATime .initial turns records s) :
    Exchanged s records := exchanged_of_run run

/-- Whether a thread is outside of its round trips. -/
def Thread.isIdle : Thread → Bool
  | .idle => true
  | .inside _ _ => false

/-- Such a thread is idle. -/
theorem Thread.eq_idle_of_isIdle {thread : Thread} (isIdle : thread.isIdle = true) :
    thread = .idle := by
  cases thread with
  | idle => rfl
  | inside request rest => cases isIdle

/-- `OneAtATime`, decided for two shells. -/
def isOneAtATime (s : Cores F ShellInstance) (turn : Turn ShellInstance) : Bool :=
  isFaultless s turn && match turn with
    | .issue .usb _ => (s.threads .telnet).isIdle
    | .issue .telnet _ => (s.threads .usb).isIdle
    | _ => true

omit [SinglePrecision F] in
/-- What the decidable form admits, the guard admits. -/
theorem isOneAtATime_sound {s : Cores F ShellInstance} {turn : Turn ShellInstance}
    (decided : isOneAtATime s turn = true) : OneAtATime s turn := by
  simp only [isOneAtATime, Bool.and_eq_true] at decided
  refine ⟨isFaultless_sound decided.1, ?_⟩
  rintro client request rfl other distinct
  have isIdle : (s.threads other).isIdle = true := by
    cases client <;> cases other <;> simp_all
  cases idle : s.threads other with
  | idle => rfl
  | inside request rest => simp [Thread.isIdle, idle] at isIdle

/-- The telnet shell asks for the state after the USB shell has stopped. -/
theorem stop_then_status_exchanged :
    ∃ turns records s, (system Binary32 ShellInstance).Run OneAtATime .initial turns records s ∧
      replies records = [(.usb, some 0), (.telnet, some 0)] ∧ Exchanged s records := by
  have executed : (System.execute Cores.step isOneAtATime (.initial : Cores Binary32 ShellInstance)
      (roundTripTurns .usb .stop ++
        roundTripTurns .telnet (.withPayload .status StatusField.state.toWord (by decide)))).map
          (fun result => replies result.1) = some [(.usb, some 0), (.telnet, some 0)] := by
    decide +kernel
  obtain ⟨⟨records, s⟩, executed, returned⟩ := Option.map_eq_some_iff.mp executed
  have followed : (system Binary32 ShellInstance).Run (fun s turn => isOneAtATime s turn = true)
      .initial _ records s := System.run_of_execute executed
  have run := followed.weaken fun _ _ => isOneAtATime_sound
  exact ⟨_, records, s, run, returned, separate_round_trips_exchanged Binary32 run⟩

/-- The USB shell sends `CMD_MOVE` for 100 steps and the telnet shell, between its two words,
`CMD_STOP`: core1 starts a move of 4 steps, which no shell has asked for. -/
theorem interleaved_stop_moves :
    ¬∀ turns records s, (system Binary32 ShellInstance).Run Faultless .initial turns records s →
      ∀ command ∈ decodings records, command ∈ issues records := by
  intro exactly
  have executed : (System.execute Cores.step isFaultless (.initial : Cores Binary32 ShellInstance)
      [.issue .usb (.withPayload .move 100 (by decide)), .issue .telnet .stop, .thread .usb 0,
        .thread .telnet 0, .thread .usb 0, .core1, .core1, .core1]).map
          (fun result => (decodings result.1, issues result.1)) =
      some ([(.move, some 4)], [(.move, some 100), (.stop, none)]) := by
    decide +kernel
  obtain ⟨⟨records, s⟩, executed, recorded⟩ := Option.map_eq_some_iff.mp executed
  simp only [Prod.mk.injEq] at recorded
  have followed : (system Binary32 ShellInstance).Run (fun s turn => isFaultless s turn = true)
      .initial _ records s := System.run_of_execute executed
  have issued := exactly _ records s (followed.weaken fun _ _ => isFaultless_sound)
    (.move, some 4) (by rw [recorded.1]; exact List.mem_singleton.mpr rfl)
  rw [recorded.2] at issued
  exact absurd issued (by decide)

end Rp2350Stepper.Shell
