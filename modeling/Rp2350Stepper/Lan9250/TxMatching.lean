import Rp2350Stepper.Lan9250.Reliable
import Rp2350Stepper.Lan9250.TxTimestamp

/-!
# Which egress event a transmitted frame gets

A check has five polls of the egress queue, and stops at the first which finds it
non-empty. It looks at the oldest event there only, and gives up if that is another
message's, with polls left. So a frame whose own event is queued at one of the five polls
gets its timestamp exactly when no other event has been found before it.

What would be queued at the polls left depends on what is captured after the check has
returned, and every way in which that may go on is considered.
-/

namespace Rp2350Stepper.Lan9250

open Rp2350Stepper.Data Rp2350Stepper.Semantics

/-- The polls of the egress queue, and the timestamps attached. -/
def Event.egress : Event → Bool
  | .polled _ | .stamped _ _ => true
  | _ => false

/-- What a history says about polls and timestamps. -/
def egressEvents (history : List Event) : List Event := history.filter Event.egress

/-- What is new of the egress events. -/
theorem egressEvents_newEvents {world next : World} {events : List Event}
    (onward : Onward world next)
    (grown : egressEvents next.history = egressEvents world.history ++ events) :
    egressEvents (newEvents world next) = events := by
  obtain ⟨later, history⟩ := onward.history
  rw [newEvents, ← history, List.drop_left]
  rw [← history, egressEvents, List.filter_append] at grown
  exact List.append_cancel_left grown

/-- The poll which has found some events queued. -/
def foundPoll : List Capture → List Event
  | [] => []
  | capture :: rest => [.polled (capture :: rest)]

/-- What a check does with the events it has found. -/
def egressStamp (pkt : PktId) (key : MsgKey) : List Capture → List Event
  | [] => []
  | capture :: _ => if capture.key = key then [.stamped pkt capture.time] else []

/-- What a check records: so many polls which find nothing, then one which finds some events
and what becomes of the oldest, or nothing at any poll. -/
structure Polled (pkt : PktId) (key : MsgKey) (recorded : List Event) (count : Nat)
    (egress : List Capture) : Prop where
  recorded : recorded =
    List.replicate count (.polled []) ++ foundPoll egress ++ egressStamp pkt key egress
  made : count + (foundPoll egress).length ≤ txTsPollAttempts
  exhausted : egress = [] → count = txTsPollAttempts

/-- Nothing is polled or stamped, and the egress queue only grows. -/
structure Aside (world next : World) : Prop where
  events : egressEvents next.history = egressEvents world.history
  egress : world.chip.txCaptures.items <+: next.chip.txCaptures.items

namespace Aside

variable {world next : World}

theorem trans {first second third : World} (before : Aside first second)
    (after : Aside second third) : Aside first third :=
  ⟨after.events.trans before.events, before.egress.trans after.egress⟩

/-- Something other than an egress event is recorded. -/
theorem record (world : World) {event : Event} (other : event.egress = false) :
    Aside world (world.record event) :=
  ⟨by simp [egressEvents, World.record, other], List.prefix_rfl⟩

/-- A line is logged. -/
theorem logged (world : World) (message : Message) : Aside world (world.record (.logged message)) :=
  record world rfl

/-- Time passes. -/
theorem wait (world : World) (ms : Nat) : Aside world (world.wait ms) := ⟨rfl, List.prefix_rfl⟩

/-- What happens before a request. -/
theorem advance (world : World) (choice : Choice) : Aside world (world.advance choice) := by
  obtain ⟨⟨later, history, environmental, _⟩, egress⟩ := Surroundings.advance world choice
  refine ⟨?_, egress⟩
  have none : later.filter Event.egress = [] := by
    rw [List.filter_eq_nil_iff]
    intro event member
    have known := environmental event member
    cases event <;> simp_all [Event.environmental, Event.egress]
  rw [egressEvents, history, List.filter_append, none, List.append_nil, egressEvents]

/-- What is oldest stays oldest. -/
theorem head (aside : Aside world next) {capture : Capture} {rest : List Capture}
    (here : world.chip.txCaptures.items = capture :: rest) :
    ∃ rest, next.chip.txCaptures.items = capture :: rest := by
  obtain ⟨more, grown⟩ := aside.egress
  exact ⟨rest ++ more, by rw [← grown, here, List.cons_append]⟩

end Aside

/-- A read takes no event. -/
theorem read_txCaptures (chip : Chip) (address : Address) :
    (chip.read address).2.txCaptures = chip.txCaptures := by
  unfold Chip.read
  repeat' split
  all_goals rfl

/-- Only a write of `1588_INT_STS` takes one. -/
theorem write_txCaptures (chip : Chip) {address : Address} (value : Word)
    (other : address ≠ ieee1588IntSts) :
    (chip.write address value).txCaptures = chip.txCaptures := by
  unfold Chip.write
  repeat' split
  all_goals rfl

/-- Polling has found nothing so many times, and then these events, or nothing at any
attempt. -/
structure PolledUntil (attempts : Nat) (world next : World) (count : Nat)
    (egress : List Capture) : Prop where
  events : egressEvents next.history =
    egressEvents world.history ++ List.replicate count (.polled []) ++ foundPoll egress
  queued : egress ≠ [] → next.chip.txCaptures.items = egress
  made : count + (foundPoll egress).length ≤ attempts
  exhausted : egress = [] → count = attempts

section Calls

variable {guard : lan9250.Guard} (live : Live guard) (reliable : Reliable guard) {world : World}

include live reliable

/-- Selecting a bank. -/
theorem bankSelect_aside (bank : Word) :
    lan9250.Completes guard (ieee1588BankSelect bank).run world fun result next =>
      result = .ok () ∧ Aside world next ∧ next.chip.bank = bank := by
  rw [ieee1588BankSelect, completes_writeSysReg_ok live reliable]
  intro choice _
  have unnoted : (world.advance choice).noteWrite bankPortGpioSel bank = world.advance choice := by
    simp [World.noteWrite, bankPortGpioSel, ieee1588IntSts]
  rw [unnoted]
  have timed := Aside.advance world choice
  refine ⟨rfl, ⟨timed.events, ?_⟩, by simp [Chip.write]⟩
  rw [write_txCaptures _ _ (by decide)]
  exact timed.egress

/-- One poll. -/
theorem poll_spec (general : world.chip.bank = bankSelPortGeneral) :
    lan9250.Completes guard (readSysReg capInfo).run world fun result next =>
      ∃ info, result = .ok info ∧
        (info &&& capInfoTxTsCntMask = 0 ↔ next.chip.txCaptures.items = []) ∧
        next.chip.bank = bankSelPortGeneral ∧
        egressEvents next.history =
          egressEvents world.history ++ [.polled next.chip.txCaptures.items] := by
  rw [completes_readSysReg_ok live reliable]
  intro choice _
  have bank := (advance_bank world choice).trans general
  have timed := Aside.advance world choice
  generalize world.advance choice = current at bank timed ⊢
  have kept := read_txCaptures current.chip capInfo
  have noted : current.noteRead capInfo = current.record (.polled current.chip.txCaptures.items) := by
    simp [World.noteRead, bank]
  refine ⟨_, rfl, ?_, (read_bank current.chip capInfo).trans bank, ?_⟩
  · rw [kept]
    exact Chip.capInfo_tx_eq_zero bank
  · rw [kept, noted, ← timed.events]
    simp [egressEvents, World.record, Event.egress]

/-- The polling loop ends with the first non-empty queue it finds. -/
theorem pollCapInfo_spec (attempts : Nat) (info : Word) (general : world.chip.bank = bankSelPortGeneral)
    (unready : info &&& capInfoTxTsCntMask = 0) :
    lan9250.Completes guard (pollCapInfo attempts info).run world fun result next =>
      ∃ info, result = .ok info ∧ ∃ count egress,
        (info &&& capInfoTxTsCntMask = 0 ↔ egress = []) ∧
        PolledUntil attempts world next count egress := by
  induction attempts generalizing world info with
  | zero =>
      exact ⟨info, rfl, 0, [], by simp [unready], by simp [foundPoll], by simp, le_rfl, fun _ => rfl⟩
  | succ attempts inductionHypothesis =>
      unfold pollCapInfo
      rw [Device.completes_run_bind]
      apply (poll_spec live reliable general).weaken
      rintro _ next ⟨info, rfl, counted, bank, heard⟩
      simp only
      cases queue : next.chip.txCaptures.items with
      | nil =>
          rw [queue] at counted heard
          rw [if_neg (by simpa using counted), Device.completes_run_bind,
            Device.completes_run_lift, completes_sleep live]
          intro later _
          have slept := (Aside.advance next later).trans (Aside.wait (next.advance later) 1)
          have still : ((next.advance later).wait 1).chip.bank = bankSelPortGeneral :=
            (advance_bank next later).trans bank
          apply (inductionHypothesis info still (counted.mpr rfl)).weaken
          rintro result finish ⟨info, returned, count, egress, empty, polled⟩
          have made := polled.made
          refine ⟨info, returned, count + 1, egress, empty, ?_, polled.queued, by omega,
            fun none => by rw [polled.exhausted none]⟩
          rw [polled.events, slept.events, heard, List.replicate_succ]
          simp
      | cons capture rest =>
          rw [queue] at counted heard
          rw [if_pos (by simpa using counted)]
          exact ⟨info, rfl, 0, capture :: rest, counted, by simpa [foundPoll] using heard,
            fun _ => queue, by simp [foundPoll], by simp⟩

/-- One register of the oldest event. -/
theorem readOldest_spec {address : Address} {field : Word} {capture : Capture} {rest : List Capture}
    (shows : ∀ (chip : Chip) (rest : List Capture), chip.bankCaptures = capture :: rest →
      (chip.read address).1 = field)
    (other : address ≠ capInfo) (selected : world.chip.bank = bankSelPortTx)
    (head : world.chip.txCaptures.items = capture :: rest) :
    lan9250.Completes guard (readSysReg address).run world fun result next =>
      result = .ok field ∧ Aside world next ∧ next.chip.bank = bankSelPortTx ∧
        ∃ rest, next.chip.txCaptures.items = capture :: rest := by
  rw [completes_readSysReg_ok live reliable]
  intro choice _
  have timed := Aside.advance world choice
  have bank := (advance_bank world choice).trans selected
  obtain ⟨rest, here⟩ := timed.head head
  have unnoted : (world.advance choice).noteRead address = world.advance choice := by
    simp [World.noteRead, other]
  have shown : (world.advance choice).chip.bankCaptures = capture :: rest := by
    rw [Chip.bankCaptures, bank, if_neg (by decide), if_pos rfl, here]
  rw [unnoted, shows _ rest shown]
  refine ⟨rfl, ⟨timed.events, ?_⟩, (read_bank _ address).trans bank, rest, ?_⟩
  · rw [read_txCaptures]
    exact timed.egress
  · rw [read_txCaptures, here]

/-- What is read of the oldest event is its key and its timestamp. -/
theorem readEgress_spec {capture : Capture} {rest : List Capture}
    (selected : world.chip.bank = bankSelPortTx)
    (head : world.chip.txCaptures.items = capture :: rest) :
    lan9250.Completes guard readEgress.run world fun result next =>
      result = .ok (capture.key, capture.time) ∧ Aside world next := by
  unfold readEgress
  rw [Device.completes_run_bind]
  refine (readOldest_spec live reliable (fun _ _ => Chip.read_rxMsgHeader) (by decide) selected
    head).weaken ?_
  rintro _ first ⟨rfl, aside, bank, rest, here⟩
  simp only
  rw [Device.completes_run_bind]
  refine (readOldest_spec live reliable (fun _ _ => Chip.read_rxIngressSec) (by decide) bank
    here).weaken ?_
  rintro _ second ⟨rfl, aside', bank', rest', here'⟩
  simp only
  rw [Device.completes_run_bind]
  refine (readOldest_spec live reliable (fun _ _ => Chip.read_rxIngressNs) (by decide) bank'
    here').weaken ?_
  rintro _ third ⟨rfl, aside'', _⟩
  exact ⟨rfl, (aside.trans aside').trans aside''⟩

/-- The end of a check: a message, and dropping the oldest event. -/
theorem finishEgress_spec (message : Message) :
    lan9250.Completes guard (do
        call (.log message)
        let _ ← (writeSysReg ieee1588IntSts intStsTxTsInt).run
        pure ()) world fun _ next =>
      egressEvents next.history = egressEvents world.history := by
  rw [Device.completes_bind, completes_log live, Device.completes_bind,
    completes_writeSysReg_ok live reliable]
  intro choice _
  rw [Device.completes_pure]
  have logged := Aside.logged world message
  have unnoted : ((world.record (.logged message)).advance choice).noteWrite ieee1588IntSts
      intStsTxTsInt = (world.record (.logged message)).advance choice := by
    simp [World.noteWrite, intStsTxTsInt, intStsRxTsInt]
  rw [unnoted]
  exact (logged.trans (Aside.advance _ choice)).events

/-- A check looks at the oldest event of the first non-empty queue it finds. -/
theorem txTimestampMatch_spec (timestampThread : Bool) (pkt : PktId) (key : MsgKey) :
    lan9250.Completes guard (txTimestampMatch timestampThread pkt key) world fun _ next =>
      ∃ recorded count egress, egressEvents next.history = egressEvents world.history ++ recorded ∧
        Polled pkt key recorded count egress := by
  unfold txTimestampMatch
  rw [Device.completes_bind]
  apply (bankSelect_aside live reliable bankSelPortGeneral).weaken
  rintro _ general ⟨rfl, aside, bank⟩
  simp only
  rw [Device.completes_bind]
  apply (pollCapInfo_spec live reliable txTsPollAttempts 0 bank (by decide)).weaken
  rintro _ polled ⟨info, rfl, count, egress, empty, found⟩
  have events := found.events
  rw [aside.events] at events
  have recorded {next : World} (events : egressEvents next.history = egressEvents world.history ++
      (List.replicate count (.polled []) ++ foundPoll egress ++ egressStamp pkt key egress)) :
      ∃ recorded count egress, egressEvents next.history = egressEvents world.history ++ recorded ∧
        Polled pkt key recorded count egress :=
    ⟨_, count, egress, events, rfl, found.made, found.exhausted⟩
  simp only
  cases egress with
  | nil =>
      rw [if_pos (empty.mpr rfl)]
      exact recorded (by simpa [egressStamp] using events)
  | cons capture rest =>
      rw [if_neg fun none => List.cons_ne_nil _ _ (empty.mp none), Device.completes_bind]
      apply (bankSelect_aside live reliable bankSelPortTx).weaken
      rintro _ tx ⟨rfl, aside', bank'⟩
      obtain ⟨rest', here⟩ := aside'.head (found.queued (by simp))
      simp only
      rw [Device.completes_bind]
      apply (readEgress_spec live reliable bank' here).weaken
      rintro _ shown ⟨rfl, aside''⟩
      simp only
      have same := (aside'.trans aside'').events.trans events
      by_cases own : capture.key = key
      · rw [if_pos own, Device.completes_bind, completes_setTimestamp live]
        have stamped : egressEvents (shown.record (.stamped pkt capture.time)).history =
            egressEvents world.history ++ (List.replicate count (.polled []) ++
              foundPoll (capture :: rest) ++ egressStamp pkt key (capture :: rest)) := by
          rw [egressStamp, if_pos own, ← List.append_assoc, ← List.append_assoc, ← same]
          simp [egressEvents, World.record, Event.egress]
        split
        · rw [Device.completes_bind, completes_addTxTimestamp live]
          apply (finishEgress_spec live reliable _).weaken
          intro _ next kept
          have notified := Aside.record (shown.record (.stamped pkt capture.time))
            (show (Event.notified pkt).egress = false from rfl)
          exact recorded (by rw [kept, notified.events, stamped])
        · apply (finishEgress_spec live reliable _).weaken
          intro _ next kept
          exact recorded (by rw [kept, stamped])
      · rw [if_neg own]
        apply (finishEgress_spec live reliable _).weaken
        intro _ next kept
        exact recorded (by rw [kept, same, egressStamp, if_neg own]; simp)

end Calls

/-! ### Runs -/

/-- A call of the TX timestamp check. -/
structure TxCall where
  timestampThread : Bool
  pkt : PktId
  frame : List Byte
  len : Nat
deriving DecidableEq

/-- The code of each call. -/
def TxCall.body (txCall : TxCall) : Code Unit :=
  txTimestampCheck txCall.timestampThread txCall.pkt txCall.frame txCall.len

/-- The message in the frame of a call. -/
def TxCall.message (txCall : TxCall) : Option MsgKey := ptpParseHeader txCall.frame txCall.len

/-- Runs of checks without SPI failures, whenever the events are captured. -/
abbrev txCalls : System (lan9250.Finished TxCall Unit) :=
  lan9250.calls noFailure (fun _ => True) TxCall.body

/-- What is queued at each poll a call makes. -/
def pollsMade (event : lan9250.Finished TxCall Unit) : List (List Capture) :=
  (newEvents event.before event.after).filterMap fun happened => match happened with
    | .polled queue => some queue
    | _ => none

/-- What would be queued at the polls left, each a poll delay or more after the one before,
as the environment chooses. -/
def pollsLeft (world : World) : List Choice → List (List Capture)
  | [] => []
  | choice :: choices =>
      let next := (world.wait 1).advance choice
      next.chip.txCaptures.items :: pollsLeft next choices

/-- There are as many polls as the environment makes choices. -/
theorem pollsLeft_length (world : World) (choices : List Choice) :
    (pollsLeft world choices).length = choices.length := by
  induction choices generalizing world with
  | nil => rfl
  | cons choice choices inductionHypothesis =>
      rw [pollsLeft, List.length_cons, inductionHypothesis, List.length_cons]

/-- What is queued at all the polls of a call: those it makes, and those it has left when it
returns, however the environment goes on. -/
def AllPolls (event : lan9250.Finished TxCall Unit) (polls : List (List Capture)) : Prop :=
  polls.length = txTsPollAttempts ∧ ∃ choices, polls = pollsMade event ++ pollsLeft event.after choices

section Polls

variable (polls : List (List Capture)) (capture : Capture)

/-- An egress event is queued at some poll. -/
def Available : Prop := ∃ queue ∈ polls, capture ∈ queue

/-- It is the first which the polls find: it is the oldest event where they first find any. -/
def FirstFound : Prop := polls.flatten.head? = some capture

/-- No two events which the polls find are of one message. -/
def OneEventEach : Prop :=
  ∀ found ∈ polls.flatten, ∀ other ∈ polls.flatten, found.key = other.key → found = other

end Polls

/-- The call has attached the timestamp of an event. -/
def Attached (event : lan9250.Finished TxCall Unit) (capture : Capture) : Prop :=
  .stamped event.call.pkt capture.time ∈ newEvents event.before event.after

/-- What one call polls and stamps. -/
theorem txCall_egress {before after : World} {txCall : TxCall} {choices : List Choice} {key : MsgKey}
    (parsed : txCall.message = some key)
    (returns : lan9250.Returns noFailure txCall.body before choices () after) :
    ∃ count egress,
      Polled txCall.pkt key (egressEvents (newEvents before after)) count egress := by
  have completes : lan9250.Completes noFailure txCall.body before fun _ next =>
      ∃ recorded count egress, egressEvents next.history =
        egressEvents before.history ++ recorded ∧ Polled txCall.pkt key recorded count egress := by
    unfold TxCall.body txTimestampCheck
    rw [← TxCall.message, parsed]
    simp only
    rw [Device.completes_bind, completes_mutexLock live_noFailure]
    intro choice _
    have timed := Aside.advance before choice
    rw [Device.completes_bind]
    refine (txTimestampMatch_spec live_noFailure reliable_noFailure txCall.timestampThread
      txCall.pkt key).weaken ?_
    rintro _ next ⟨recorded, count, egress, events, polled⟩
    rw [completes_mutexUnlock live_noFailure]
    exact ⟨recorded, count, egress, by rw [events, timed.events], polled⟩
  obtain ⟨recorded, count, egress, events, polled⟩ := returns.of_completes completes
  have onward : Onward before after :=
    returns.relates Onward Onward.refl Onward.trans fun _ => Onward.answer
  exact ⟨count, egress, egressEvents_newEvents onward events ▸ polled⟩

namespace Polled

variable {event : lan9250.Finished TxCall Unit} {key : MsgKey} {count : Nat}
  {egress : List Capture}
  (polled : Polled event.call.pkt key (egressEvents (newEvents event.before event.after)) count egress)

include polled

/-- The polls made find nothing, and then what is looked at. -/
theorem pollsMade_eq : pollsMade event =
    List.replicate count [] ++ if egress = [] then [] else [egress] := by
  have same : pollsMade event = (egressEvents (newEvents event.before event.after)).filterMap
      fun happened => match happened with
        | .polled queue => some queue
        | _ => none := by
    rw [pollsMade, egressEvents, List.filterMap_filter]
    congr 1
    funext happened
    cases happened <;> simp [Event.egress]
  rw [same, polled.recorded, List.filterMap_append, List.filterMap_append]
  cases egress with
  | nil => simp [foundPoll, egressStamp]
  | cons oldest rest =>
      by_cases own : oldest.key = key
      · simp [foundPoll, egressStamp, own]
      · simp [foundPoll, egressStamp, own]

/-- The first event found at all is the oldest one looked at. -/
theorem flatten_head? {polls : List (List Capture)} (all : AllPolls event polls) :
    polls.flatten.head? = egress.head? := by
  obtain ⟨five, choices, rfl⟩ := all
  rw [polled.pollsMade_eq] at five ⊢
  cases egress with
  | nil =>
      have none : pollsLeft event.after choices = [] := by
        rw [List.length_append, polled.exhausted rfl] at five
        simpa using five
      simp [none]
  | cons oldest rest => simp

/-- A timestamp is attached if the oldest event found is the frame's. -/
theorem attached_iff {capture : Capture} : Attached event capture ↔
    ∃ oldest, egress.head? = some oldest ∧ oldest.key = key ∧ oldest.time = capture.time := by
  have listed : Attached event capture ↔ Event.stamped event.call.pkt capture.time ∈
      egressEvents (newEvents event.before event.after) := by
    rw [Attached, egressEvents, List.mem_filter]
    exact (and_iff_left rfl).symm
  rw [listed, polled.recorded]
  cases egress with
  | nil => simp [foundPoll, egressStamp]
  | cons oldest rest =>
      by_cases own : oldest.key = key
      · simp [foundPoll, egressStamp, own, eq_comm]
      · simp [foundPoll, egressStamp, own]

/-- A call has five polls, however the environment goes on. -/
theorem exists_allPolls (environment : List Choice) (long : txTsPollAttempts ≤ environment.length) :
    ∃ left, AllPolls event
      (pollsMade event ++ pollsLeft event.after (environment.take left)) := by
  have few : (pollsMade event).length ≤ txTsPollAttempts := by
    have made := polled.made
    rw [polled.pollsMade_eq]
    cases egress with
    | nil => simpa [foundPoll] using made
    | cons oldest rest => simpa [foundPoll] using made
  refine ⟨txTsPollAttempts - (pollsMade event).length, ?_, _, rfl⟩
  rw [List.length_append, pollsLeft_length, List.length_take]
  omega

end Polled

/-- In every run a frame whose own egress event is queued at one of the five polls of its
check gets that event's timestamp, if and only if no other event is found before it. -/
theorem egress_attached_iff {start finish : World} {calls : List (TxCall × List Choice)}
    {events : List (lan9250.Finished TxCall Unit)}
    (run : txCalls.Run txCalls.unguarded start calls events finish) :
    ∀ event ∈ events, ∀ key, event.call.message = some key →
      ∀ polls, AllPolls event polls → OneEventEach polls →
        ∀ capture : Capture, capture.key = key →
          ((Available polls capture → Attached event capture) ↔
            (Available polls capture → FirstFound polls capture)) := by
  have returned := run.invariant (fun (_ : World) events => ∀ event ∈ events,
    lan9250.Returns noFailure event.call.body event.before event.choices () event.after) (by simp) ?_
  · intro event member key parsed polls all distinct capture own
    obtain ⟨count, egress, polled⟩ := txCall_egress parsed (returned event member)
    have first := polled.flatten_head? all
    refine forall_congr' fun available => ?_
    rw [FirstFound, first, polled.attached_iff]
    constructor
    · rintro ⟨oldest, found, matching, _⟩
      have here : capture ∈ polls.flatten := List.mem_flatten.mpr available
      have ahead : oldest ∈ polls.flatten := List.mem_of_head? (first.trans found)
      rw [found, distinct oldest ahead capture here (matching.trans own.symm)]
    · intro found
      exact ⟨capture, found, own, rfl⟩
  · rintro world earlier choice emitted next kept _ ⟨_, returns, rfl⟩ event member
    rcases List.mem_append.mp member with old | new
    · exact kept event old
    · rw [List.mem_singleton] at new
      subst new
      exact returns

/-! ### A late capture -/

instance (event : lan9250.Finished TxCall Unit) (capture : Capture) :
    Decidable (Attached event capture) := inferInstanceAs (Decidable (_ ∈ _))

instance (polls : List (List Capture)) (capture : Capture) : Decidable (Available polls capture) :=
  inferInstanceAs (Decidable (∃ queue ∈ polls, capture ∈ queue))

instance (polls : List (List Capture)) : Decidable (OneEventEach polls) :=
  inferInstanceAs (Decidable (∀ found ∈ polls.flatten, ∀ other ∈ polls.flatten,
    found.key = other.key → found = other))

instance (polls : List (List Capture)) (capture : Capture) : Decidable (FirstFound polls capture) :=
  inferInstanceAs (Decidable (_ = _))

/-- After some milliseconds events are captured. -/
private def capturing (elapsed : Nat) (events : List Capture) : Choice :=
  { Choice.quiet with elapsed := elapsed, txCaptures := events }

/-- The egress event of the Sync message with this sequence number. -/
def syncEvent (seqId : BitVec 16) : Capture := ⟨seqId.setWidth 32, seqId.setWidth 32, 0⟩

/-- The check of a Sync message, with what is captured before each of its requests. -/
private def syncCheck (seqId : BitVec 16) (environment : List Choice) : TxCall × List Choice :=
  (⟨false, seqId.toNat, rawFrame ⟨0, seqId⟩, 46⟩, environment)

/-- The polls of a call, if so much is captured by the first of those it has left. -/
private def pollsUntil (event : lan9250.Finished TxCall Unit) (events : List Capture) :
    List (List Capture) :=
  pollsMade event ++ pollsLeft event.after
    ((capturing 0 events :: List.replicate txTsPollAttempts .quiet).take
      (txTsPollAttempts - (pollsMade event).length))

/-- The event of Sync 5 is captured after the last poll of its check. Each later one is
captured by the second of the five polls of its own check, and every one is lost. -/
theorem late_capture_misleads : ∃ calls late events finish,
    txCalls.Run txCalls.unguarded .idle calls (late :: events) finish ∧
      (late.call.message = some ⟨0, 5⟩ ∧ AllPolls late (List.replicate txTsPollAttempts [])) ∧
      events.map (·.call.message) = [some ⟨0, 6⟩, some ⟨0, 7⟩, some ⟨0, 8⟩, some ⟨0, 9⟩] ∧
      ∀ event ∈ events, ∃ polls capture, event.call.message = some capture.key ∧
        AllPolls event polls ∧ OneEventEach polls ∧ Available polls capture ∧
        ¬Attached event capture := by
  have played : ((lan9250.playCalls allowsSuccess (fun _ _ => true) TxCall.body .idle
      [syncCheck 5 [], syncCheck 6 [capturing 1 [syncEvent 5]],
        syncCheck 7 [capturing 1 [syncEvent 6]], syncCheck 8 [capturing 1 [syncEvent 7]],
        syncCheck 9 [capturing 1 [syncEvent 8]]]).bind
      fun (events, _) => events.head?.map fun late => decide (late.call.message = some ⟨0, 5⟩ ∧
        pollsMade late = List.replicate txTsPollAttempts [] ∧
        events.tail.map (·.call.message) = [some ⟨0, 6⟩, some ⟨0, 7⟩, some ⟨0, 8⟩, some ⟨0, 9⟩] ∧
        ∀ event ∈ events.tail, ∃ capture ∈ [syncEvent 6, syncEvent 7, syncEvent 8, syncEvent 9],
          event.call.message = some capture.key ∧
          (pollsUntil event [capture]).length = txTsPollAttempts ∧
          OneEventEach (pollsUntil event [capture]) ∧
          Available (pollsUntil event [capture]) capture ∧ ¬Attached event capture)) =
      some true := by
    decide +kernel
  obtain ⟨⟨events, finish⟩, ran, lost⟩ := Option.bind_eq_some_iff.mp played
  obtain ⟨calls, run⟩ := run_of_playSuccess ran
  obtain ⟨late, first, lost⟩ := Option.map_eq_some_iff.mp lost
  obtain ⟨rest, rfl⟩ := List.head?_eq_some_iff.mp first
  obtain ⟨message, empty, messages, lost⟩ := of_decide_eq_true lost
  refine ⟨calls, late, rest, finish, run, ⟨message, by simp, [], by simp [empty, pollsLeft]⟩,
    messages, ?_⟩
  intro event member
  obtain ⟨capture, _, own, five, each, available, missed⟩ := lost event member
  exact ⟨pollsUntil event [capture], capture, own, ⟨five, _, rfl⟩, each, available, missed⟩

/-- A Sync message whose event is captured by its second poll, with nothing queued before,
gets its timestamp. -/
theorem timely_capture_attached : ∃ calls events finish,
    txCalls.Run txCalls.unguarded .idle calls events finish ∧
      ∃ event ∈ events, ∃ polls, AllPolls event polls ∧ polls.head? = some [] ∧
        Available polls (syncEvent 6) ∧ Attached event (syncEvent 6) := by
  have played : ((lan9250.playCalls allowsSuccess (fun _ _ => true) TxCall.body .idle
      [syncCheck 6 [.quiet, .quiet, .quiet, .quiet, capturing 0 [syncEvent 6]]]).map
      fun (events, _) => decide (∃ event ∈ events, event.call.message = some ⟨0, 6⟩ ∧
        (pollsUntil event []).length = txTsPollAttempts ∧ OneEventEach (pollsUntil event []) ∧
        (pollsUntil event []).head? = some [] ∧ Available (pollsUntil event []) (syncEvent 6) ∧
        FirstFound (pollsUntil event []) (syncEvent 6))) = some true := by
    decide +kernel
  obtain ⟨⟨events, finish⟩, ran, timely⟩ := Option.map_eq_some_iff.mp played
  obtain ⟨calls, run⟩ := run_of_playSuccess ran
  obtain ⟨event, member, message, five, each, empty, available, first⟩ := of_decide_eq_true timely
  have all : AllPolls event (pollsUntil event []) := ⟨five, _, rfl⟩
  have exact := egress_attached_iff run event member ⟨0, 6⟩ message (pollsUntil event []) all each
    (syncEvent 6) (by decide)
  exact ⟨calls, events, finish, run, event, member, pollsUntil event [], all, empty, available,
    exact.mpr (fun _ => first) available⟩

end Rp2350Stepper.Lan9250
