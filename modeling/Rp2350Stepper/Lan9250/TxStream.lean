import Rp2350Stepper.Lan9250.Transmit

/-!
# What `lan9250_tx` leaves behind

A call which returns 0 has written one record and given the semaphore back, so the chip
reads the packets of successful calls one by one. A call which fails leaves everything as it
was exactly when its first transaction fails, before the semaphore is taken.
-/

namespace Rp2350Stepper.Lan9250

open Rp2350Stepper.Data Rp2350Stepper.Semantics

variable {timestampThread : Bool} {pkt : NetPkt} {before after : TxWorld}
  {choices : List TxChoice}

/-! ### One call -/

section Requests

variable {α : Type} {value : α}

/-- Code which changes nothing leaves the world. -/
theorem unchanged_of_only {program : Program txInterface α} (only : program.Only TxRequest.aside)
    (returns : txDevice.Returns txDevice.unguarded program before choices value after) :
    after = before :=
  returns.relates_only (fun world next => next = world) only (fun _ => rfl)
    (fun first second => second.trans first) (fun aside _ answered => answer_of_aside aside answered)

/-- Code of the sending leaves the semaphore. -/
theorem txRxSem_of_only {program : Program txInterface α} (only : program.Only TxRequest.sending)
    (returns : txDevice.Returns txDevice.unguarded program before choices value after) :
    after.txRxSem = before.txRxSem :=
  returns.relates_only (fun world next : TxWorld => next.txRxSem = world.txRxSem) only (fun _ => rfl)
    (fun first second => second.trans first)
    (fun sending _ answered => answer_of_sending sending answered)

end Requests

/-- A write which succeeds writes all its bytes. -/
theorem write_ok {world : TxWorld} {bytes : List Byte} {transfer : Transfer}
    (written : world.write bytes transfer = (.ok (), after)) :
    after = { world with stream := world.stream ++ bytes } := by
  cases transfer with
  | complete => exact (Prod.mk.inj written).2.symm
  | broken => cases (Prod.mk.inj written).1

/-- A word is written. -/
theorem stream_of_writeSysReg {word : Word} {value : Unit}
    (returns : txDevice.Returns txDevice.unguarded
      (fromDriver (writeSysReg txDataFifo word).run) before choices (.ok value) after) :
    after = { before with stream := before.stream ++ putLe32 word } := by
  obtain ⟨choice, _, _, answered⟩ := Device.Returns.of_ask returns
  simp only [txAnswer, if_true, Option.some.injEq] at answered
  exact write_ok answered

/-- What has been copied to the buffer is read from it, with what lies behind. -/
theorem bytes_copy {world : TxWorld} {data : List Byte} (beyond : Nat → Byte) {len : Nat}
    (fits : data.length ≤ netEthMaxFrameSize) (within : data.length ≤ len) :
    ∃ rounding, data.length + rounding.length = len ∧
      (world.copy data).bytes beyond len = data ++ rounding := by
  have length : ((world.copy data).bytes beyond len).length = len := by simp [TxWorld.bytes]
  refine ⟨((world.copy data).bytes beyond len).drop data.length, ?_, ?_⟩
  · rw [List.length_drop, length]
    omega
  · have copied : ((world.copy data).bytes beyond len).take data.length = data := by
      apply List.ext_getElem (by rw [List.length_take, length]; omega)
      intro index inside inside'
      have buffered : index < netEthMaxFrameSize := by omega
      simp [TxWorld.bytes, TxWorld.copy, buffered, inside']
    exact (congrArg (· ++ _) copied).symm.trans (List.take_append_drop _ _) |>.symm

/-- The packet has been copied to the buffer. -/
theorem copied_of_pktRead {len : Nat}
    (returns : txDevice.Returns txDevice.unguarded
      (liftM (txCall (.pktRead pkt len)) : TxDriver Bool).run before choices (.ok false) after) :
    after = before.copy (pkt.data.take len) := by
  obtain ⟨failed, same, returns⟩ := returns.of_run_lift
  obtain ⟨choice, _, _, answered⟩ := Device.Returns.of_ask returns
  simp only [txAnswer] at answered
  split at answered
  · exact (Prod.mk.inj (Option.some.inj answered)).2.symm
  · obtain rfl := Except.ok.inj same
    cases (Prod.mk.inj (Option.some.inj answered)).1

/-- So many bytes of the buffer are written. -/
theorem stream_of_writeBuf {len : Nat} {value : Unit}
    (returns : txDevice.Returns txDevice.unguarded (writeBuf len).run before choices (.ok value) after) :
    ∃ beyond, after =
      { before with stream := before.stream ++ before.bytes beyond (len % 2 ^ 16) } := by
  obtain ⟨choice, _, _, answered⟩ := Device.Returns.of_ask returns
  exact ⟨choice.beyond, write_ok (Option.some.inj answered)⟩

/-- Between taking and giving back the semaphore, one record is written. -/
theorem stream_of_sendPacket {statusSize : BitVec 8} {value : Unit}
    (fits : pkt.data.length ≤ netEthMaxFrameSize)
    (returns : txDevice.Returns txDevice.unguarded
      (sendPacket timestampThread pkt statusSize).run before choices (.ok value) after) :
    ∃ rounding, pkt.data.length + rounding.length = align pkt.data.length ∧
      after.stream = before.stream ++ txRecordBytes pkt.data rounding := by
  obtain ⟨_, _, afterA, _, _, commandA, returns⟩ := returns.of_run_bind_ok
  obtain ⟨_, _, afterB, _, _, commandB, returns⟩ := returns.of_run_bind_ok
  obtain ⟨_, failed, copied, _, _, reading, returns⟩ := returns.of_run_bind_ok
  cases failed with
  | true => cases returns
  | false =>
      simp only [Bool.false_eq_true, if_false] at returns
      obtain ⟨_, _, written, _, _, writing, returns⟩ := returns.of_run_bind_ok
      obtain ⟨_, _, discarded, _, _, discarding, returns⟩ := returns.of_run_bind_ok
      obtain ⟨_, frame, loaded, _, _, loading, returns⟩ := returns.of_run_bind_ok
      obtain ⟨_, _, checking⟩ := returns.of_run_lift
      obtain rfl := stream_of_writeSysReg commandA
      obtain rfl := stream_of_writeSysReg commandB
      obtain rfl := copied_of_pktRead reading
      obtain ⟨beyond, rfl⟩ := stream_of_writeBuf writing
      obtain rfl := unchanged_of_only (discardTxStatus_only _) discarding
      have loads : (txCall (.loadBuf pkt.data.length)).Only TxRequest.aside :=
        Program.only_ask.mpr trivial
      obtain rfl := unchanged_of_only loads.run_lift loading
      obtain rfl := unchanged_of_only
        (fromDriver_only (txTimestampCheck_only _ _ _ _) fun _ aside => aside) checking
      rw [List.take_length]
      have whole : align pkt.data.length % 2 ^ 16 = align pkt.data.length := by
        unfold align netEthMaxFrameSize at *
        omega
      obtain ⟨rounding, rounded, bytes⟩ := bytes_copy beyond fits
        (Nat.le_of_lt_succ (by unfold align; omega) : pkt.data.length ≤ align pkt.data.length)
      refine ⟨rounding, rounded, ?_⟩
      rw [whole, bytes, TxWorld.copy_stream]
      simp only [txRecordBytes, List.append_assoc]

/-- Between taking and giving back the semaphore, its count stays. -/
theorem txRxSem_of_sendPacket {statusSize : BitVec 8} {result : Except Errno Unit}
    (returns : txDevice.Returns txDevice.unguarded
      (sendPacket timestampThread pkt statusSize).run before choices result after) :
    after.txRxSem = before.txRxSem :=
  txRxSem_of_only (sendPacket_only timestampThread pkt statusSize) returns

/-! ### The semaphore -/

/-- `k_sem_take` takes a unit. -/
theorem taken_of_semTake {result : Except Errno Unit}
    (returns : txDevice.Returns txDevice.unguarded
      (liftM (txCall .semTake) : TxDriver Unit).run before choices result after) :
    result = .ok () ∧ 0 < before.txRxSem ∧
      after = { before with txRxSem := before.txRxSem - 1 } := by
  obtain ⟨_, rfl, asked⟩ := returns.of_run_lift
  obtain ⟨choice, _, _, answered⟩ := Device.Returns.of_ask asked
  simp only [txAnswer] at answered
  split at answered
  · cases answered
  · rename_i positive
    exact ⟨rfl, by omega, (Prod.mk.inj (Option.some.inj answered)).2.symm⟩

/-- `k_sem_give` gives one. -/
theorem given_of_semGive {result : Except Errno Unit}
    (returns : txDevice.Returns txDevice.unguarded
      (liftM (fromDriver (call .semGive)) : TxDriver Unit).run before choices result after) :
    result = .ok () ∧ after = { before with txRxSem := before.txRxSem + 1 } := by
  obtain ⟨_, rfl, asked⟩ := returns.of_run_lift
  obtain ⟨choice, _, _, answered⟩ := Device.Returns.of_ask asked
  exact ⟨rfl, (Prod.mk.inj (Option.some.inj answered)).2.symm⟩

/-- The first transaction changes nothing, and its outcome is what it returns. -/
theorem unchanged_of_readSysReg {address : Address} {result : Except Errno Word}
    (returns : txDevice.Returns txDevice.unguarded (fromDriver (readSysReg address).run) before
      choices result after) :
    after = before ∧ ∃ choice, choices = [choice] ∧
      result = TxWorld.outcome choice.value choice.transfer := by
  obtain ⟨choice, rfl, _, answered⟩ := Device.Returns.of_ask returns
  obtain ⟨rfl, rfl⟩ := Prod.mk.inj (Option.some.inj answered)
  exact ⟨rfl, choice, rfl, rfl⟩

/-- A call returns 0 only past the semaphore, which it gives back. -/
theorem lan9250Tx_ok
    (returns : txDevice.Returns txDevice.unguarded (lan9250Tx timestampThread pkt).run before
      choices (.ok ()) after) :
    0 < before.txRxSem ∧ after.txRxSem = before.txRxSem ∧
      (pkt.data.length ≤ netEthMaxFrameSize →
        ∃ rounding, pkt.data.length + rounding.length = align pkt.data.length ∧
          after.stream = before.stream ++ txRecordBytes pkt.data rounding) := by
  obtain ⟨_, _, informed, _, _, informing, onward⟩ := returns.of_run_bind_ok
  obtain ⟨_, _, taken, _, _, taking, further⟩ := onward.of_run_bind_ok
  obtain ⟨_, _, sent, _, _, sending, giving⟩ := further.of_run_bind_ok
  obtain ⟨rfl, _⟩ := unchanged_of_readSysReg informing
  obtain ⟨_, positive, rfl⟩ := taken_of_semTake taking
  obtain ⟨_, rfl⟩ := given_of_semGive giving
  have kept := txRxSem_of_sendPacket sending
  simp only at kept
  refine ⟨positive, by simp only; omega, fun fits => ?_⟩
  obtain ⟨rounding, rounded, stream⟩ := stream_of_sendPacket fits sending
  exact ⟨rounding, rounded, stream⟩

/-- A call which fails has changed nothing if its first transaction fails; otherwise it has
taken the semaphore. -/
theorem lan9250Tx_error {error : Errno}
    (returns : txDevice.Returns txDevice.unguarded (lan9250Tx timestampThread pkt).run before
      choices (.error error) after) :
    ∃ first rest, choices = first :: rest ∧
      ((first.transfer ≠ .complete ∧ after = before) ∨
        (first.transfer = .complete ∧ after.txRxSem + 1 = before.txRxSem)) := by
  obtain ⟨_, _, informed, _, rfl, informing, onward⟩ := returns.of_run_bind
  obtain ⟨rfl, first, rfl, outcome⟩ := unchanged_of_readSysReg informing
  refine ⟨first, _, rfl, ?_⟩
  rcases onward with ⟨regval, rfl, onward⟩ | ⟨_, rfl, _, rfl⟩
  · have complete : first.transfer = .complete := by
      cases transfer : first.transfer with
      | complete => rfl
      | broken =>
          rw [transfer] at outcome
          cases outcome
    refine .inr ⟨complete, ?_⟩
    obtain ⟨_, _, taken, _, rfl, taking, further⟩ := onward.of_run_bind
    obtain ⟨rfl, positive, rfl⟩ := taken_of_semTake taking
    rcases further with ⟨_, _, further⟩ | ⟨_, failed, _⟩
    · obtain ⟨_, _, sent, _, rfl, sending, last⟩ := further.of_run_bind
      have kept := txRxSem_of_sendPacket sending
      rcases last with ⟨_, rfl, giving⟩ | ⟨_, rfl, _, rfl⟩
      · cases (given_of_semGive giving).1
      · simp only at kept
        omega
    · cases failed
  · refine .inl ⟨?_, rfl⟩
    intro complete
    rw [complete] at outcome
    cases outcome

/-! ### Runs -/

/-- Calls of `lan9250_tx`, one after the other. -/
abbrev sendCalls (timestampThread : Bool) : System (txDevice.Finished NetPkt (Except Errno Unit)) :=
  txDevice.calls txDevice.unguarded (fun _ => True) fun pkt => (lan9250Tx timestampThread pkt).run

/-- A packet the stack sends. -/
def NetPkt.Sendable (pkt : NetPkt) : Prop :=
  1 ≤ pkt.data.length ∧ pkt.data.length ≤ netEthMaxFrameSize

instance (pkt : NetPkt) : Decidable pkt.Sendable := inferInstanceAs (Decidable (_ ∧ _))

/-- The packets of successful calls are what the chip reads from the bytes they have written,
each with its length and the driver's flags in both command words. -/
theorem transmitted_packets_read {start finish : TxWorld}
    {calls : List (NetPkt × List TxChoice)}
    {events : List (txDevice.Finished NetPkt (Except Errno Unit))}
    (run : (sendCalls timestampThread).Run (fun _ call => call.1.Sendable) start calls events finish)
    (succeeded : ∀ event ∈ events, event.result = .ok ()) :
    ∃ written records, finish.stream = start.stream ++ written ∧
      decode readTxRecord? written = some records ∧
      records.map (·.frame) = calls.map (·.1.data) ∧ ∀ record ∈ records, record.FlagsKept := by
  have framed : ∃ chunks, finish.stream = start.stream ++ chunks.flatten ∧
      List.Forall₂ (Framed readTxRecord?) chunks (calls.map fun call => txRecord call.1.data) ∧
      ∀ call ∈ calls, call.1.Sendable := by
    refine run.along (fun (calls : List (NetPkt × List TxChoice)) events (world : TxWorld) =>
      (∀ event ∈ events, event.result = .ok ()) →
      ∃ chunks, world.stream = start.stream ++ chunks.flatten ∧
        List.Forall₂ (Framed readTxRecord?) chunks (calls.map fun call => txRecord call.1.data) ∧
        ∀ call ∈ calls, call.1.Sendable) ?_ ?_ succeeded
    · exact fun _ => ⟨[], by simp, .nil, by simp⟩
    · intro calls events call emitted world next inductionHypothesis sendable step succeeded
      obtain ⟨result, returns, rfl⟩ := step
      obtain ⟨chunks, stream, framed, earlier⟩ :=
        inductionHypothesis fun event member => succeeded event (List.mem_append_left _ member)
      obtain rfl : result = .ok () := succeeded _ (List.mem_append_right _ (List.mem_singleton_self _))
      obtain ⟨rounding, rounded, written⟩ := (lan9250Tx_ok returns).2.2 sendable.2
      have short : call.1.data.length < 2 ^ 11 := Nat.lt_of_le_of_lt sendable.2 (by decide)
      refine ⟨chunks ++ [txRecordBytes call.1.data rounding], ?_, ?_, ?_⟩
      · rw [written, stream, List.flatten_append, List.append_assoc]
        simp
      · rw [List.map_append]
        exact List.rel_append framed (.cons (framed_txRecordBytes short rounded) .nil)
      · intro other member
        rcases List.mem_append.mp member with member | last
        · exact earlier other member
        · exact List.mem_singleton.mp last ▸ sendable
  obtain ⟨chunks, stream, framed, sendable⟩ := framed
  refine ⟨chunks.flatten, _, stream, decode_flatten framed, by simp [txRecord], ?_⟩
  intro record member
  obtain ⟨call, called, rfl⟩ := List.mem_map.mp member
  exact txRecord_flagsKept (Nat.lt_of_le_of_lt (sendable call called).2 (by decide))

private def packet (data : List Byte) : NetPkt := ⟨0, [data]⟩

/-- The semaphore can be taken so many times, and nothing has been written. -/
private def free (count : Nat) : TxWorld := ⟨count, fun _ => 0xAA, []⟩

/-- The first packet is rounded up by 3 bytes of the buffer, the second by none. -/
theorem two_packets_read : ∃ calls events finish written records,
    (sendCalls false).Run (fun _ call => call.1.Sendable) (free 1) calls events finish ∧
    calls.map (·.1.data) = [[1], [2, 3, 4, 5]] ∧ finish.stream = (free 1).stream ++ written ∧
    decode readTxRecord? written = some records ∧
    records.map (·.frame) = [[1], [2, 3, 4, 5]] ∧ ∀ record ∈ records, record.FlagsKept := by
  have played : (txDevice.playCalls (fun _ _ _ => true) (fun _ pkt => decide pkt.Sendable)
      (fun pkt => (lan9250Tx false pkt).run) (free 1)
      [(packet [1], []), (packet [2, 3, 4, 5], [])]).map (fun ended =>
        (ended.1.all (·.result.isOk), ended.1.map (·.call.data))) =
          some (true, [[1], [2, 3, 4, 5]]) := by
    decide +kernel
  obtain ⟨⟨events, finish⟩, ran, facts⟩ := Option.map_eq_some_iff.mp played
  obtain ⟨succeeded, packets⟩ := Prod.mk.inj facts
  have run : (sendCalls false).Run (fun _ call => call.1.Sendable) _ _ events finish :=
    Device.calls_weaken (Device.run_of_playCalls (fun _ => True) ran) (fun _ _ _ _ => trivial)
      fun _ _ sendable => of_decide_eq_true sendable
  have sent : (events.map fun event => (event.call, event.choices)).map (·.1.data) =
      [[1], [2, 3, 4, 5]] := by
    rw [← packets, List.map_map]
    rfl
  have results : ∀ event ∈ events, event.result = .ok () := by
    intro event member
    have ok := List.all_eq_true.mp succeeded event member
    cases result : event.result with
    | ok => rfl
    | error => simp [result, Except.isOk, Except.toBool] at ok
  obtain ⟨written, records, stream, decoded, frames, kept⟩ := transmitted_packets_read run results
  exact ⟨_, events, finish, written, records, run, sent, stream, decoded, sent ▸ frames, kept⟩

/-! ### Failed calls -/

/-- A failed call has left the count of the semaphore as it was, and written nothing or one
record. -/
structure Restored (pkt : NetPkt) (before after : TxWorld) : Prop where
  txRxSem : after.txRxSem = before.txRxSem
  stream : after.stream = before.stream ∨
    ∃ rounding, pkt.data.length + rounding.length = align pkt.data.length ∧
      after.stream = before.stream ++ txRecordBytes pkt.data rounding

/-- A failed call restores everything if and only if its first transaction has failed. -/
theorem failed_tx_restores_iff {error : Errno}
    (returns : txDevice.Returns txDevice.unguarded (lan9250Tx timestampThread pkt).run before
      choices (.error error) after) :
    Restored pkt before after ↔ ∃ first ∈ choices.head?, first.transfer ≠ .complete := by
  obtain ⟨first, rest, rfl, ⟨broken, rfl⟩ | ⟨complete, taken⟩⟩ := lan9250Tx_error returns
  · exact ⟨fun _ => ⟨first, rfl, broken⟩, fun _ => ⟨rfl, .inl rfl⟩⟩
  · constructor
    · intro restored
      have kept := restored.txRxSem
      omega
    · rintro ⟨_, same, broken⟩
      obtain rfl := Option.some.inj same
      exact absurd complete broken

/-- Once the count is 0, no call returns 0. -/
theorem lan9250Tx_blocked (none : before.txRxSem = 0) :
    ¬txDevice.Returns txDevice.unguarded (lan9250Tx timestampThread pkt).run before choices (.ok ())
      after := by
  intro returns
  have positive := (lan9250Tx_ok returns).1
  omega

/-- An SPI transaction which fails at once. -/
private def brokenTransfer : TxChoice := { (default : TxChoice) with transfer := .broken 0 (.spi 5) }

/-- A call whose command A fails has written nothing but keeps the semaphore, so no later
call returns 0; and where the count is 2 a call whose packet cannot be read has written its
commands only, and those of the next call are read as its data. -/
theorem failed_tx_keeps_semaphore :
    (∃ choices error after, txDevice.Returns txDevice.unguarded (lan9250Tx false (packet [1])).run
        (free 1) choices (.error error) after ∧ ¬Restored (packet [1]) (free 1) after ∧
      ∀ pkt choices later, ¬txDevice.Returns txDevice.unguarded (lan9250Tx false pkt).run after
        choices (.ok ()) later) ∧
    ∃ choices error after, txDevice.Returns txDevice.unguarded
        (lan9250Tx false (packet (List.replicate 8 1))).run (free 2) choices (.error error) after ∧
      ¬Restored (packet (List.replicate 8 1)) (free 2) after ∧
      ∃ choices later, txDevice.Returns txDevice.unguarded (lan9250Tx false (packet [2, 3, 4, 5])).run
          after choices (.ok ()) later ∧
        (readTxRecord? later.stream).map (·.1.frame) = some (putLe32 (txCmdA 4) ++ putLe32 (txCmdB 4)) := by
  constructor
  · have played : (txDevice.play (fun _ _ _ => true) (lan9250Tx false (packet [1])).run (free 1)
        [default, default, brokenTransfer]).map (fun ended =>
          (ended.2.1.isOk, ended.2.2.txRxSem)) = some (false, 0) := by
      decide +kernel
    obtain ⟨⟨choices, result, after⟩, ran, facts⟩ := Option.map_eq_some_iff.mp played
    obtain ⟨failed, count⟩ := Prod.mk.inj facts
    cases result with
    | ok => cases failed
    | error error =>
        refine ⟨choices, error, after, (Device.Returns.of_play ran).weaken fun _ _ _ _ => trivial, ?_,
          fun _ _ _ => lan9250Tx_blocked count⟩
        intro restored
        exact absurd (count.symm.trans restored.txRxSem) (by decide)
  · have played : (txDevice.play (fun _ _ _ => true)
        (do let first ← (lan9250Tx false (packet (List.replicate 8 1))).run
            let second ← (lan9250Tx false (packet [2, 3, 4, 5])).run
            pure (first, second)) (free 2)
        (List.replicate 4 default ++ [{ (default : TxChoice) with readFails := some 0 }])).map
          (fun ended => (!ended.2.1.1.isOk && ended.2.1.2.isOk, ended.2.2.txRxSem,
            (readTxRecord? ended.2.2.stream).map (·.1.frame))) =
        some (true, 1, some (putLe32 (txCmdA 4) ++ putLe32 (txCmdB 4))) := by
      decide +kernel
    obtain ⟨⟨choices, results, later⟩, ran, facts⟩ := Option.map_eq_some_iff.mp played
    obtain ⟨ends, facts⟩ := Prod.mk.inj facts
    obtain ⟨count, garbled⟩ := Prod.mk.inj facts
    have returns : txDevice.Returns txDevice.unguarded _ _ _ _ _ :=
      (Device.Returns.of_play ran).weaken fun _ _ _ _ => trivial
    obtain ⟨_, first, after, _, _, failed, onward⟩ := returns.of_bind
    obtain ⟨_, second, _, _, _, succeeded, finished⟩ := onward.of_bind
    cases finished
    cases first with
    | ok => cases ends
    | error error =>
        cases second with
        | error => cases ends
        | ok =>
            refine ⟨_, error, after, failed, ?_, _, _, succeeded, garbled⟩
            intro restored
            have kept := (lan9250Tx_ok succeeded).2.1
            exact absurd ((count.symm.trans kept).trans restored.txRxSem) (by decide)

/-- A call whose first transaction fails restores everything. -/
theorem first_failure_restored : ∃ choices error after,
    txDevice.Returns txDevice.unguarded (lan9250Tx false (packet [1])).run (free 1) choices
      (.error error) after ∧ Restored (packet [1]) (free 1) after := by
  have returns : txDevice.Returns txDevice.unguarded (lan9250Tx false (packet [1])).run (free 1)
      [brokenTransfer] (.error (.spi 5)) (free 1) :=
    .ask trivial rfl .done
  exact ⟨_, _, _, returns, (failed_tx_restores_iff returns).mpr ⟨_, rfl, Transfer.noConfusion⟩⟩

end Rp2350Stepper.Lan9250
