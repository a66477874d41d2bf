import Rp2350Stepper.Lan9250.TxStream

/-!
# Room in the TX data FIFO

What `lan9250_tx` writes to `TX_DATA_FIFO` stays there until the chip has sent it. The
device of this module is that of `Transmit` with the fill level of the FIFO, which the chip
lowers as the environment chooses and which `TX_FIFO_INF` reports. `lan9250_tx` writes its
whole record whatever it has been told.
-/

namespace Rp2350Stepper.Lan9250

open Rp2350Stepper.Semantics

/-! ### The bytes of one call -/

/-- How many bytes a call writes for a packet; `lan9250_write_buf` takes a `uint16_t`. -/
def recordSize (pkt : NetPkt) : Nat := 8 + align pkt.data.length % 2 ^ 16

/-- At most so many bytes have been written, and exactly so many unless there was an error. -/
def Wrote {α : Type} (count : Nat) (before : TxWorld) (result : Except Errno α) (after : TxWorld) :
    Prop :=
  after.stream.length ≤ before.stream.length + count ∧
    ∀ value, result = .ok value → after.stream.length = before.stream.length + count

section Writing

variable {α β : Type} {before : TxWorld}

/-- Sequencing adds the bytes up. -/
theorem wrote_bind {first : TxDriver α} {next : α → TxDriver β} {count more : Nat}
    (firstWrote : txDevice.Ensures txDevice.unguarded first.run before (Wrote count before))
    (nextWrote : ∀ value middle,
      txDevice.Ensures txDevice.unguarded (next value).run middle (Wrote more middle)) :
    txDevice.Ensures txDevice.unguarded (first >>= next).run before (Wrote (count + more) before) := by
  apply Device.Ensures.run_bind
  refine firstWrote.weaken ?_
  rintro result middle ⟨most, exactly⟩
  cases result with
  | error error => exact ⟨by omega, nofun⟩
  | ok value =>
      have written := exactly value rfl
      refine (nextWrote value middle).weaken ?_
      rintro result after ⟨most', exactly'⟩
      refine ⟨by omega, fun value' succeeded => ?_⟩
      have written' := exactly' value' succeeded
      omega

/-- A program which cannot fail and writes nothing. -/
theorem wrote_lift {program : Program txInterface α}
    (nothing : txDevice.Ensures txDevice.unguarded program before fun _ after =>
      after.stream = before.stream) :
    txDevice.Ensures txDevice.unguarded (liftM program : TxDriver α).run before (Wrote 0 before) := by
  apply Device.Ensures.run_lift
  refine nothing.weaken ?_
  rintro value after same
  exact ⟨by rw [same]; omega, fun _ _ => by rw [same]; rfl⟩

/-- Nor does one whose requests leave everything as it is. -/
theorem wrote_aside {program : Program txInterface (Except Errno α)}
    (only : program.Only TxRequest.aside) :
    txDevice.Ensures txDevice.unguarded program before (Wrote 0 before) := by
  intro choices result after returns
  rw [unchanged_of_only only returns]
  exact ⟨Nat.le_refl _, fun _ _ => rfl⟩

/-- A write of bytes writes all of them on success. -/
theorem wrote_write (world : TxWorld) (bytes : List Byte) (transfer : Transfer) :
    Wrote bytes.length world (world.write bytes transfer).1 (world.write bytes transfer).2 := by
  cases transfer with
  | complete => exact ⟨by simp [TxWorld.write], fun _ _ => by simp [TxWorld.write]⟩
  | broken transferred error =>
      refine ⟨?_, nofun⟩
      simp only [TxWorld.write, List.length_append, List.length_take]
      omega

/-- A word is four bytes. -/
theorem wrote_writeSysReg (word : Word) :
    txDevice.Ensures txDevice.unguarded (ExceptT.mk (fromDriver (writeSysReg txDataFifo word).run)).run
      before (Wrote 4 before) := by
  apply Device.Ensures.ask
  intro choice response after _ answered
  simp only [txAnswer, if_true, Option.some.injEq] at answered
  have written := wrote_write before (putLe32 word) choice.transfer
  rwa [answered] at written

/-- The buffer's bytes, of a length of 16 bits. -/
theorem wrote_writeBuf (len : Nat) :
    txDevice.Ensures txDevice.unguarded (writeBuf len).run before (Wrote (len % 2 ^ 16) before) := by
  apply Device.Ensures.ask
  intro choice response after _ answered
  have written := wrote_write before (before.bytes choice.beyond (len % 2 ^ 16)) choice.transfer
  rw [Option.some.inj answered] at written
  simpa [TxWorld.bytes] using written

/-- Reading the packet writes nothing. -/
theorem wrote_pktRead (pkt : NetPkt) (len : Nat) :
    txDevice.Ensures txDevice.unguarded (liftM (txCall (.pktRead pkt len)) : TxDriver Bool).run before
      (Wrote 0 before) := by
  apply wrote_lift
  apply Device.Ensures.ask
  intro choice response after _ answered
  simp only [txAnswer] at answered
  split at answered <;> rw [← (Prod.mk.inj (Option.some.inj answered)).2, TxWorld.copy_stream]

theorem wrote_semTake :
    txDevice.Ensures txDevice.unguarded (liftM (txCall .semTake) : TxDriver Unit).run before
      (Wrote 0 before) := by
  apply wrote_lift
  apply Device.Ensures.ask
  intro choice response after _ answered
  simp only [txAnswer] at answered
  split at answered
  · cases answered
  · rw [← (Prod.mk.inj (Option.some.inj answered)).2]

theorem wrote_semGive :
    txDevice.Ensures txDevice.unguarded (liftM (fromDriver (call .semGive)) : TxDriver Unit).run before
      (Wrote 0 before) := by
  apply wrote_lift
  apply Device.Ensures.ask
  intro choice response after _ answered
  rw [← (Prod.mk.inj (Option.some.inj answered)).2]

/-- Between taking and giving back the semaphore, one record is written at most. -/
theorem wrote_sendPacket (timestampThread : Bool) (pkt : NetPkt) (statusSize : BitVec 8)
    (before : TxWorld) :
    txDevice.Ensures txDevice.unguarded (sendPacket timestampThread pkt statusSize).run before
      (Wrote (recordSize pkt) before) := by
  have parts : recordSize pkt = 4 + (4 + (0 + (align pkt.data.length % 2 ^ 16 + (0 + (0 + 0))))) := by
    unfold recordSize
    omega
  rw [parts]
  apply wrote_bind (wrote_writeSysReg _)
  intro _ _
  apply wrote_bind (wrote_writeSysReg _)
  intro _ _
  apply wrote_bind (wrote_pktRead _ _)
  intro failed middle
  cases failed with
  | true =>
      apply Device.Ensures.pure
      exact ⟨by omega, nofun⟩
  | false =>
      simp only [Bool.false_eq_true, if_false]
      apply wrote_bind (wrote_writeBuf _)
      intro _ _
      apply wrote_bind (wrote_aside (discardTxStatus_only _))
      intro _ _
      have loads : (txCall (.loadBuf pkt.data.length)).Only TxRequest.aside :=
        Program.only_ask.mpr trivial
      apply wrote_bind (wrote_aside loads.run_lift)
      intro frame _
      have checks : (fromDriver (txTimestampCheck timestampThread pkt.id frame
          pkt.data.length)).Only TxRequest.aside :=
        fromDriver_only (txTimestampCheck_only _ _ _ _) fun _ aside => aside
      exact wrote_aside checks.run_lift

/-- A call writes one record at most, and exactly one when it returns 0. -/
theorem wrote_lan9250Tx (timestampThread : Bool) (pkt : NetPkt) (before : TxWorld) :
    txDevice.Ensures txDevice.unguarded (lan9250Tx timestampThread pkt).run before
      (Wrote (recordSize pkt) before) := by
  have parts : recordSize pkt = 0 + (0 + (recordSize pkt + 0)) := by omega
  rw [parts]
  have informs : (fromDriver (readSysReg txFifoInf).run).Only TxRequest.aside :=
    Program.only_ask.mpr trivial
  apply wrote_bind (wrote_aside informs)
  intro _ _
  apply wrote_bind wrote_semTake
  intro _ _
  exact wrote_bind (wrote_sendPacket _ _ _ _) fun _ _ => wrote_semGive

end Writing

/-! ### The FIFO -/

/-- The size of the TX data FIFO in the mode `lan9250_configure` selects. -/
def txDataFifoSize : Nat := 7680

/-- What `lan9250_tx` uses, and the TX data FIFO. -/
structure FifoWorld where
  driver : TxWorld
  /-- How many bytes the FIFO holds. -/
  used : Nat
  /-- Whether it has been written to beyond its size. -/
  overrun : Bool

/-- How a request is answered, and what the chip has sent before it. -/
structure FifoChoice where
  driver : TxChoice
  /-- How many bytes the chip has sent before the request, if it holds them. -/
  drained : Nat

instance : Inhabited FifoChoice := ⟨⟨default, 0⟩⟩

namespace FifoWorld

/-- The chip has sent some bytes. -/
def drain (world : FifoWorld) (count : Nat) : FifoWorld := { world with used := world.used - count }

/-- `TX_FIFO_INF`, with these bits beside the free space. -/
def txFifoInf (world : FifoWorld) (bits : Word) : Word :=
  bits &&& ~~~txFifoInfTxfree ||| BitVec.ofNat 32 (txDataFifoSize - world.used)

/-- What a read shows. -/
def shows (world : FifoWorld) (value : Word) : TxRequest → Word
  | .driver (.readSysReg address) =>
      if address = Lan9250.txFifoInf then world.txFifoInf value else value
  | _ => value

/-- Take what the driver has written into the FIFO. -/
def fill (world : FifoWorld) (driver : TxWorld) : FifoWorld :=
  let used := world.used + (driver.stream.length - world.driver.stream.length)
  ⟨driver, used, world.overrun || decide (txDataFifoSize < used)⟩

end FifoWorld

/-- How the world with the FIFO answers. -/
def fifoAnswer (world : FifoWorld) (request : TxRequest) (choice : FifoChoice) :
    Option (TxResponse request × FifoWorld) :=
  let current := world.drain choice.drained
  (txAnswer current.driver request
    { choice.driver with value := current.shows choice.driver.value request }).map
      fun (response, driver) => (response, current.fill driver)

/-- The device of `lan9250_tx` with the FIFO. -/
abbrev fifoDevice : Device txInterface := ⟨FifoWorld, FifoChoice, fifoAnswer⟩

/-- `free_size`, as a call with these choices reads it: the environment moves before the
register is read. -/
def freeSize (before : FifoWorld) : List FifoChoice → Nat
  | [] => 0
  | first :: _ =>
      ((before.drain first.drained).txFifoInf first.driver.value &&& txFifoInfTxfree).toNat

/-- The room is what the chip has when `TX_FIFO_INF` is read. -/
theorem freeSize_eq (before : FifoWorld) (first : FifoChoice) (rest : List FifoChoice) :
    freeSize before (first :: rest) = txDataFifoSize - (before.used - first.drained) := by
  have apart : (~~~txFifoInfTxfree &&& txFifoInfTxfree) = 0 := by decide
  have low (free : Nat) (short : free < 2 ^ 16) :
      BitVec.ofNat 32 free &&& txFifoInfTxfree = BitVec.ofNat 32 free := by
    apply BitVec.eq_of_toNat_eq
    have mask : txFifoInfTxfree.toNat = 2 ^ 16 - 1 := rfl
    rw [BitVec.toNat_and, mask, Nat.and_two_pow_sub_one_eq_mod, BitVec.toNat_ofNat]
    omega
  have short : txDataFifoSize - (before.used - first.drained) < 2 ^ 16 := by
    unfold txDataFifoSize
    omega
  rw [freeSize, FifoWorld.txFifoInf, FifoWorld.drain, BitVec.and_or_distrib_right, BitVec.and_assoc,
    apart, low _ short]
  simp
  omega

/-! ### Its fill level -/

/-- From one world to another the driver has written some bytes; the chip may have sent any. -/
def Filled (before after : FifoWorld) : Prop :=
  ∃ count, after.driver.stream.length = before.driver.stream.length + count ∧
    after.used ≤ before.used + count ∧
    (after.overrun = true → before.overrun = true ∨ txDataFifoSize < before.used + count)

theorem Filled.refl (world : FifoWorld) : Filled world world :=
  ⟨0, rfl, Nat.le_refl _, .inl⟩

theorem Filled.trans {first second third : FifoWorld} (before : Filled first second)
    (after : Filled second third) : Filled first third := by
  obtain ⟨count, written, level, spilled⟩ := before
  obtain ⟨more, written', level', spilled'⟩ := after
  refine ⟨count + more, by omega, by omega, fun overrun => ?_⟩
  rcases spilled' overrun with earlier | late
  · exact (spilled earlier).imp_right fun late => by omega
  · exact .inr (by omega)

/-- Answers only add to what has been written. -/
theorem stream_of_answer {world after : TxWorld} {request : TxRequest} {choice : TxChoice}
    {response : TxResponse request} (answered : txAnswer world request choice = some (response, after)) :
    world.stream.length ≤ after.stream.length := by
  have writes (bytes : List Byte) (transfer : Transfer) :
      world.stream.length ≤ (world.write bytes transfer).2.stream.length := by
    cases transfer <;> simp [TxWorld.write]
  cases request with
  | driver request =>
      cases request with
      | writeSysReg address value =>
          simp only [txAnswer, Option.some.injEq] at answered
          split at answered
          · have written := writes (putLe32 value) choice.transfer
            rwa [answered] at written
          · rw [← (Prod.mk.inj answered).2]
      | readSysReg | sleep | mutexLock | mutexUnlock | setTimestamp | addTxTimestamp | log
      | semGive =>
          rw [← (Prod.mk.inj (Option.some.inj answered)).2]
      | _ => cases answered
  | semTake =>
      simp only [txAnswer] at answered
      split at answered
      · cases answered
      · rw [← (Prod.mk.inj (Option.some.inj answered)).2]
  | pktRead pkt len =>
      simp only [txAnswer] at answered
      split at answered <;>
        rw [← (Prod.mk.inj (Option.some.inj answered)).2, TxWorld.copy_stream]
  | writeBuf len =>
      have written := writes (world.bytes choice.beyond len) choice.transfer
      rwa [Option.some.inj answered] at written
  | loadBuf len => rw [← (Prod.mk.inj (Option.some.inj answered)).2]

/-- A request fills the FIFO with what it writes. -/
theorem filled_of_answer {world after : FifoWorld} {request : TxRequest} {choice : FifoChoice}
    {response : TxResponse request} (answered : fifoAnswer world request choice = some (response, after)) :
    Filled (world.drain choice.drained) after := by
  obtain ⟨⟨_, driver⟩, inner, same⟩ := Option.map_eq_some_iff.mp answered
  obtain ⟨rfl, rfl⟩ := Prod.mk.inj same
  have grows := stream_of_answer inner
  refine ⟨driver.stream.length - world.driver.stream.length, ?_, Nat.le_refl _, ?_⟩
  · simp only [FifoWorld.fill, FifoWorld.drain] at grows ⊢
    omega
  · simp only [FifoWorld.fill, Bool.or_eq_true, decide_eq_true_eq]
    exact id

/-- What the chip sends leaves the FIFO. -/
theorem filled_drain (world : FifoWorld) (count : Nat) : Filled world (world.drain count) :=
  ⟨0, rfl, Nat.sub_le _ _, .inl⟩

section Calls

variable {timestampThread : Bool} {pkt : NetPkt} {before after : FifoWorld}
  {choices : List FifoChoice} {result : Except Errno Unit}

/-- A call first reads `TX_FIFO_INF`; what it then does starts at that fill level. -/
theorem filled_of_lan9250Tx
    (returns : fifoDevice.Returns fifoDevice.unguarded (lan9250Tx timestampThread pkt).run before
      choices result after) :
    ∃ first rest, choices = first :: rest ∧ Filled (before.drain first.drained) after := by
  obtain ⟨_, _, middle, rest, rfl, informing, onward⟩ := returns.of_run_bind
  obtain ⟨first, rfl, _, answered⟩ := Device.Returns.of_ask informing
  have informed : Filled (before.drain first.drained) middle :=
    @filled_of_answer before middle (.driver (.readSysReg txFifoInf)) first _ answered
  refine ⟨first, rest, rfl, informed.trans ?_⟩
  rcases onward with ⟨_, _, onward⟩ | ⟨_, _, _, rfl⟩
  · exact onward.relates Filled .refl .trans fun _ answered =>
      (filled_drain _ _).trans (filled_of_answer answered)
  · exact .refl _

/-- A call writes one record at most, and exactly one when it returns 0. -/
theorem wrote_of_returns
    (returns : fifoDevice.Returns fifoDevice.unguarded (lan9250Tx timestampThread pkt).run before
      choices result after) : Wrote (recordSize pkt) before.driver result after.driver := by
  obtain ⟨choices', seen⟩ := returns.simulate txDevice FifoWorld.driver fun _ answered => by
    obtain ⟨⟨_, driver⟩, inner, same⟩ := Option.map_eq_some_iff.mp answered
    obtain ⟨rfl, rfl⟩ := Prod.mk.inj same
    exact ⟨_, inner⟩
  exact wrote_lan9250Tx timestampThread pkt before.driver choices' result after.driver seen

end Calls

/-! ### Runs -/

/-- Calls of `lan9250_tx`, one after the other, while the chip sends what it holds. -/
abbrev fifoCalls (timestampThread : Bool) :
    System (fifoDevice.Finished NetPkt (Except Errno Unit)) :=
  fifoDevice.calls fifoDevice.unguarded (fun world => world.overrun = false)
    fun pkt => (lan9250Tx timestampThread pkt).run

/-- A call has written no more than the room it has been told of. -/
def WithinFree (event : fifoDevice.Finished NetPkt (Except Errno Unit)) : Prop :=
  event.after.driver.stream.length - event.before.driver.stream.length ≤
    freeSize event.before event.choices

instance (event : fifoDevice.Finished NetPkt (Except Errno Unit)) : Decidable (WithinFree event) :=
  inferInstanceAs (Decidable (_ ≤ _))

/-- The record of the packet fits in the free space when the call begins. -/
def Fits (before : FifoWorld) (call : NetPkt × List FifoChoice) : Prop :=
  recordSize call.1 ≤ freeSize before call.2

instance (before : FifoWorld) (call : NetPkt × List FifoChoice) : Decidable (Fits before call) :=
  inferInstanceAs (Decidable (_ ≤ _))

/-- A call whose record fits overruns nothing. -/
theorem overrun_of_fits {timestampThread : Bool} {pkt : NetPkt} {before after : FifoWorld}
    {choices : List FifoChoice} {result : Except Errno Unit}
    (returns : fifoDevice.Returns fifoDevice.unguarded (lan9250Tx timestampThread pkt).run before
      choices result after)
    (fits : Fits before (pkt, choices)) (intact : before.overrun = false) : after.overrun = false := by
  obtain ⟨first, rest, rfl, count, written, _, spilled⟩ := filled_of_lan9250Tx returns
  have most := (wrote_of_returns returns).1
  have most' : count ≤ recordSize pkt := Nat.add_le_add_iff_left.mp (written ▸ most)
  rw [Fits, freeSize_eq] at fits
  simp only [FifoWorld.drain] at fits spilled
  have positive : 0 < recordSize pkt := by
    unfold recordSize
    omega
  cases overrun : after.overrun with
  | false => rfl
  | true =>
      rcases spilled overrun with earlier | late
      · rw [intact] at earlier
        contradiction
      · omega

/-- A call which returns 0 keeps within the free space exactly if its record fits there when it
begins; and if every call begins so, none writes beyond it and nothing is ever overrun. -/
theorem tx_within_free (timestampThread : Bool) {start finish : FifoWorld}
    {calls : List (NetPkt × List FifoChoice)}
    {events : List (fifoDevice.Finished NetPkt (Except Errno Unit))}
    (initial : (fifoCalls timestampThread).Initial start) :
    ((fifoCalls timestampThread).Run (fifoCalls timestampThread).unguarded start calls events finish →
      ∀ event ∈ events, event.result = .ok () →
        (WithinFree event ↔ Fits event.before (event.call, event.choices))) ∧
    ((fifoCalls timestampThread).Run Fits start calls events finish →
      finish.overrun = false ∧ ∀ event ∈ events, WithinFree event) := by
  constructor
  · intro run event member succeeded
    have returned := Device.calls_returned run event member
    have written := (wrote_of_returns returned).2 () succeeded
    unfold WithinFree Fits
    simp only
    omega
  · intro run
    refine run.invariant (fun (world : FifoWorld) events => world.overrun = false ∧
      ∀ event ∈ events, WithinFree event) ⟨initial, by simp⟩ ?_
    rintro before events call emitted after ⟨intact, earlier⟩ fits ⟨result, returns, rfl⟩
    refine ⟨overrun_of_fits returns fits intact, fun event member => ?_⟩
    rcases List.mem_append.mp member with old | new
    · exact earlier event old
    · obtain rfl := List.mem_singleton.mp new
      have most := (wrote_of_returns returns).1
      unfold Fits at fits
      unfold WithinFree
      simp only
      omega

/-- An empty FIFO, and the semaphore free. -/
private def emptyFifo : FifoWorld := ⟨⟨1, fun _ => 0, []⟩, 0, false⟩

/-- A packet of zeros. -/
private def zeros (len : Nat) : NetPkt := ⟨0, [List.replicate len 0]⟩

/-- The second packet is sent when the chip has sent half of the first one's record. -/
theorem two_packets_fit : ∃ calls events finish,
    (fifoCalls false).Run Fits emptyFifo calls events finish ∧ finish.used = 18 ∧
      finish.overrun = false ∧ ∀ event ∈ events, WithinFree event := by
  have played : ((fifoDevice.play (fun _ _ _ => true) (lan9250Tx false (zeros 1)).run emptyFifo []).bind
      fun (choices, result, middle) =>
        (fifoDevice.play (fun _ _ _ => true) (lan9250Tx false (zeros 4)).run middle [⟨default, 6⟩]).map
          fun (choices', result', finish) => (decide (Fits emptyFifo (zeros 1, choices)) &&
            decide (Fits middle (zeros 4, choices')), finish.used)) = some (true, 18) := by
    decide +kernel
  obtain ⟨⟨choices, result, middle⟩, first, played⟩ := Option.bind_eq_some_iff.mp played
  obtain ⟨⟨choices', result', finish⟩, second, facts⟩ := Option.map_eq_some_iff.mp played
  simp only [Prod.mk.injEq, Bool.and_eq_true, decide_eq_true_eq] at facts
  obtain ⟨⟨fits, fits'⟩, used⟩ := facts
  have one : fifoDevice.Returns fifoDevice.unguarded _ _ _ _ _ :=
    (Device.Returns.of_play first).weaken fun _ _ _ _ => trivial
  have two : fifoDevice.Returns fifoDevice.unguarded _ _ _ _ _ :=
    (Device.Returns.of_play second).weaken fun _ _ _ _ => trivial
  have run : (fifoCalls false).Run Fits emptyFifo _ _ finish :=
    .step (.single fits ⟨result, one, rfl⟩) fits' ⟨result', two, rfl⟩
  obtain ⟨intact, within⟩ := (tx_within_free false rfl).2 run
  exact ⟨_, _, finish, run, used, intact, within⟩

/-- While the chip sends nothing, six packets of the greatest length are sent successfully, and
the last one does not fit. -/
theorem unsent_packets_overrun : ∃ calls events finish,
    (fifoCalls false).Run (fifoCalls false).unguarded emptyFifo calls events finish ∧
      (∀ event ∈ events, event.result = .ok ()) ∧ (∃ event ∈ events, ¬WithinFree event) ∧
      finish.overrun = true := by
  have played : (fifoDevice.playCalls (fun _ _ _ => true) (fun _ _ => true)
      (fun pkt => (lan9250Tx false pkt).run) emptyFifo
      (List.replicate 6 (zeros 1514, []))).map (fun ended =>
        (ended.1.all (·.result.isOk), ended.1.any (fun event => !decide (WithinFree event)),
          ended.2.overrun)) =
      some (true, true, true) := by
    decide +kernel
  obtain ⟨⟨events, finish⟩, ran, facts⟩ := Option.map_eq_some_iff.mp played
  simp only [Prod.mk.injEq, List.all_eq_true, List.any_eq_true, Bool.not_eq_true',
    decide_eq_false_iff_not] at facts
  obtain ⟨succeeded, beyond, overrun⟩ := facts
  have run : (fifoCalls false).Run (fifoCalls false).unguarded emptyFifo _ events finish :=
    Device.calls_weaken (Device.run_of_playCalls (fun _ => True) ran) (fun _ _ _ _ => trivial)
      fun _ _ _ => trivial
  refine ⟨_, events, finish, run, fun event member => ?_, beyond, overrun⟩
  have ok := succeeded event member
  cases result : event.result with
  | ok => rfl
  | error => simp [result, Except.isOk, Except.toBool] at ok

end Rp2350Stepper.Lan9250
