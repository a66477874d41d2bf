import Rp2350Stepper.Lan9250.RxFates

/-!
# The two RX FIFOs in lockstep

A frame which arrives between a count of 0 and the reading of the status word loses its
status word and leaves its data behind. Calls which meet no such frame keep the FIFOs in
lockstep, and no others do.
-/

namespace Rp2350Stepper.Lan9250

open Rp2350Stepper.Data Rp2350Stepper.Semantics

/-! ### Lockstep -/

/-- The queued status words are those of the frames whose data is queued, in the same order,
and these are the last which have been stored. -/
def Lockstep (world : World) : Prop :=
  ∃ taken queued, arrivedFrames world.history = taken ++ queued ∧
    world.chip.rxStatus.items = queued.map Frame.status ∧
    world.chip.rxData = queued.flatMap Frame.layout

/-- The calls of `lan9250_rx`, frames arriving before any request. -/
abbrev rxSystem (bufDataSize : Nat) (guard : lan9250.Guard) :
    System (lan9250.Finished Unit (Except Errno Unit)) :=
  lan9250.calls guard Lockstep fun _ => (lan9250Rx bufDataSize).run

/-- The call has read its status word without a frame having come between. -/
def Unsurprised (bufDataSize : Nat) (event : lan9250.Finished Unit (Except Errno Unit)) : Prop :=
  lan9250.Returns (fun world request choice => noFailure world request choice ∧
    countHolds world request choice) (lan9250Rx bufDataSize).run event.before event.choices
    event.result event.after

/-- Once the status word has been read it is not read again. -/
def Request.beyond : Request → Prop := (· ≠ .readSysReg rxStatusFifo)

/-- In lockstep the books are balanced. -/
theorem Lockstep.balanced {world : World} (lockstep : Lockstep world) :
    ∃ taken, Books.Balanced ⟨taken, [], packets world.history⟩ world := by
  obtain ⟨taken, queued, stored, status, data⟩ := lockstep
  exact ⟨taken, queued, stored, status, data, rfl⟩

/-- Balanced books are lockstep. -/
theorem Books.Balanced.lockstep {taken : List Frame} {packets : List Event} {world : World}
    (balanced : Books.Balanced ⟨taken, [], packets⟩ world) : Lockstep world := by
  obtain ⟨queued, stored, status, data, _⟩ := balanced
  exact ⟨taken, queued, stored, status, data⟩

/-- As many bytes are queued as the queued status words say. -/
theorem flatMap_layout_length (frames : List Frame) :
    (frames.flatMap Frame.layout).length =
      ((frames.map Frame.status).map fun status =>
        4 + packetLen status + endPad (packetLen status)).sum := by
  induction frames with
  | nil => rfl
  | cons frame frames inductionHypothesis =>
      rw [List.flatMap_cons, List.length_append, inductionHypothesis, layout_length]
      rfl

/-- A frame whose status word alone has been read is out of step. -/
theorem Books.Balanced.not_lockstep {taken : List Frame} {frame : Frame} {packets : List Event}
    {world : World} (balanced : Books.Balanced ⟨taken, frame.layout, packets⟩ world) :
    ¬Lockstep world := by
  rintro ⟨taken', queued', _, status', data'⟩
  obtain ⟨queued, _, status, data, _⟩ := balanced
  have same := congrArg List.length (data.symm.trans data')
  rw [List.length_append, flatMap_layout_length, flatMap_layout_length, ← status, ← status',
    layout_length] at same
  omega

/-! ### Which calls keep the lockstep -/

section Beyond

open Program

/-- Time stamping reads no status word. -/
private theorem beyond_of_timestamping (request : Request) (timestamping : request.timestamping) :
    request.beyond := by
  rintro rfl
  simp [Request.timestamping, rxStatusFifo, capInfo, rxMsgHeader, rxIngressSec, rxIngressNs]
    at timestamping

private theorem beyond_of_draining (request : Request) (draining : request.draining) :
    request.beyond := by
  rintro rfl
  exact draining

private theorem only_beyond {request : Request} (beyond : request ≠ .readSysReg rxStatusFifo) :
    (call request).Only Request.beyond :=
  only_call beyond

private theorem handOver_beyond (filled : NetPkt) (frameLen : Nat) :
    (handOver filled frameLen).run.Only Request.beyond := by
  refine ((rxTimestampCheck_only _ _).weaken beyond_of_timestamping).run_lift.run_bind fun _ => ?_
  refine (only_beyond (by simp)).run_lift.run_bind fun accepted => ?_
  have given : (liftM (call .semGive) : Driver Unit).run.Only Request.beyond :=
    (@only_beyond .semGive (by simp)).run_lift
  simp only
  split
  · exact (@only_beyond (.pktUnref _) (by simp)).run_lift.run_bind fun _ => given
  · exact given

private theorem deliverFrame_beyond (bufRxSize frameLen : Nat) (pkt : NetPkt) :
    (deliverFrame bufRxSize frameLen pkt).run.Only Request.beyond := by
  rw [deliverFrame_eq]
  refine ((fillFrags_only _ _ _ _).weaken beyond_of_draining).run_bind fun frags => ?_
  simp only
  split
  · exact Only.run_bind (@only_beyond (.readBuf _) (by simp)) fun _ => handOver_beyond _ _
  · exact handOver_beyond _ _

private theorem takeFrame_beyond (bufRxSize pktLen : Nat) :
    (takeFrame bufRxSize pktLen).run.Only Request.beyond := by
  have allocating : (takePacket bufRxSize pktLen).run.Only Request.beyond := by
    refine (only_beyond (by simp)).run_lift.run_bind fun allocated => ?_
    cases allocated with
    | none =>
        exact (dropFrame_only beyond_of_timestamping beyond_of_draining
          (fun same => Request.noConfusion same)).run_lift
    | some pkt => exact deliverFrame_beyond _ _ pkt
  refine Only.run_bind
    (@only_beyond (.readSysReg rxDataFifo) (by simp [rxDataFifo, rxStatusFifo])) fun _ => ?_
  simp only
  split
  · refine (only_beyond (by simp)).run_lift.run_bind fun _ => ?_
    exact (only_beyond (by simp)).run_lift.run_bind fun _ => allocating
  · exact allocating

end Beyond

/-- Then nothing surprises it. -/
private theorem holds_of_beyond (world : World) (request : Request) (choice : Choice)
    (beyond : request.beyond) (succeeded : noFailure world request choice) :
    noFailure world request choice ∧ countHolds world request choice :=
  ⟨succeeded, fun same => absurd same beyond⟩

/-- A call which leaves the lockstep has been surprised. -/
theorem unsurprised_of_lockstep {bufDataSize : Nat} {before after : World}
    {choices : List Choice} {result : Except Errno Unit} (lockstep : Lockstep before)
    (returns : lan9250.Returns noFailure (lan9250Rx bufDataSize).run before choices result after)
    (kept : Lockstep after) :
    lan9250.Returns (fun world request choice => noFailure world request choice ∧
      countHolds world request choice) (lan9250Rx bufDataSize).run before choices result after := by
  obtain ⟨taken, balanced⟩ := lockstep.balanced
  rw [lan9250Rx_eq, ExceptT.run_bind] at returns ⊢
  obtain ⟨first, counted, middle, rest, rfl, count, popping⟩ := returns.of_bind
  obtain ⟨info, rfl, zero, _, balanced⟩ :=
    readCount_books reliable_noFailure balanced _ _ _ count
  refine (count.of_only (@only_beyond (.readSysReg rxFifoInf) (by simp [rxFifoInf, rxStatusFifo]))
    holds_of_beyond).bind ?_
  simp only at popping ⊢
  rw [ExceptT.run_bind] at popping ⊢
  obtain ⟨second, status, popped, rest, rfl, pop, testing⟩ := popping.of_bind
  obtain ⟨choice, rfl, succeeded, answered⟩ := pop.of_ask
  have unsurprised : countHolds middle (.readSysReg rxStatusFifo) choice := by
    intro _ empty
    by_contra arrived
    have something := advance_nonempty empty arrived
    have taken : middle.readSysReg rxStatusFifo choice = (status, popped) := Option.some.inj answered
    have cases := readStatus_cases succeeded balanced
    rw [taken] at cases
    obtain ⟨nothing, _⟩ | ⟨_, frame, rfl, balanced⟩ := cases
    · exact something nothing
    · simp only at testing
      rw [if_pos (.inl (zero.mpr empty))] at testing
      cases testing
      exact balanced.not_lockstep kept
  apply Device.Returns.bind (.ask ⟨succeeded, unsurprised⟩ answered .done)
  refine testing.of_only ?_ holds_of_beyond
  cases status with
  | error => exact Program.only_pure
  | ok status => exact Program.only_ite Program.only_pure (takeFrame_beyond _ _)

/-- In every run without SPI failures, the FIFOs are in lockstep whenever a call has returned
exactly if no call has been surprised. -/
theorem lockstep_iff_unsurprised {bufDataSize : Nat} {start finish : World}
    {calls : List (Unit × List Choice)} {events : List (lan9250.Finished Unit (Except Errno Unit))}
    (initially : (rxSystem bufDataSize noFailure).Initial start)
    (run : (rxSystem bufDataSize noFailure).Run (rxSystem bufDataSize noFailure).unguarded start
      calls events finish) :
    (rxSystem bufDataSize noFailure).Throughout (rxSystem bufDataSize noFailure).unguarded start
      calls Lockstep ↔ ∀ event ∈ events, Unsurprised bufDataSize event := by
  refine @System.Run.throughout_iff _ (rxSystem bufDataSize noFailure) _ _ _ _ _ (fun _ => True)
    Lockstep (Unsurprised bufDataSize) Device.calls_deterministic ⟨trivial, initially⟩
    (fun _ _ => trivial) ?_ run
  intro before call emitted after _ lockstep step
  obtain ⟨result, returns, rfl⟩ := step
  simp only [List.mem_singleton, forall_eq]
  constructor
  · exact unsurprised_of_lockstep lockstep returns
  · intro unsurprised
    obtain ⟨taken, balanced⟩ := lockstep.balanced
    obtain ⟨_, fate?, _, balanced⟩ := lan9250Rx_settles (fun _ _ _ allowed => allowed.1)
      (fun _ _ _ allowed => allowed.2) balanced _ _ _ unsurprised
    exact balanced.lockstep

/-- At rest the FIFOs are empty. -/
private theorem lockstep_idle : Lockstep .idle := ⟨[], [], rfl, rfl, rfl⟩

/-- A frame of one byte. -/
def shortFrame (byte : Byte) : Frame := 
  ⟨[byte], 0x00010000, 0, Nat.one_pos, show packetLen 0x00010000 = 1 by decide⟩

/-- Before a request this frame arrives. -/
private def arriving (byte : Byte) : Choice := { Choice.quiet with arrivals := [shortFrame byte] }

/-- A call has found no frame queued. While it goes on to read the status word a frame arrives:
the call returns, the frame's status word is gone, and its data is still queued. -/
theorem late_frame_desynchronises : ∃ calls events finish,
    (rxSystem 128 noFailure).Initial .idle ∧
    (rxSystem 128 noFailure).Run (rxSystem 128 noFailure).unguarded .idle calls events finish ∧
    (∃ event ∈ events, event.result = .ok () ∧ event.after = finish) ∧
    finish.chip.rxStatus.items = [] ∧ finish.chip.rxData = (shortFrame 7).layout ∧
    ¬Lockstep finish := by
  have played : (lan9250.play allowsSuccess (lan9250Rx 128).run .idle [default, arriving 7]).map
      (fun (_, result, finish) => (result, finish.chip.rxStatus.items, finish.chip.rxData)) =
      some (.ok (), [], (shortFrame 7).layout) := by
    decide +kernel
  obtain ⟨⟨choices, result, finish⟩, ran, shape⟩ := Option.map_eq_some_iff.mp played
  simp only [Prod.mk.injEq] at shape
  obtain ⟨rfl, status, data⟩ := shape
  refine ⟨[((), choices)], [⟨(), choices, .ok (), .idle, finish⟩], finish, lockstep_idle,
    System.Run.single trivial ⟨_, returns_of_playSuccess ran, rfl⟩, ⟨_, List.mem_singleton_self _, rfl, rfl⟩,
    status, data, ?_⟩
  rintro ⟨taken, queued, _, status', data'⟩
  obtain rfl : queued = [] := List.map_eq_nil_iff.mp (status'.symm.trans status)
  have left := data.symm.trans data'
  simp [Frame.layout] at left

/-- The same guard, for scripts. -/
private def allowsCount (world : World) (request : Request) (choice : Choice) : Bool :=
  choice.outcome = .ok && match request with
    | .readSysReg address =>
        address ≠ rxStatusFifo || !world.chip.rxStatus.items.isEmpty || choice.arrivals = []
    | _ => true

/-- What the decidable form admits, the guard admits. -/
private theorem countHolds_of_allowsCount {world : World} {request : Request} {choice : Choice}
    (allowed : allowsCount world request choice = true) :
    noFailure world request choice ∧ countHolds world request choice := by
  obtain ⟨succeeded, counted⟩ := Bool.and_eq_true_iff.mp allowed
  have decided : choice.outcome = .ok := of_decide_eq_true succeeded
  refine ⟨decided, ?_⟩
  rintro rfl empty
  simpa [empty] using counted

/-- A call with nothing queued, one before whose count a frame arrives and another before its
status word, and one for the second frame: the FIFOs stay in lockstep. -/
theorem counted_frames_in_lockstep : ∃ calls events finish,
    (rxSystem 128 noFailure).Run (rxSystem 128 noFailure).unguarded .idle calls events finish ∧
    packets finish.history = [.allocated false, .allocated true, .delivered ⟨3, [[9]]⟩] ∧
    (rxSystem 128 noFailure).Throughout (rxSystem 128 noFailure).unguarded .idle calls Lockstep := by
  have played : (lan9250.playCalls allowsCount (fun _ _ => true)
      (fun _ : Unit => (lan9250Rx 128).run) .idle
      [((), []), ((), [arriving 8, arriving 9]),
        ((), [default, default, default, { Choice.quiet with alloc := some (3, 1) }])]).map
        (fun (_, finish) => packets finish.history) =
      some [.allocated false, .allocated true, .delivered ⟨3, [[9]]⟩] := by
    decide +kernel
  obtain ⟨⟨events, finish⟩, ran, delivered⟩ := Option.map_eq_some_iff.mp played
  have run := Device.run_of_playCalls Lockstep ran
  have unguarded : (rxSystem 128 noFailure).Run (rxSystem 128 noFailure).unguarded .idle _ events
      finish := Device.calls_weaken run (fun _ _ _ allowed => (countHolds_of_allowsCount allowed).1)
    fun _ _ _ => trivial
  refine ⟨_, events, finish, unguarded, delivered,
    (lockstep_iff_unsurprised lockstep_idle unguarded).mpr fun event member => ?_⟩
  exact (Device.calls_returned run event member).weaken fun _ _ _ allowed =>
    countHolds_of_allowsCount allowed

end Rp2350Stepper.Lan9250
