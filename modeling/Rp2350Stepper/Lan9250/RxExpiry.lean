import Rp2350Stepper.Lan9250.RxDirect

/-!
# When due entries of `rx_pending` expire

`lan9250_rx` sweeps `rx_pending` where no packet could be allocated for a frame, and in the
check of a frame which is recognized. A frame of any other kind, and one whose data could not
be read, leaves the entries which are due.
-/

namespace Rp2350Stepper.Lan9250

open Rp2350Stepper.Data Rp2350Stepper.Semantics

/-! ### The parts of a call -/

/-- `lan9250_rx` up to the length of the next frame; there is none where it returns at once. -/
def nextFrame : Driver (Option Nat) := do
  let info ← readSysReg rxFifoInf
  let status ← readSysReg rxStatusFifo
  if (info &&& rxFifoInfRxsused) >>> 16 = 0 ∨ packetLen status = 0 then return none
  else return some (packetLen status)

/-- The packet for a frame, filled with its data. -/
def fillPacket (bufRxSize frameLen : Nat) (pkt : NetPkt) : Driver NetPkt := do
  let frags ← fillFrags bufRxSize frameLen frameLen pkt.frags
  if 0 < endPad frameLen then
    let _ ← readBuf (endPad frameLen)
  return { pkt with frags := frags }

/-- `lan9250_rx` up to the end of the frame's data; there is no packet where none could be
allocated. -/
def readFrame (bufRxSize frameLen : Nat) : Driver (Option NetPkt) := do
  let _ ← readSysReg rxDataFifo
  if netEthMaxFrameSize < frameLen then
    call (.log .maximumFrameLengthExceeded)
    call .updateErrorsRx
  match ← call (.rxAlloc frameLen) with
  | none => return none
  | some pkt => return some (← fillPacket bufRxSize frameLen pkt)

/-- What remains of the call. -/
def finishFrame (bufRxSize frameLen : Nat) : Option NetPkt → Driver Unit
  | none => dropFrame bufRxSize frameLen
  | some filled => handOver filled frameLen

/-- A delivery reads the frame and hands it over. -/
theorem deliverFrame_parts (bufRxSize frameLen : Nat) (pkt : NetPkt) :
    deliverFrame bufRxSize frameLen pkt =
      fillPacket bufRxSize frameLen pkt >>= fun filled => handOver filled frameLen := by
  rw [deliverFrame_eq, fillPacket]
  simp only [bind_assoc]
  congr 1
  funext frags
  split <;> simp only [bind_assoc, pure_bind]

/-- A packet is allocated and read, and then handed over. -/
theorem takePacket_parts (bufRxSize frameLen : Nat) :
    takePacket bufRxSize frameLen = (do
      match ← call (.rxAlloc frameLen) with
      | none => return none
      | some pkt => return some (← fillPacket bufRxSize frameLen pkt) : Driver (Option NetPkt)) >>=
      finishFrame bufRxSize frameLen := by
  rw [takePacket, bind_assoc]
  congr 1
  funext allocated
  cases allocated with
  | none => rfl
  | some pkt => simp only [deliverFrame_parts, finishFrame, bind_assoc, pure_bind]

/-- A frame is read, and then handed over or dropped. -/
theorem takeFrame_parts (bufRxSize frameLen : Nat) :
    takeFrame bufRxSize frameLen =
      readFrame bufRxSize frameLen >>= finishFrame bufRxSize frameLen := by
  rw [takeFrame, readFrame, bind_assoc]
  congr 1
  funext header
  simp only [takePacket_parts]
  split <;> simp only [bind_assoc]

/-- A call is the search for a frame, its reading, and the rest. -/
theorem lan9250Rx_parts (bufDataSize : Nat) : lan9250Rx bufDataSize = (do
    match ← nextFrame with
    | none => return
    | some frameLen =>
        readFrame (bufDataSize % 2 ^ 16) frameLen >>=
          finishFrame (bufDataSize % 2 ^ 16) frameLen) := by
  rw [lan9250Rx_eq, nextFrame, bind_assoc]
  congr 1
  funext info
  rw [bind_assoc]
  congr 1
  funext status
  split
  · rfl
  · simp only [pure_bind, takeFrame_parts]

/-! ### What is due -/

/-- No entry of `rx_pending` is due at a time. -/
def NoneDue (world : World) (time : Int) : Prop :=
  ∀ slot entry, world.rxPending slot = some entry → time < entry.deadline

instance (world : World) (time : Int) : Decidable (NoneDue world time) :=
  decidable_of_iff (∀ slot, ∀ entry ∈ world.rxPending slot, time < entry.deadline) <| by
    simp only [NoneDue, Option.mem_def]

/-- The same held frames are no more due. -/
theorem NoneDue.of_same {world next : World} {time : Int} (none : NoneDue world time)
    (same : next.rxPending = world.rxPending) : NoneDue next time := by
  intro slot entry held
  rw [same] at held
  exact none slot entry held

theorem NoneDue.earlier {world : World} {time time' : Int} (none : NoneDue world time)
    (before : time' ≤ time) : NoneDue world time' := by
  intro slot entry held
  exact before.trans_lt (none slot entry held)

section Sweeping

variable {guard : lan9250.Guard} (live : Live guard) {world : World}

include live

/-- Queueing puts an entry into the table which is due later. -/
theorem queuePending_noneDue (pkt : PktId) (key : MsgKey) {time : Int} (past : time ≤ world.uptime)
    (none : NoneDue world time) :
    lan9250.Completes guard (queuePending pkt key) world fun _ next => NoneDue next time := by
  unfold queuePending
  rw [Device.completes_bind, completes_loadPending live, Device.completes_bind]
  apply (pendingSlot_spec live).weaken
  rintro slot chosen ⟨logged, same, rfl, _⟩
  rw [Device.completes_bind, completes_pktRef live, Device.completes_bind,
    completes_uptimeGet live]
  intro choice _
  rw [Device.completes_bind, completes_storePending live, completes_log live]
  -- Giving up the reference of an evicted frame takes no time.
  have freed : ((world.rxPending slot).elim logged fun entry =>
      logged.record (.unref entry.pkt)).uptime = logged.uptime := by
    cases world.rxPending slot <;> rfl
  intro slot' entry held
  rcases SlotTable.fill_eq_some.mp held with ⟨_, rfl⟩ | ⟨_, kept⟩
  · have later := past.trans same.uptime
    rw [← freed] at later
    have advanced := later.trans (Quiet.advance ((_ : World).record (.ref pkt)) choice).uptime
    exact advanced.trans_lt (lt_add_of_pos_right _ (by decide))
  · exact none slot' entry kept

/-- The check of a recognized frame leaves nothing which was due when it began. -/
theorem rxTimestampMatch_noneDue (pkt : PktId) (key : MsgKey) :
    lan9250.Completes guard (rxTimestampMatch pkt key) world fun _ next =>
      NoneDue next world.uptime := by
  unfold rxTimestampMatch
  apply completes_lockedSweep live
  intro now swept past ended _ pending _
  have none : NoneDue swept now := by
    intro slot entry held
    rw [pending, Option.filter_eq_some_iff] at held
    simpa using held.2
  rw [Device.completes_bind]
  apply (attachEvent_moves live pkt key).weaken
  rintro attached drained ⟨search, _⟩
  have still : NoneDue drained now := by
    intro slot entry held
    rcases search.pending with same | ⟨_, _, _, _, released, _⟩
    · exact none slot entry (same ▸ held)
    · rw [released] at held
      exact none slot entry (SlotTable.release_eq_some.mp held).2
  have onward : now ≤ drained.uptime := ended.trans search.moves.onward.uptime
  by_cases queueing : (!attached && msgTypeIsTimestamped key.msgType) = true
  · simp only [queueing, if_true]
    rw [Device.completes_bind]
    apply (queuePending_noneDue live pkt key onward still).weaken
    intro _ next settled
    rw [completes_mutexUnlock live]
    exact settled.earlier past
  · simp only [queueing, Bool.false_eq_true, if_false]
    rw [completes_mutexUnlock live]
    exact still.earlier past

/-- A check of a recognised frame has swept. -/
theorem rxTimestampCheck_noneDue {pkt : NetPkt} {pktLen : Nat}
    (recognized : checkedKey pkt pktLen ≠ none) :
    lan9250.Completes guard (rxTimestampCheck pkt pktLen) world fun _ next =>
      NoneDue next world.uptime := by
  apply rxTimestampCheck_cases live
  · intro unknown
    exact absurd unknown recognized
  · intro key _
    exact rxTimestampMatch_noneDue live pkt.id key

/-- The check of any other frame leaves the table. -/
theorem rxTimestampCheck_unrecognized {pkt : NetPkt} {pktLen : Nat}
    (unrecognized : checkedKey pkt pktLen = none) :
    lan9250.Completes guard (rxTimestampCheck pkt pktLen) world fun _ next =>
      next.rxPending = world.rxPending := by
  apply rxTimestampCheck_cases live
  · intro _ next same
    exact same.rxPending
  · intro key known
    rw [unrecognized] at known
    cases known

end Sweeping

/-! ### What leaves the table -/

/-- Requests which leave `rx_pending`. -/
def Request.unstoring : Request → Prop
  | .storePending _ => False
  | _ => True

/-- Draining writes no table. -/
theorem unstoring_of_draining (request : Request) (draining : request.draining) :
    request.unstoring := by
  cases request <;> first | exact draining | trivial

theorem conclude_rxPending {α : Type} (world : World) (outcome : Outcome) (result : α × Chip) :
    (world.conclude outcome result).2.rxPending = world.rxPending := by
  unfold World.conclude
  split <;> rfl

theorem noteWrite_rxPending (world : World) (address : Address) (value : Word) :
    (world.noteWrite address value).rxPending = world.rxPending := by
  unfold World.noteWrite
  split
  · split <;> rfl
  · rfl

/-- So does every answer to one. -/
theorem answer_unstoring {world next : World} {request : Request} {choice : Choice}
    {response : Response request} (unstoring : request.unstoring)
    (answered : answer world request choice = some (response, next)) :
    next.rxPending = world.rxPending := by
  have advanced := (Quiet.advance world choice).rxPending
  cases request with
  | crash => simp [answer] at answered
  | hang => simp [answer] at answered
  | storePending => exact unstoring.elim
  | rxAlloc =>
      simp only [answer, Option.some.injEq, Prod.ext_iff] at answered
      obtain ⟨_, rfl⟩ := answered
      unfold World.rxAlloc
      split <;> exact advanced
  | readSysReg address =>
      simp only [answer, Option.some.injEq, Prod.ext_iff] at answered
      obtain ⟨_, rfl⟩ := answered
      exact (quiet_readSysReg world address choice).rxPending
  | writeSysReg address value =>
      simp only [answer, Option.some.injEq, Prod.ext_iff] at answered
      obtain ⟨_, rfl⟩ := answered
      rw [World.writeSysReg, conclude_rxPending, noteWrite_rxPending, advanced]
  | readBuf len =>
      simp only [answer, Option.some.injEq, Prod.ext_iff] at answered
      obtain ⟨_, rfl⟩ := answered
      rw [World.readBuf, conclude_rxPending, advanced]
  | _ =>
      simp only [answer, Option.some.injEq, Prod.ext_iff] at answered
      obtain ⟨_, rfl⟩ := answered
      first
        | exact advanced
        | rfl

/-- Code which writes no table leaves the held frames. -/
theorem pending_of_only {α : Type} {guard : lan9250.Guard} {program : Code α}
    {before after : World} {choices : List Choice} {value : α}
    (only : program.Only Request.unstoring)
    (returns : lan9250.Returns guard program before choices value after) :
    after.rxPending = before.rxPending :=
  returns.relates_only (fun world next : World => next.rxPending = world.rxPending) only
    (fun _ => rfl) (fun first second => second.trans first)
    fun unstoring _ answered => answer_unstoring unstoring answered

section Only

open Program

/-- A request which writes no table. -/
private theorem unstores {request : Request} (unstoring : request.unstoring) :
    (call request).Only Request.unstoring :=
  only_call unstoring

/-- The search for a frame writes no table. -/
theorem nextFrame_only : nextFrame.run.Only Request.unstoring := by
  refine Only.run_bind (@unstores (.readSysReg _) trivial) fun info => ?_
  refine Only.run_bind (@unstores (.readSysReg _) trivial) fun status => ?_
  exact only_ite only_pure only_pure

theorem fillPacket_only (bufRxSize frameLen : Nat) (pkt : NetPkt) :
    (fillPacket bufRxSize frameLen pkt).run.Only Request.unstoring := by
  refine Only.run_bind ((fillFrags_only _ _ _ _).weaken unstoring_of_draining) fun frags => ?_
  refine only_ite ?_ only_pure
  exact Only.run_bind (@unstores (.readBuf _) trivial) fun _ => only_pure

theorem readFrame_only (bufRxSize frameLen : Nat) :
    (readFrame bufRxSize frameLen).run.Only Request.unstoring := by
  have allocating : (do
      match ← call (.rxAlloc frameLen) with
      | none => return none
      | some pkt => return some (← fillPacket bufRxSize frameLen pkt) :
        Driver (Option NetPkt)).run.Only Request.unstoring := by
    refine Only.run_bind (@unstores (.rxAlloc _) trivial).run_lift fun allocated => ?_
    cases allocated with
    | none => exact only_pure
    | some pkt => exact Only.run_bind (fillPacket_only _ _ pkt) fun _ => only_pure
  refine Only.run_bind (@unstores (.readSysReg _) trivial) fun header => ?_
  refine only_ite ?_ allocating
  refine Only.run_bind (@unstores (.log _) trivial).run_lift fun _ => ?_
  exact Only.run_bind (@unstores .updateErrorsRx trivial).run_lift fun _ => allocating

end Only

section Finishing

variable {guard : lan9250.Guard} (live : Live guard) {ready after : World} {choices : List Choice}
  {result : Except Errno Unit} {bufRxSize frameLen : Nat}

include live

/-- Dropping a frame leaves nothing which was due when it began. -/
theorem dropFrame_noneDue {returned : Unit}
    (returns : lan9250.Returns guard (dropFrame bufRxSize frameLen) ready choices returned after) :
    NoneDue after ready.uptime := by
  obtain ⟨_, _, logged, _, _, log, counting⟩ := returns.of_bind
  obtain ⟨_, _, counted, _, _, count, locking⟩ := counting.of_bind
  obtain ⟨_, _, locked, _, _, lock, timing⟩ := locking.of_bind
  obtain ⟨_, now, timed, _, _, time, sweeping⟩ := timing.of_bind
  obtain ⟨_, _, swept, _, _, sweep, draining⟩ := sweeping.of_bind
  have past := ((((onward_of_returns log).trans (onward_of_returns count)).trans
    (onward_of_returns lock)).trans (onward_of_returns time)).uptime
  have current : now = timed.uptime := by
    obtain ⟨choice, _, _, answered⟩ := time.of_ask
    obtain ⟨rfl, rfl⟩ := Prod.mk.inj (Option.some.inj answered)
    rfl
  have none : NoneDue swept timed.uptime := by
    intro slot entry held
    rw [(sweep.of_completes (rxPendingExpire_sweeps live current.le)).2.2.2.1,
      Option.filter_eq_some_iff, current] at held
    simpa using held.2
  refine (none.of_same (pending_of_only ?_ draining)).earlier past
  refine (@unstores (.mutexUnlock _) trivial).bind fun _ =>
    ((discardFrame_only _ _ _).weaken unstoring_of_draining).bind fun _ => ?_
  exact Program.only_ite ((@unstores (.readBuf _) trivial).bind fun _ => Program.only_pure)
    Program.only_pure

omit live in
/-- What follows the check leaves the table. -/
theorem handOver_pending {filled : NetPkt}
    (returns : lan9250.Returns guard (handOver filled frameLen).run ready choices result after) :
    ∃ checking checked, lan9250.Returns guard (rxTimestampCheck filled frameLen) ready checking ()
      checked ∧ after.rxPending = checked.rxPending := by
  obtain ⟨checking, _, checked, rest, rfl, check, handing⟩ := returns.of_run_bind
  obtain ⟨_, rfl, checks⟩ := check.of_run_lift
  refine ⟨checking, checked, checks, ?_⟩
  obtain ⟨_, _, handing⟩ | ⟨_, failed, _⟩ := handing
  · refine pending_of_only ?_ handing
    have given : (liftM (call .semGive) : Driver Unit).run.Only Request.unstoring :=
      (@unstores .semGive trivial).run_lift
    refine Program.Only.run_bind (@unstores (.recvData _) trivial).run_lift fun accepted => ?_
    refine Program.only_ite ?_ given
    exact Program.Only.run_bind (@unstores (.pktUnref _) trivial).run_lift fun _ => given
  · cases failed

/-- How a call ends: it sweeps, except for a packet which is not recognized. -/
theorem finishFrame_pending {read : Option NetPkt}
    (returns : lan9250.Returns guard (finishFrame bufRxSize frameLen read).run ready choices result
      after) :
    if ∃ filled, read = some filled ∧ checkedKey filled frameLen = none then
      after.rxPending = ready.rxPending
    else NoneDue after ready.uptime := by
  cases read with
  | none =>
      obtain ⟨_, _, dropped⟩ := returns.of_run_lift
      rw [if_neg (by simp)]
      exact dropFrame_noneDue live dropped
  | some filled =>
      obtain ⟨checking, checked, check, same⟩ := handOver_pending returns
      split
      case isTrue unrecognized =>
          obtain ⟨_, here, unrecognized⟩ := unrecognized
          obtain rfl := Option.some.inj here
          exact same.trans (check.of_completes (rxTimestampCheck_unrecognized live unrecognized))
      case isFalse recognized =>
          have swept := check.of_completes (rxTimestampCheck_noneDue live fun unrecognized =>
            recognized ⟨filled, rfl, unrecognized⟩)
          exact swept.of_same same

end Finishing

/-! ### Calls which receive a frame -/

/-- A frame a call has received: the world after its status word has been read, and how the
reading of its data has ended. -/
structure Reception (bufDataSize : Nat) (before : World) (choices : List Choice) where
  received : World
  frameLen : Nat
  read : Except Errno (Option NetPkt)
  reached : ∃ heading reading rest ready, choices = heading ++ (reading ++ rest) ∧
    lan9250.Returns lan9250.unguarded nextFrame.run before heading (.ok (some frameLen)) received ∧
    lan9250.Returns lan9250.unguarded (readFrame (bufDataSize % 2 ^ 16) frameLen).run received
      reading read ready

/-- No packet could be allocated for the frame, or its data has been read and is recognized. -/
def Reception.Sweeps {bufDataSize : Nat} {before : World} {choices : List Choice}
    (reception : Reception bufDataSize before choices) : Prop :=
  reception.read = .ok none ∨
    ∃ filled, reception.read = .ok (some filled) ∧ checkedKey filled reception.frameLen ≠ none

/-- What remains of a call after the reading, and the table. -/
theorem Reception.finishes {bufDataSize : Nat} {before after : World} {choices : List Choice}
    {result : Except Errno Unit} (reception : Reception bufDataSize before choices)
    (returns : lan9250.Returns lan9250.unguarded (lan9250Rx bufDataSize).run before choices result
      after) :
    ∃ ready : World, ready.rxPending = before.rxPending ∧
      reception.received.uptime ≤ ready.uptime ∧
      ((∃ error, reception.read = .error error ∧ after = ready) ∨
      ∃ read rest, reception.read = .ok read ∧
        lan9250.Returns lan9250.unguarded
          (finishFrame (bufDataSize % 2 ^ 16) reception.frameLen read).run ready rest result
            after) := by
  obtain ⟨received, frameLen, read, heading, reading, rest, ready, rfl, heads, reads⟩ := reception
  rw [lan9250Rx_parts] at returns
  obtain ⟨heading', found, received', taking, split, heads', taken⟩ := returns.of_run_bind
  obtain ⟨rfl, rfl, rfl⟩ := heads.deterministic_prefix heads' split
  obtain ⟨_, here, taken⟩ | ⟨_, failed, _⟩ := taken
  swap
  · cases failed
  obtain rfl := Except.ok.inj here
  obtain ⟨reading', read', ready', finishing, split', reads', finished⟩ := taken.of_run_bind
  obtain ⟨rfl, rfl, rfl⟩ := reads.deterministic_prefix reads' split'
  refine ⟨ready, (pending_of_only (readFrame_only _ _) reads).trans
    (pending_of_only nextFrame_only heads), (onward_of_returns reads).uptime, ?_⟩
  rcases finished with ⟨read, here, finishes⟩ | ⟨error, here, _, same⟩
  · exact .inr ⟨read, _, here, finishes⟩
  · exact .inl ⟨error, here, same⟩

/-- The calls of `lan9250_rx`. -/
abbrev receivingSystem (bufDataSize : Nat) : System (lan9250.Finished Unit (Except Errno Unit)) :=
  lan9250.calls lan9250.unguarded (fun world => world.rxPending = SlotTable.empty) fun _ =>
    (lan9250Rx bufDataSize).run

/-- In every run, after a call which has received a frame nothing is due which was so at the time
of the reception, exactly if the call sweeps or nothing was. -/
theorem expired_after_reception {bufDataSize : Nat} {start finish : World}
    {calls : List (Unit × List Choice)}
    {events : List (lan9250.Finished Unit (Except Errno Unit))}
    (run : (receivingSystem bufDataSize).Run (System.unguarded _) start calls events finish) :
    ∀ event ∈ events, ∀ reception : Reception bufDataSize event.before event.choices,
      NoneDue event.after reception.received.uptime ↔
        reception.Sweeps ∨ NoneDue event.before reception.received.uptime := by
  intro event member reception
  have returns := Device.calls_returned run event member
  obtain ⟨ready, same, past, ⟨error, failed, finished⟩ | ⟨read, rest, ended, finishing⟩⟩ :=
    reception.finishes returns
  · have quiet : ¬reception.Sweeps := by
      rintro (dropped | ⟨filled, taken, _⟩)
      · cases failed.symm.trans dropped
      · cases failed.symm.trans taken
    have kept : event.after.rxPending = event.before.rxPending := finished ▸ same
    simp only [NoneDue, kept, quiet, false_or]
  · have pending := finishFrame_pending live_unguarded finishing
    split at pending
    case isTrue unrecognized =>
        obtain ⟨filled, rfl, unrecognized⟩ := unrecognized
        have quiet : ¬reception.Sweeps := by
          rintro (dropped | ⟨filled', taken, recognized⟩)
          · cases ended.symm.trans dropped
          · cases ended.symm.trans taken
            exact recognized unrecognized
        have kept := pending.trans same
        simp only [NoneDue, kept, quiet, false_or]
    case isFalse recognized =>
        have sweeps : reception.Sweeps := by
          cases read with
          | none => exact .inl ended
          | some filled =>
              exact .inr ⟨filled, ended, fun unrecognized => recognized ⟨filled, rfl, unrecognized⟩⟩
        exact iff_of_true (pending.earlier past) (.inl sweeps)

/-! ### A Sync, and another frame -/

/-- A call which receives a frame, each of its parts on its own script. -/
structure Played where
  received : World
  frameLen : Nat
  read : Option NetPkt
  after : World

/-- Play such a call. -/
def playFrame (bufDataSize : Nat) (before : World) (heads reads : List Choice) :
    Option Played :=
  match lan9250.play (fun _ _ _ => true) nextFrame.run before heads with
  | some (_, .ok (some frameLen), received) =>
      match lan9250.play (fun _ _ _ => true) (readFrame (bufDataSize % 2 ^ 16) frameLen).run
        received reads with
      | some (_, .ok read, ready) =>
          (lan9250.play (fun _ _ _ => true) (finishFrame (bufDataSize % 2 ^ 16) frameLen read).run
            ready []).map fun played => ⟨received, frameLen, read, played.2.2⟩
      | _ => none
  | _ => none

/-- The runs of the parts are a run of the call. -/
theorem returns_of_parts {bufDataSize frameLen : Nat} {before received ready after : World}
    {heading reading rest : List Choice} {read : Option NetPkt} {result : Except Errno Unit}
    (heads : lan9250.Returns lan9250.unguarded nextFrame.run before heading (.ok (some frameLen))
      received)
    (reads : lan9250.Returns lan9250.unguarded (readFrame (bufDataSize % 2 ^ 16) frameLen).run
      received reading (.ok read) ready)
    (finishes : lan9250.Returns lan9250.unguarded
      (finishFrame (bufDataSize % 2 ^ 16) frameLen read).run ready rest result after) :
    lan9250.Returns lan9250.unguarded (lan9250Rx bufDataSize).run before
      (heading ++ (reading ++ rest)) result after := by
  rw [lan9250Rx_parts, ExceptT.run_bind]
  apply heads.bind
  change lan9250.Returns _ (readFrame _ frameLen >>= _).run received _ _ _
  rw [ExceptT.run_bind]
  exact reads.bind finishes

/-- A played call is a call, and receives the frame. -/
theorem reception_of_playFrame {bufDataSize : Nat} {before : World} {heads reads : List Choice}
    {played : Played}
    (ran : playFrame bufDataSize before heads reads = some played) :
    ∃ choices result, lan9250.Returns lan9250.unguarded (lan9250Rx bufDataSize).run before choices
        result played.after ∧
      ∃ reception : Reception bufDataSize before choices, reception.received = played.received ∧
        reception.frameLen = played.frameLen ∧ reception.read = .ok played.read := by
  have returned {α : Type} {program : Code α} {world next : World} {script choices : List Choice}
      {value : α} (ran : lan9250.play (fun _ _ _ => true) program world script =
        some (choices, value, next)) :
      lan9250.Returns lan9250.unguarded program world choices value next :=
    (Device.Returns.of_play ran).weaken fun _ _ _ _ => trivial
  unfold playFrame at ran
  split at ran
  case h_1 frameLen received heads =>
      split at ran
      case h_1 read ready reads =>
          obtain ⟨⟨rest, result, after⟩, finishes, rfl⟩ := Option.map_eq_some_iff.mp ran
          have returns := returns_of_parts (returned heads) (returned reads) (returned finishes)
          refine ⟨_, result, returns, ⟨received, frameLen, .ok read, ?_⟩, rfl, rfl, rfl⟩
          exact ⟨_, _, _, ready, rfl, returned heads, returned reads⟩
      case h_2 => cases ran
  case h_2 => cases ran

/-- Two played calls are a run. -/
theorem run_of_playFrame {bufDataSize : Nat} {start : World}
    {heads reads heads' reads' : List Choice} {first second : Played}
    (ran : playFrame bufDataSize start heads reads = some first)
    (ran' : playFrame bufDataSize first.after heads' reads' = some second) :
    ∃ calls events, (receivingSystem bufDataSize).Run (System.unguarded _) start calls events
        second.after ∧
      ∃ event ∈ events, ∃ reception : Reception bufDataSize event.before event.choices,
        event.before = first.after ∧ event.after = second.after ∧
        reception.received = second.received ∧ reception.frameLen = second.frameLen ∧
          reception.read = .ok second.read := by
  obtain ⟨choices, result, returns, _⟩ := reception_of_playFrame ran
  obtain ⟨choices', result', returns', reception, here⟩ := reception_of_playFrame ran'
  have earlier : (receivingSystem bufDataSize).Run (System.unguarded _) start [((), choices)]
      [⟨(), choices, result, start, first.after⟩] first.after :=
    .single trivial ⟨result, returns, rfl⟩
  have later : (receivingSystem bufDataSize).Run (System.unguarded _) first.after [((), choices')]
      [⟨(), choices', result', first.after, second.after⟩] second.after :=
    .single trivial ⟨result', returns', rfl⟩
  exact ⟨_, _, earlier.trans later, ⟨(), choices', result', first.after, second.after⟩, by simp,
    reception, rfl, rfl, here⟩

/-- A frame is received after some time. -/
private def receives (elapsed : Nat) (frame : Frame) : List Choice :=
  [{ Choice.quiet with elapsed := elapsed, arrivals := [frame] }]

/-- A frame with no PTP message in it. -/
private def zeros46 : Frame := ⟨List.replicate 46 0, 0x002E0000, 0, by decide, by decide⟩

/-- The allocation of a packet of one buffer. -/
private def allocates (pkt : PktId) : List Choice :=
  [default, { Choice.quiet with alloc := some (pkt, 1) }]

/-- A Sync is queued at time 0, and another one is received 3 s later. -/
theorem next_sync_expires : ∃ calls events finish,
    (receivingSystem 128).Run (System.unguarded _) .idle calls events finish ∧
      ∃ event ∈ events, ∃ reception : Reception 128 event.before event.choices,
        ¬NoneDue event.before reception.received.uptime ∧
          NoneDue event.after reception.received.uptime := by
  have played : (playFrame 128 .idle (receives 0 syncFrame) (allocates 8)).any (fun first =>
      (playFrame 128 first.after (receives 3000 syncFrame) (allocates 9)).any
        fun second => decide (¬NoneDue first.after second.received.uptime) &&
          second.read.any fun filled => (checkedKey filled second.frameLen).isSome) = true := by
    decide +kernel
  obtain ⟨first, ran, later⟩ := (Option.any_eq_true _ _).mp played
  obtain ⟨second, ran', due⟩ := (Option.any_eq_true _ _).mp later
  obtain ⟨due, recognized⟩ := (Bool.and_eq_true _ _).mp due
  obtain ⟨calls, events, run, event, member, reception, before, _, received, frameLen, read⟩ :=
    run_of_playFrame ran ran'
  refine ⟨calls, events, _, run, event, member, reception, ?_, ?_⟩
  · rw [received, before]
    exact of_decide_eq_true due
  · apply (expired_after_reception run event member reception).mpr
    obtain ⟨filled, here, known⟩ := (Option.any_eq_true _ _).mp recognized
    refine .inl (.inr ⟨filled, by rw [read, here], ?_⟩)
    rw [frameLen]
    exact Option.isSome_iff_ne_none.mp known

/-- A Sync is queued at time 0, and a frame without a PTP message received 3 s later: the entry of
the Sync stays. -/
theorem other_frame_expires_nothing : ∃ calls events finish,
    (receivingSystem 128).Run (System.unguarded _) .idle calls events finish ∧
      ∃ event ∈ events, ∃ reception : Reception 128 event.before event.choices,
        ¬NoneDue event.after reception.received.uptime := by
  have played : (playFrame 128 .idle (receives 0 syncFrame) (allocates 8)).any (fun first =>
      (playFrame 128 first.after (receives 3000 zeros46) (allocates 9)).any
        fun second => decide (¬NoneDue second.after second.received.uptime)) = true := by
    decide +kernel
  obtain ⟨first, ran, later⟩ := (Option.any_eq_true _ _).mp played
  obtain ⟨second, ran', due⟩ := (Option.any_eq_true _ _).mp later
  obtain ⟨calls, events, run, event, member, reception, _, after, received, _⟩ :=
    run_of_playFrame ran ran'
  refine ⟨calls, events, _, run, event, member, reception, ?_⟩
  rw [after, received]
  exact of_decide_eq_true due

end Rp2350Stepper.Lan9250
