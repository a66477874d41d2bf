import Rp2350Stepper.Lan9250.Multicast
import Rp2350Stepper.Lan9250.ReceiveRequests
import Rp2350Stepper.Lan9250.Transmit
import Rp2350Stepper.Semantics.Semaphores

/-!
# The locks of the driver

`lan9250_tx` takes `tx_rx_sem` and gives it back unless it fails; `lan9250_rx` gives it once for
every frame it hands to the stack, without having taken it. Both use the banked registers under
`bank_lock`, and `lan9250_set_config` the hash filter under `hash_lock`. Any number of
threads call these functions at the same time, and everything else is answered in any way.

A mutex is one unit here: no call locks one it has locked, or unlocks one it has not.
-/

namespace Rp2350Stepper.Lan9250

open Rp2350Stepper.Semantics Semaphore Semaphores

/-! ### The device -/

/-- The locks of `struct lan9250_runtime`. -/
inductive DriverLock where
  | txRxSem
  | mutex (mutex : Mutex)
deriving DecidableEq, Repr

/-- `UINT_MAX` for `tx_rx_sem`. -/
def DriverLock.limit : DriverLock → Nat
  | txRxSem => 2 ^ 32 - 1
  | mutex _ => 1

/-- `tx_rx_sem` is taken before a mutex. -/
def DriverLock.rank : DriverLock → Nat
  | txRxSem => 0
  | mutex _ => 1

/-- How many units each of them has. -/
abbrev LockCounts := DriverLock → Nat

namespace LockCounts

/-- On a count of 0 the caller waits. -/
def take (counts : LockCounts) (lock : DriverLock) : Option (Unit × LockCounts) :=
  if counts lock = 0 then none else some ((), Function.update counts lock (counts lock - 1))

/-- `k_sem_give` and `k_mutex_unlock`. -/
def give (counts : LockCounts) (lock : DriverLock) : Option (Unit × LockCounts) :=
  some ((), Function.update counts lock (min (counts lock + 1) lock.limit))

end LockCounts

/-- The locks keep their counts; everything else is answered as the environment chooses. -/
def lockAnswer (counts : LockCounts) (request : TxRequest)
    (choice : (request : TxRequest) → Option (TxResponse request)) :
    Option (TxResponse request × LockCounts) :=
  match request with
  | .semTake => counts.take .txRxSem
  | .driver .semGive => counts.give .txRxSem
  | .driver (.mutexLock mutex) => counts.take (.mutex mutex)
  | .driver (.mutexUnlock mutex) => counts.give (.mutex mutex)
  | request => (choice request).map fun response => (response, counts)

/-- The locks and nothing else: what the code asks for otherwise is answered somehow. -/
abbrev lockDevice : Device txInterface :=
  ⟨LockCounts, (request : TxRequest) → Option (TxResponse request), lockAnswer⟩

/-- What a request is to the locks: a frame handed to the stack announces a unit. -/
def TxRequest.use : TxRequest → Use DriverLock
  | .semTake => .take .txRxSem
  | .driver .semGive => .give .txRxSem
  | .driver (.recvData _) => .promise .txRxSem
  | .driver (.mutexLock mutex) => .take (.mutex mutex)
  | .driver (.mutexUnlock mutex) => .give (.mutex mutex)
  | _ => .aside

/-- A unit which is taken is there. -/
private theorem counts_of_take {counts after : LockCounts} {lock : DriverLock} {response : Unit}
    (answered : counts.take lock = some (response, after)) :
    (Use.take lock).Counts DriverLock.limit counts after := by
  unfold LockCounts.take at answered
  split at answered
  · cases answered
  · exact ⟨‹_›, (Prod.mk.inj (Option.some.inj answered)).2.symm⟩

/-- The locks as semaphores of the driver's code. -/
def driverLocks : Semaphores DriverLock lockDevice where
  count := fun counts : LockCounts => counts
  limit := DriverLock.limit
  rank := DriverLock.rank
  use := TxRequest.use
  counts := by
    intro counts request choice response after answered
    change lockAnswer counts request choice = some (response, after) at answered
    cases request with
    | semTake => exact counts_of_take answered
    | driver request =>
        cases request with
        | mutexLock mutex => exact counts_of_take answered
        | semGive | mutexUnlock => exact (Prod.mk.inj (Option.some.inj answered)).2.symm
        | _ =>
            obtain ⟨_, _, same⟩ := Option.map_eq_some_iff.mp answered
            exact (Prod.mk.inj same).2.symm
    | _ =>
        obtain ⟨_, _, same⟩ := Option.map_eq_some_iff.mp answered
        exact (Prod.mk.inj same).2.symm

/-! ### The threads -/

/-- What the threads call. -/
inductive LockingCall where
  | tx (timestampThread : Bool) (pkt : NetPkt)
  | rx (bufDataSize : Nat)
  /-- `lan9250_set_config` with `ETHERNET_CONFIG_TYPE_FILTER`. -/
  | setFilter (filter : EthernetFilter)
deriving DecidableEq

/-- The code of each call. -/
def LockingCall.body : LockingCall → Program txInterface (Except Errno Unit)
  | .tx timestampThread pkt => (lan9250Tx timestampThread pkt).run
  | .rx bufDataSize => fromDriver (lan9250Rx bufDataSize).run
  | .setFilter filter => fromDriver (setConfigFilter filter).run

/-- No call ends with a mutex, and only a failed transmission with a unit it has taken. -/
def LockingCall.Ends : LockingCall → Except Errno Unit → Debts DriverLock → Prop
  | .tx _ _, result, debts => (∀ mutex, debts (.mutex mutex) = false) ∧
      (debts .txRxSem = true → ∃ error, result = .error error)
  | .rx _, _, debts | .setFilter _, _, debts => debts = Debts.none

/-- Any number of threads. -/
abbrev lockingThreads (ThreadId : Type) [DecidableEq ThreadId] :
    System (Semaphores.Event DriverLock ThreadId LockingCall (Except Errno Unit)) :=
  driverLocks.system LockingCall.body ThreadId

/-! ### What takes no lock -/

section Unlocked

open Program

/-- The requests which are nothing to the locks. -/
def Request.Unlocked : Request → Prop
  | .semGive | .recvData _ | .mutexLock _ | .mutexUnlock _ => False
  | _ => True

/-- Bookkeeping takes no lock. -/
theorem unlocked_of_bookkeeping (request : Request) (known : request.bookkeeping) :
    request.Unlocked := by
  cases request <;> trivial

/-- Draining the FIFO takes no lock. -/
theorem unlocked_of_draining (request : Request) (known : request.draining) : request.Unlocked := by
  cases request <;> trivial

/-- The registers of a captured event. -/
private theorem capture_unlocked {α : Type} (header sec ns : Address)
    (event : Word → Word → Word → α) :
    (do let msgHeader ← readSysReg header
        let seconds ← readSysReg sec
        let nanoseconds ← readSysReg ns
        return event msgHeader seconds nanoseconds : Driver α).run.Only Request.Unlocked :=
  Only.run_bind (only_call trivial) fun _ => Only.run_bind (only_call trivial) fun _ =>
    Only.run_bind (only_call trivial) fun _ => only_pure

/-- Reading an event takes no lock. -/
private theorem drainIngress_unlocked (pkt : PktId) (key : MsgKey) :
    (drainIngress pkt key).Only Request.Unlocked := by
  have fails (message : Message) : (do call (.log message); return false : Code Bool).Only
      Request.Unlocked := (only_call trivial).bind fun _ => only_pure
  refine Only.bind (only_call trivial) fun selected => ?_
  cases selected with
  | error => exact fails _
  | ok _ =>
      refine Only.bind (only_call trivial) fun counted => ?_
      cases counted with
      | error => exact fails _
      | ok info =>
          apply only_ite only_pure
          refine Only.bind (only_call trivial) fun selected => ?_
          cases selected with
          | error => exact only_pure
          | ok _ =>
              have reads : readIngress.run.Only Request.Unlocked := capture_unlocked _ _ _ _
              refine reads.bind fun shown => ?_
              cases shown with
              | error => exact only_pure
              | ok value =>
                  refine Only.bind (only_call trivial) fun _ => ?_
                  exact (settleIngress_only pkt key value.1 value.2).weaken unlocked_of_bookkeeping

/-- Attaching an event takes no lock. -/
private theorem attachEvent_unlocked (pkt : PktId) (key : MsgKey) :
    (attachEvent pkt key).Only Request.Unlocked :=
  ((attachUnclaimed_only pkt key).weaken unlocked_of_bookkeeping).bind fun _ =>
    only_ite only_pure (drainIngress_unlocked pkt key)

/-- Polling for an event takes no lock. -/
private theorem pollCapInfo_unlocked (attempts : Nat) (info : Word) :
    (pollCapInfo attempts info).run.Only Request.Unlocked := by
  induction attempts generalizing info with
  | zero => exact only_pure
  | succ attempts inductionHypothesis =>
      refine Only.run_bind (only_call trivial) fun info => ?_
      split
      · exact only_pure
      · exact Only.run_bind (.run_lift (only_call trivial)) fun _ => inductionHypothesis info

/-- Matching an event with the frame sent takes no lock. -/
private theorem txTimestampMatch_unlocked (timestampThread : Bool) (pkt : PktId) (key : MsgKey) :
    (txTimestampMatch timestampThread pkt key).Only Request.Unlocked := by
  have logs (message : Message) : (call (.log message)).Only Request.Unlocked := only_call trivial
  refine Only.bind (only_call trivial) fun selected => ?_
  cases selected with
  | error => exact logs _
  | ok _ =>
      refine (pollCapInfo_unlocked _ _).bind fun polled => ?_
      cases polled with
      | error => exact logs _
      | ok info =>
          refine only_ite only_pure (Only.bind (only_call trivial) fun selected => ?_)
          cases selected with
          | error => exact logs _
          | ok _ =>
              have reads : readEgress.run.Only Request.Unlocked := capture_unlocked _ _ _ _
              refine reads.bind fun shown => ?_
              cases shown with
              | error => exact logs _
              | ok value =>
                  have finishes (message : Message) : (do
                      call (.log message)
                      let _ ← (writeSysReg ieee1588IntSts intStsTxTsInt).run
                      pure () : Code Unit).Only Request.Unlocked :=
                    (logs message).bind fun _ => Only.bind (only_call trivial) fun _ => only_pure
                  refine only_ite ?_ (finishes _)
                  refine Only.bind (only_call trivial) fun _ => ?_
                  exact only_ite (Only.bind (only_call trivial) fun _ => finishes _) (finishes _)

/-- Waiting for a register takes no lock. -/
private theorem waitReadyLoop_unlocked (address : Address) (mask expected : Word) (deadline : Int)
    (rounds : Nat) :
    (waitReadyLoop address mask expected deadline rounds).run.Only Request.Unlocked := by
  induction rounds with
  | zero =>
      exact Only.run_bind (.run_lift ⟨trivial, fun stuck => nomatch stuck⟩)
        fun stuck => nomatch stuck
  | succ rounds inductionHypothesis =>
      have goesOn : (do
          let now ← call .uptimeGet
          if deadline ≤ now then throw .eio
          call (.busyWait 1000)
          waitReadyLoop address mask expected deadline rounds : Driver Unit).run.Only
            Request.Unlocked := by
        refine Only.run_bind (.run_lift (only_call trivial)) fun now => ?_
        simp only
        split
        · exact only_pure
        · exact Only.run_bind (.run_lift (only_call trivial)) fun _ => inductionHypothesis
      refine Only.run_bind (Only.bind (only_call trivial) fun _ => only_pure) fun result => ?_
      cases result with
      | error error => exact goesOn
      | ok value =>
          simp only
          split
          · exact only_pure
          · exact goesOn

/-- Writing a register of the MAC takes no lock. -/
private theorem writeMacReg_unlocked (address : MacAddress) (data : Word) :
    (writeMacReg address data).run.Only Request.Unlocked := by
  have waits : (waitReady macCsrCmd macCsrCmdBusy 0 macTimeout).run.Only Request.Unlocked :=
    Only.run_bind (.run_lift (only_call trivial)) fun _ => waitReadyLoop_unlocked _ _ _ _ _
  exact Only.run_bind waits fun _ => Only.run_bind (only_call trivial) fun _ =>
    Only.run_bind (only_call trivial) fun _ => waits

/-- Writing the hash filter takes no lock by itself. -/
theorem mcastHashWrite_unlocked : mcastHashWrite.run.Only Request.Unlocked :=
  Only.run_bind (.run_lift (only_call trivial)) fun _ =>
    Only.run_bind (writeMacReg_unlocked _ _) fun _ => writeMacReg_unlocked _ _

end Unlocked

/-! ### What the calls repay -/

section Calls

open Program

variable {α : Type} {debts : Debts DriverLock} {post : α → Debts DriverLock → Prop}

/-- The same for what the driver's functions request. -/
def Request.use (request : Request) : Use DriverLock := (TxRequest.driver request).use

/-- Such a request is no use of a lock. -/
theorem use_of_unlocked (request : Request) (unlocked : request.Unlocked) :
    request.use = .aside := by
  cases request <;> first | rfl | exact unlocked.elim

/-- Code of such requests owes what it owed before. -/
theorem repays_of_unlocked {code : Code α} (only : code.Only Request.Unlocked)
    (holds : ∀ value, post value debts) : code.Repays DriverLock.rank Request.use debts post :=
  .of_only (only.weaken use_of_unlocked) holds

/-- What the driver's functions request is the same from `lan9250_tx`. -/
theorem repays_fromDriver {code : Code α}
    (repays : code.Repays DriverLock.rank Request.use debts post) :
    (fromDriver code).Repays DriverLock.rank TxRequest.use debts post :=
  repays.translate fun _ _ allowed => .ask allowed fun _ => rfl

/-- At most `tx_rx_sem`. -/
def Mutexless (debts : Debts DriverLock) : Prop := ∀ mutex, debts (.mutex mutex) = false

/-- Who owes nothing owes no mutex. -/
theorem mutexless_none : Mutexless Debts.none := fun _ => rfl

/-- Under a mutex. -/
def Under (mutex : Mutex) (debts : Debts DriverLock) : Debts DriverLock :=
  (Use.take (.mutex mutex)).after debts

section Mutexless

variable {mutex : Mutex} {post : Unit → Debts DriverLock → Prop} (free : Mutexless debts)

include free

/-- A mutex is taken in its order. -/
theorem takes_mutex : (Use.take (.mutex mutex)).Allowed DriverLock.rank debts := by
  intro other owed
  cases other with
  | txRxSem => exact Nat.zero_lt_one
  | mutex other => exact absurd ((free other).symm.trans owed) Bool.false_ne_true

/-- Unlocking returns what locking took. -/
theorem unlock_repays (holds : post () debts) :
    (call (.mutexUnlock mutex)).Repays DriverLock.rank Request.use (Under mutex debts) post := by
  have back : Function.update (Under mutex debts) (.mutex mutex) false = debts := by
    rw [Under, Use.after, Function.update_idem, ← free mutex, Function.update_eq_self]
  refine .ask (Function.update_self ..) fun _ => ?_
  change post () (Function.update (Under mutex debts) (.mutex mutex) false)
  rw [back]
  exact holds

/-- The check of a sent frame returns `bank_lock`. -/
theorem txTimestampCheck_repays (timestampThread : Bool) (pkt : PktId)
    (frame : List Byte) (len : Nat) (holds : post () debts) :
    (txTimestampCheck timestampThread pkt frame len).Repays DriverLock.rank Request.use debts
      post := by
  unfold txTimestampCheck
  split
  · exact .pure holds
  · refine .bind (.ask (takes_mutex free) fun _ => ?_)
    exact .bind (repays_of_unlocked (txTimestampMatch_unlocked _ _ _) fun _ =>
      unlock_repays free holds)

/-- The check of a received frame returns it too. -/
theorem rxTimestampCheck_repays (pkt : NetPkt) (pktLen : Nat) (holds : post () debts) :
    (rxTimestampCheck pkt pktLen).Repays DriverLock.rank Request.use debts post := by
  have unlocks : (call (.mutexUnlock .bankLock)).Repays DriverLock.rank Request.use
      (Under .bankLock debts) post := unlock_repays free holds
  unfold rxTimestampCheck
  simp only
  split
  · exact .bind (repays_of_unlocked (only_call trivial) fun _ => .pure holds)
  · split
    · exact .pure holds
    · refine .bind (.ask (takes_mutex free) fun _ => ?_)
      refine .bind (repays_of_unlocked (only_call trivial) fun now => ?_)
      refine .bind (repays_of_unlocked
        ((rxPendingExpire_only now).weaken unlocked_of_bookkeeping) fun _ => ?_)
      refine .bind (repays_of_unlocked (attachEvent_unlocked _ _) fun attached => ?_)
      split
      · exact .bind (repays_of_unlocked
          ((queuePending_only _ _).weaken unlocked_of_bookkeeping) fun _ => unlocks)
      · exact unlocks

end Mutexless

/-- Discarding status words uses no lock. -/
private theorem discardTxStatus_use (count : Nat) :
    (discardTxStatus count).run.Only fun request : TxRequest => request.use = .aside := by
  induction count with
  | zero => exact only_pure
  | succ count inductionHypothesis =>
      exact Only.run_bind (fromDriver_only (only_call trivial) use_of_unlocked)
        fun _ => inductionHypothesis

/-- Between taking and giving `tx_rx_sem`. -/
private theorem sendPacket_repays (free : Mutexless debts) (timestampThread : Bool) (pkt : NetPkt)
    (statusSize : BitVec 8) :
    (sendPacket timestampThread pkt statusSize).run.Repays DriverLock.rank TxRequest.use debts
      fun _ after => after = debts := by
  refine .run_bind (.ask trivial fun written => ?_)
  cases written with
  | error => rfl
  | ok _ =>
      refine .run_bind (.ask trivial fun written => ?_)
      cases written with
      | error => rfl
      | ok _ =>
          refine .run_bind (.run_lift (.ask trivial fun failed => ?_))
          cases failed with
          | true => exact .pure rfl
          | false =>
              refine .run_bind (.ask trivial fun written => ?_)
              cases written with
              | error => rfl
              | ok _ =>
                  refine .run_bind (.of_only (discardTxStatus_use _) fun discarded => ?_)
                  cases discarded with
                  | error => rfl
                  | ok _ =>
                      refine .run_bind (.run_lift (.ask trivial fun frame => ?_))
                      exact .run_lift (repays_fromDriver (txTimestampCheck_repays free _ _ _ _ rfl))

/-- `lan9250_tx` takes `bank_lock` while it has a unit of `tx_rx_sem`. -/
theorem lan9250Tx_repays (timestampThread : Bool) (pkt : NetPkt) :
    (lan9250Tx timestampThread pkt).run.Repays DriverLock.rank TxRequest.use Debts.none
      ((LockingCall.tx timestampThread pkt).Ends) := by
  refine .run_bind (.ask trivial fun regval => ?_)
  cases regval with
  | error error => exact ⟨mutexless_none, nofun⟩
  | ok regval =>
      refine .run_bind (.run_lift (.ask (fun _ => nofun) fun _ => ?_))
      have free : Mutexless ((Use.take DriverLock.txRxSem).after Debts.none) := fun _ => rfl
      refine .run_bind ((sendPacket_repays free _ _ _).weaken ?_)
      rintro sent _ rfl
      cases sent with
      | error error => exact ⟨free, fun _ => ⟨error, rfl⟩⟩
      | ok _ => exact .run_lift (.ask rfl fun _ => ⟨fun _ => rfl, nofun⟩)

/-- What follows the stack's answer gives the unit which was announced. -/
private theorem finish_repays (accepted : Bool) (pkt : PktId) :
    (do if !accepted then call (.pktUnref pkt)
        call .semGive : Driver Unit).run.Repays DriverLock.rank Request.use
      ((Use.promise DriverLock.txRxSem).after Debts.none) fun _ after => after = Debts.none := by
  have gives : (call .semGive : Code Unit).Repays DriverLock.rank Request.use
      ((Use.promise DriverLock.txRxSem).after Debts.none) fun _ after => after = Debts.none :=
    .ask rfl fun _ => by
      change Function.update (Function.update Debts.none DriverLock.txRxSem true) _ false = _
      rw [Function.update_idem]
      exact Function.update_eq_self DriverLock.txRxSem Debts.none
  cases accepted with
  | true => exact .run_lift gives
  | false => exact .run_bind (.run_lift (.ask trivial fun _ => .run_lift gives))

/-- Handing a frame over owes nothing in the end. -/
theorem handOver_repays (filled : NetPkt) (frameLen : Nat) :
    (handOver filled frameLen).run.Repays DriverLock.rank Request.use Debts.none
      fun _ after => after = Debts.none := by
  refine .run_bind (.run_lift (rxTimestampCheck_repays mutexless_none filled frameLen ?_))
  exact .run_bind (.run_lift (.ask rfl fun accepted => finish_repays accepted filled.id))

/-- Delivering a frame owes nothing in the end. -/
theorem deliverFrame_repays (bufRxSize frameLen : Nat) (pkt : NetPkt) :
    (deliverFrame bufRxSize frameLen pkt).run.Repays DriverLock.rank Request.use Debts.none
      fun _ after => after = Debts.none := by
  rw [deliverFrame_eq]
  refine .run_bind (repays_of_unlocked
    ((fillFrags_only _ _ _ _).weaken unlocked_of_draining) fun filled => ?_)
  cases filled with
  | error => rfl
  | ok frags =>
      simp only
      split
      · refine .run_bind (repays_of_unlocked (only_call trivial) fun padded => ?_)
        cases padded with
        | error => rfl
        | ok _ => exact handOver_repays _ _
      · exact handOver_repays _ _

/-- A frame which is dropped gives nothing; its expired packets are given up under `bank_lock`. -/
theorem dropFrame_repays (bufRxSize frameLen : Nat) :
    (dropFrame bufRxSize frameLen).Repays DriverLock.rank Request.use Debts.none
      fun _ after => after = Debts.none := by
  refine .bind (repays_of_unlocked (only_call trivial) fun _ => ?_)
  refine .bind (repays_of_unlocked (only_call trivial) fun _ => ?_)
  refine .bind (.ask (takes_mutex mutexless_none) fun _ => ?_)
  refine .bind (repays_of_unlocked (only_call trivial) fun now => ?_)
  refine .bind (repays_of_unlocked
    ((rxPendingExpire_only now).weaken unlocked_of_bookkeeping) fun _ => ?_)
  refine .bind (unlock_repays mutexless_none ?_)
  refine .bind (repays_of_unlocked
    ((discardFrame_only _ _ _).weaken unlocked_of_draining) fun _ => ?_)
  refine repays_of_unlocked (only_ite ?_ only_pure) fun _ => rfl
  exact Only.bind (only_call trivial) fun _ => only_pure

theorem takeFrame_repays (bufRxSize pktLen : Nat) :
    (takeFrame bufRxSize pktLen).run.Repays DriverLock.rank Request.use Debts.none
      fun _ after => after = Debts.none := by
  have takes : (takePacket bufRxSize pktLen).run.Repays DriverLock.rank Request.use Debts.none
      fun _ after => after = Debts.none := by
    refine .run_bind (.run_lift (repays_of_unlocked (only_call trivial) fun allocated => ?_))
    cases allocated with
    | none => exact .run_lift (dropFrame_repays _ _)
    | some pkt => exact deliverFrame_repays _ _ pkt
  refine .run_bind (repays_of_unlocked (only_call trivial) fun dummy => ?_)
  cases dummy with
  | error => rfl
  | ok _ =>
      simp only
      split
      · refine .run_bind (.run_lift (repays_of_unlocked (only_call trivial) fun _ => ?_))
        exact .run_bind (.run_lift (repays_of_unlocked (only_call trivial) fun _ => takes))
      · exact takes

theorem lan9250Rx_repays (bufDataSize : Nat) :
    (lan9250Rx bufDataSize).run.Repays DriverLock.rank Request.use Debts.none
      fun _ after => after = Debts.none := by
  rw [lan9250Rx_eq]
  refine .run_bind (repays_of_unlocked (only_call trivial) fun info => ?_)
  cases info with
  | error => rfl
  | ok info =>
      refine .run_bind (repays_of_unlocked (only_call trivial) fun status => ?_)
      cases status with
      | error => rfl
      | ok status =>
          simp only
          split
          · exact .pure rfl
          · exact takeFrame_repays _ _

/-- The multicast filter is counted and written under `hash_lock`, whether or not that fails. -/
theorem setConfigFilter_repays (filter : EthernetFilter) :
    (setConfigFilter filter).run.Repays DriverLock.rank Request.use Debts.none
      fun _ after => after = Debts.none := by
  unfold setConfigFilter
  simp only
  split
  · exact .pure rfl
  · split
    · exact .pure rfl
    · refine .run_bind (.run_lift (.ask (takes_mutex mutexless_none) fun _ => ?_))
      refine .run_bind (.run_lift (repays_of_unlocked (only_call trivial) fun counts => ?_))
      refine .run_bind (.run_lift (repays_of_unlocked (only_call trivial) fun _ => ?_))
      refine .run_bind (.run_lift (repays_of_unlocked mcastHashWrite_unlocked fun result => ?_))
      refine .run_bind (.run_lift (unlock_repays mutexless_none ?_))
      cases result with
      | ok => exact .pure rfl
      | error => exact .pure rfl

/-- Each call ends owing what it may. -/
theorem body_repays (call : LockingCall) :
    call.body.Repays DriverLock.rank TxRequest.use Debts.none call.Ends := by
  cases call with
  | tx timestampThread pkt => exact lan9250Tx_repays timestampThread pkt
  | rx bufDataSize => exact repays_fromDriver (lan9250Rx_repays bufDataSize)
  | setFilter filter => exact repays_fromDriver (setConfigFilter_repays filter)

end Calls

/-! ### Threads which send at once -/

/-- A frame of one byte waits, and everything succeeds. -/
def oneFrame : (request : TxRequest) → Option (TxResponse request)
  | .driver (.readSysReg address) =>
      some (.ok (if address = rxFifoInf ∨ address = rxStatusFifo then 0x00010000 else 0))
  | .driver (.readBuf len) => some (.ok (List.replicate len 0))
  | .driver (.rxAlloc _) => some (some ⟨0, [[]]⟩)
  | .driver (.recvData _) => some true
  | _ => none

/-- The thread which receives, and those which send. -/
inductive FrameThread where
  | receiver
  | sender (index : Nat)
deriving DecidableEq, Repr

/-- The threads of the driver, with the locks. -/
abbrev Senders := Threads lockDevice DriverLock FrameThread LockingCall (Except Errno Unit)

/-- The units of `tx_rx_sem`, while both mutexes are free. -/
def semCount (units : Nat) : LockCounts
  | .txRxSem => units
  | .mutex _ => 1

/-- Nobody is in a call. -/
def resting (units : Nat) : Senders := ⟨semCount units, fun _ => none⟩

/-- One thread receives the frame, from beginning to end. -/
def receiveOne : List (FrameThread × Lock.Turn lockDevice LockingCall) :=
  (.receiver, .begin (.rx 1)) :: List.replicate 9 (.receiver, .go oneFrame)

/-- The semaphore is updated by itself. -/
theorem semCount_update (units units' : Nat) :
    Function.update (semCount units) .txRxSem units' = semCount units' := by
  funext lock
  cases lock <;> rfl

/-- A thread receives a frame and gives a unit. -/
private theorem frame_received (units : Nat) : ∃ events,
    (lockingThreads FrameThread).Run (System.unguarded _) (resting units) receiveOne events
      (resting (min (units + 1) DriverLock.txRxSem.limit)) ∧
      events.countP (Event.isPromise .txRxSem) = 1 := by
  have rests {state : lockDevice.State} {calls} (receives : calls .receiver = none)
      (sends : ∀ index, calls (.sender index) = none) :
      (⟨state, calls⟩ : Senders) = ⟨state, fun _ => none⟩ := by
    refine congrArg (fun calls => (⟨state, calls⟩ : Senders)) (funext fun thread => ?_)
    cases thread with
    | receiver => exact receives
    | sender index => exact sends index
  have executed : System.execute (driverLocks.step LockingCall.body) (fun _ _ => true)
      (resting units) receiveOne = some ([.promised .receiver (.rx 1) .txRxSem,
        .ended .receiver (.rx 1) (.ok ()) _],
        ⟨Function.update (semCount units) .txRxSem
          (min (units + 1) DriverLock.txRxSem.limit), _⟩) := rfl
  rw [rests rfl fun _ => rfl, semCount_update] at executed
  exact ⟨_, System.unguarded_run_of_execute executed, rfl⟩

/-- Each frame which is received leaves one more unit. -/
private theorem frames_received {frames : Nat} (room : frames < DriverLock.txRxSem.limit) :
    ∃ choices events,
      (lockingThreads FrameThread).Run (System.unguarded _) (resting 1) choices events
        (resting (frames + 1)) ∧ events.countP (Event.isPromise .txRxSem) = frames := by
  induction frames with
  | zero => exact ⟨[], [], .refl, rfl⟩
  | succ frames inductionHypothesis =>
      obtain ⟨choices, events, run, handed⟩ := inductionHypothesis (by omega)
      obtain ⟨more, received, one⟩ := frame_received (frames + 1)
      rw [Nat.min_eq_left (by omega)] at received
      refine ⟨_, _, run.trans received, ?_⟩
      rw [List.countP_append, handed, one]

/-- While there is a unit, one more thread begins to send. -/
private theorem sender_enters {calls} {thread : FrameThread} {units : Nat} (pkt : NetPkt)
    (idle : calls thread = none) :
    ∃ choices debts program, debts .txRxSem = true ∧
      (lockingThreads FrameThread).Run (System.unguarded _)
        (⟨semCount (units + 1), calls⟩ : Senders) choices []
        ⟨semCount units, Function.update calls thread (some (.tx false pkt, debts, program))⟩ := by
  have begun : driverLocks.step LockingCall.body ⟨semCount (units + 1), calls⟩
      (thread, .begin (.tx false pkt)) =
      some ([], ⟨semCount (units + 1), Function.update calls thread
        (some (.tx false pkt, Debts.none, LockingCall.body (.tx false pkt)))⟩) := by
    simp only [step, idle]
  obtain ⟨sending, read⟩ : ∃ sending, driverLocks.step LockingCall.body
      ⟨semCount (units + 1), Function.update calls thread
        (some (.tx false pkt, Debts.none, LockingCall.body (.tx false pkt)))⟩
      (thread, .go oneFrame) =
      some ([], ⟨semCount (units + 1), Function.update calls thread
        (some (.tx false pkt, Debts.none, .ask .semTake sending))⟩) := by
    simp only [step, Function.update_self, Function.update_idem]
    exact ⟨_, rfl⟩
  have taken : driverLocks.step LockingCall.body ⟨semCount (units + 1), Function.update calls thread
      (some (.tx false pkt, Debts.none, .ask .semTake sending))⟩ (thread, .go oneFrame) =
      some ([], ⟨semCount units, Function.update calls thread
        (some (.tx false pkt, (Use.take DriverLock.txRxSem).after Debts.none, sending ()))⟩) := by
    rw [← semCount_update (units + 1) units]
    simp only [step, Function.update_self, Function.update_idem]
    rfl
  have first : (lockingThreads FrameThread).Run (System.unguarded _) _ _ _ _ :=
    .single trivial begun
  have second : (lockingThreads FrameThread).Run (System.unguarded _) _ _ _ _ :=
    .single trivial read
  exact ⟨_, _, _, rfl, (first.trans second).trans (.single trivial taken)⟩

/-- While there are units, threads begin to send one after another. -/
private theorem senders_enter (units : Nat) (pkts : Nat → NetPkt) (senders : Nat) :
    senders ≤ units → ∃ choices calls,
      (lockingThreads FrameThread).Run (System.unguarded _) (resting units) choices []
        (⟨semCount (units - senders), calls⟩ : Senders) ∧
      (∀ index, index < senders → ∃ debts rest,
        calls (.sender index) = some (.tx false (pkts index), debts, rest) ∧
          debts .txRxSem = true) ∧
      ∀ index, senders ≤ index → calls (.sender index) = none := by
  induction senders with
  | zero => exact fun _ => ⟨[], _, .refl, by simp, fun _ _ => rfl⟩
  | succ senders inductionHypothesis =>
      intro enough
      obtain ⟨choices, before, run, inside, idle⟩ := inductionHypothesis (by omega)
      have unit : units - senders = units - (senders + 1) + 1 := by omega
      rw [unit] at run
      obtain ⟨more, debts, program, owes, entered⟩ :=
        sender_enters (pkts senders) (idle senders (Nat.le_refl _))
      refine ⟨_, _, run.trans entered, fun index less => ?_, fun index beyond => ?_⟩
      · by_cases last : index = senders
        · subst last
          exact ⟨debts, program, Function.update_self .., owes⟩
        · obtain ⟨debts', rest, earlier, owes'⟩ := inside index (by omega)
          have other : FrameThread.sender index ≠ .sender senders := by simpa using last
          exact ⟨debts', rest, (Function.update_of_ne other ..).trans earlier, owes'⟩
      · have different : FrameThread.sender index ≠ .sender senders := by
          simp only [ne_eq, FrameThread.sender.injEq]
          omega
        exact (Function.update_of_ne different ..).trans (idle index (by omega))

/-! ### Runs -/

section Runs

variable {ThreadId : Type} [DecidableEq ThreadId]
  {start finish : Threads lockDevice DriverLock ThreadId LockingCall (Except Errno Unit)}
  {choices : List (ThreadId × Lock.Turn lockDevice LockingCall)}
  {events : List (Semaphores.Event DriverLock ThreadId LockingCall (Except Errno Unit))}

/-- In every run the count of `tx_rx_sem`, the threads with a unit and the failed transmissions
which kept theirs account for the first unit and one for each frame handed to the stack. -/
theorem tx_rx_sem_accounted (unit : driverLocks.count start.state .txRxSem = 1)
    (initial : (lockingThreads ThreadId).Initial start)
    (run : (lockingThreads ThreadId).Run (System.unguarded _) start choices events finish) :
    ∃ holders : Finset ThreadId,
      (∀ thread, thread ∈ holders ↔ finish.debts thread .txRxSem = true) ∧
      (1 + events.countP (Event.isPromise .txRxSem) ≤ DriverLock.txRxSem.limit →
        driverLocks.count finish.state .txRxSem + holders.card +
            events.countP (Event.isLoss .txRxSem) =
          1 + events.countP (Event.isPromise .txRxSem)) ∧
      (∀ event ∈ events, event.isLoss .txRxSem = true → ∃ thread timestampThread pkt error debts,
        event = .ended thread (.tx timestampThread pkt) (.error error) debts) ∧
      (events.countP (Event.isPromise DriverLock.txRxSem) = 0 → ∀ thread other,
        finish.debts thread .txRxSem = true → finish.debts other .txRxSem = true →
        thread = other) := by
  obtain ⟨accounts, _, met⟩ := units_accounted body_repays initial run
  obtain ⟨holders, exactly, _, accounted⟩ := accounts .txRxSem
  rw [unit] at accounted
  refine ⟨holders, exactly, accounted, ?_, ?_⟩
  · intro event member lost
    cases event with
    | promised => cases lost
    | ended thread call result debts =>
        have ends : call.Ends result debts := met _ member
        have owes : debts .txRxSem = true := lost
        cases call with
        | tx timestampThread pkt =>
            obtain ⟨error, rfl⟩ := ends.2 owes
            exact ⟨thread, timestampThread, pkt, error, debts, rfl⟩
        | rx | setFilter =>
            obtain rfl : debts = Debts.none := ends
            cases owes
  · intro none thread other holds holds'
    have total := accounted (by rw [none]; decide)
    have alone : holders.card ≤ 1 := by omega
    exact Finset.card_le_one.mp alone thread ((exactly thread).mpr holds) other
      ((exactly other).mpr holds')

/-- A frame is received, and then two threads are in `lan9250_tx` with a unit each. -/
theorem frame_then_two_senders : ∃ choices events finish,
    (lockingThreads FrameThread).Run (System.unguarded _) (resting 1) choices events finish ∧
      finish.debts (.sender 0) .txRxSem = true ∧ finish.debts (.sender 1) .txRxSem = true ∧
      ∃ holders : Finset FrameThread,
        (∀ thread, thread ∈ holders ↔ finish.debts thread .txRxSem = true) ∧
        driverLocks.count finish.state .txRxSem + holders.card +
          events.countP (Event.isLoss .txRxSem) = 2 := by
  obtain ⟨choices, events, received, handed⟩ :=
    frames_received (show 1 < DriverLock.txRxSem.limit by decide)
  obtain ⟨more, calls, entered, inside, _⟩ := senders_enter 2 (fun _ => ⟨0, []⟩) 2 (by decide)
  obtain ⟨_, _, first, owes⟩ := inside 0 (by decide)
  obtain ⟨_, _, second, owes'⟩ := inside 1 (by decide)
  have handed : (events ++ []).countP (Event.isPromise DriverLock.txRxSem) = 1 := by
    rw [List.append_nil, handed]
  obtain ⟨holders, exactly, accounted, _, _⟩ :=
    tx_rx_sem_accounted rfl (fun _ => rfl) (received.trans entered)
  rw [handed] at accounted
  exact ⟨_, _, _, received.trans entered, by simpa [Threads.debts, first] using owes,
    by simpa [Threads.debts, second] using owes', holders, exactly, accounted (by decide)⟩

omit [DecidableEq ThreadId] in
/-- A mutex which is taken is a call's in progress. -/
private theorem mutex_owed
    (accounted : ∀ lock, finish.Accounted driverLocks lock (semCount 1 lock) events)
    (met : ∀ event ∈ events, event.Meets driverLocks LockingCall.Ends) {mutex : Mutex}
    (taken : driverLocks.count finish.state (.mutex mutex) = 0) :
    ∃ thread, finish.debts thread (.mutex mutex) = true := by
  obtain ⟨holders, exactly, _, accounted⟩ := accounted (.mutex mutex)
  have promises : events.countP (Event.isPromise (.mutex mutex)) = 0 := by
    refine List.countP_eq_zero.mpr fun event member promised => ?_
    cases event with
    | ended => cases promised
    | promised _ _ lock =>
        obtain ⟨request, use⟩ := met _ member
        obtain rfl := of_decide_eq_true promised
        cases request with
        | driver request => cases request <;> cases use
        | _ => cases use
  have losses : events.countP (Event.isLoss (.mutex mutex)) = 0 := by
    refine List.countP_eq_zero.mpr fun event member lost => ?_
    cases event with
    | promised => cases lost
    | ended _ call result debts =>
        have ends : call.Ends result debts := met _ member
        have kept : debts (.mutex mutex) = true := lost
        cases call with
        | tx => exact absurd ((ends.1 mutex).symm.trans kept) Bool.false_ne_true
        | rx | setFilter =>
            obtain rfl : debts = Debts.none := ends
            cases kept
  rw [taken, promises, losses] at accounted
  have one : 0 + holders.card + 0 = 1 := accounted (Nat.le_refl _)
  obtain ⟨thread, member⟩ := Finset.card_pos.mp (show 0 < holders.card by omega)
  exact ⟨thread, (exactly thread).mp member⟩

/-- Whenever each of the calls in progress waits for a lock, all of them wait for `tx_rx_sem`, no
call has a lock, and as many transmissions have failed with their units as there have been
units. -/
theorem stuck_without_units (free : driverLocks.count start.state = semCount 1)
    (initial : (lockingThreads ThreadId).Initial start)
    (run : (lockingThreads ThreadId).Run (System.unguarded _) start choices events finish)
    (stuck : ∀ thread, finish.calls thread ≠ none →
      ∃ lock, finish.Waits driverLocks thread lock)
    {thread : ThreadId} (busy : finish.calls thread ≠ none) :
    finish.Waits driverLocks thread .txRxSem ∧ (∀ other lock, finish.debts other lock = false) ∧
      (1 + events.countP (Event.isPromise .txRxSem) ≤ DriverLock.txRxSem.limit →
        events.countP (Event.isLoss .txRxSem) =
          1 + events.countP (Event.isPromise .txRxSem)) := by
  obtain ⟨accounts, solvent, met⟩ := units_accounted body_repays initial run
  rw [free] at accounts
  have bounded : ∀ lock : DriverLock, driverLocks.rank lock ≤ 1 := by
    rintro (_ | _)
    · exact Nat.zero_le _
    · exact Nat.le_refl _
  -- A mutex somebody waits for has an owner, so what is wanting in the end is a unit.
  have starves : ∀ {thread lock}, finish.Waits driverLocks thread lock →
      lock = .txRxSem ∧ ∀ other, finish.debts other .txRxSem = false := by
    intro thread lock waits
    obtain ⟨starved, wanted, waits', unowed, above⟩ := exists_starving bounded solvent stuck waits
    obtain ⟨_, _, _, _, _, _, none⟩ := waits'
    cases wanted with
    | mutex mutex =>
        obtain ⟨owner, owes⟩ := mutex_owed accounts met none
        exact absurd ((unowed owner).symm.trans owes) Bool.false_ne_true
    | txRxSem =>
        rcases above with rfl | above
        · exact ⟨rfl, unowed⟩
        · exact absurd above (Nat.not_lt_zero _)
  have waits : ∀ {thread}, finish.calls thread ≠ none →
      finish.Waits driverLocks thread .txRxSem := by
    intro thread busy
    obtain ⟨lock, waits⟩ := stuck thread busy
    obtain ⟨rfl, _⟩ := starves waits
    exact waits
  have unowed := (starves (waits busy)).2
  have nothing : ∀ other lock, finish.debts other lock = false := by
    intro other lock
    cases lock with
    | txRxSem => exact unowed other
    | mutex mutex =>
        by_contra owes
        have busy : finish.calls other ≠ none := by
          intro idle
          simp [Threads.debts, idle, Debts.none] at owes
        obtain ⟨call, debts, request, next, running, takes, _⟩ := waits busy
        obtain ⟨allowed, _⟩ := solvent other call debts _ running
        rw [takes] at allowed
        refine absurd (allowed (.mutex mutex) ?_) (Nat.not_lt_zero _)
        simpa [Threads.debts, running] using owes
  refine ⟨waits busy, nothing, fun room => ?_⟩
  obtain ⟨holders, exactly, _, accounted⟩ := accounts .txRxSem
  obtain ⟨_, _, _, _, _, _, none⟩ := waits busy
  have empty : holders = ∅ := Finset.eq_empty_of_forall_notMem fun other member =>
    absurd ((nothing other .txRxSem).symm.trans ((exactly other).mp member)) Bool.false_ne_true
  have total := accounted room
  rw [none, empty, Finset.card_empty] at total
  simpa [semCount] using total

/-- Every write fails. -/
def failingWrites : (request : TxRequest) → Option (TxResponse request)
  | .driver (.readSysReg _) => some (.ok 0)
  | .driver (.writeSysReg _ _) => some (.error (.spi 5))
  | _ => none

/-- One transmission fails with the only unit; the next one waits for ever. -/
theorem one_failure_stuck : ∃ choices events finish,
    (lockingThreads FrameThread).Run (System.unguarded _) (resting 1) choices events finish ∧
      finish.Waits driverLocks (.sender 1) .txRxSem ∧
      events.countP (Event.isLoss .txRxSem) = 1 + events.countP (Event.isPromise .txRxSem) := by
  obtain ⟨events, finish, executed, handed, waits, others⟩ : ∃ events finish,
      System.execute (driverLocks.step LockingCall.body) (fun _ _ => true) (resting 1)
        ((.sender 0, .begin (.tx false ⟨0, []⟩)) ::
          (List.replicate 4 (.sender 0, .go failingWrites) ++
            [(.sender 1, .begin (.tx false ⟨1, []⟩)), (.sender 1, .go failingWrites)])) =
        some (events, finish) ∧
      events.countP (Event.isPromise .txRxSem) = 0 ∧
      finish.Waits driverLocks (.sender 1) .txRxSem ∧
      ∀ thread, thread ≠ .sender 1 → finish.calls thread = none := by
    refine ⟨_, _, rfl, rfl, ⟨_, _, _, _, rfl, rfl, rfl⟩, ?_⟩
    rintro (_ | _ | _ | index) different
    · rfl
    · rfl
    · exact absurd rfl different
    · rfl
  have run : (lockingThreads FrameThread).Run (System.unguarded _) (resting 1) _ events finish :=
    System.unguarded_run_of_execute executed
  have busy : finish.calls (.sender 1) ≠ none := by
    obtain ⟨_, _, _, _, running, _⟩ := waits
    simp [running]
  have stuck : ∀ thread, finish.calls thread ≠ none →
      ∃ lock, finish.Waits driverLocks thread lock := by
    intro thread inside
    by_cases same : thread = .sender 1
    · exact ⟨.txRxSem, same ▸ waits⟩
    · exact absurd (others thread same) inside
  obtain ⟨waits, _, lost⟩ := stuck_without_units rfl (fun _ => rfl) run stuck busy
  exact ⟨_, events, finish, run, waits, lost (by rw [handed]; decide)⟩

end Runs

/-- `tx_rx_sem` does not keep senders apart: whatever is sent, there is a run which hands any number
of frames to the stack and in which one thread more than these is then between taking and
giving. -/
theorem senders_together {frames : Nat} (room : frames < DriverLock.txRxSem.limit)
    (pkts : Nat → NetPkt) : ∃ choices events finish,
      (lockingThreads FrameThread).Run (System.unguarded _) (resting 1) choices events finish ∧
      events.countP (Event.isPromise .txRxSem) = frames ∧ ∀ index, index ≤ frames →
        ∃ debts rest, finish.calls (.sender index) = some (.tx false (pkts index), debts, rest) ∧
          debts .txRxSem = true := by
  obtain ⟨choices, events, received, handed⟩ := frames_received room
  obtain ⟨more, calls, entered, inside, _⟩ :=
    senders_enter (frames + 1) pkts (frames + 1) (Nat.le_refl _)
  refine ⟨_, _, _, received.trans entered, ?_, fun index less => inside index (by omega)⟩
  rw [List.append_nil, handed]

/-- Two frames, and three threads in `lan9250_tx`. -/
theorem two_frames_three_senders : ∃ choices events finish,
    (lockingThreads FrameThread).Run (System.unguarded _) (resting 1) choices events finish ∧
      events.countP (Event.isPromise .txRxSem) = 2 ∧ ∀ index, index ≤ 2 →
        ∃ debts rest, finish.calls (.sender index) = some (.tx false ⟨0, []⟩, debts, rest) ∧
          debts .txRxSem = true :=
  senders_together (show 2 < DriverLock.txRxSem.limit by decide) fun _ => ⟨0, []⟩

end Rp2350Stepper.Lan9250
