import Rp2350Stepper.Lan9250.Receive

/-!
# The parts of the receive path, and their requests

A call of `lan9250_rx` falls into the count and the status word, the dummy read, the
allocation, and the discarding of the frame or the filling of its packet, which is
checked and handed over. The RX timestamp check reads the capture registers and writes
the bank select and the interrupt status; it touches neither RX FIFO. The drain loops
read the RX data FIFO and nothing else.
-/

namespace Rp2350Stepper.Lan9250

open Rp2350Stepper.Data Rp2350Stepper.Semantics

/-! ### Parts -/

/-- `lan9250_rx` from the RX timestamp check on. -/
def handOver (filled : NetPkt) (frameLen : Nat) : Driver Unit := do
  rxTimestampCheck filled frameLen
  let accepted ← call (.recvData filled)
  if !accepted then call (.pktUnref filled.id)
  call .semGive

/-- The delivery is the draining and the hand-over. -/
theorem deliverFrame_eq (bufRxSize frameLen : Nat) (pkt : NetPkt) :
    deliverFrame bufRxSize frameLen pkt = (do
      let frags ← fillFrags bufRxSize frameLen frameLen pkt.frags
      if 0 < endPad frameLen then
        let _ ← readBuf (endPad frameLen)
      handOver { pkt with frags := frags } frameLen) := rfl

/-- `lan9250_rx` from the allocation on. -/
def takePacket (bufRxSize pktLen : Nat) : Driver Unit := do
  match ← call (.rxAlloc pktLen) with
  | none => dropFrame bufRxSize pktLen
  | some pkt => deliverFrame bufRxSize pktLen pkt

/-- `lan9250_rx` from the dummy read on. -/
def takeFrame (bufRxSize pktLen : Nat) : Driver Unit := do
  let _ ← readSysReg rxDataFifo
  if netEthMaxFrameSize < pktLen then
    call (.log .maximumFrameLengthExceeded)
    call .updateErrorsRx
  takePacket bufRxSize pktLen

/-- `lan9250_rx` is the two counts and the rest. -/
theorem lan9250Rx_eq (bufDataSize : Nat) : lan9250Rx bufDataSize = (do
    let info ← readSysReg rxFifoInf
    let status ← readSysReg rxStatusFifo
    if (info &&& rxFifoInfRxsused) >>> 16 = 0 ∨ packetLen status = 0 then return
    else takeFrame (bufDataSize % 2 ^ 16) (packetLen status)) := rfl

/-! ### The RX timestamp check -/

/-- The requests which keep its two tables. -/
def Request.bookkeeping : Request → Prop
  | .uptimeGet | .loadPending | .storePending _ | .loadUnclaimed | .storeUnclaimed _ | .pktRef _
  | .pktUnref _ | .setTimestamp _ _ | .log _ => True
  | _ => False

/-- The requests of the RX timestamp check. -/
def Request.timestamping : Request → Prop
  | .readSysReg address => address ∈ [capInfo, rxMsgHeader, rxIngressSec, rxIngressNs]
  | .writeSysReg address _ => address ∈ [bankPortGpioSel, ieee1588IntSts]
  | .uptimeGet | .mutexLock _ | .mutexUnlock _ | .loadPending | .storePending _
  | .loadUnclaimed | .storeUnclaimed _ | .pktRef _ | .pktUnref _ | .setTimestamp _ _
  | .log _ => True
  | _ => False

/-- Bookkeeping is part of the time stamping. -/
theorem timestamping_of_bookkeeping (request : Request) (known : request.bookkeeping) :
    request.timestamping := by
  cases request <;> first | exact known | exact known.elim

variable {kind : Request → Prop}

/-- Code which asks for one thing. -/
theorem only_call {request : Request} (known : kind request) : (call request).Only kind :=
  Program.only_ask.mpr known

section Timestamping

open Program

/-- The expiry of a held frame is bookkeeping. -/
theorem expirePending_only (now : Int) (slot : Fin rxPendingMax) :
    (expirePending now slot).Only Request.bookkeeping := by
  refine (only_call trivial).bind fun pending => ?_
  split
  · exact only_pure
  · refine only_ite ?_ only_pure
    exact (only_call trivial).bind fun _ => (only_call trivial).bind fun _ => only_call trivial

theorem expireUnclaimed_only (now : Int) (slot : Fin rxPendingMax) :
    (expireUnclaimed now slot).Only Request.bookkeeping := by
  refine (only_call trivial).bind fun unclaimed => ?_
  split
  · exact only_pure
  · refine only_ite ?_ only_pure
    exact (only_call trivial).bind fun _ => only_call trivial

theorem rxPendingExpire_only (now : Int) : (rxPendingExpire now).Only Request.bookkeeping :=
  (Only.forM (expirePending_only now)).bind fun _ => Only.forM (expireUnclaimed_only now)

theorem attachUnclaimed_only (pkt : PktId) (key : MsgKey) :
    (attachUnclaimed pkt key).Only Request.bookkeeping := by
  refine (only_call trivial).bind fun unclaimed => ?_
  split
  · exact only_pure
  · exact (only_call trivial).bind fun _ => (only_call trivial).bind fun _ =>
      (only_call trivial).bind fun _ => only_pure

theorem attachPending_only (hwKey : MsgKey) (time : PtpTime) :
    (attachPending hwKey time).Only Request.bookkeeping := by
  refine (only_call trivial).bind fun pending => ?_
  split
  · exact only_pure
  · exact (only_call trivial).bind fun _ => (only_call trivial).bind fun _ =>
      (only_call trivial).bind fun _ => (only_call trivial).bind fun _ => only_pure

theorem unclaimedSlot_only (unclaimed : UnclaimedTable) :
    (unclaimedSlot unclaimed).Only Request.bookkeeping := by
  unfold unclaimedSlot
  split
  · exact only_pure
  · simp only
    split
    · exact (only_call trivial).bind fun _ => only_pure
    · exact only_pure

theorem stashUnclaimed_only (hwKey : MsgKey) (time : PtpTime) (key : MsgKey) :
    (stashUnclaimed hwKey time key).Only Request.bookkeeping :=
  (only_call trivial).bind fun unclaimed => (unclaimedSlot_only unclaimed).bind fun _ =>
    (only_call trivial).bind fun _ => (only_call trivial).bind fun _ => only_call trivial

theorem settleIngress_only (pkt : PktId) (key hwKey : MsgKey) (time : PtpTime) :
    (settleIngress pkt key hwKey time).Only Request.bookkeeping := by
  refine only_ite ?_ ?_
  · exact (only_call trivial).bind fun _ => (only_call trivial).bind fun _ => only_pure
  · refine (attachPending_only hwKey time).bind fun matched => ?_
    refine only_ite ?_ only_pure
    exact (stashUnclaimed_only hwKey time key).bind fun _ => only_pure

/-- The reading of an event is time stamping. -/
private theorem readIngress_only : readIngress.run.Only Request.timestamping := by
  refine Only.run_bind (only_call (by simp [Request.timestamping])) fun _ => ?_
  refine Only.run_bind (only_call (by simp [Request.timestamping])) fun _ => ?_
  exact Only.run_bind (only_call (by simp [Request.timestamping])) fun _ => only_pure

private theorem drainIngress_only (pkt : PktId) (key : MsgKey) :
    (drainIngress pkt key).Only Request.timestamping := by
  refine Only.bind (only_call (by simp [Request.timestamping])) fun selected => ?_
  cases selected with
  | error => exact (only_call trivial).bind fun _ => only_pure
  | ok _ =>
      refine Only.bind (only_call (by simp [Request.timestamping])) fun counted => ?_
      cases counted with
      | error => exact (only_call trivial).bind fun _ => only_pure
      | ok info =>
          apply only_ite only_pure
          refine Only.bind (only_call (by simp [Request.timestamping])) fun selected => ?_
          cases selected with
          | error => exact only_pure
          | ok _ =>
              refine readIngress_only.bind fun shown => ?_
              cases shown with
              | error => exact only_pure
              | ok value =>
                  refine Only.bind (only_call (by simp [Request.timestamping])) fun _ => ?_
                  exact (settleIngress_only pkt key value.1 value.2).weaken timestamping_of_bookkeeping

/-- The choice of a slot for a frame is bookkeeping. -/
theorem pendingSlot_only (pending : PendingTable) :
    (pendingSlot pending).Only Request.bookkeeping := by
  unfold pendingSlot
  split
  · exact only_pure
  · simp only
    split
    · exact (only_call trivial).bind fun _ => (only_call trivial).bind fun _ => only_pure
    · exact only_pure

theorem queuePending_only (pkt : PktId) (key : MsgKey) :
    (queuePending pkt key).Only Request.bookkeeping :=
  (only_call trivial).bind fun pending => (pendingSlot_only pending).bind fun _ =>
    (only_call trivial).bind fun _ => (only_call trivial).bind fun _ =>
      (only_call trivial).bind fun _ => only_call trivial

/-- What follows the search is time stamping. -/
private theorem attachEvent_only (pkt : PktId) (key : MsgKey) :
    (attachEvent pkt key).Only Request.timestamping :=
  ((attachUnclaimed_only pkt key).weaken timestamping_of_bookkeeping).bind fun _ =>
    only_ite only_pure (drainIngress_only pkt key)

theorem rxTimestampCheck_only (pkt : NetPkt) (pktLen : Nat) :
    (rxTimestampCheck pkt pktLen).Only Request.timestamping := by
  unfold rxTimestampCheck
  apply only_ite ((only_call trivial).bind fun _ => only_pure)
  split
  · exact only_pure
  · refine (only_call trivial).bind fun _ => (only_call trivial).bind fun now => ?_
    refine ((rxPendingExpire_only now).weaken timestamping_of_bookkeeping).bind fun _ =>
      (attachEvent_only _ _).bind fun _ => ?_
    refine only_ite ?_ (only_call trivial)
    exact ((queuePending_only _ _).weaken timestamping_of_bookkeeping).bind fun _ => only_call trivial

end Timestamping

/-! ### The drain loops -/

/-- The requests of the drain loops. -/
def Request.draining : Request → Prop
  | .readBuf _ | .hang | .crash => True
  | _ => False

section Draining

open Program

/-- Discarding a frame is draining. -/
theorem discardFrame_only (bufRxSize rounds pktLen : Nat) :
    (discardFrame bufRxSize rounds pktLen).Only Request.draining := by
  fun_induction discardFrame bufRxSize rounds pktLen with
  | case1 => exact only_pure
  | case2 => exact ⟨trivial, fun stuck => nomatch stuck⟩
  | case3 rounds pktLen inductionHypothesis =>
      refine Only.bind (only_call trivial) fun result => ?_
      cases result with
      | error => exact only_pure
      | ok _ => exact inductionHypothesis

theorem fillFrags_only (bufRxSize rounds pktLen : Nat) (frags : List (List Byte)) :
    (fillFrags bufRxSize rounds pktLen frags).run.Only Request.draining := by
  induction rounds generalizing pktLen frags with
  | zero => exact ⟨trivial, fun stuck => nomatch stuck⟩
  | succ rounds inductionHypothesis =>
      cases frags with
      | nil => exact ⟨trivial, fun stuck => nomatch stuck⟩
      | cons data frags =>
          refine Only.run_bind (only_call trivial) fun bytes => ?_
          simp only
          split
          · exact Only.run_bind (inductionHypothesis _ frags) fun rest => only_pure
          · exact Only.run_bind only_pure fun rest => only_pure

/-- What discards a frame makes requests of these kinds only, and counts the error. -/
theorem dropFrame_only {bufRxSize frameLen : Nat}
    (timestamping : ∀ request : Request, request.timestamping → kind request)
    (draining : ∀ request : Request, request.draining → kind request)
    (counting : kind .updateErrorsRx) : (dropFrame bufRxSize frameLen).Only kind := by
  have asks {request : Request} (known : request.timestamping) : (call request).Only kind :=
    only_call (timestamping request known)
  refine .bind (asks trivial) fun _ => .bind (only_call counting) fun _ => ?_
  refine .bind (asks trivial) fun _ => .bind (asks trivial) fun now => ?_
  refine .bind (((rxPendingExpire_only now).weaken timestamping_of_bookkeeping).weaken
    timestamping) fun _ => ?_
  refine .bind (asks trivial) fun _ => .bind ((discardFrame_only _ _ _).weaken draining) fun _ => ?_
  refine only_ite ?_ only_pure
  exact .bind (only_call (draining (.readBuf _) trivial)) fun _ => only_pure

end Draining
end Rp2350Stepper.Lan9250
