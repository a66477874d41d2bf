import Rp2350Stepper.Lan9250.Ptp

/-!
# RX timestamps

`lan9250_1588_rx_pending_expire` and `lan9250_1588_rx_timestamp_check`. The check
is cut at its labels and loops: the search of `rx_unclaimed`, the part between it
and the label `queue` (whose `goto`s are early returns here), and the queueing.

The `diag_` counters, which are only printed, are left out.
-/

namespace Rp2350Stepper.Lan9250

open Rp2350Stepper.Data

/-- One round of the first loop of `lan9250_1588_rx_pending_expire`. -/
def expirePending (now : Int) (slot : Fin rxPendingMax) : Code Unit := do
  let pending ← call .loadPending
  match pending slot with
  | none => return
  | some entry =>
      if entry.deadline ≤ now then
        call (.log (.rxPendingExpired entry.key))
        call (.pktUnref entry.pkt)
        call (.storePending (pending.release slot))

/-- One round of its second loop. -/
def expireUnclaimed (now : Int) (slot : Fin rxPendingMax) : Code Unit := do
  let unclaimed ← call .loadUnclaimed
  match unclaimed slot with
  | none => return
  | some entry =>
      if entry.deadline ≤ now then
        call (.log (.rxUnclaimedExpired entry.key))
        call (.storeUnclaimed (unclaimed.release slot))

/-- `lan9250_1588_rx_pending_expire`. -/
def rxPendingExpire (now : Int) : Code Unit := do
  (List.finRange rxPendingMax).forM (expirePending now)
  (List.finRange rxPendingMax).forM (expireUnclaimed now)

/-- Attach an event which was captured before the frame was read. -/
def attachUnclaimed (pkt : PktId) (key : MsgKey) : Code Bool := do
  let unclaimed ← call .loadUnclaimed
  match unclaimed.find? fun entry => entry.key == key with
  | none => return false
  | some (slot, entry) =>
      call (.setTimestamp pkt entry.time)
      call (.log (.rxMatchedUnclaimed entry.key entry.time))
      call (.storeUnclaimed (unclaimed.release slot))
      return true

/-- Attach an event to the pending earlier frame it belongs to. -/
def attachPending (hwKey : MsgKey) (time : PtpTime) : Code Bool := do
  let pending ← call .loadPending
  match pending.find? fun entry => entry.key == hwKey with
  | none => return false
  | some (slot, entry) =>
      call (.setTimestamp entry.pkt time)
      call (.log (.rxMatchedPending hwKey time))
      call (.pktUnref entry.pkt)
      call (.storePending (pending.release slot))
      return true

/-- The slot of `rx_unclaimed` to fill: a free one, or that of the oldest event. -/
def unclaimedSlot (unclaimed : UnclaimedTable) : Code (Fin rxPendingMax) :=
  match unclaimed.free? with
  | some slot => return slot
  | none => do
      let slot := unclaimed.oldest (·.deadline)
      if let some evicted := unclaimed slot then
        call (.log (.rxUnclaimedEvicted evicted.key))
      return slot

/-- Stash an event nothing is known to match. -/
def stashUnclaimed (hwKey : MsgKey) (time : PtpTime) (key : MsgKey) : Code Unit := do
  let unclaimed ← call .loadUnclaimed
  let slot ← unclaimedSlot unclaimed
  let now ← call .uptimeGet
  call (.storeUnclaimed (unclaimed.fill slot ⟨hwKey, time, now + rxPendingTimeoutMs⟩))
  call (.log (.rxStashedUnclaimed hwKey key))

/-- The registers of the oldest captured ingress event. -/
def readIngress : Driver (MsgKey × PtpTime) := do
  let msgHeader ← readSysReg rxMsgHeader
  let sec ← readSysReg rxIngressSec
  let ns ← readSysReg rxIngressNs
  return (msgHeaderKey msgHeader, ⟨sec, ns⟩)

/-- Attach an acknowledged event to the frame or to a pending earlier one, or stash it;
whether it belongs to the frame. -/
def settleIngress (pkt : PktId) (key hwKey : MsgKey) (time : PtpTime) : Code Bool := do
  if hwKey = key then
    call (.setTimestamp pkt time)
    call (.log (.rxTimestamp hwKey time))
    return true
  let matchedPending ← attachPending hwKey time
  if !matchedPending then stashUnclaimed hwKey time key
  return false

/-- Drain one captured event if one is ready; whether it belongs to the frame. -/
def drainIngress (pkt : PktId) (key : MsgKey) : Code Bool := do
  let .ok _ ← (ieee1588BankSelect bankSelPortGeneral).run
    | do call (.log .rxBankSelectFailed); return false
  let .ok info ← (readSysReg capInfo).run
    | do call (.log .rxCapInfoReadFailed); return false
  if info &&& capInfoRxTsCntMask = 0 then return false
  let .ok _ ← (ieee1588BankSelect bankSelPortRx).run | return false
  let .ok (hwKey, time) ← readIngress.run | return false
  let _ ← (writeSysReg ieee1588IntSts intStsRxTsInt).run
  settleIngress pkt key hwKey time

/-- The slot of `rx_pending` to fill: a free one, or that of the oldest frame, whose
reference is given up. -/
def pendingSlot (pending : PendingTable) : Code (Fin rxPendingMax) :=
  match pending.free? with
  | some slot => return slot
  | none => do
      let slot := pending.oldest (·.deadline)
      if let some evicted := pending slot then
        call (.log (.rxPendingEvicted evicted.key))
        call (.pktUnref evicted.pkt)
      return slot

/-- Park a frame until its event shows up. -/
def queuePending (pkt : PktId) (key : MsgKey) : Code Unit := do
  let pending ← call .loadPending
  let slot ← pendingSlot pending
  call (.pktRef pkt)
  let now ← call .uptimeGet
  call (.storePending (pending.fill slot ⟨pkt, key, now + rxPendingTimeoutMs⟩))
  call (.log (.rxAddedToPending key))

/-- Everything up to the label `queue`; whether the frame has its timestamp there. -/
def attachEvent (pkt : PktId) (key : MsgKey) : Code Bool := do
  let attached ← attachUnclaimed pkt key
  if attached then return true
  drainIngress pkt key

/-- `lan9250_1588_rx_timestamp_check` on a frame it recognizes. -/
def rxTimestampMatch (pkt : PktId) (key : MsgKey) : Code Unit := do
  call (.mutexLock .bankLock)
  let now ← call .uptimeGet
  rxPendingExpire now
  let attached ← attachEvent pkt key
  if !attached && msgTypeIsTimestamped key.msgType then queuePending pkt key
  call (.mutexUnlock .bankLock)

/-- The size of `header_buf`. -/
def headerBufSize : Nat := 128

/-- `lan9250_1588_rx_timestamp_check`. `net_pkt_read` fails on a packet with less
data than it is asked for. -/
def rxTimestampCheck (pkt : NetPkt) (pktLen : Nat) : Code Unit := do
  let headerLen := min pktLen headerBufSize
  if pkt.data.length < headerLen then
    call (.log .rxNetPktReadFailed)
    return
  match ptpParseHeader (pkt.data.take headerLen) headerLen with
  | none => return
  | some key => rxTimestampMatch pkt.id key

end Rp2350Stepper.Lan9250
