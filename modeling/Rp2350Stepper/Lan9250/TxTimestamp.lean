import Rp2350Stepper.Lan9250.Ptp

/-! # TX timestamps: `lan9250_1588_tx_timestamp_check` -/

namespace Rp2350Stepper.Lan9250

/-- The polling loop: read `CAP_INFO` until an egress event is queued, sleeping in
between, and return what the last attempt read. -/
def pollCapInfo : Nat → Word → Driver Word
  | 0, info => return info
  | attempts + 1, _ => do
      let info ← readSysReg capInfo
      if info &&& capInfoTxTsCntMask ≠ 0 then return info
      call (.sleep 1)
      pollCapInfo attempts info

/-- The registers of the oldest captured egress event. -/
def readEgress : Driver (MsgKey × PtpTime) := do
  let msgHeader ← readSysReg txMsgHeader
  let sec ← readSysReg txEgressSec
  let ns ← readSysReg txEgressNs
  return (msgHeaderKey msgHeader, ⟨sec, ns⟩)

/-- The part between taking and giving back `bank_lock`, whose `goto out`s are early
returns. -/
def txTimestampMatch (timestampThread : Bool) (pkt : PktId) (key : MsgKey) : Code Unit := do
  let .ok _ ← (ieee1588BankSelect bankSelPortGeneral).run
    | call (.log .txBankSelectGeneralFailed)
  let .ok info ← (pollCapInfo txTsPollAttempts 0).run
    | call (.log .txCapInfoReadFailed)
  if info &&& capInfoTxTsCntMask = 0 then return
  let .ok _ ← (ieee1588BankSelect bankSelPortTx).run
    | call (.log .txBankSelectFailed)
  let .ok (hwKey, time) ← readEgress.run
    | call (.log .txReadsFailed)
  if hwKey = key then
    call (.setTimestamp pkt time)
    if timestampThread then call (.addTxTimestamp pkt)
    call (.log (.txTimestamp hwKey time))
  else
    call (.log (.txDroppingStaleEvent hwKey key))
  let _ ← (writeSysReg ieee1588IntSts intStsTxTsInt).run

/-- `lan9250_1588_tx_timestamp_check`; `timestampThread` is
`CONFIG_NET_PKT_TIMESTAMP_THREAD`. -/
def txTimestampCheck (timestampThread : Bool) (pkt : PktId) (frame : List Byte) (len : Nat) :
    Code Unit := do
  match ptpParseHeader frame len with
  | none => return
  | some key =>
      call (.mutexLock .bankLock)
      txTimestampMatch timestampThread pkt key
      call (.mutexUnlock .bankLock)

end Rp2350Stepper.Lan9250
