import Rp2350Stepper.Lan9250.RxTimestamp

/-!
# Receiving a frame: `lan9250_rx`

Both drain loops of the source run until `pkt_len` reaches 0. Each round reads at
least one byte unless the buffer size is 0, so `pkt_len` rounds suffice for a loop
which ends at all; one that would need more goes on forever.
-/

namespace Rp2350Stepper.Lan9250

/-- The bytes one round of a drain loop reads. -/
def chunkLen (bufRxSize pktLen : Nat) : Nat := if bufRxSize < pktLen then bufRxSize else pktLen

/-- The loop which discards a frame no packet could be allocated for. -/
def discardFrame (bufRxSize : Nat) : (rounds pktLen : Nat) → Code Unit
  | _, 0 => return
  | 0, _ + 1 => do
      let stuck ← call .hang
      nomatch stuck
  | rounds + 1, pktLen + 1 => do
      let .ok _ ← (readBuf (chunkLen bufRxSize (pktLen + 1))).run | return
      discardFrame bufRxSize rounds (pktLen + 1 - chunkLen bufRxSize (pktLen + 1))

/-- The loop which reads a frame into the buffers of its packet, and what the
buffers hold after it. -/
def fillFrags (bufRxSize : Nat) : (rounds pktLen : Nat) → List (List Byte) →
    Driver (List (List Byte))
  | 0, _, _ => do
      let stuck ← call .hang
      nomatch stuck
  | _ + 1, _, [] => do
      let stuck ← call .crash
      nomatch stuck
  | rounds + 1, pktLen, data :: frags => do
      let dataLen := chunkLen bufRxSize pktLen
      let bytes ← readBuf dataLen
      let rest ←
        if 0 < pktLen - dataLen then fillFrags bufRxSize rounds (pktLen - dataLen) frags
        else pure frags
      return (data ++ bytes) :: rest

/-- The end of `lan9250_rx` when the allocation has failed. -/
def dropFrame (bufRxSize frameLen : Nat) : Code Unit := do
  call (.log .couldNotAllocateRxBuffer)
  call .updateErrorsRx
  call (.mutexLock .bankLock)
  let now ← call .uptimeGet
  rxPendingExpire now
  call (.mutexUnlock .bankLock)
  discardFrame bufRxSize frameLen frameLen
  if 0 < endPad frameLen then
    let _ ← (readBuf (endPad frameLen)).run

/-- The end of `lan9250_rx` when a packet has been allocated. -/
def deliverFrame (bufRxSize frameLen : Nat) (pkt : NetPkt) : Driver Unit := do
  let frags ← fillFrags bufRxSize frameLen frameLen pkt.frags
  if 0 < endPad frameLen then
    let _ ← readBuf (endPad frameLen)
  let filled : NetPkt := { pkt with frags := frags }
  rxTimestampCheck filled frameLen
  let accepted ← call (.recvData filled)
  if !accepted then call (.pktUnref pkt.id)
  call .semGive

/-- `lan9250_rx`; `bufDataSize` is `CONFIG_NET_BUF_DATA_SIZE`. -/
def lan9250Rx (bufDataSize : Nat) : Driver Unit := do
  let bufRxSize := bufDataSize % 2 ^ 16
  let info ← readSysReg rxFifoInf
  let pktcnt := (info &&& rxFifoInfRxsused) >>> 16
  let status ← readSysReg rxStatusFifo
  let pktLen := packetLen status
  if pktcnt = 0 ∨ pktLen = 0 then return
  let _ ← readSysReg rxDataFifo
  if netEthMaxFrameSize < pktLen then
    call (.log .maximumFrameLengthExceeded)
    call .updateErrorsRx
  match ← call (.rxAlloc pktLen) with
  | none => dropFrame bufRxSize pktLen
  | some pkt => deliverFrame bufRxSize pktLen pkt

end Rp2350Stepper.Lan9250
