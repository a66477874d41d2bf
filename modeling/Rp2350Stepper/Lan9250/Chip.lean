import Rp2350Stepper.Data.Fifo
import Rp2350Stepper.Lan9250.Registers

/-!
# The chip

What the driver relies on in the LAN9250: the RX status and data FIFOs, the two
queues of captured PTP events behind the bank select register, and the Host MAC
register interface. Registers the modelled functions never touch read and write
as plain memory.

A read returns the value together with the chip after it, for reading either RX
FIFO consumes what was read.
-/

namespace Rp2350Stepper.Lan9250

open Rp2350Stepper.Data

/-- The pad which rounds a frame up to a DWORD boundary. -/
def endPad (frameLen : Nat) : Nat := (4 - frameLen % 4) % 4

/-- The frame length an RX status word reports. -/
def packetLen (status : Word) : Nat := ((status &&& rxStsPacketLen) >>> 16).toNat

/-- A received frame, as the chip has stored it. -/
structure Frame where
  bytes : List Byte
  /-- Its RX status word, of which the driver reads the length. -/
  status : Word
  /-- What the offset and padding bytes read as. -/
  filler : Byte
  nonempty : 0 < bytes.length
  reported : packetLen status = bytes.length
deriving DecidableEq, Repr

/-- The bytes of a frame in the RX data FIFO: the start offset, the frame, and the
end padding. -/
def Frame.layout (frame : Frame) : List Byte :=
  List.replicate 4 frame.filler ++ frame.bytes ++
    List.replicate (endPad frame.bytes.length) frame.filler

/-- A message is identified by its `messageType` and `sequenceId`. -/
structure MsgKey where
  msgType : BitVec 8
  seqId : BitVec 16
deriving DecidableEq, Repr

/-- A captured ingress or egress event. -/
structure Capture where
  msgHeader : Word
  sec : Word
  ns : Word
deriving DecidableEq, Repr

/-- The key in the fields of a `MSG_HEADER` register. -/
def msgHeaderKey (msgHeader : Word) : MsgKey where
  msgType := ((msgHeader &&& msgHeaderMsgTypeMask) >>> msgHeaderMsgTypeShift).setWidth 8
  seqId := (msgHeader &&& msgHeaderSeqIdMask).setWidth 16

/-- The message a captured event belongs to. -/
def Capture.key (capture : Capture) : MsgKey := msgHeaderKey capture.msgHeader

/-- The RX status FIFO holds 512 bytes of status words. -/
def rxStatusDepth : Nat := 128

/-- The depth of the capture queues. -/
def captureDepth : Nat := 4

/-- The chip, as far as the driver sees it. -/
structure Chip where
  rxStatus : Fifo Word rxStatusDepth
  rxData : List Byte
  bank : Word
  rxCaptures : Fifo Capture captureDepth
  txCaptures : Fifo Capture captureDepth
  /-- `MAC_CSR_CMD`, whose busy bit stays set until the MAC has executed it. -/
  macCmd : Word
  macData : Word
  hmac : MacAddress → Word
  /-- Every other register. -/
  regs : Address → Word

namespace Chip

/-- Four bytes as a little-endian word; bytes that are not there read as 0. -/
def wordOfBytes (bytes : List Byte) : Word :=
  bytes.getD 3 0 ++ bytes.getD 2 0 ++ bytes.getD 1 0 ++ bytes.getD 0 0

/-- The events the selected bank shows the oldest of. -/
def bankCaptures (chip : Chip) : List Capture :=
  if chip.bank = bankSelPortRx then chip.rxCaptures.items
  else if chip.bank = bankSelPortTx then chip.txCaptures.items
  else []

/-- Read a register which may show the oldest event of the selected bank. -/
def readBanked (chip : Chip) (address : Address) : Word :=
  match chip.bankCaptures with
  | [] => chip.regs address
  | capture :: _ =>
      if address = rxMsgHeader then capture.msgHeader
      else if address = rxIngressSec then capture.sec
      else if address = rxIngressNs then capture.ns
      else chip.regs address

/-- Read a system register. -/
def read (chip : Chip) (address : Address) : Word × Chip :=
  if address = rxFifoInf then
    (BitVec.ofNat 32 chip.rxStatus.items.length <<< 16 |||
      (BitVec.ofNat 16 chip.rxData.length).setWidth 32, chip)
  else if address = rxStatusFifo then
    match chip.rxStatus.pop? with
    | some (status, rxStatus) => (status, { chip with rxStatus := rxStatus })
    | none => (0, chip)
  else if address = rxDataFifo then
    (wordOfBytes (chip.rxData.take 4), { chip with rxData := chip.rxData.drop 4 })
  else if address = macCsrCmd then (chip.macCmd, chip)
  else if address = macCsrData then (chip.macData, chip)
  else if address = capInfo ∧ chip.bank = bankSelPortGeneral then
    (BitVec.ofNat 32 chip.txCaptures.items.length <<< capInfoTxTsCntShift |||
      BitVec.ofNat 32 chip.rxCaptures.items.length, chip)
  else (chip.readBanked address, chip)

/-- Read bytes from the RX data FIFO. -/
def readData (chip : Chip) (len : Nat) : List Byte × Chip :=
  (chip.rxData.take len, { chip with rxData := chip.rxData.drop len })

/-- Drop the oldest event of a capture queue. -/
def dropOldest (captures : Fifo Capture captureDepth) : Fifo Capture captureDepth :=
  match captures.pop? with
  | some (_, rest) => rest
  | none => captures

/-- Write a system register. -/
def write (chip : Chip) (address : Address) (value : Word) : Chip :=
  if address = bankPortGpioSel then { chip with bank := value }
  else if address = ieee1588IntSts then
    { chip with
      rxCaptures :=
        if value &&& intStsRxTsInt = 0 then chip.rxCaptures else dropOldest chip.rxCaptures
      txCaptures :=
        if value &&& intStsTxTsInt = 0 then chip.txCaptures else dropOldest chip.txCaptures }
  else if address = macCsrCmd then { chip with macCmd := value }
  else if address = macCsrData then { chip with macData := value }
  else { chip with regs := fun other => if other = address then value else chip.regs other }

/-! ### What the chip does on its own -/

/-- A frame arrives: its status word and its data are stored together, unless the
status FIFO is full. -/
def receive? (chip : Chip) (frame : Frame) : Option Chip :=
  (chip.rxStatus.push? frame.status).map fun rxStatus =>
    { chip with rxStatus := rxStatus, rxData := chip.rxData ++ frame.layout }

/-- An ingress event is captured, unless the queue is full. -/
def captureRx? (chip : Chip) (capture : Capture) : Option Chip :=
  (chip.rxCaptures.push? capture).map fun rxCaptures => { chip with rxCaptures := rxCaptures }

/-- An egress event is captured, unless the queue is full. -/
def captureTx (chip : Chip) (capture : Capture) : Chip :=
  match chip.txCaptures.push? capture with
  | some txCaptures => { chip with txCaptures := txCaptures }
  | none => chip

/-- The MAC executes the command it has been given, if any. -/
def executeMac (chip : Chip) : Chip :=
  if chip.macCmd &&& macCsrCmdBusy = 0 then chip
  else
    let address : MacAddress := (chip.macCmd &&& macCsrCmdAddr).setWidth 8
    let settled := { chip with macCmd := chip.macCmd &&& ~~~macCsrCmdBusy }
    if chip.macCmd &&& macCsrCmdRead = 0 then
      { settled with
        hmac := fun other => if other = address then chip.macData else chip.hmac other }
    else { settled with macData := chip.hmac address }

end Chip
end Rp2350Stepper.Lan9250
