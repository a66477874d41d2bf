import Rp2350Stepper.Data.SlotTable
import Rp2350Stepper.Lan9250.Chip
import Rp2350Stepper.Semantics.Program

/-!
# What the driver calls

The requests `eth_lan9250.c` makes of the SPI bus, the kernel and the network
stack, and of the fields of `struct lan9250_runtime` it shares between calls. A
`Driver` function is one which may return a negative error early.
-/

namespace Rp2350Stepper.Lan9250

open Rp2350Stepper.Data Rp2350Stepper.Semantics

/-- A negative return value. -/
inductive Errno where
  | eio
  | enotsup
  /-- An error of the SPI driver. -/
  | spi (code : Nat)
deriving DecidableEq, Repr

/-- The address of a `struct net_pkt`. -/
abbrev PktId := Nat

/-- A packet with the data of its buffer fragments. -/
structure NetPkt where
  id : PktId
  frags : List (List Byte)
deriving DecidableEq, Repr

/-- The data of a packet, as `net_pkt_read` goes through it. -/
def NetPkt.data (pkt : NetPkt) : List Byte := pkt.frags.flatten

/-- `struct net_ptp_time`. -/
structure PtpTime where
  second : Word
  nanosecond : Word
deriving DecidableEq, Repr

/-- An occupied slot of `rx_pending`. -/
structure RxPending where
  pkt : PktId
  key : MsgKey
  deadline : Int
deriving DecidableEq, Repr

/-- A valid slot of `rx_unclaimed`. -/
structure RxUnclaimed where
  key : MsgKey
  time : PtpTime
  deadline : Int
deriving DecidableEq, Repr

/-- The mutexes of `struct lan9250_runtime`. -/
inductive Mutex where
  | bankLock
  | hashLock
deriving DecidableEq, Repr

/-- What the modelled functions log. -/
inductive Message where
  | maximumFrameLengthExceeded
  | couldNotAllocateRxBuffer
  | rxNetPktReadFailed
  | rxBankSelectFailed
  | rxCapInfoReadFailed
  | rxPendingExpired (key : MsgKey)
  | rxUnclaimedExpired (key : MsgKey)
  | rxMatchedUnclaimed (key : MsgKey) (time : PtpTime)
  | rxTimestamp (key : MsgKey) (time : PtpTime)
  | rxMatchedPending (key : MsgKey) (time : PtpTime)
  | rxUnclaimedEvicted (key : MsgKey)
  | rxStashedUnclaimed (hw pkt : MsgKey)
  | rxPendingEvicted (key : MsgKey)
  | rxAddedToPending (key : MsgKey)
  | txBankSelectGeneralFailed
  | txCapInfoReadFailed
  | txBankSelectFailed
  | txReadsFailed
  | txTimestamp (key : MsgKey) (time : PtpTime)
  | txDroppingStaleEvent (hw pkt : MsgKey)
deriving DecidableEq, Repr

/-- The slots of `rx_pending`. -/
abbrev PendingTable := SlotTable RxPending rxPendingMax

/-- The slots of `rx_unclaimed`. -/
abbrev UnclaimedTable := SlotTable RxUnclaimed rxPendingMax

/-- `mcast_hash_refcount`. -/
abbrev HashRefcount := Fin 64 → BitVec 8

/-- What the driver's code asks for. -/
inductive Request where
  | readSysReg (address : Address)
  | writeSysReg (address : Address) (value : Word)
  /-- `lan9250_read_buf`. -/
  | readBuf (len : Nat)
  | uptimeGet
  | sleep (ms : Nat)
  | busyWait (usec : Nat)
  | mutexLock (mutex : Mutex)
  | mutexUnlock (mutex : Mutex)
  | loadPending
  | storePending (table : PendingTable)
  | loadUnclaimed
  | storeUnclaimed (table : UnclaimedTable)
  | loadRefcount
  | storeRefcount (counts : HashRefcount)
  /-- `net_pkt_rx_alloc_with_buffer`. -/
  | rxAlloc (len : Nat)
  | pktRef (pkt : PktId)
  | pktUnref (pkt : PktId)
  | setTimestamp (pkt : PktId) (time : PtpTime)
  /-- `net_if_add_tx_timestamp`. -/
  | addTxTimestamp (pkt : PktId)
  /-- `net_recv_data`; whether the stack has taken the packet. -/
  | recvData (pkt : NetPkt)
  | updateErrorsRx
  /-- `k_sem_give` on `tx_rx_sem`. -/
  | semGive
  | log (message : Message)
  /-- Dereferencing a null buffer pointer. -/
  | crash
  /-- A loop which no longer makes progress. -/
  | hang

/-- What it gets in return. -/
@[reducible] def Response : Request → Type
  | .readSysReg _ => Except Errno Word
  | .writeSysReg _ _ => Except Errno Unit
  | .readBuf _ => Except Errno (List Byte)
  | .uptimeGet => Int
  | .loadPending => PendingTable
  | .loadUnclaimed => UnclaimedTable
  | .loadRefcount => HashRefcount
  | .rxAlloc _ => Option NetPkt
  | .recvData _ => Bool
  | .crash => Empty
  | .hang => Empty
  | _ => Unit

/-- The driver's interface. -/
abbrev driverInterface : Interface := ⟨Request, Response⟩

/-- Code which returns nothing, or whose errors its caller ignores. -/
abbrev Code (α : Type) := Program driverInterface α

/-- Code which returns early with a negative value on an error. -/
abbrev Driver (α : Type) := ExceptT Errno (Program driverInterface) α

/-- Code which only asks. -/
def call (request : Request) : Code (Response request) := .ask request .done

/-- The return value of a function, whether or not it is an error. -/
def attempt {α : Type} (function : Driver α) : Driver (Except Errno α) :=
  ExceptT.lift function.run

/-! ### The SPI transactions -/

/-- `lan9250_read_sys_reg`. -/
def readSysReg (address : Address) : Driver Word := ExceptT.mk (call (.readSysReg address))

/-- `lan9250_write_sys_reg`. -/
def writeSysReg (address : Address) (value : Word) : Driver Unit :=
  ExceptT.mk (call (.writeSysReg address value))

/-- `lan9250_read_buf`. -/
def readBuf (len : Nat) : Driver (List Byte) := ExceptT.mk (call (.readBuf len))

/-- `lan9250_1588_bank_select`. -/
def ieee1588BankSelect (bank : Word) : Driver Unit := writeSysReg bankPortGpioSel bank

end Rp2350Stepper.Lan9250
