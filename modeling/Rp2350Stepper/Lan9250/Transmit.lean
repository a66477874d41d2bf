import Rp2350Stepper.Lan9250.TxRecords
import Rp2350Stepper.Lan9250.TxTimestamp
import Rp2350Stepper.Lan9250.Environment

/-!
# Transmission: `lan9250_tx`

Besides what it has in common with the rest of the driver, `lan9250_tx` takes the
semaphore, has the stack copy the packet to `ctx->buf` and writes from there to
`TX_DATA_FIFO`. Its device keeps the count of the semaphore, the buffer and what has been
written; every register reads as the environment chooses.
-/

namespace Rp2350Stepper.Lan9250

open Rp2350Stepper.Data Rp2350Stepper.Semantics

/-! ### What `lan9250_tx` calls -/

/-- What `lan9250_tx` asks for. -/
inductive TxRequest where
  | driver (request : Request)
  /-- `k_sem_take` on `tx_rx_sem`, forever. -/
  | semTake
  /-- `net_pkt_read` to `ctx->buf`; whether it has failed. -/
  | pktRead (pkt : NetPkt) (len : Nat)
  /-- `lan9250_write_buf` from `ctx->buf`. -/
  | writeBuf (len : Nat)
  /-- The first bytes of `ctx->buf`. -/
  | loadBuf (len : Nat)

/-- What it gets in return. -/
@[reducible] def TxResponse : TxRequest → Type
  | .driver request => Response request
  | .semTake => Unit
  | .pktRead _ _ => Bool
  | .writeBuf _ => Except Errno Unit
  | .loadBuf _ => List Byte

/-- The interface of `lan9250_tx`. -/
abbrev txInterface : Interface := ⟨TxRequest, TxResponse⟩

/-- Code which returns early with a negative value on an error. -/
abbrev TxDriver (α : Type) := ExceptT Errno (Program txInterface) α

/-- Code which only asks. -/
def txCall (request : TxRequest) : Program txInterface (TxResponse request) := .ask request .done

/-- The driver's functions, called from `lan9250_tx`. -/
def fromDriver {α : Type} (code : Code α) : Program txInterface α :=
  code.translate fun request => txCall (.driver request)

/-- `lan9250_write_buf`, whose length is a `uint16_t`. -/
def writeBuf (len : Nat) : TxDriver Unit := ExceptT.mk (txCall (.writeBuf (len % 2 ^ 16)))

/-- Read the status words of earlier packets. -/
def discardTxStatus : Nat → TxDriver Unit
  | 0 => return
  | count + 1 => do
      let _ ← ExceptT.mk (fromDriver (readSysReg txStatusFifo).run)
      discardTxStatus count

/-- The part of `lan9250_tx` between taking and giving back the semaphore; an error leaves
`lan9250_tx` too. -/
def sendPacket (timestampThread : Bool) (pkt : NetPkt) (statusSize : BitVec 8) : TxDriver Unit := do
  let len := pkt.data.length
  ExceptT.mk (fromDriver (writeSysReg txDataFifo (txCmdA len)).run)
  ExceptT.mk (fromDriver (writeSysReg txDataFifo (txCmdB len)).run)
  let failed ← txCall (.pktRead pkt len)
  if failed then throw .eio
  writeBuf (align len)
  discardTxStatus statusSize.toNat
  let frame ← txCall (.loadBuf len)
  liftM (fromDriver (txTimestampCheck timestampThread pkt.id frame len))

/-- `lan9250_tx`; the free size it reads is not used. -/
def lan9250Tx (timestampThread : Bool) (pkt : NetPkt) : TxDriver Unit := do
  let regval ← ExceptT.mk (fromDriver (readSysReg txFifoInf).run)
  txCall .semTake
  sendPacket timestampThread pkt (((regval &&& txFifoInfTxsused) >>> 16).setWidth 8)
  liftM (fromDriver (call .semGive))

/-! ### Its device -/

/-- The semaphore, the staging buffer and the bytes which the chip has got. -/
structure TxWorld where
  /-- The count of `tx_rx_sem`. -/
  txRxSem : Nat
  /-- `ctx->buf`. -/
  buf : Fin netEthMaxFrameSize → Byte
  /-- What has been written to `TX_DATA_FIFO`. -/
  stream : List Byte

/-- How an SPI transaction ends: a failed one has transferred some of its bytes. -/
inductive Transfer where
  | complete
  | broken (transferred : Nat) (error : Errno)
deriving DecidableEq, Repr

/-- How a request is answered. -/
structure TxChoice where
  transfer : Transfer
  /-- What a register reads as. -/
  value : Word
  /-- How many bytes `net_pkt_read` copies before it fails, if it does. -/
  readFails : Option Nat
  /-- The memory behind `ctx->buf`. -/
  beyond : Nat → Byte

instance : Inhabited TxChoice := ⟨⟨.complete, 0, none, fun _ => 0⟩⟩

namespace TxWorld

/-- The bytes from `ctx->buf` on, with the memory behind it. -/
def bytes (world : TxWorld) (beyond : Nat → Byte) (len : Nat) : List Byte :=
  (List.range len).map fun index =>
    if inside : index < netEthMaxFrameSize then world.buf ⟨index, inside⟩
    else beyond (index - netEthMaxFrameSize)

/-- Copy bytes to the beginning of `ctx->buf`. -/
def copy (world : TxWorld) (data : List Byte) : TxWorld :=
  { world with buf := fun index => data.getD index (world.buf index) }

/-- Copying into the buffer leaves the semaphore. -/
@[simp] theorem copy_txRxSem (world : TxWorld) (data : List Byte) :
    (world.copy data).txRxSem = world.txRxSem := rfl

/-- It sends nothing. -/
@[simp] theorem copy_stream (world : TxWorld) (data : List Byte) :
    (world.copy data).stream = world.stream := rfl

/-- A transaction which writes bytes to `TX_DATA_FIFO`. -/
def write (world : TxWorld) (bytes : List Byte) : Transfer → Except Errno Unit × TxWorld
  | .complete => (.ok (), { world with stream := world.stream ++ bytes })
  | .broken transferred error =>
      (.error error, { world with stream := world.stream ++ bytes.take transferred })

/-- The result of a transaction which writes nothing there. -/
def outcome {α : Type} (value : α) : Transfer → Except Errno α
  | .complete => .ok value
  | .broken _ error => .error error

end TxWorld

/-- How the world answers `lan9250_tx`; its other functions have none. -/
def txAnswer (world : TxWorld) : (request : TxRequest) → TxChoice →
    Option (TxResponse request × TxWorld)
  | .driver (.readSysReg _), choice => some (TxWorld.outcome choice.value choice.transfer, world)
  | .driver (.writeSysReg address value), choice =>
      some (if address = txDataFifo then world.write (putLe32 value) choice.transfer
        else (TxWorld.outcome () choice.transfer, world))
  | .driver .semGive, _ => some ((), { world with txRxSem := world.txRxSem + 1 })
  | .driver (.sleep _), _ => some ((), world)
  | .driver (.mutexLock _), _ => some ((), world)
  | .driver (.mutexUnlock _), _ => some ((), world)
  | .driver (.setTimestamp _ _), _ => some ((), world)
  | .driver (.addTxTimestamp _), _ => some ((), world)
  | .driver (.log _), _ => some ((), world)
  | .driver _, _ => none
  -- On a count of 0 the caller blocks.
  | .semTake, _ =>
      if world.txRxSem = 0 then none else some ((), { world with txRxSem := world.txRxSem - 1 })
  | .pktRead pkt len, choice =>
      match choice.readFails with
      | none => some (false, world.copy (pkt.data.take len))
      | some copied => some (true, world.copy ((pkt.data.take len).take copied))
  | .writeBuf len, choice => some (world.write (world.bytes choice.beyond len) choice.transfer)
  | .loadBuf len, choice => some (world.bytes choice.beyond len, world)

/-- The device of `lan9250_tx`. -/
abbrev txDevice : Device txInterface := ⟨TxWorld, TxChoice, txAnswer⟩

/-! ### What each part requests -/

/-- The requests of the driver's functions which neither write to `TX_DATA_FIFO` nor give the
semaphore. -/
def Request.aside : Request → Prop
  | .readSysReg _ | .sleep _ | .mutexLock _ | .mutexUnlock _ | .setTimestamp _ _
  | .addTxTimestamp _ | .log _ => True
  | .writeSysReg address _ => address ≠ txDataFifo
  | _ => False

/-- The requests which leave everything as it is. -/
def TxRequest.aside : TxRequest → Prop
  | .driver request => request.aside
  | .loadBuf _ => True
  | _ => False

/-- The requests which leave the semaphore alone. -/
def TxRequest.sending : TxRequest → Prop
  | .semTake | .driver .semGive => False
  | _ => True

/-- What changes nothing does not use the semaphore. -/
theorem TxRequest.sending_of_aside {request : TxRequest} (aside : request.aside) :
    request.sending := by
  cases request with
  | driver request =>
      cases request with
      | semGive => exact aside.elim
      | _ => trivial
  | semTake => exact aside.elim
  | _ => trivial

section Answers

variable {world after : TxWorld} {request : TxRequest} {choice : TxChoice}
  {response : TxResponse request}

/-- What changes nothing leaves the world. -/
theorem answer_of_aside (aside : request.aside)
    (answered : txAnswer world request choice = some (response, after)) : after = world := by
  cases request with
  | driver request =>
      cases request with
      | writeSysReg address value =>
          have other : address ≠ txDataFifo := aside
          simp only [txAnswer, if_neg other, Option.some.injEq, Prod.mk.injEq] at answered
          exact answered.2.symm
      | readSysReg | sleep | mutexLock | mutexUnlock | setTimestamp | addTxTimestamp | log =>
          exact (Prod.mk.inj (Option.some.inj answered)).2.symm
      | _ => exact aside.elim
  | loadBuf => exact (Prod.mk.inj (Option.some.inj answered)).2.symm
  | _ => exact aside.elim

/-- A write of bytes leaves the semaphore. -/
theorem write_txRxSem (bytes : List Byte) (transfer : Transfer) :
    (world.write bytes transfer).2.txRxSem = world.txRxSem := by
  cases transfer <;> rfl

theorem answer_of_sending (sending : request.sending)
    (answered : txAnswer world request choice = some (response, after)) :
    after.txRxSem = world.txRxSem := by
  cases request with
  | driver request =>
      cases request with
      | writeSysReg address value =>
          simp only [txAnswer, Option.some.injEq] at answered
          split at answered
          · exact (congrArg (·.2.txRxSem) answered).symm.trans (write_txRxSem _ _)
          · rw [← (Prod.mk.inj answered).2]
      | semGive => exact sending.elim
      | readSysReg | sleep | mutexLock | mutexUnlock | setTimestamp | addTxTimestamp | log =>
          rw [← (Prod.mk.inj (Option.some.inj answered)).2]
      | _ => cases answered
  | semTake => exact sending.elim
  | pktRead pkt len =>
      simp only [txAnswer] at answered
      split at answered <;>
        rw [← (Prod.mk.inj (Option.some.inj answered)).2, TxWorld.copy_txRxSem]
  | writeBuf len =>
      have written := Option.some.inj answered
      exact (congrArg (·.2.txRxSem) written).symm.trans (write_txRxSem _ _)
  | loadBuf len => rw [← (Prod.mk.inj (Option.some.inj answered)).2]

end Answers

section Requests

open Program

/-- The driver's code asks for what it asks for. -/
theorem fromDriver_only {α : Type} {code : Code α} {kind : Request → Prop}
    {kind' : TxRequest → Prop} (only : code.Only kind)
    (implies : ∀ request, kind request → kind' (.driver request)) :
    (fromDriver code).Only kind' :=
  only.translate fun request known => only_ask.mpr (implies request known)

/-- Polling changes nothing here. -/
private theorem pollCapInfo_only (attempts : Nat) (info : Word) :
    (pollCapInfo attempts info).run.Only Request.aside := by
  induction attempts generalizing info with
  | zero => exact only_pure
  | succ attempts inductionHypothesis =>
      refine Only.run_bind (only_ask.mpr trivial) fun info => ?_
      split
      · exact only_pure
      · exact Only.run_bind (.run_lift (only_ask.mpr trivial)) fun _ => inductionHypothesis info

private theorem readEgress_only : readEgress.run.Only Request.aside :=
  Only.run_bind (only_ask.mpr trivial) fun _ => Only.run_bind (only_ask.mpr trivial) fun _ =>
    Only.run_bind (only_ask.mpr trivial) fun _ => only_pure

private theorem txTimestampMatch_only (timestampThread : Bool) (pkt : PktId) (key : MsgKey) :
    (txTimestampMatch timestampThread pkt key).Only Request.aside := by
  have selects (bank : Word) : (ieee1588BankSelect bank).run.Only Request.aside :=
    only_ask.mpr (by simp [Request.aside, bankPortGpioSel, txDataFifo])
  have logs (message : Message) : (call (.log message)).Only Request.aside := only_ask.mpr trivial
  have drops : (writeSysReg ieee1588IntSts intStsTxTsInt).run.Only Request.aside :=
    only_ask.mpr (by simp [Request.aside, ieee1588IntSts, txDataFifo])
  refine (selects _).bind fun selected => ?_
  cases selected with
  | error => exact logs _
  | ok _ =>
      refine (pollCapInfo_only _ _).bind fun polled => ?_
      cases polled with
      | error => exact logs _
      | ok info =>
          refine only_ite only_pure ((selects _).bind fun selected => ?_)
          cases selected with
          | error => exact logs _
          | ok _ =>
              refine readEgress_only.bind fun shown => ?_
              cases shown with
              | error => exact logs _
              | ok value =>
                  have finishes (message : Message) : (do
                      call (.log message)
                      let _ ← (writeSysReg ieee1588IntSts intStsTxTsInt).run
                      pure () : Code Unit).Only Request.aside :=
                    (logs message).bind fun _ => drops.bind fun _ => only_pure
                  refine only_ite ?_ (finishes _)
                  refine Only.bind (only_ask.mpr trivial) fun _ => ?_
                  exact only_ite (Only.bind (only_ask.mpr trivial) fun _ => finishes _) (finishes _)

theorem txTimestampCheck_only (timestampThread : Bool) (pkt : PktId) (frame : List Byte) (len : Nat) :
    (txTimestampCheck timestampThread pkt frame len).Only Request.aside := by
  unfold txTimestampCheck
  split
  · exact only_pure
  · exact Only.bind (only_ask.mpr trivial) fun _ => (txTimestampMatch_only _ _ _).bind fun _ =>
      only_ask.mpr trivial

theorem discardTxStatus_only (count : Nat) : (discardTxStatus count).run.Only TxRequest.aside := by
  induction count with
  | zero => exact only_pure
  | succ count inductionHypothesis =>
      exact Only.run_bind (fromDriver_only (only_ask.mpr trivial) fun _ aside => aside)
        fun _ => inductionHypothesis

/-- The sending does not use the semaphore. -/
theorem sendPacket_only (timestampThread : Bool) (pkt : NetPkt) (statusSize : BitVec 8) :
    (sendPacket timestampThread pkt statusSize).run.Only TxRequest.sending := by
  have writes (word : Word) :
      (fromDriver (writeSysReg txDataFifo word).run).Only TxRequest.sending :=
    only_ask.mpr trivial
  refine Only.run_bind (writes _) fun _ => Only.run_bind (writes _) fun _ => ?_
  refine Only.run_bind (.run_lift (only_ask.mpr trivial)) fun failed => ?_
  cases failed with
  | true => exact only_pure
  | false =>
      simp only [Bool.false_eq_true, if_false]
      refine Only.run_bind (only_ask.mpr trivial) fun _ => ?_
      have discards := (discardTxStatus_only statusSize.toNat).weaken fun _ =>
        TxRequest.sending_of_aside
      refine Only.run_bind discards fun _ => ?_
      refine Only.run_bind (.run_lift (only_ask.mpr trivial)) fun frame => .run_lift ?_
      exact fromDriver_only (txTimestampCheck_only _ _ _ _) fun _ aside =>
        TxRequest.sending_of_aside aside

end Requests

end Rp2350Stepper.Lan9250
