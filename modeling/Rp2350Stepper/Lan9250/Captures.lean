import Rp2350Stepper.Lan9250.Quiet

/-!
# Reading the capture queues

`CAP_INFO` counts the captured events, a bank shows the oldest of its queue, and
writing `RX_TS_INT` or `TX_TS_INT` drops the oldest.
-/

namespace Rp2350Stepper.Lan9250

open Rp2350Stepper.Data Rp2350Stepper.Semantics

/-- The timestamp of a captured event. -/
def Capture.time (capture : Capture) : PtpTime := ⟨capture.sec, capture.ns⟩

namespace Chip

/-- Dropping takes the oldest event. -/
theorem dropOldest_items (captures : Fifo Capture captureDepth) :
    (dropOldest captures).items = captures.items.tail := by
  unfold dropOldest
  cases popped : captures.pop? with
  | none => simp [Fifo.pop?_eq_none_iff.mp popped]
  | some taken =>
      obtain ⟨oldest, rest⟩ := taken
      simp [Fifo.pop?_eq_some_iff.mp popped]

/-! ### Counts -/

/-- Two counts of at most four in one word are told apart. -/
private theorem counts_of_le : ∀ tx rx : Fin 5,
    ((BitVec.ofNat 32 tx <<< capInfoTxTsCntShift ||| BitVec.ofNat 32 rx) &&&
      capInfoRxTsCntMask = 0 ↔ rx = 0) ∧
    ((BitVec.ofNat 32 tx <<< capInfoTxTsCntShift ||| BitVec.ofNat 32 rx) &&&
      capInfoTxTsCntMask = 0 ↔ tx = 0) := by
  decide

variable {chip : Chip}

/-- What `CAP_INFO` shows. -/
private theorem counts (chip : Chip) (general : chip.bank = bankSelPortGeneral) :
    ((chip.read capInfo).1 &&& capInfoRxTsCntMask = 0 ↔ chip.rxCaptures.items = []) ∧
    ((chip.read capInfo).1 &&& capInfoTxTsCntMask = 0 ↔ chip.txCaptures.items = []) := by
  have shown : (chip.read capInfo).1 =
      BitVec.ofNat 32 chip.txCaptures.items.length <<< capInfoTxTsCntShift |||
        BitVec.ofNat 32 chip.rxCaptures.items.length := by
    simp [read, general, capInfo, rxFifoInf, rxStatusFifo, rxDataFifo, macCsrCmd, macCsrData]
  have few := chip.rxCaptures.bounded
  have fewer := chip.txCaptures.bounded
  unfold captureDepth at few fewer
  have counted := counts_of_le ⟨chip.txCaptures.items.length, by omega⟩
    ⟨chip.rxCaptures.items.length, by omega⟩
  simp only [Fin.ext_iff, Fin.val_zero, List.length_eq_zero_iff] at counted
  rw [shown]
  exact counted

/-- In the general bank the ingress count is 0 when no ingress event is queued. -/
theorem capInfo_rx_eq_zero (general : chip.bank = bankSelPortGeneral) :
    (chip.read capInfo).1 &&& capInfoRxTsCntMask = 0 ↔ chip.rxCaptures.items = [] :=
  (counts chip general).1

/-- And the egress count when no egress event is. -/
theorem capInfo_tx_eq_zero (general : chip.bank = bankSelPortGeneral) :
    (chip.read capInfo).1 &&& capInfoTxTsCntMask = 0 ↔ chip.txCaptures.items = [] :=
  (counts chip general).2

/-! ### The oldest event of the selected bank -/

section Oldest

variable {capture : Capture} {rest : List Capture} (head : chip.bankCaptures = capture :: rest)

include head

/-- The header of the oldest event. -/
theorem read_rxMsgHeader : (chip.read rxMsgHeader).1 = capture.msgHeader := by
  simp [read, readBanked, head, rxMsgHeader, rxFifoInf, rxStatusFifo, rxDataFifo, macCsrCmd,
    macCsrData, capInfo]

/-- Its seconds. -/
theorem read_rxIngressSec : (chip.read rxIngressSec).1 = capture.sec := by
  simp [read, readBanked, head, rxIngressSec, rxMsgHeader, rxFifoInf, rxStatusFifo, rxDataFifo,
    macCsrCmd, macCsrData, capInfo]

/-- Its nanoseconds. -/
theorem read_rxIngressNs : (chip.read rxIngressNs).1 = capture.ns := by
  simp [read, readBanked, head, rxIngressNs, rxIngressSec, rxMsgHeader, rxFifoInf, rxStatusFifo,
    rxDataFifo, macCsrCmd, macCsrData, capInfo]

end Oldest
end Chip

/-! ### The driver's reads -/

/-- A read that succeeds returns what the chip shows at that moment. -/
theorem readSysReg_ok {world : World} {address : Address} {choice : Choice} {value : Word}
    (succeeded : (world.readSysReg address choice).1 = .ok value) :
    value = ((world.advance choice).chip.read address).1 := by
  unfold World.readSysReg at succeeded
  rw [(conclude_ok succeeded).1, noteRead_chip]

section Reads

variable {guard : lan9250.Guard} (live : Live guard) {world : World}

include live

/-- The general bank is selected, or an error is returned. -/
theorem bankSelect_spec (bank : Word) :
    lan9250.Completes guard (ieee1588BankSelect bank).run world fun result next =>
      Quiet world next ∧ ∀ done, result = .ok done → next.chip.bank = bank := by
  rw [ieee1588BankSelect, completes_writeSysReg live]
  intro choice _
  exact ⟨quiet_writeSysReg world bank choice (by decide), fun done => bankSelect_bank⟩

/-- `CAP_INFO` shows an ingress event only if there is one. -/
theorem readCapInfo_spec (general : world.chip.bank = bankSelPortGeneral) :
    lan9250.Completes guard (readSysReg capInfo).run world fun result next =>
      Quiet world next ∧ ∀ info, result = .ok info → info &&& capInfoRxTsCntMask ≠ 0 →
        ∃ capture rest, next.chip.rxCaptures.items = capture :: rest := by
  rw [completes_readSysReg live]
  intro choice _
  refine ⟨quiet_readSysReg world capInfo choice, ?_⟩
  intro info succeeded ready
  rw [readSysReg_ok succeeded, ne_eq,
    Chip.capInfo_rx_eq_zero ((advance_bank world choice).trans general)] at ready
  obtain ⟨capture, rest, queued⟩ := List.exists_cons_of_ne_nil ready
  unfold World.readSysReg at succeeded ⊢
  refine ⟨capture, rest, ?_⟩
  rw [(conclude_ok succeeded).2, read_rxCaptures, noteRead_chip, queued]

/-- A banked read returns a field of the event at the head. -/
theorem readBanked_spec {address : Address} {field : Capture → Word} {capture : Capture}
    {rest : List Capture}
    (shows : ∀ (chip : Chip) (rest : List Capture), chip.bankCaptures = capture :: rest →
      (chip.read address).1 = field capture)
    (selected : world.chip.bank = bankSelPortRx)
    (head : world.chip.rxCaptures.items = capture :: rest) :
    lan9250.Completes guard (readSysReg address).run world fun result next =>
      Quiet world next ∧ next.chip.bank = bankSelPortRx ∧
      (∃ rest, next.chip.rxCaptures.items = capture :: rest) ∧
      ∀ value, result = .ok value → value = field capture := by
  rw [completes_readSysReg live]
  intro choice _
  have same := quiet_readSysReg world address choice
  refine ⟨same, (readSysReg_bank world address choice).trans selected, same.head head, ?_⟩
  intro value succeeded
  obtain ⟨rest', here⟩ := (Quiet.advance world choice).head head
  have bank := (advance_bank world choice).trans selected
  rw [readSysReg_ok succeeded]
  exact shows _ rest' (by simp [Chip.bankCaptures, bank, here])

end Reads
end Rp2350Stepper.Lan9250
