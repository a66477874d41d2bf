import Rp2350Stepper.Lan9250.Transmit

/-!
# The bounds of `ctx->buf`

`net_pkt_read` writes the length of the packet to `ctx->buf`, and `lan9250_write_buf` reads
the length rounded up to a DWORD from it. The array has room for the longest frame, but not
for its rounding.
-/

namespace Rp2350Stepper.Lan9250

open Rp2350Stepper.Semantics Rp2350Stepper.Semantics.Program

/-- How many bytes from the beginning of `ctx->buf` a request is given. -/
def TxRequest.bufLen : TxRequest → Nat
  | .pktRead _ len | .writeBuf len | .loadBuf len => len
  | .driver _ | .semTake => 0

/-- They lie inside the array. -/
def TxRequest.InBuf (request : TxRequest) : Prop := request.bufLen ≤ netEthMaxFrameSize

/-- The driver's other code does not touch the buffer. -/
theorem fromDriver_inBuf {α : Type} (code : Code α) : (fromDriver code).Only TxRequest.InBuf := by
  have anything : code.Only fun _ => True := only_of_forall code fun _ => trivial
  exact fromDriver_only anything fun request _ => Nat.zero_le _

theorem discardTxStatus_inBuf (count : Nat) : (discardTxStatus count).run.Only TxRequest.InBuf := by
  induction count with
  | zero => exact only_pure
  | succ count inductionHypothesis =>
      exact Only.run_bind (fromDriver_inBuf _) fun _ => inductionHypothesis

section Bounds

variable {timestampThread : Bool} {pkt : NetPkt}

/-- A packet whose rounded length has room is sent within the array. -/
theorem lan9250Tx_inBuf (room : align pkt.data.length ≤ netEthMaxFrameSize) :
    (lan9250Tx timestampThread pkt).run.Only TxRequest.InBuf := by
  have length : pkt.data.length ≤ netEthMaxFrameSize := by
    rw [align] at room
    omega
  have small : align pkt.data.length % 2 ^ 16 = align pkt.data.length :=
    Nat.mod_eq_of_lt (room.trans_lt (by decide))
  refine Only.run_bind (fromDriver_inBuf _) fun regval => ?_
  refine Only.run_bind (.run_lift (only_ask.mpr (Nat.zero_le _))) fun _ => ?_
  refine Only.run_bind ?_ fun _ => .run_lift (fromDriver_inBuf _)
  refine Only.run_bind (fromDriver_inBuf _) fun _ => ?_
  refine Only.run_bind (fromDriver_inBuf _) fun _ => ?_
  refine Only.run_bind (.run_lift (only_ask.mpr length)) fun failed => ?_
  cases failed with
  | true => exact only_pure
  | false =>
      simp only [Bool.false_eq_true, if_false]
      have written : (writeBuf (align pkt.data.length)).run.Only TxRequest.InBuf := by
        apply only_ask.mpr
        rw [TxRequest.InBuf, TxRequest.bufLen, small]
        exact room
      refine Only.run_bind written fun _ => ?_
      refine Only.run_bind (discardTxStatus_inBuf _) fun _ => ?_
      refine Only.run_bind (.run_lift (only_ask.mpr length)) fun frame => ?_
      exact .run_lift (fromDriver_inBuf _)

/-- The two accesses of a packet no transaction of which fails. -/
theorem room_of_inBuf (only : (lan9250Tx timestampThread pkt).run.Only TxRequest.InBuf) :
    pkt.data.length ≤ netEthMaxFrameSize ∧
      align pkt.data.length % 2 ^ 16 ≤ netEthMaxFrameSize := by
  have read := only.2 (.ok 0)
  have taken := read.2 ()
  have commandA := taken.2 (.ok ())
  have commandB := commandA.2 (.ok ())
  have copied := commandB.2 false
  exact ⟨commandB.1, copied.1⟩

end Bounds

/-- Every access to `ctx->buf` is in bounds, whatever fails, exactly for packets of at most 1512
bytes: not for those of 1513 and 1514. -/
theorem tx_accesses_in_bounds (timestampThread : Bool) (pkt : NetPkt) :
    (lan9250Tx timestampThread pkt).run.Only TxRequest.InBuf ↔ pkt.data.length ≤ 1512 := by
  have size : netEthMaxFrameSize = 1514 := rfl
  constructor
  · intro only
    obtain ⟨length, rounded⟩ := room_of_inBuf only
    rw [align] at rounded
    omega
  · intro short
    apply lan9250Tx_inBuf
    rw [align]
    omega

/-- A packet of full size is read beyond the array. -/
theorem full_frame_read_beyond :
    ((⟨0, [List.replicate 1514 0]⟩ : NetPkt).data.length ≤ netEthMaxFrameSize) ∧
      ¬(lan9250Tx false ⟨0, [List.replicate 1514 0]⟩).run.Only TxRequest.InBuf := by
  have length : (⟨0, [List.replicate 1514 0]⟩ : NetPkt).data.length = 1514 := by
    rw [NetPkt.data, List.flatten_singleton, List.length_replicate]
  refine ⟨length.le, ?_⟩
  intro only
  have beyond := (room_of_inBuf only).2
  rw [length] at beyond
  exact absurd beyond (by decide)

end Rp2350Stepper.Lan9250
