import Rp2350Stepper.Data.Framing
import Rp2350Stepper.Lan9250.Registers
import Mathlib.Data.List.Basic

/-!
# What is written to `TX_DATA_FIFO`

A packet is two command words and its data, rounded up to whole DWORDs. The chip takes the
length from the command words, so a stream of such records decodes to the packets whatever
the rounding bytes contain.
-/

namespace Rp2350Stepper.Lan9250

open Rp2350Stepper.Data

/-- `LAN9250_ALIGN`. -/
def align (len : Nat) : Nat := (len + 3) / 4 * 4

/-- The bytes of a word as `sys_put_le32` puts them. -/
def putLe32 (word : Word) : List Byte :=
  [word.extractLsb' 0 8, word.extractLsb' 8 8, word.extractLsb' 16 8, word.extractLsb' 24 8]

/-! ### The driver's command words -/

/-- TX command A of a packet of this length. -/
def txCmdA (len : Nat) : Word :=
  txCmdAIntOnComp ||| txCmdABufferAlign4b ||| txCmdAStartOffset0b ||| txCmdAFirstSeg |||
    txCmdALastSeg ||| BitVec.ofNat 32 len

/-- TX command B. -/
def txCmdB (len : Nat) : Word := txCmdBPacketTag ||| BitVec.ofNat 32 len

/-- The bytes of a packet in `TX_DATA_FIFO`, with the bytes which round it up. -/
def txRecordBytes (packet rounding : List Byte) : List Byte :=
  putLe32 (txCmdA packet.length) ++ putLe32 (txCmdB packet.length) ++ (packet ++ rounding)

/-! ### The chip's record format -/

/-- A little-endian DWORD. -/
def readDword? : List Byte → Option (Word × List Byte)
  | byte0 :: byte1 :: byte2 :: byte3 :: rest => some (byte3 ++ byte2 ++ byte1 ++ byte0, rest)
  | _ => none

/-- Bits 10:0 of a command word. -/
def lengthField : Word := 0x000007FF

/-- A record the chip has read. -/
structure TxRecord where
  commandA : Word
  commandB : Word
  frame : List Byte
deriving DecidableEq, Repr

/-- Read command A, which has both segment flags, command B, and the data. -/
def readTxRecord? (stream : List Byte) : Option (TxRecord × List Byte) := do
  let (commandA, stream) ← readDword? stream
  let (commandB, stream) ← readDword? stream
  if commandA &&& txCmdAFirstSeg = 0 ∨ commandA &&& txCmdALastSeg = 0 then none
  let len := (commandA &&& lengthField).toNat
  if (commandB &&& lengthField).toNat ≠ len then none
  if stream.length < align len then none
  return (⟨commandA, commandB, stream.take len⟩, stream.drop (align len))

/-- Both commands carry the length of the frame, and their other bits are the driver's flags. -/
structure TxRecord.FlagsKept (record : TxRecord) : Prop where
  lengthA : (record.commandA &&& lengthField).toNat = record.frame.length
  lengthB : (record.commandB &&& lengthField).toNat = record.frame.length
  flagsA : record.commandA &&& ~~~lengthField = txCmdAIntOnComp ||| txCmdAFirstSeg ||| txCmdALastSeg
  flagsB : record.commandB &&& ~~~lengthField = txCmdBPacketTag

/-! ### Reading what was written -/

/-- A word is read back from its bytes. -/
theorem readDword?_putLe32 (word : Word) (rest : List Byte) :
    readDword? (putLe32 word ++ rest) = some (word, rest) := by
  have joined : word.extractLsb' 24 8 ++ word.extractLsb' 16 8 ++ word.extractLsb' 8 8 ++
      word.extractLsb' 0 8 = word := by
    rw [BitVec.extractLsb'_append_extractLsb'_eq_extractLsb' (rfl : 24 = 16 + 8),
      BitVec.extractLsb'_append_extractLsb'_eq_extractLsb' (rfl : 16 = 8 + 8),
      BitVec.extractLsb'_append_extractLsb'_eq_extractLsb' (rfl : 8 = 0 + 8)]
    exact BitVec.extractLsb'_eq_self
  exact congrArg (fun word => some (word, rest)) joined

section LengthField

variable {flags field : Word} {len : Nat}

/-- A length below 2^11 lies in the length field. -/
theorem length_and_lengthField (short : len < 2 ^ 11) :
    BitVec.ofNat 32 len &&& lengthField = BitVec.ofNat 32 len := by
  apply BitVec.eq_of_toNat_eq
  have fits : len % 2 ^ 32 = len := Nat.mod_eq_of_lt (by omega)
  have mask : lengthField.toNat = 2 ^ 11 - 1 := rfl
  rw [BitVec.toNat_and, BitVec.toNat_ofNat, fits, mask, Nat.and_two_pow_sub_one_eq_mod,
    Nat.mod_eq_of_lt short]

/-- It disturbs no other field. -/
theorem or_length_and_field (short : len < 2 ^ 11) (other : field &&& lengthField = 0) :
    (flags ||| BitVec.ofNat 32 len) &&& field = flags &&& field := by
  have none : BitVec.ofNat 32 len &&& field = 0 := by
    rw [← length_and_lengthField short, BitVec.and_assoc, BitVec.and_comm lengthField, other]
    exact BitVec.and_zero
  rw [BitVec.and_or_distrib_right, none]
  exact BitVec.or_zero

/-- Where the flags leave its field empty, it is read back. -/
theorem or_length_and_lengthField (short : len < 2 ^ 11) (outside : flags &&& lengthField = 0) :
    ((flags ||| BitVec.ofNat 32 len) &&& lengthField).toNat = len := by
  have alone : (0 : Word) ||| BitVec.ofNat 32 len = BitVec.ofNat 32 len := BitVec.zero_or
  rw [BitVec.and_or_distrib_right, outside, length_and_lengthField short, alone,
    BitVec.toNat_ofNat]
  exact Nat.mod_eq_of_lt (by omega)

end LengthField

/-- The record the chip reads for a packet. -/
def txRecord (packet : List Byte) : TxRecord :=
  ⟨txCmdA packet.length, txCmdB packet.length, packet⟩

/-- The lengths of a short packet leave the flags alone. -/
theorem txRecord_flagsKept {packet : List Byte} (short : packet.length < 2 ^ 11) :
    (txRecord packet).FlagsKept where
  lengthA := or_length_and_lengthField short rfl
  lengthB := or_length_and_lengthField short rfl
  flagsA := or_length_and_field short rfl
  flagsB := or_length_and_field short rfl

/-- What the driver writes for a packet the chip reads as this packet, whatever the rounding
bytes contain. -/
theorem framed_txRecordBytes {packet rounding : List Byte} (short : packet.length < 2 ^ 11)
    (rounded : packet.length + rounding.length = align packet.length) :
    Framed readTxRecord? (txRecordBytes packet rounding) (txRecord packet) := by
  refine ⟨by simp [txRecordBytes, putLe32], fun rest => ?_⟩
  have first : txCmdA packet.length &&& txCmdAFirstSeg ≠ 0 := by
    rw [txCmdA, or_length_and_field short rfl]
    decide
  have last : txCmdA packet.length &&& txCmdALastSeg ≠ 0 := by
    rw [txCmdA, or_length_and_field short rfl]
    decide
  obtain ⟨lengthA, lengthB, _, _⟩ := txRecord_flagsKept short
  simp only [txRecord] at lengthA lengthB
  have enough : ¬(packet ++ (rounding ++ rest)).length < align packet.length := by
    rw [List.length_append, List.length_append]
    omega
  have opened : txRecordBytes packet rounding ++ rest =
      putLe32 (txCmdA packet.length) ++ (putLe32 (txCmdB packet.length) ++
        (packet ++ (rounding ++ rest))) := by
    simp only [txRecordBytes, List.append_assoc]
  have dropped : (packet ++ (rounding ++ rest)).drop (align packet.length) = rest := by
    rw [← List.append_assoc]
    exact List.drop_left' (by rw [List.length_append, rounded])
  rw [opened, readTxRecord?, readDword?_putLe32]
  simp only [Option.bind_eq_bind, Option.bind_some, readDword?_putLe32, first, last, or_self,
    if_false, lengthA, lengthB, ne_eq, not_true_eq_false, enough, dropped, List.take_left]
  rfl

end Rp2350Stepper.Lan9250
