import Rp2350Stepper.Lan9250.Interface

/-! # Recognizing PTP frames -/

namespace Rp2350Stepper.Lan9250

/-- A byte of a buffer; the functions below check lengths before they read. -/
def byteAt (frame : List Byte) (offset : Nat) : Byte := frame.getD offset 0

/-- `sys_get_be16`. -/
def sysGetBe16 (frame : List Byte) (offset : Nat) : BitVec 16 :=
  byteAt frame offset ++ byteAt frame (offset + 1)

/-- The part of `lan9250_ptp_parse_header` which finds the PTP header. -/
def ptpOffset (frame : List Byte) (len : Nat) : Option Nat := do
  if len < 14 then failure
  let ethertype := sysGetBe16 frame 12
  if ethertype = 0x88F7 then return 14
  if ethertype ≠ 0x0800 then failure
  if len < 15 then failure
  let ihl := (byteAt frame 14 &&& 0x0F).toNat * 4
  if ihl < 20 ∨ len < 14 + ihl + 8 then failure
  if byteAt frame (14 + 9) ≠ 0x11 then failure
  let udpOff := 14 + ihl
  if sysGetBe16 frame (udpOff + 2) ≠ 319 ∧ sysGetBe16 frame (udpOff + 2) ≠ 320 then failure
  return udpOff + 8

/-- `lan9250_ptp_parse_header`: the message type and sequence id of a raw Ethernet
or UDP/IPv4 PTP frame. -/
def ptpParseHeader (frame : List Byte) (len : Nat) : Option MsgKey := do
  let ptpOff ← ptpOffset frame len
  if len < ptpOff + 32 then failure
  return ⟨byteAt frame ptpOff &&& 0x0F, sysGetBe16 frame (ptpOff + 30)⟩

/-- `lan9250_1588_msg_type_is_timestamped`. -/
def msgTypeIsTimestamped (msgType : BitVec 8) : Bool :=
  (1#32 <<< msgType.toNat) &&& ptpMessageEnDefault != 0

/-! ### Raw frames -/

/-- The shortest raw Ethernet frame which carries a message: addresses, EtherType, and
the PTP header up to its sequence id, with every other field 0. -/
def rawFrame (key : MsgKey) : List Byte :=
  List.replicate 12 0 ++ [0x88, 0xF7] ++ [key.msgType] ++ List.replicate 29 0 ++
    [key.seqId.extractLsb' 8 8, key.seqId.extractLsb' 0 8]

/-- Such a frame has 46 bytes. -/
theorem rawFrame_length (key : MsgKey) : (rawFrame key).length = 46 := rfl

/-- A raw frame is recognized by its message. -/
theorem ptpParseHeader_rawFrame {key : MsgKey} (known : key.msgType &&& 0x0F = key.msgType) :
    ptpParseHeader (rawFrame key) (rawFrame key).length = some key := by
  have high : byteAt (rawFrame key) 12 = 0x88 := rfl
  have low : byteAt (rawFrame key) 13 = 0xF7 := rfl
  have found : ptpOffset (rawFrame key) (rawFrame key).length = some 14 := by
    simp [ptpOffset, sysGetBe16, high, low, rawFrame_length]
  have seqId : key.seqId.extractLsb' 8 8 ++ key.seqId.extractLsb' 0 8 = key.seqId := by
    ext bit bound
    simp only [BitVec.getElem_append, BitVec.getElem_extractLsb']
    split
    · rw [Nat.zero_add, BitVec.getLsbD_eq_getElem bound]
    · rw [show 8 + (bit - 8) = bit by omega, BitVec.getLsbD_eq_getElem bound]
  have msgType : byteAt (rawFrame key) 14 &&& 15#8 = key.msgType := known
  have last : sysGetBe16 (rawFrame key) 44 = key.seqId := seqId
  rw [rawFrame_length] at found ⊢
  simp [ptpParseHeader, found, msgType, last]

end Rp2350Stepper.Lan9250
