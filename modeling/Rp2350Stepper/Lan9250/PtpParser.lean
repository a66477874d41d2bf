import Rp2350Stepper.Lan9250.TxTimestamp
import Rp2350Stepper.Lan9250.RxTimestamp
import Rp2350Stepper.Semantics.Buffers
import Mathlib.Tactic.NthRewrite
import Mathlib.Tactic.Tauto

/-!
# The PTP parser and the frames it recognizes

`lan9250_ptp_parse_header` with its reads and output parameters, the grammar of the frames
it is meant for, and what it makes of a frame cut off after its headers.
-/

namespace Rp2350Stepper.Lan9250

open Rp2350Stepper.Semantics Rp2350Stepper.Semantics.BufferProgram

/-! ### The parser -/

/-- What `lan9250_ptp_parse_header` writes through its parameters. -/
inductive ParsedField where
  | msgType (value : Byte)
  | seqId (value : BitVec 16)
deriving DecidableEq, Repr

/-- Code which reads a frame. -/
abbrev FrameReader (α : Type) := BufferProgram Byte ParsedField α

/-- `sys_get_be16` of two bytes of the frame. -/
def readBe16 (offset : Nat) : FrameReader (BitVec 16) := do
  let high ← read offset
  let low ← read (offset + 1)
  return high ++ low

/-- From the last length check on. -/
def parseCommonHeader (len ptpOff : Nat) : FrameReader Bool :=
  if len < ptpOff + 32 then return false
  else do
    let msgType ← read ptpOff
    write (.msgType (msgType &&& 0x0F))
    let seqId ← readBe16 (ptpOff + 30)
    write (.seqId seqId)
    return true

/-- Whether the destination port is one of PTP's; a first comparison which succeeds spares
the second its read. -/
def hasPtpPort (udpOff : Nat) : FrameReader Bool := do
  let port ← readBe16 (udpOff + 2)
  if port = 319 then return true
  else do
    let port ← readBe16 (udpOff + 2)
    return port = 320

/-- From the check of the protocol on. -/
def parseUdp (len ihl : Nat) : FrameReader Bool := do
  let protocol ← read (14 + 9)
  if protocol ≠ 0x11 then return false
  else do
    let recognized ← hasPtpPort (14 + ihl)
    if recognized then parseCommonHeader len (14 + ihl + 8) else return false

/-- The branch of EtherType 0x0800. -/
def parseIpv4 (len : Nat) : FrameReader Bool :=
  if len < 15 then return false
  else do
    let first ← read 14
    let ihl := (first &&& 0x0F).toNat * 4
    if ihl < 20 ∨ len < 14 + ihl + 8 then return false else parseUdp len ihl

/-- `lan9250_ptp_parse_header`, with its reads. -/
def parseHeader (len : Nat) : FrameReader Bool :=
  if len < 14 then return false
  else do
    let ethertype ← readBe16 12
    if ethertype = 0x88F7 then parseCommonHeader len 14
    else if ethertype = 0x0800 then parseIpv4 len
    else return false

/-- What a message type and sequence id are written as. -/
def MsgKey.written (key : MsgKey) : List ParsedField := [.msgType key.msgType, .seqId key.seqId]

/-- The result and the outputs for what has been recognized. -/
def parseResult : Option MsgKey → Bool × List ParsedField
  | none => (false, [])
  | some key => (true, key.written)

/-- What is parsed can be told from the result. -/
theorem parseResult_injective : Function.Injective parseResult := by
  intro first second same
  cases first with
  | none =>
      cases second with
      | none => rfl
      | some key => cases same
  | some key =>
      cases second with
      | none => cases same
      | some key' =>
          injection same with _ fields
          injection fields with msgType rest
          injection rest with seqId
          injection msgType with sameType
          injection seqId with sameId
          cases key
          cases key'
          exact congrArg some (congrArg₂ MsgKey.mk sameType sameId)

/-! ### What it reads -/

section Within

variable {len offset : Nat}

/-- A read inside the frame. -/
theorem within_read (inside : offset < len) :
    (read offset : FrameReader Byte).Only (Within len) := ⟨inside, fun _ => trivial⟩

/-- Two bytes inside the frame. -/
theorem within_readBe16 (inside : offset + 1 < len) : (readBe16 offset).Only (Within len) := by
  apply (within_read (by omega)).bind
  intro high
  exact (within_read inside).bind fun low => trivial

/-- The common header is read after a test of the length. -/
theorem within_parseCommonHeader : (parseCommonHeader len offset).Only (Within len) := by
  unfold parseCommonHeader
  split
  · trivial
  · apply (within_read (by omega)).bind
    intro msgType
    refine ⟨trivial, fun _ => ?_⟩
    apply (within_readBe16 (by omega)).bind
    intro seqId
    exact ⟨trivial, fun _ => trivial⟩

/-- The ports are read inside the frame. -/
theorem within_hasPtpPort (inside : offset + 8 ≤ len) : (hasPtpPort offset).Only (Within len) := by
  have port : (readBe16 (offset + 2)).Only (Within len) := within_readBe16 (by omega)
  refine port.bind fun first => ?_
  split
  · trivial
  · exact port.bind fun second => trivial

/-- No byte at or beyond the length is read, whatever the bytes read before. -/
theorem within_parseHeader : (parseHeader len).Only (Within len) := by
  unfold parseHeader
  split
  · trivial
  refine (within_readBe16 (by omega)).bind fun ethertype => ?_
  apply Program.only_ite within_parseCommonHeader
  refine Program.only_ite ?_ trivial
  unfold parseIpv4
  split
  · trivial
  refine (within_read (by omega)).bind fun first => ?_
  dsimp only
  split
  · trivial
  rename_i enough
  rw [not_or, Nat.not_lt, Nat.not_lt] at enough
  refine (within_read (by omega)).bind fun protocol => ?_
  split
  · trivial
  refine (within_hasPtpPort enough.2).bind fun recognized => ?_
  exact Program.only_ite within_parseCommonHeader trivial

end Within

/-! ### What it computes -/

section Evaluate

variable {frame : List Byte} {len offset : Nat}

/-- The fields of the message at an offset. -/
def keyAt (frame : List Byte) (offset : Nat) : MsgKey :=
  ⟨byteAt frame offset &&& 0x0F, sysGetBe16 frame (offset + 30)⟩

/-- Two bytes, the high one first. -/
@[simp] theorem evaluate_readBe16 :
    evaluate (byteAt frame) (readBe16 offset) = (sysGetBe16 frame offset, []) := rfl

/-- The message at an offset, if the frame is long enough for it. -/
def messageAt (frame : List Byte) (len offset : Nat) : Option MsgKey :=
  if len < offset + 32 then none else some (keyAt frame offset)

/-- The common header, as the specification has it. -/
theorem evaluate_parseCommonHeader :
    evaluate (byteAt frame) (parseCommonHeader len offset) =
      parseResult (messageAt frame len offset) := by
  unfold parseCommonHeader messageAt
  split
  · rfl
  · simp [parseResult, MsgKey.written, keyAt]

/-- The test of the destination port. -/
theorem evaluate_hasPtpPort :
    evaluate (byteAt frame) (hasPtpPort offset) =
      (decide (sysGetBe16 frame (offset + 2) = 319 ∨ sysGetBe16 frame (offset + 2) = 320), []) := by
  rw [hasPtpPort, evaluate_bind, evaluate_readBe16, evaluate_ite]
  by_cases event : sysGetBe16 frame (offset + 2) = 319
  · rw [if_pos event, decide_eq_true (.inl event)]
    rfl
  · rw [if_neg event, evaluate_bind, evaluate_readBe16, evaluate_pure]
    exact Prod.ext (decide_eq_decide.mpr (or_iff_right event).symm) rfl

/-- The offset in the branch of EtherType 0x0800. -/
def ipv4Offset (frame : List Byte) (len : Nat) : Option Nat :=
  let ihl := (byteAt frame 14 &&& 0x0F).toNat * 4
  if len < 15 then none
  else if ihl < 20 ∨ len < 14 + ihl + 8 then none
  else if byteAt frame (14 + 9) ≠ 0x11 then none
  else if sysGetBe16 frame (14 + ihl + 2) ≠ 319 ∧ sysGetBe16 frame (14 + ihl + 2) ≠ 320 then none
  else some (14 + ihl + 8)

/-- Where a frame may carry a message. -/
theorem ptpOffset_eq :
    ptpOffset frame len =
      if len < 14 then none
      else if sysGetBe16 frame 12 = 0x88F7 then some 14
      else if sysGetBe16 frame 12 ≠ 0x0800 then none
      else ipv4Offset frame len := rfl

/-- The message, if there is one. -/
theorem ptpParseHeader_eq :
    ptpParseHeader frame len = (ptpOffset frame len).bind (messageAt frame len) := rfl

/-- A message over UDP, as the specification has it. -/
theorem evaluate_parseIpv4 :
    evaluate (byteAt frame) (parseIpv4 len) =
      parseResult ((ipv4Offset frame len).bind (messageAt frame len)) := by
  unfold parseIpv4 ipv4Offset
  by_cases short : len < 15
  · rw [if_pos short, if_pos short]
    rfl
  rw [if_neg short, if_neg short, evaluate_bind, evaluate_read, evaluate_ite]
  generalize (byteAt frame 14 &&& 0x0F).toNat * 4 = ihl
  by_cases bad : ihl < 20 ∨ len < 14 + ihl + 8
  · rw [if_pos bad, if_pos bad]
    rfl
  rw [if_neg bad, if_neg bad, parseUdp, evaluate_bind, evaluate_read, evaluate_ite]
  by_cases other : byteAt frame (14 + 9) ≠ 0x11
  · rw [if_pos other, if_pos other]
    rfl
  rw [if_neg other, if_neg other, evaluate_bind, evaluate_hasPtpPort, evaluate_ite,
    evaluate_parseCommonHeader]
  by_cases port : sysGetBe16 frame (14 + ihl + 2) = 319 ∨ sysGetBe16 frame (14 + ihl + 2) = 320
  · rw [if_pos (decide_eq_true port), if_neg (by tauto)]
    rfl
  · rw [if_neg (by simpa using port), if_pos (by tauto)]
    rfl

/-- Its result and outputs are those of `ptpParseHeader`. -/
theorem evaluate_parseHeader :
    evaluate (byteAt frame) (parseHeader len) = parseResult (ptpParseHeader frame len) := by
  rw [ptpParseHeader_eq, ptpOffset_eq]
  unfold parseHeader
  by_cases short : len < 14
  · rw [if_pos short, if_pos short]
    rfl
  rw [if_neg short, if_neg short, evaluate_bind, evaluate_readBe16, evaluate_ite, evaluate_ite,
    evaluate_parseCommonHeader, evaluate_parseIpv4]
  by_cases raw : sysGetBe16 frame 12 = 0x88F7
  · rw [if_pos raw, if_pos raw]
    rfl
  rw [if_neg raw, if_neg raw]
  by_cases ipv4 : sysGetBe16 frame 12 = 0x0800
  · rw [if_pos ipv4, if_neg (not_not.mpr ipv4)]
    rfl
  · rw [if_neg ipv4, if_pos ipv4]
    rfl

end Evaluate

/-! ### The frames it is meant for -/

/-- A number in network byte order. -/
def bigEndian (high low : Byte) : Nat := 256 * high.toNat + low.toNat

/-- An IPv4 header of `4 * IHL` bytes which says that UDP follows. -/
structure UdpIpv4Header (header : List Byte) : Prop where
  ihl : 5 ≤ (byteAt header 0).toNat % 16
  sized : header.length = 4 * ((byteAt header 0).toNat % 16)
  protocol : byteAt header 9 = 17

/-- A UDP header with one of PTP's destination ports. -/
structure PtpUdpHeader (header : List Byte) : Prop where
  sized : header.length = 8
  port : bigEndian (byteAt header 2) (byteAt header 3) = 319 ∨
    bigEndian (byteAt header 2) (byteAt header 3) = 320

/-- A frame of one of the two framings, and the message it carries. -/
inductive FramedMessage : List Byte → List Byte → Prop where
  | raw {addresses message : List Byte} (addressed : addresses.length = 12)
      (complete : 32 ≤ message.length) :
      FramedMessage (addresses ++ [0x88, 0xF7] ++ message) message
  | udpIpv4 {addresses header udp message : List Byte} (addressed : addresses.length = 12)
      (ipv4 : UdpIpv4Header header) (port : PtpUdpHeader udp) (complete : 32 ≤ message.length) :
      FramedMessage (addresses ++ [0x08, 0x00] ++ header ++ udp ++ message) message

/-- The message type and sequence id of a message. -/
def messageFields (message : List Byte) : List ParsedField :=
  [.msgType (BitVec.ofNat 8 ((byteAt message 0).toNat % 16)),
    .seqId (BitVec.ofNat 16 (bigEndian (byteAt message 30) (byteAt message 31)))]

section Bytes

variable {frame left right : List Byte} {offset count : Nat}

/-- A byte of the left part. -/
theorem byteAt_append_left (inside : offset < left.length) :
    byteAt (left ++ right) offset = byteAt left offset := by
  simp [byteAt, List.getElem?_append_left inside]

/-- A byte of the right part. -/
theorem byteAt_append_right :
    byteAt (left ++ right) (left.length + offset) = byteAt right offset := by
  simp [byteAt, List.getElem?_append_right (Nat.le_add_right _ _)]

/-- A byte of the middle of three parts. -/
theorem byteAt_middle {middle : List Byte} (inside : offset < middle.length) :
    byteAt (left ++ middle ++ right) (left.length + offset) = byteAt middle offset := by
  rw [List.append_assoc, byteAt_append_right, byteAt_append_left inside]

/-- Two bytes of a part in the middle. -/
theorem sysGetBe16_middle {middle : List Byte} (inside : offset + 1 < middle.length) :
    sysGetBe16 (left ++ middle ++ right) (left.length + offset) = sysGetBe16 middle offset := by
  rw [sysGetBe16, Nat.add_assoc, byteAt_middle (by omega), byteAt_middle inside]
  rfl

/-- A byte of what is kept. -/
theorem byteAt_take (inside : offset < count) :
    byteAt (frame.take count) offset = byteAt frame offset := by
  simp [byteAt, List.getElem?_take_of_lt inside]

/-- A byte behind what is dropped. -/
theorem byteAt_drop : byteAt (frame.drop count) offset = byteAt frame (count + offset) := by
  simp [byteAt]

/-- Two bytes as a number. -/
theorem append_toNat (high low : Byte) : (high ++ low).toNat = bigEndian high low := by
  rw [BitVec.toNat_append, ← Nat.shiftLeft_add_eq_or_of_lt low.isLt, Nat.shiftLeft_eq, bigEndian,
    Nat.mul_comm]

/-- Two bytes of a frame as a number. -/
theorem sysGetBe16_toNat :
    (sysGetBe16 frame offset).toNat =
      bigEndian (byteAt frame offset) (byteAt frame (offset + 1)) :=
  append_toNat _ _

/-- The low four bits as a number. -/
theorem lowNibble_toNat (byte : Byte) : (byte &&& 0x0F).toNat = byte.toNat % 16 := by
  have mask : (0x0F : Byte).toNat = 2 ^ 4 - 1 := rfl
  rw [BitVec.toNat_and, mask, Nat.and_two_pow_sub_one_eq_mod]

/-- Two bytes are determined by the number they make. -/
theorem bigEndian_injective {high low high' low' : Byte}
    (same : bigEndian high low = bigEndian high' low') : high = high' ∧ low = low' := by
  have lowBound := low.isLt
  have lowBound' := low'.isLt
  simp only [bigEndian] at same
  constructor
  · apply BitVec.eq_of_toNat_eq
    omega
  · apply BitVec.eq_of_toNat_eq
    omega

end Bytes

/-! ### Recognition -/

section Recognition

variable {frame message : List Byte}

/-- The fields which are read at the offset of a message. -/
theorem written_keyAt {before : List Byte} :
    (keyAt (before ++ message) before.length).written = messageFields message := by
  have first : byteAt (before ++ message) before.length = byteAt message 0 := by
    have appended : byteAt (before ++ message) (before.length + 0) = byteAt message 0 :=
      byteAt_append_right
    exact appended
  have number : (sysGetBe16 (before ++ message) (before.length + 30)).toNat =
      bigEndian (byteAt message 30) (byteAt message 31) := by
    rw [sysGetBe16_toNat, byteAt_append_right, Nat.add_assoc, byteAt_append_right]
  have nibble : keyAt (before ++ message) before.length =
      ⟨BitVec.ofNat 8 ((byteAt message 0).toNat % 16),
        BitVec.ofNat 16 (bigEndian (byteAt message 30) (byteAt message 31))⟩ := by
    rw [keyAt, ← number, ← first, ← lowNibble_toNat, BitVec.ofNat_toNat, BitVec.ofNat_toNat,
      BitVec.setWidth_eq, BitVec.setWidth_eq]
  rw [nibble]
  rfl

/-- A message with its whole header, at the end of a frame. -/
theorem messageAt_length {before : List Byte} (complete : 32 ≤ message.length) :
    messageAt (before ++ message) (before ++ message).length before.length =
      some (keyAt (before ++ message) before.length) := by
  rw [messageAt, if_neg]
  rw [List.length_append]
  omega

/-- The EtherType of a frame, and what it says of the offset. -/
theorem ethertype_append {addresses rest : List Byte} {high low : Byte}
    (addressed : addresses.length = 12) :
    sysGetBe16 (addresses ++ [high, low] ++ rest) 12 = high ++ low := by
  have between : sysGetBe16 (addresses ++ [high, low] ++ rest) (addresses.length + 0) =
      sysGetBe16 [high, low] 0 := sysGetBe16_middle (by simp)
  rwa [addressed] at between

/-- A frame with the PTP EtherType. -/
theorem ptpOffset_raw {addresses : List Byte} (addressed : addresses.length = 12) :
    ptpOffset (addresses ++ [0x88, 0xF7] ++ message)
      (addresses ++ [0x88, 0xF7] ++ message).length = some 14 := by
  have ethertype : sysGetBe16 (addresses ++ [0x88, 0xF7] ++ message) 12 = 0x88F7 :=
    ethertype_append addressed
  rw [ptpOffset_eq, if_neg, if_pos ethertype]
  simp only [List.length_append, List.length_cons, List.length_nil]
  omega

/-- The offset behind the headers of a UDP/IPv4 frame. -/
theorem ptpOffset_udpIpv4 {addresses header udp : List Byte} (addressed : addresses.length = 12)
    (ipv4 : UdpIpv4Header header) (port : PtpUdpHeader udp) :
    ptpOffset (addresses ++ [0x08, 0x00] ++ header ++ udp ++ message)
        (addresses ++ [0x08, 0x00] ++ header ++ udp ++ message).length =
      some (14 + header.length + 8) := by
  generalize opening : addresses ++ [0x08, 0x00] = before
  have beforeLength : before.length = 14 := by simp [← opening, addressed]
  have ethertype : sysGetBe16 (before ++ header ++ udp ++ message) 12 = 0x0800 := by
    rw [← opening, List.append_assoc, List.append_assoc]
    exact ethertype_append addressed
  have total : (before ++ header ++ udp ++ message).length =
      14 + header.length + 8 + message.length := by
    simp only [List.length_append, beforeLength, port.sized]
  have inHeader {offset : Nat} (inside : offset < header.length) :
      byteAt (before ++ header ++ udp ++ message) (14 + offset) = byteAt header offset := by
    rw [List.append_assoc (before ++ header), ← beforeLength]
    exact byteAt_middle inside
  have long : 20 ≤ header.length := by
    have := ipv4.ihl
    have := ipv4.sized
    omega
  have ihl : (byteAt (before ++ header ++ udp ++ message) 14 &&& 0x0F).toNat * 4 =
      header.length := by
    have first := inHeader (show 0 < header.length by omega)
    rw [lowNibble_toNat, first, ipv4.sized, Nat.mul_comm]
  have destination : sysGetBe16 (before ++ header ++ udp ++ message) (14 + header.length + 2) =
      sysGetBe16 udp 2 := by
    rw [← beforeLength, ← List.length_append]
    exact sysGetBe16_middle (by rw [port.sized]; decide)
  have known : sysGetBe16 udp 2 = 319 ∨ sysGetBe16 udp 2 = 320 := by
    rcases port.port with event | general
    · exact .inl (BitVec.eq_of_toNat_eq (sysGetBe16_toNat.trans event))
    · exact .inr (BitVec.eq_of_toNat_eq (sysGetBe16_toNat.trans general))
  rw [ptpOffset_eq, if_neg (by omega), ethertype, if_neg (by decide), if_neg (by decide)]
  simp only [ipv4Offset, ihl, destination]
  rw [if_neg (by omega), if_neg (by omega), inHeader (by omega), ipv4.protocol, if_neg (by decide),
    if_neg (by tauto)]

/-- A frame of either framing is recognized, with the fields of its message. -/
theorem FramedMessage.parsed (ptp : FramedMessage frame message) :
    parseResult (ptpParseHeader frame frame.length) = (true, messageFields message) := by
  have atMessage {before : List Byte} (complete : 32 ≤ message.length)
      (found : ptpOffset (before ++ message) (before ++ message).length = some before.length) :
      parseResult (ptpParseHeader (before ++ message) (before ++ message).length) =
        (true, messageFields message) := by
    rw [ptpParseHeader_eq, found, Option.bind_some, messageAt_length complete, ← written_keyAt]
    rfl
  cases ptp with
  | @raw addresses _ addressed complete =>
      apply atMessage complete
      rw [ptpOffset_raw addressed]
      simp [addressed]
  | @udpIpv4 addresses header udp _ addressed ipv4 port complete =>
      apply atMessage complete
      rw [ptpOffset_udpIpv4 addressed ipv4 port]
      simp only [List.length_append, addressed, port.sized, List.length_cons, List.length_nil,
        Nat.reduceAdd]

/-- What the checks of the IPv4 branch have found. -/
theorem ipv4Offset_eq_some {len offset : Nat} (found : ipv4Offset frame len = some offset) :
    ∃ ihl, ihl = (byteAt frame 14 &&& 0x0F).toNat * 4 ∧ 20 ≤ ihl ∧ 14 + ihl + 8 ≤ len ∧
      byteAt frame (14 + 9) = 0x11 ∧
      (sysGetBe16 frame (14 + ihl + 2) = 319 ∨ sysGetBe16 frame (14 + ihl + 2) = 320) ∧
      offset = 14 + ihl + 8 := by
  refine ⟨_, rfl, ?_⟩
  unfold ipv4Offset at found
  generalize (byteAt frame 14 &&& 0x0F).toNat * 4 = ihl at found ⊢
  dsimp only at found
  split at found
  · cases found
  split at found
  · cases found
  rename_i sized
  split at found
  · cases found
  rename_i protocol
  split at found
  · cases found
  rename_i port
  cases found
  exact ⟨by omega, by omega, not_not.mp protocol, by tauto, rfl⟩

/-- A frame is cut around any two of its bytes. -/
theorem take_append_bytes {offset : Nat} (inside : offset + 2 ≤ frame.length) :
    frame.take offset ++ [byteAt frame offset, byteAt frame (offset + 1)] ++
      frame.drop (offset + 2) = frame := by
  have first : byteAt frame offset = frame[offset] := by
    simp [byteAt, show offset < frame.length by omega]
  have second : byteAt frame (offset + 1) = frame[offset + 1] := by
    simp [byteAt, show offset + 1 < frame.length by omega]
  rw [first, second, List.append_assoc, List.cons_append, List.cons_append, List.nil_append,
    ← List.drop_eq_getElem_cons, ← List.drop_eq_getElem_cons, List.take_append_drop]

/-- The bytes of the EtherType. -/
theorem ethertype_bytes {high low : Byte} (ethertype : sysGetBe16 frame 12 = high ++ low) :
    byteAt frame 12 = high ∧ byteAt frame 13 = low := by
  apply bigEndian_injective
  rw [← append_toNat, ← append_toNat]
  exact congrArg BitVec.toNat ethertype

/-- The headers which the checks of the IPv4 branch have found. -/
theorem udpIpv4_headers {ihl : Nat} (sized : ihl = (byteAt frame 14 &&& 0x0F).toNat * 4)
    (least : 20 ≤ ihl) (enough : 14 + ihl + 8 ≤ frame.length)
    (protocol : byteAt frame (14 + 9) = 0x11)
    (port : sysGetBe16 frame (14 + ihl + 2) = 319 ∨ sysGetBe16 frame (14 + ihl + 2) = 320) :
    UdpIpv4Header ((frame.drop 14).take ihl) ∧
      PtpUdpHeader ((frame.drop (14 + ihl)).take 8) := by
  rw [lowNibble_toNat] at sized
  have inHeader {offset : Nat} (inside : offset < ihl) :
      byteAt ((frame.drop 14).take ihl) offset = byteAt frame (14 + offset) := by
    rw [byteAt_take inside, byteAt_drop]
  have inUdp {offset : Nat} (inside : offset < 8) :
      byteAt ((frame.drop (14 + ihl)).take 8) offset = byteAt frame (14 + ihl + offset) := by
    rw [byteAt_take inside, byteAt_drop]
  have first : byteAt ((frame.drop 14).take ihl) 0 = byteAt frame 14 := inHeader (by omega)
  constructor
  · constructor
    · rw [first]
      omega
    · rw [first, List.length_take, List.length_drop]
      omega
    · rw [inHeader (by omega)]
      exact protocol
  · constructor
    · rw [List.length_take, List.length_drop]
      omega
    · rw [inUdp (by omega), inUdp (by omega), Nat.add_assoc _ 2 1 |>.symm, ← sysGetBe16_toNat]
      rcases port with event | general
      · exact .inl (congrArg BitVec.toNat event)
      · exact .inr (congrArg BitVec.toNat general)

/-- What is recognized is a frame of one of the framings. -/
theorem framedMessage_of_parsed {key : MsgKey}
    (parsed : ptpParseHeader frame frame.length = some key) : ∃ message, FramedMessage frame message := by
  rw [ptpParseHeader_eq, Option.bind_eq_some_iff] at parsed
  obtain ⟨offset, found, atOffset⟩ := parsed
  have complete : offset + 32 ≤ frame.length := by
    unfold messageAt at atOffset
    split at atOffset
    · cases atOffset
    · omega
  rw [ptpOffset_eq] at found
  split at found
  · cases found
  rename_i long
  have cut := take_append_bytes (show 12 + 2 ≤ frame.length by omega)
  have addressed : (frame.take 12).length = 12 := by
    rw [List.length_take]
    omega
  split at found
  · rename_i ethertype
    cases found
    obtain ⟨high, low⟩ := ethertype_bytes (show sysGetBe16 frame 12 = 0x88#8 ++ 0xF7#8 from ethertype)
    refine ⟨frame.drop 14, ?_⟩
    rw [high, low] at cut
    nth_rewrite 1 [← cut]
    exact .raw addressed (by rw [List.length_drop]; omega)
  split at found
  · cases found
  rename_i ethertype
  obtain ⟨high, low⟩ :=
    ethertype_bytes (show sysGetBe16 frame 12 = 0x08#8 ++ 0x00#8 from not_not.mp ethertype)
  obtain ⟨ihl, sized, least, enough, protocol, port, rfl⟩ := ipv4Offset_eq_some found
  obtain ⟨header, udp⟩ := udpIpv4_headers sized least enough protocol port
  have parts : (frame.drop 14).take ihl ++ (frame.drop (14 + ihl)).take 8 ++
      frame.drop (14 + ihl + 8) = frame.drop 14 := by
    have behindHeader := List.take_append_drop ihl (frame.drop 14)
    have behindUdp := List.take_append_drop 8 (frame.drop (14 + ihl))
    rw [List.drop_drop] at behindHeader behindUdp
    rw [List.append_assoc, behindUdp, behindHeader]
  refine ⟨frame.drop (14 + ihl + 8), ?_⟩
  rw [high, low, ← parts, ← List.append_assoc, ← List.append_assoc] at cut
  nth_rewrite 1 [← cut]
  exact .udpIpv4 addressed header udp (by rw [List.length_drop]; omega)

end Recognition

/-- It accepts exactly the frames of the two framings and writes the fields of their
messages, it writes nothing when it rejects, and it reads nothing at or beyond the length. -/
theorem ptp_header_parsed (frame : List Byte) :
    ((evaluate (byteAt frame) (parseHeader frame.length)).1 = true ↔
        ∃ message, FramedMessage frame message) ∧
      (∀ message, FramedMessage frame message →
        (evaluate (byteAt frame) (parseHeader frame.length)).2 = messageFields message) ∧
      ((evaluate (byteAt frame) (parseHeader frame.length)).1 = false →
        (evaluate (byteAt frame) (parseHeader frame.length)).2 = []) ∧
      ∀ len, (parseHeader len).Only (Within len) := by
  rw [evaluate_parseHeader]
  refine ⟨⟨?_, ?_⟩, ?_, ?_, fun len => within_parseHeader⟩
  · intro accepted
    cases parsed : ptpParseHeader frame frame.length with
    | none =>
        rw [parsed] at accepted
        cases accepted
    | some key => exact framedMessage_of_parsed parsed
  · rintro ⟨message, ptp⟩
    rw [ptp.parsed]
  · intro message ptp
    rw [ptp.parsed]
  · intro rejected
    cases parsed : ptpParseHeader frame frame.length with
    | none => rfl
    | some key =>
        rw [parsed] at rejected
        cases rejected

/-! ### Frames cut off after their headers -/

/-- The bytes which the longest headers of either framing need. -/
def headerBound : Nat := 14 + 60 + 8 + 32

section Truncation

variable {frame : List Byte} {len len' : Nat}

/-- Beyond the header the length does not matter. -/
theorem parseCommonHeader_of_long {offset : Nat} (enough : offset + 32 ≤ len)
    (enough' : offset + 32 ≤ len') : parseCommonHeader len offset = parseCommonHeader len' offset := by
  rw [parseCommonHeader, parseCommonHeader, if_neg (by omega), if_neg (by omega)]

/-- No check of the IPv4 branch depends on how much longer than its headers a frame is. -/
theorem parseIpv4_of_long (long : headerBound ≤ len) (long' : headerBound ≤ len') :
    parseIpv4 len = parseIpv4 len' := by
  rw [headerBound] at long long'
  rw [parseIpv4, parseIpv4, if_neg (by omega), if_neg (by omega)]
  apply bind_congr
  intro first
  have atMost : (first &&& 0x0F).toNat * 4 ≤ 60 := by
    rw [lowNibble_toNat]
    omega
  generalize (first &&& 0x0F).toNat * 4 = ihl at atMost ⊢
  have message : parseCommonHeader len (14 + ihl + 8) = parseCommonHeader len' (14 + ihl + 8) :=
    parseCommonHeader_of_long (by omega) (by omega)
  have udp : parseUdp len ihl = parseUdp len' ihl := by
    rw [parseUdp, parseUdp, message]
  have checks : (ihl < 20 ∨ len < 14 + ihl + 8) ↔ (ihl < 20 ∨ len' < 14 + ihl + 8) := by omega
  simp only [udp, checks]

/-- Nor does any other. -/
theorem parseHeader_of_long (long : headerBound ≤ len) (long' : headerBound ≤ len') :
    parseHeader len = parseHeader len' := by
  have ipv4 := parseIpv4_of_long long long'
  rw [headerBound] at long long'
  have raw : parseCommonHeader len 14 = parseCommonHeader len' 14 :=
    parseCommonHeader_of_long (by omega) (by omega)
  rw [parseHeader, parseHeader, if_neg (by omega), if_neg (by omega), raw, ipv4]

/-- `header_buf`, with what its stack memory held before. -/
def headerBuf (frame : List Byte) (stack : Nat → Byte) (offset : Nat) : Byte :=
  if offset < min frame.length headerBufSize then byteAt frame offset else stack offset

/-- A copy of the beginning of a frame parses as the frame does. -/
theorem evaluate_headerBuf {stack : Nat → Byte} :
    evaluate (headerBuf frame stack) (parseHeader (min frame.length headerBufSize)) =
      evaluate (byteAt frame) (parseHeader frame.length) := by
  have copied : evaluate (headerBuf frame stack) (parseHeader (min frame.length headerBufSize)) =
      evaluate (byteAt frame) (parseHeader (min frame.length headerBufSize)) := by
    apply evaluate_congr within_parseHeader
    intro offset inside
    exact if_pos inside
  have same : parseHeader (min frame.length headerBufSize) = parseHeader frame.length := by
    rcases Nat.le_total frame.length headerBufSize with short | long
    · rw [Nat.min_eq_left short]
    · rw [Nat.min_eq_right long]
      have room : headerBound ≤ headerBufSize := by decide
      exact parseHeader_of_long room (room.trans long)
  rw [copied, same]

/-- The verdict on the first bytes is the one on the whole frame. -/
theorem ptpParseHeader_take :
    ptpParseHeader (frame.take (min frame.length headerBufSize)) (min frame.length headerBufSize) =
      ptpParseHeader frame frame.length := by
  have buffer : byteAt (frame.take (min frame.length headerBufSize)) =
      headerBuf frame fun _ => 0 := by
    ext offset : 1
    unfold headerBuf
    split
    · rename_i inside
      exact byteAt_take inside
    · rename_i outside
      have beyond : (frame.take (min frame.length headerBufSize)).length ≤ offset := by
        rw [List.length_take]
        omega
      simp [byteAt, List.getElem?_eq_none beyond]
  apply parseResult_injective
  rw [← evaluate_parseHeader, ← evaluate_parseHeader, buffer, evaluate_headerBuf]

end Truncation

/-- `lan9250_1588_rx_timestamp_check` makes of the first bytes of a frame what
`lan9250_1588_tx_timestamp_check` makes of all of them. -/
theorem truncated_header_parsed (pkt : NetPkt) (stack : Nat → Byte) (timestampThread : Bool)
    (sent : PktId) :
    evaluate (headerBuf pkt.data stack) (parseHeader (min pkt.data.length headerBufSize)) =
        evaluate (byteAt pkt.data) (parseHeader pkt.data.length) ∧
      ∃ verdict, parseResult verdict =
          evaluate (byteAt pkt.data) (parseHeader pkt.data.length) ∧
        rxTimestampCheck pkt pkt.data.length =
          verdict.elim (pure ()) (rxTimestampMatch pkt.id) ∧
        txTimestampCheck timestampThread sent pkt.data pkt.data.length =
          verdict.elim (pure ()) (fun key => do
            call (.mutexLock .bankLock)
            txTimestampMatch timestampThread sent key
            call (.mutexUnlock .bankLock)) := by
  refine ⟨evaluate_headerBuf, ptpParseHeader pkt.data pkt.data.length, evaluate_parseHeader.symm,
    ?_, ?_⟩
  · have enough : ¬pkt.data.length < min pkt.data.length headerBufSize := by omega
    rw [rxTimestampCheck, if_neg enough, ptpParseHeader_take]
    cases ptpParseHeader pkt.data pkt.data.length <;> rfl
  · rw [txTimestampCheck]
    cases ptpParseHeader pkt.data pkt.data.length <;> rfl

end Rp2350Stepper.Lan9250
