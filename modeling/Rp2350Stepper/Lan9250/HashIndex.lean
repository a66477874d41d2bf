import Mathlib.Tactic.IntervalCases
import Rp2350Stepper.Data.Crc
import Rp2350Stepper.Lan9250.HashFilter

/-!
# The index into the hash table

The Linux helper `ether_crc` keeps the check of an address in a register which shifts left,
and its upper six bits are the index. `lan9250_ether_crc` keeps the same check in a register
which shifts right, the reversal of the first, but takes the upper six bits of that too. The
two indices agree for the addresses which pass six parity tests.
-/

namespace Rp2350Stepper.Lan9250

open Rp2350Stepper.Data

/-! ### The two registers -/

/-- The bits of an address, byte by byte with the least significant bit first. -/
def addressBits (address : Vector Byte 6) : List Bool :=
  address.toList.flatMap fun byte => (List.range 8).map byte.getLsbD

/-- `ether_crc` of Linux. -/
def linuxEtherCrc (address : Vector Byte 6) : Word :=
  Crc.left 0x04C11DB7 0xffffffff (addressBits address)

/-- One round of the inner loop shifts one bit into the register. -/
theorem etherCrcBit_eq (crc : Word) (data : Byte) :
    etherCrcBit (crc, data) =
      (Crc.shiftRight 0xEDB88320 crc (data.getLsbD 0), data >>> 1) := by
  have out : (crc ^^^ data.setWidth 32) &&& 1 = 0 ↔ crc.getLsbD 0 = data.getLsbD 0 := by
    show (crc ^^^ data.setWidth 32) &&& 1#32 = 0 ↔ _
    rw [BitVec.and_one_eq_setWidth_ofBool_getLsbD, BitVec.getLsbD_xor, BitVec.getLsbD_setWidth]
    cases crc.getLsbD 0 <;> cases data.getLsbD 0 <;> decide
  simp only [etherCrcBit, Crc.shiftRight, out]
  rfl

/-- The inner loop shifts the bits of a byte into the register. -/
theorem etherCrcByte_eq (crc : Word) (data : Byte) (count : Nat) :
    Nat.repeat etherCrcBit count (crc, data) =
      (Crc.right 0xEDB88320 crc ((List.range count).map data.getLsbD), data >>> count) := by
  induction count with
  | zero => simp [Nat.repeat, Crc.right]
  | succ count inductionHypothesis =>
      have next : (data >>> count).getLsbD 0 = data.getLsbD count := by
        rw [BitVec.getLsbD_ushiftRight, Nat.add_zero]
      rw [Nat.repeat, inductionHypothesis, etherCrcBit_eq, next, ← BitVec.shiftRight_add]
      simp only [List.range_succ, List.map_append, Crc.right, List.foldl_append, List.map_cons,
        List.map_nil, List.foldl_cons, List.foldl_nil]

/-- The driver's loops shift the address's bits through the register. -/
theorem etherCrc_eq_right (address : Vector Byte 6) :
    etherCrc address = Crc.right 0xEDB88320 0xffffffff (addressBits address) := by
  have folded : ∀ (bytes : List Byte) (crc : Word),
      bytes.foldl (fun crc data => (Nat.repeat etherCrcBit 8 (crc, data)).1) crc =
        Crc.right 0xEDB88320 crc (bytes.flatMap fun byte => (List.range 8).map byte.getLsbD) := by
    intro bytes
    induction bytes with
    | nil => exact fun _ => rfl
    | cons byte rest inductionHypothesis =>
        intro crc
        rw [List.foldl_cons, inductionHypothesis, List.flatMap_cons, etherCrcByte_eq, Crc.right,
          Crc.right, Crc.right, List.foldl_append]
  rw [etherCrc, ← Vector.foldl_toList, folded, addressBits]

/-- The driver's register is the reversal of the helper's. -/
theorem etherCrc_eq_reverse (address : Vector Byte 6) :
    etherCrc address = (linuxEtherCrc address).reverse := by
  have poly : (0x04C11DB7 : Word).reverse = 0xEDB88320 := by decide +kernel
  have ones : (0xffffffff : Word).reverse = 0xffffffff := by decide +kernel
  rw [etherCrc_eq_right, linuxEtherCrc, Crc.reverse_left, poly, ones]

/-! ### Where the indices agree -/

/-- Those are the bits of its word. -/
theorem addressBits_eq (address : Vector Byte 6) :
    addressBits address = Crc.bits (addressWord address) := by
  have bytes : address.toList =
      [address[0], address[1], address[2], address[3], address[4], address[5]] := by
    apply List.ext_getElem
    · simp
    · intro index bound _
      rw [Vector.length_toList] at bound
      interval_cases index <;> rfl
  rw [addressBits, bytes, addressWord]
  simp only [Crc.bits_append, List.flatMap_cons, List.flatMap_nil, List.append_nil]
  rfl

/-- Six selections of the bits of an address, each with a parity. -/
def indexTests : Vector (BitVec 48 × Bool) 6 :=
  #v[(0x86b98130ec16, false), (0xcafec326e63d, true), (0xf082e7debf65, true),
    (0x576b7eab8f5e, true), (0xf7892533c27b, false), (0x450427650683, true)]

/-- Every selection has its parity. -/
def PassesIndexTests (address : Vector Byte 6) : Prop :=
  ∀ index : Fin 6, Crc.parity (addressWord address &&& indexTests[index].1) = indexTests[index].2

instance (address : Vector Byte 6) : Decidable (PassesIndexTests address) :=
  inferInstanceAs (Decidable (∀ _, _))

/-- The register of the driver for an address as one number. -/
def wordCrc (word : BitVec 48) : Word := Crc.right 0xEDB88320 0xffffffff (Crc.bits word)

/-- A bit from either end of the register, beside those of the address 0. -/
theorem ends_additive (index : Nat) : Crc.Additive fun word =>
    ((wordCrc word).getLsbD index ^^ (wordCrc 0).getLsbD index) ^^
      ((wordCrc word).getLsbD (31 - index) ^^ (wordCrc 0).getLsbD (31 - index)) :=
  (Crc.right_bits_additive _ _ _).xor (Crc.right_bits_additive _ _ _)

/-- Whether they differ is a parity of the address. -/
theorem ends_eq_parity (index : Fin 6) (word : BitVec 48) :
    (((wordCrc word).getLsbD index ^^ (wordCrc 0).getLsbD index) ^^
      ((wordCrc word).getLsbD (31 - index) ^^ (wordCrc 0).getLsbD (31 - index))) =
      Crc.parity (word &&& indexTests[index].1) := by
  have same := (ends_additive index).ext (Crc.parity_and_additive indexTests[index].1) (by
    revert index
    decide +kernel)
  exact congrFun same word

/-- One of the six lowest bits agrees with its mirror image where a parity is right. -/
theorem end_bits_agree_iff (index : Fin 6) (word : BitVec 48) :
    (wordCrc word).getLsbD index = (wordCrc word).getLsbD (31 - index) ↔
      Crc.parity (word &&& indexTests[index].1) = indexTests[index].2 := by
  have alone : ((wordCrc 0).getLsbD index ^^ (wordCrc 0).getLsbD (31 - index)) =
      indexTests[index].2 := by
    revert index
    decide +kernel
  rw [← ends_eq_parity, ← alone]
  cases (wordCrc word).getLsbD index <;> cases (wordCrc word).getLsbD (31 - index) <;>
    cases (wordCrc 0).getLsbD index <;> cases (wordCrc 0).getLsbD (31 - index) <;> decide

/-- The upper six bits of a register and of its reversal. -/
theorem upper_eq_reverse_upper_iff (crc : Word) :
    crc >>> 26 = crc.reverse >>> 26 ↔
      ∀ index : Fin 6, crc.getLsbD index = crc.getLsbD (31 - index) := by
  have mirrored : ∀ index < 6, (crc.reverse >>> 26).getLsbD index = crc.getLsbD (5 - index) := by
    intro index below
    rw [BitVec.getLsbD_ushiftRight, BitVec.getLsbD_reverse, BitVec.getMsbD_eq_getLsbD,
      decide_eq_true (by omega), Bool.true_and]
    congr 1
    omega
  constructor
  · intro same index
    have bit := congrArg (fun word => word.getLsbD (5 - index)) same
    simp only [mirrored _ (by omega : 5 - index.val < 6), BitVec.getLsbD_ushiftRight] at bit
    have low : 5 - (5 - index.val) = index := by omega
    have high : 26 + (5 - index.val) = 31 - index := by omega
    rw [low, high] at bit
    exact bit.symm
  · intro mirror
    apply BitVec.eq_of_getLsbD_eq
    intro index _
    rcases Nat.lt_or_ge index 6 with below | above
    · have bit := mirror ⟨5 - index, by omega⟩
      have high : 31 - (5 - index) = 26 + index := by omega
      rw [mirrored index below, BitVec.getLsbD_ushiftRight, bit, high]
    · rw [BitVec.getLsbD_ushiftRight, BitVec.getLsbD_ushiftRight,
        BitVec.getLsbD_of_ge _ _ (by omega), BitVec.getLsbD_of_ge _ _ (by omega)]

/-- The bit of the hash table which the upper six bits of the CRC register select. -/
def linuxHashBit (address : Vector Byte 6) : Fin 64 :=
  ⟨(linuxEtherCrc address >>> 26).toNat, by
    rw [BitVec.toNat_ushiftRight, Nat.shiftRight_eq_div_pow]
    omega⟩

/-- The two indices agree where all six parities are right. -/
theorem mcastHashBit_eq_iff (address : Vector Byte 6) :
    mcastHashBit address = linuxHashBit address ↔ PassesIndexTests address := by
  have word : etherCrc address = wordCrc (addressWord address) := by
    rw [etherCrc_eq_right, addressBits_eq, wordCrc]
  have linux : linuxEtherCrc address = (etherCrc address).reverse := by
    rw [etherCrc_eq_reverse, BitVec.reverse_reverse_eq]
  rw [mcastHashBit, linuxHashBit, Fin.mk.injEq, BitVec.toNat_inj, linux,
    upper_eq_reverse_upper_iff, word]
  exact forall_congr' fun index => end_bits_agree_iff index (addressWord address)

/-! ### Whether a joined group passes the filter -/

/-- The registers of the hash table have the bit of an address. -/
def Admits (table : Word × Word) (address : Vector Byte 6) : Prop :=
  (table.1 ++ table.2 : BitVec 64).getLsbD (linuxHashBit address) = true

instance (table : Word × Word) (address : Vector Byte 6) : Decidable (Admits table address) :=
  inferInstanceAs (Decidable (_ = _))

/-- The hash table with one group joined. -/
def joinedAlone (address : Vector Byte 6) : Word × Word :=
  mcastHash (countFilter (fun _ => 0) ⟨true, address, true⟩)

/-- The index of an address is that of `ether_crc`, and the address passes the filter once it
is joined, exactly if it passes the tests. -/
theorem hash_index_exact (address : Vector Byte 6) :
    ((mcastHashBit address).val = (linuxEtherCrc address >>> 26).toNat ↔
      PassesIndexTests address) ∧
    (Admits (joinedAlone address) address ↔ PassesIndexTests address) := by
  refine ⟨by rw [← mcastHashBit_eq_iff, Fin.ext_iff, linuxHashBit], ?_⟩
  rw [Admits, joinedAlone, mcastHash_getLsbD, ← mcastHashBit_eq_iff, countFilter]
  by_cases same : mcastHashBit address = linuxHashBit address
  · simp [same]
  · simp [same, Ne.symm same]

/-- The group 01:1b:19:00:00:00 of PTP over Ethernet gets bit 47, and its index is 63. -/
theorem ptp_group_misplaced :
    ¬∀ address : Vector Byte 6,
      (mcastHashBit address).val = (linuxEtherCrc address >>> 26).toNat := by
  intro agree
  have same := agree #v[0x01, 0x1b, 0x19, 0x00, 0x00, 0x00]
  revert same
  decide +kernel

end Rp2350Stepper.Lan9250
