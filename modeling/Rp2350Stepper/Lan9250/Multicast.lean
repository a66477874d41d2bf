import Rp2350Stepper.Lan9250.Interface

/-! # The multicast hash filter, down to the Host MAC register writes -/

namespace Rp2350Stepper.Lan9250

/-! ### Host MAC registers -/

/-- The loop of `lan9250_wait_ready`. Every round which does not end it waits for a
millisecond, so the timeout bounds the rounds. -/
def waitReadyLoop (address : Address) (mask expected : Word) (deadline : Int) :
    Nat → Driver Unit
  | 0 => do
      let stuck ← call .hang
      nomatch stuck
  | rounds + 1 => do
      if let .ok value ← attempt (readSysReg address) then
        if value &&& mask = expected then return
      let now ← call .uptimeGet
      if deadline ≤ now then throw .eio
      call (.busyWait 1000)
      waitReadyLoop address mask expected deadline rounds

/-- `lan9250_wait_ready`. -/
def waitReady (address : Address) (mask expected : Word) (milliseconds : Nat) :
    Driver Unit := do
  let start ← call .uptimeGet
  waitReadyLoop address mask expected (start + milliseconds) (milliseconds + 1)

/-- `lan9250_write_mac_reg`. -/
def writeMacReg (address : MacAddress) (data : Word) : Driver Unit := do
  waitReady macCsrCmd macCsrCmdBusy 0 macTimeout
  writeSysReg macCsrData data
  writeSysReg macCsrCmd (address.setWidth 32 ||| macCsrCmdBusy)
  waitReady macCsrCmd macCsrCmdBusy 0 macTimeout

/-! ### MAC addresses -/

/-- An address as one number, its first byte lowest. -/
def addressWord (address : Vector Byte 6) : BitVec 48 :=
  address[5] ++ address[4] ++ address[3] ++ address[2] ++ address[1] ++ address[0]

/-- The first four bytes of an address, as `HMAC_ADDRL` holds them. -/
def addressLow (address : Vector Byte 6) : Word :=
  address[3] ++ address[2] ++ address[1] ++ address[0]

/-- The last two bytes of an address, as `HMAC_ADDRH` holds them. -/
def addressHigh (address : Vector Byte 6) : Word :=
  (address[5] ++ address[4]).setWidth 32

/-! ### The hash -/

/-- One bit of the inner loop of `lan9250_ether_crc`. -/
def etherCrcBit (state : Word × Byte) : Word × Byte :=
  let (crc, data) := state
  ((crc >>> 1) ^^^ (if (crc ^^^ data.setWidth 32) &&& 1 = 0 then 0 else 0xEDB88320), data >>> 1)

/-- `lan9250_ether_crc`. -/
def etherCrc (address : Vector Byte 6) : Word :=
  address.foldl (fun crc data => (Nat.repeat etherCrcBit 8 (crc, data)).1) 0xffffffff

/-- `lan9250_mcast_hash_bit`. -/
def mcastHashBit (address : Vector Byte 6) : Fin 64 :=
  ⟨(etherCrc address >>> 26).toNat, by
    rw [BitVec.toNat_ushiftRight, Nat.shiftRight_eq_div_pow]
    omega⟩

/-! ### The filter -/

/-- The bits below 32, and the bits from 32 on, whose reference count is not 0. -/
def mcastHash (counts : HashRefcount) : Word × Word :=
  (List.finRange 64).foldl (fun (hashh, hashl) bit =>
    if counts bit = 0 then (hashh, hashl)
    else if bit.val < 32 then (hashh, hashl ||| 1#32 <<< bit.val)
    else (hashh ||| 1#32 <<< (bit.val - 32), hashl)) (0, 0)

/-- `lan9250_mcast_hash_write`. -/
def mcastHashWrite : Driver Unit := do
  let counts ← call .loadRefcount
  let (hashh, hashl) := mcastHash counts
  writeMacReg hmacHashl hashl
  writeMacReg hmacHashh hashh

/-- `struct ethernet_filter`. -/
structure EthernetFilter where
  /-- Whether the type is `ETHERNET_FILTER_TYPE_DST_MAC_ADDRESS`. -/
  dstMacAddress : Bool
  macAddress : Vector Byte 6
  set : Bool
deriving DecidableEq, Repr

/-- A multicast destination address. -/
def EthernetFilter.Multicast (filter : EthernetFilter) : Prop :=
  filter.dstMacAddress = true ∧ filter.macAddress[0] &&& 0x01 ≠ 0

instance (filter : EthernetFilter) : Decidable filter.Multicast :=
  inferInstanceAs (Decidable (_ ∧ _))

/-- The reference counts after a join or a leave; a count of 0 is not decremented. -/
def countFilter (counts : HashRefcount) (filter : EthernetFilter) : HashRefcount := fun bit =>
  if bit = mcastHashBit filter.macAddress then
    if filter.set then counts bit + 1
    else if counts bit = 0 then counts bit
    else counts bit - 1
  else counts bit

/-- `lan9250_set_config` with `ETHERNET_CONFIG_TYPE_FILTER`. -/
def setConfigFilter (filter : EthernetFilter) : Driver Unit := do
  if !filter.dstMacAddress then throw .enotsup
  if filter.macAddress[0] &&& 0x01 = 0 then throw .enotsup
  call (.mutexLock .hashLock)
  let counts ← call .loadRefcount
  call (.storeRefcount (countFilter counts filter))
  let result ← attempt mcastHashWrite
  call (.mutexUnlock .hashLock)
  match result with
  | .ok _ => return
  | .error error => throw error

end Rp2350Stepper.Lan9250
