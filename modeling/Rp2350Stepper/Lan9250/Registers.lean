import Mathlib.Algebra.GroupWithZero.Nat

/-!
# LAN9250 registers

The register addresses and fields of `eth_lan9250_priv.h` which the modelled
functions use, under the names of the header without their `LAN9250_` prefix.
-/

namespace Rp2350Stepper.Lan9250

/-- A register value, a FIFO entry or any other 32-bit word. -/
abbrev Word := BitVec 32

/-- A byte of a frame. -/
abbrev Byte := BitVec 8

/-- The address of a directly addressed system register. -/
abbrev Address := BitVec 16

/-- The index of an indirectly addressed Host MAC register. -/
abbrev MacAddress := BitVec 8

/-! ### System registers -/

/-- The bytes of received frames. -/
def rxDataFifo : Address := 0x0000
/-- The records of frames to be sent. -/
def txDataFifo : Address := 0x0020
/-- One status word for each received frame; reading it takes it out. -/
def rxStatusFifo : Address := 0x0040
/-- One status word for each frame sent. -/
def txStatusFifo : Address := 0x0048
/-- Interrupts which have been raised; writing a bit clears it. -/
def intSts : Address := 0x0058
/-- The interrupts which reach the pin. -/
def intEn : Address := 0x005C
/-- How much the two RX FIFOs hold. -/
def rxFifoInf : Address := 0x007C
/-- How many TX status words there are, and how much room for data. -/
def txFifoInf : Address := 0x0080
/-- The command to the Host MAC's registers. -/
def macCsrCmd : Address := 0x00A4
/-- The word which such a command moves. -/
def macCsrData : Address := 0x00A8

/-- Which of the pins are LED outputs. -/
def ledCfg : Address := 0x01BC
/-- How the GPIO pins are driven. -/
def gpioCfg : Address := 0x01E0

/-- `1588_CMD_CTL`. -/
def cmdCtl : Address := 0x0100

/-- `1588_GENERAL_CONFIG`. -/
def generalConfig : Address := 0x0104

/-- `1588_INT_STS`. -/
def ieee1588IntSts : Address := 0x0108

/-- `1588_CLOCK_SEC`: the seconds of the 1588 clock. -/
def clockSec : Address := 0x0110
/-- Its nanoseconds. -/
def clockNs : Address := 0x0114
/-- Its fraction of a nanosecond. -/
def clockSubns : Address := 0x0118

/-- `1588_CLOCK_TARGET_SEC` of a channel, of which 0 is channel A: the seconds of its target. -/
def clockTargetSec (x : Address) : Address := 0x012C + 0x10 * x
/-- The nanoseconds of the target. -/
def clockTargetNs (x : Address) : Address := 0x0130 + 0x10 * x
/-- The seconds added to the target when it is met. -/
def clockTargetReloadSec (x : Address) : Address := 0x0134 + 0x10 * x
def clockTargetReloadNs (x : Address) : Address := 0x0138 + 0x10 * x

/-- `1588_BANK_PORT_GPIO_SEL`. -/
def bankPortGpioSel : Address := 0x0154

/-! ### Banked registers -/

/-- The bank with `CAP_INFO`. -/
def bankSelPortGeneral : Word := 0
/-- The bank of ingress time stamps. -/
def bankSelPortRx : Word := 1
/-- The bank of egress time stamps. -/
def bankSelPortTx : Word := 2

/-- `1588_CAP_INFO`, in the port general bank. -/
def capInfo : Address := 0x0160

/-- Which received messages are stamped. -/
def rxTimestampConfig : Address := 0x015C
/-- The seconds of the oldest ingress event. -/
def rxIngressSec : Address := 0x016C
def rxIngressNs : Address := 0x0170
def rxMsgHeader : Address := 0x0174
/-- Which transmitted messages are stamped. -/
def txTimestampConfig : Address := 0x015C
/-- The seconds of the oldest egress event. -/
def txEgressSec : Address := 0x016C
def txEgressNs : Address := 0x0170
def txMsgHeader : Address := 0x0174

/-! ### Host MAC registers -/

/-- The last two bytes of the MAC address. -/
def hmacAddrh : MacAddress := 0x02
/-- The first four bytes of the MAC address. -/
def hmacAddrl : MacAddress := 0x03
/-- The upper half of the multicast hash filter. -/
def hmacHashh : MacAddress := 0x04
/-- The lower half of the multicast hash filter. -/
def hmacHashl : MacAddress := 0x05
/-- The command to the PHY's registers. -/
def hmacMiiAcc : MacAddress := 0x06
/-- The word which such a command moves. -/
def hmacMiiData : MacAddress := 0x07

/-! ### PHY registers -/

/-- What has raised the PHY's interrupt; reading it clears it. -/
def phyInterruptSource : BitVec 8 := 0x1D

/-- `PHY_SPECIAL_CONTROL_STATUS` and `PHY_SPECIAL_CONTROL_STAT_IND`. -/
def phySpecialControlStatus : BitVec 8 := 0x1F
/-- The PHY's special control and status indications. -/
def phySpecialControlStatInd : BitVec 8 := 0x1B

/-! ### Fields -/

/-- `RX_STS_PACKET_LEN`. -/
def rxStsPacketLen : Word := 0x3FFF0000

/-- `RX_FIFO_INF_RXSUSED`. -/
def rxFifoInfRxsused : Word := 0x00FF0000

/-- `TX_FIFO_INF_TXSUSED`. -/
def txFifoInfTxsused : Word := 0x00FF0000

/-- `TX_FIFO_INF_TXFREE`. -/
def txFifoInfTxfree : Word := 0x0000FFFF

def txCmdAIntOnComp : Word := 0x80000000
def txCmdABufferAlign4b : Word := 0x00000000
def txCmdAStartOffset0b : Word := 0x00000000
def txCmdAFirstSeg : Word := 0x00002000
def txCmdALastSeg : Word := 0x00001000
def txCmdBPacketTag : Word := 0xFFFF0000

def macCsrCmdBusy : Word := 0x80000000
def macCsrCmdRead : Word := 0x40000000
def macCsrCmdAddr : Word := 0x000000FF

/-- `HMAC_MII_ACC_MIIBZY` and `HMAC_MII_ACC_MIIW_R`. -/
def miiAccMiibzy : Word := 0x00000001
/-- The command writes. -/
def miiAccMiiwR : Word := 0x00000002

/-- `INT_STS_PHY_INT` and `INT_STS_RSFL`; the bits of `INT_EN` are at the same places. -/
def intStsPhyInt : Word := 0x04000000
/-- The RX status FIFO is filled to its level. -/
def intStsRsfl : Word := 0x00000008

/-- `LED_CFG_LED_EN`, for one of the GPIO pins. -/
def ledCfgLedEn (x : Nat) : Word := 1#32 <<< x

/-- The bits of a GPIO pin in `GPIO_CFG`. -/
def gpioCfg1588GpioChSel (x : Nat) : Word := 1#32 <<< (24 + x)
def gpioCfgGpioPol (x : Nat) : Word := 1#32 <<< (16 + x)
def gpioCfg1588GpioOe (x : Nat) : Word := 1#32 <<< (8 + x)
def gpioCfgGpiobuf (x : Nat) : Word := 1#32 <<< x

/-- `PHY_INTERRUPT_SOURCE_LINK_UP` and `PHY_INTERRUPT_SOURCE_LINK_DOWN`. -/
def sourceLinkUp : BitVec 16 := 0x0200
/-- The link has gone down. -/
def sourceLinkDown : BitVec 16 := 0x0010

/-- `1588_CMD_CTL_CLOCK_LOAD` and `1588_CMD_CTL_CLOCK_READ`. -/
def cmdCtlClockLoad : Word := 0x00000010
/-- The clock's registers show its present time. -/
def cmdCtlClockRead : Word := 0x00000008

/-- The bits of `1588_GENERAL_CONFIG`. -/
def generalConfigTsuEnable : Word := 0x00010000
def generalConfigReloadAddB : Word := 0x00000002
def generalConfigReloadAddA : Word := 0x00000001
def generalConfigClockEventBMask : Word := 0x00000030
def generalConfigClockEventAMask : Word := 0x0000000C
def generalConfigClockEventAShift : Nat := 2

/-- `1588_CLOCK_EVENT_MODE_100NS_PULSE`. -/
def clockEventMode100nsPulse : Word := 0x0

/-- `1588_INT_STS_RX_TS_INT`. -/
def intStsRxTsInt : Word := 0x00000100

/-- `1588_INT_STS_TX_TS_INT`. -/
def intStsTxTsInt : Word := 0x00001000

def capInfoTxTsCntMask : Word := 0x00000070
def capInfoTxTsCntShift : Nat := 4
def capInfoRxTsCntMask : Word := 0x00000007

/-- `RX_TIMESTAMP_CONFIG_MESSAGE_EN_MASK` and `TX_TIMESTAMP_CONFIG_MESSAGE_EN_MASK`. -/
def rxTimestampConfigMessageEnMask : Word := 0x0000FFFF
/-- One bit for each message type which is stamped on its way out. -/
def txTimestampConfigMessageEnMask : Word := 0x0000FFFF

def msgHeaderMsgTypeMask : Word := 0x000F0000
def msgHeaderMsgTypeShift : Nat := 16
def msgHeaderSeqIdMask : Word := 0x0000FFFF

/-! ### PTP message types -/

def ptpMsgtypeSync : Nat := 0x0
def ptpMsgtypeDelayReq : Nat := 0x1
def ptpMsgtypePdelayReq : Nat := 0x2
def ptpMsgtypePdelayResp : Nat := 0x3

/-- `1588_PTP_MESSAGE_EN_DEFAULT`: the message types whose times are recorded. -/
def ptpMessageEnDefault : Word :=
  (1#32 <<< ptpMsgtypeSync) ||| (1#32 <<< ptpMsgtypeDelayReq) |||
    (1#32 <<< ptpMsgtypePdelayReq) ||| (1#32 <<< ptpMsgtypePdelayResp)

/-! ### Sizes and times -/

/-- `LAN9250_MAC_TIMEOUT`, in milliseconds. -/
def macTimeout : Nat := 2000

/-- `LAN9250_PHY_TIMEOUT`, in milliseconds. -/
def phyTimeout : Nat := 2000

/-- `LAN9250_1588_RX_PENDING_MAX`. -/
abbrev rxPendingMax : Nat := 16

/-- `LAN9250_1588_RX_PENDING_TIMEOUT_MS`. -/
def rxPendingTimeoutMs : Int := 2000

/-- `LAN9250_1588_TX_TS_POLL_ATTEMPTS`. -/
def txTsPollAttempts : Nat := 5

/-- `NET_ETH_MAX_FRAME_SIZE`: the 1500-byte MTU and the Ethernet header. -/
def netEthMaxFrameSize : Nat := 1514

end Rp2350Stepper.Lan9250
