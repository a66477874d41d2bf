import Rp2350Stepper.Lan9250.PhyAccess
import Rp2350Stepper.Semantics.Order

/-!
# Bringing the chip up: `lan9250_init`

The reset, the configuration of the registers in front of the MAC, of the PHY and of the MAC,
the MAC address, and the 1588 unit, in the order of the driver: it turns the 1588 unit on last,
for most of what configures it must not change while it is on. Three registers of this unit are
written back as read with some bits changed; all other values are fixed. What the kernel returns for the
pins and for the chip id of the board are parameters, and its log lines are left out.
-/

namespace Rp2350Stepper.Lan9250

open Rp2350Stepper.Data Rp2350Stepper.Semantics

/-! ### Registers and fields -/

/-- How the interrupt pin is driven. -/
def irqCfg : Address := 0x0054
/-- The FIFO levels which raise an interrupt. -/
def fifoInt : Address := 0x0068
/-- How received frames are put into the RX data FIFO. -/
def rxCfg : Address := 0x006C
/-- The transmitter's switches. -/
def txCfg : Address := 0x0070
/-- Power management. -/
def pmtCtrl : Address := 0x0084
/-- Automatic flow control. -/
def afcCfg : Address := 0x00AC

/-- The Host MAC's control register. -/
def hmacCr : MacAddress := 0x01

/-- The PHY's basic control register. -/
def phyBasicControl : BitVec 8 := 0x00
/-- What the PHY advertises to the other end. -/
def phyAnAdv : BitVec 8 := 0x04
/-- The PHY's mode and address. -/
def phySpecialModes : BitVec 8 := 0x12
/-- The PHY interrupts which reach `INT_STS`. -/
def phyInterruptMask : BitVec 8 := 0x1E

def resetCtlHmacRst : Word := 0x00000020
def resetCtlPhyRst : Word := 0x00000002
def resetCtlDigitalRst : Word := 0x00000001

def hwCfgMbo : Word := 0x00100000
def hwCfgTxFifSz8kb : Word := 0x00080000

def irqCfgIntDeas100us : Word := 0x0A000000
def irqCfgIrqEn : Word := 0x00000100
def irqCfgIrqTypePp : Word := 0x00000001

def intEnPhyIntEn : Word := 0x04000000
def intEnRsflEn : Word := 0x00000008

def fifoIntTxDataAvailableLevel : Word := 0xFF000000
def fifoIntTxStatusLevel : Word := 0x00FF0000

def pmtCtrlPmWake : Word := 0x08000000
def pmtCtrlWolEn : Word := 0x00000200
def pmtCtrlWolSts : Word := 0x00000020

def phyBasicControlPhyAn : BitVec 16 := 0x1000
def phyBasicControlPhySpeedSelLsb : BitVec 16 := 0x2000
def phyBasicControlPhyDuplex : BitVec 16 := 0x0100

def phyAnAdvAsymPause : BitVec 16 := 0x0800
def phyAnAdvSymPause : BitVec 16 := 0x0400
def phyAnAdv100btxHd : BitVec 16 := 0x0080
def phyAnAdv100btxFd : BitVec 16 := 0x0100
def phyAnAdv10btHd : BitVec 16 := 0x0020
def phyAnAdv10btFd : BitVec 16 := 0x0040
def phyAnAdvSelectorDefault : BitVec 16 := 0x0001

/-- The bits of `PHY_SPECIAL_CONTROL_STAT_IND`. -/
def statIndAmdixctrl : BitVec 16 := 0x8000
def statIndAmdixen : BitVec 16 := 0x4000
def statIndSqeoff : BitVec 16 := 0x0800

def phyModeControlStatusAltint : BitVec 16 := 0x0040

def hmacCrPadstr : Word := 0x00000100
def hmacCrTxen : Word := 0x00000008
def hmacCrRxen : Word := 0x00000004
def hmacCrFdpx : Word := 0x00100000
def hmacCrHpfilt : Word := 0x00002000

def txCfgTxOn : Word := 0x00000002

/-- `LAN9250_RESET_TIMEOUT`, in milliseconds. -/
def resetTimeout : Nat := 5000

/-! ### The functions of the driver -/

/-- A negative return value of `lan9250_init`. -/
inductive InitError where
  | einval
  | enodev
  | driver (error : Errno)
deriving DecidableEq, Repr

/-- Code of the bring-up which returns early with a negative value on an error. -/
abbrev Init (α : Type) := ExceptT InitError (Program driverInterface) α

/-- A function of the driver, whose error is returned. -/
def ofDriver {α : Type} (function : Driver α) : Init α :=
  ExceptT.mk (Except.mapError .driver <$> function.run)

/-- `lan9250_hw_cfg_check`; its loop has no bound of its own. -/
def hwCfgCheck : Nat → Driver Unit
  | 0 => do
      let stuck ← call .hang
      nomatch stuck
  | polls + 1 => do
      let tmp ← readSysReg hwCfg
      call (.busyWait 1000)
      if tmp &&& hwCfgDeviceReady = 0 then hwCfgCheck polls

/-- `lan9250_sw_reset`. -/
def swReset : Driver Unit := do
  writeSysReg resetCtl (resetCtlHmacRst ||| resetCtlPhyRst ||| resetCtlDigitalRst)
  waitReady byteTest 0xFFFFFFFF byteTestDefault resetTimeout

/-- The registers `lan9250_configure` writes once it knows the chip. -/
def configureRegisters : Driver Unit := do
  writeSysReg hwCfg (hwCfgMbo ||| hwCfgTxFifSz8kb)
  writeSysReg afcCfg 0x006E3741
  writeSysReg irqCfg (irqCfgIntDeas100us ||| irqCfgIrqEn ||| irqCfgIrqTypePp)
  writeSysReg intEn (intEnPhyIntEn ||| intEnRsflEn)
  writeSysReg fifoInt (fifoIntTxDataAvailableLevel ||| fifoIntTxStatusLevel)
  writeSysReg rxCfg (0x06000000 ||| 0x00000400)
  writeSysReg pmtCtrl (pmtCtrlPmWake ||| pmtCtrlWolEn ||| pmtCtrlWolSts)
  phyWrite phyBasicControl
    (phyBasicControlPhyAn ||| phyBasicControlPhySpeedSelLsb ||| phyBasicControlPhyDuplex)
  phyWrite phyAnAdv
    (phyAnAdvAsymPause ||| phyAnAdvSymPause ||| phyAnAdv100btxHd ||| phyAnAdv100btxFd |||
      phyAnAdv10btHd ||| phyAnAdv10btFd ||| phyAnAdvSelectorDefault)
  phyWrite phySpecialModes (0x00E0 ||| 1)
  phyWrite phySpecialControlStatInd (statIndAmdixctrl ||| statIndAmdixen ||| statIndSqeoff)
  phyWrite phyInterruptMask (sourceLinkUp ||| sourceLinkDown)
  phyWrite phySpecialControlStatus phyModeControlStatusAltint
  writeSysReg intSts 0xFFFFFFFF
  writeMacReg hmacCr (hmacCrPadstr ||| hmacCrTxen ||| hmacCrRxen ||| hmacCrFdpx ||| hmacCrHpfilt)
  writeMacReg hmacHashl 0
  writeMacReg hmacHashh 0
  writeSysReg txCfg txCfgTxOn

/-- `lan9250_configure`. -/
def configure (polls : Nat) : Init Unit := do
  ofDriver (hwCfgCheck polls)
  let tmp ← ofDriver (readSysReg idRev)
  if tmp &&& idRevChipId ≠ idRevChipIdDefault then throw .enodev
  ofDriver configureRegisters

/-- `lan9250_load_unique_mac_address`: what becomes of `mac_address`, for the bytes
`hwinfo_get_device_id` has returned, at most eight. -/
def loadUniqueMacAddress (macAddress : Vector Byte 6) (hwId : List Byte) : Vector Byte 6 :=
  if hwId.length < 6 then macAddress
  else
    Vector.ofFn fun i =>
      let copied := hwId.getD (hwId.length - 6 + i.val) 0
      if i.val = 0 then (copied &&& ~~~0x01) ||| 0x02 else copied

/-- `lan9250_1588_init`. -/
def ieee1588Init : Driver Unit := do
  let general ← readSysReg generalConfig
  writeSysReg generalConfig (general ||| generalConfigTsuEnable)
  writeSysReg clockSec 0
  writeSysReg clockNs 0
  writeSysReg cmdCtl cmdCtlClockLoad

/-- `lan9250_1588_enable`. -/
def ieee1588Enable : Driver Unit := writeSysReg cmdCtl cmdCtlEnable

/-- What the kernel and the devicetree of a board give `lan9250_init`. -/
structure Board where
  spiReady : Bool
  interruptReady : Bool
  /-- What `gpio_pin_configure_dt`, `gpio_add_callback` and `gpio_pin_interrupt_configure_dt`
  return for the interrupt pin. -/
  pinConfigured : Except InitError Unit
  callbackAdded : Except InitError Unit
  interruptConfigured : Except InitError Unit
  /-- Whether the reset pin is ready, and what configuring it returns, on a board which has one. -/
  reset : Option (Bool × Except InitError Unit)
  /-- `mac_address` as `net_eth_mac_load` leaves it. -/
  configuredMac : Vector Byte 6
  /-- What `hwinfo_get_device_id` returns. -/
  hwId : List Byte

/-- The MAC address of a board. -/
def Board.macAddress (board : Board) : Vector Byte 6 :=
  loadUniqueMacAddress board.configuredMac board.hwId

/-- The part of `lan9250_init` before it reaches the chip; of the pulse on the reset pin only the
wait at its end. -/
def preparePins (board : Board) : Init Unit := do
  if !board.spiReady then throw .einval
  if !board.interruptReady then throw .einval
  ExceptT.mk (pure board.pinConfigured)
  ExceptT.mk (pure board.callbackAdded)
  ExceptT.mk (pure board.interruptConfigured)
  match board.reset with
  | none => return
  | some (ready, configured) =>
      if !ready then throw .einval
      ExceptT.mk (pure configured)
      call (.sleep 20)

/-- `lan9250_init`. -/
def lan9250Init (board : Board) (polls : Nat) : Init Unit := do
  preparePins board
  ofDriver swReset
  configure polls
  ofDriver (onBus (setMacaddr board.macAddress))
  ofDriver ieee1588Init
  ofDriver (ExceptT.mk timestampingInit)
  ofDriver ieee1588Enable

/-! ### The order of the writes -/

/-- A write of a register, other than the command which has the MAC read one of its own. -/
def Request.setting? : Request → Option (Address × Word)
  | .writeSysReg address value =>
      if address = macCsrCmd ∧ value &&& macCsrCmdRead ≠ 0 then none else some (address, value)
  | _ => none

/-- The writes by which a register of the MAC is written. -/
def macOrder (address : MacAddress) (value : Word) : List (Address × Word) :=
  [(macCsrData, value), (macCsrCmd, Mac.writeCommand address)]

/-- Those by which a register of the PHY is. -/
def phyOrder (address : BitVec 8) (data : BitVec 16) : List (Address × Word) :=
  macOrder hmacMiiData (data.setWidth 32) ++ macOrder hmacMiiAcc (miiAccess address ||| miiAccMiiwR)

/-- The writes of `lan9250_configure`. -/
def configureOrder : List (Address × Word) :=
  (hwCfg, hwCfgMbo ||| hwCfgTxFifSz8kb) :: (afcCfg, 0x006E3741) ::
  (irqCfg, irqCfgIntDeas100us ||| irqCfgIrqEn ||| irqCfgIrqTypePp) ::
  (intEn, intEnPhyIntEn ||| intEnRsflEn) ::
  (fifoInt, fifoIntTxDataAvailableLevel ||| fifoIntTxStatusLevel) ::
  (rxCfg, 0x06000000 ||| 0x00000400) ::
  (pmtCtrl, pmtCtrlPmWake ||| pmtCtrlWolEn ||| pmtCtrlWolSts) ::
  (phyOrder phyBasicControl
    (phyBasicControlPhyAn ||| phyBasicControlPhySpeedSelLsb ||| phyBasicControlPhyDuplex) ++
  (phyOrder phyAnAdv
    (phyAnAdvAsymPause ||| phyAnAdvSymPause ||| phyAnAdv100btxHd ||| phyAnAdv100btxFd |||
      phyAnAdv10btHd ||| phyAnAdv10btFd ||| phyAnAdvSelectorDefault) ++
  (phyOrder phySpecialModes (0x00E0 ||| 1) ++
  (phyOrder phySpecialControlStatInd (statIndAmdixctrl ||| statIndAmdixen ||| statIndSqeoff) ++
  (phyOrder phyInterruptMask (sourceLinkUp ||| sourceLinkDown) ++
  (phyOrder phySpecialControlStatus phyModeControlStatusAltint ++
  (intSts, 0xFFFFFFFF) ::
  (macOrder hmacCr (hmacCrPadstr ||| hmacCrTxen ||| hmacCrRxen ||| hmacCrFdpx ||| hmacCrHpfilt) ++
  (macOrder hmacHashl 0 ++ (macOrder hmacHashh 0 ++ [(txCfg, txCfgTxOn)])))))))))

/-- The writes which configure the 1588 unit, for what its registers have shown. -/
def ieee1588Order (general rx tx : Word) : List (Address × Word) :=
  [(generalConfig, general ||| generalConfigTsuEnable), (clockSec, 0), (clockNs, 0),
    (cmdCtl, cmdCtlClockLoad), (bankPortGpioSel, bankSelPortRx),
    (rxTimestampConfig, (rx &&& ~~~rxTimestampConfigMessageEnMask) ||| ptpMessageEnDefault),
    (bankPortGpioSel, bankSelPortTx),
    (txTimestampConfig, (tx &&& ~~~txTimestampConfigMessageEnMask) ||| ptpMessageEnDefault)]

/-- Every write before the 1588 unit is enabled. -/
def preparationOrder (macAddress : Vector Byte 6) (general rx tx : Word) : List (Address × Word) :=
  (resetCtl, resetCtlHmacRst ||| resetCtlPhyRst ||| resetCtlDigitalRst) ::
    (configureOrder ++ (macOrder hmacAddrl (addressLow macAddress) ++
      (macOrder hmacAddrh (addressHigh macAddress) ++ ieee1588Order general rx tx)))

section Order

/-- The program makes its writes in this order. -/
def Ordered {ε α : Type} (program : ExceptT ε (Program driverInterface) α)
    (order : List (Address × Word)) : Prop :=
  program.run.InOrder Request.setting? Program.InOrder.Succeeded {order}

variable {ε α β : Type}

theorem Ordered.bind {first : ExceptT ε (Program driverInterface) α}
    {next : α → ExceptT ε (Program driverInterface) β} {order later : List (Address × Word)}
    (ordered : Ordered first order) (continues : ∀ value, Ordered (next value) later) :
    Ordered (first >>= next) (order ++ later) := by
  refine (Program.InOrder.run_bind ordered (Set.singleton_nonempty later) continues).weaken ?_
  rintro _ ⟨_, rfl, _, rfl, rfl⟩
  rfl

/-- A step which writes nothing, before the others. -/
theorem Ordered.skip {first : ExceptT ε (Program driverInterface) α}
    {next : α → ExceptT ε (Program driverInterface) β} {order : List (Address × Word)}
    (ordered : Ordered first []) (continues : ∀ value, Ordered (next value) order) :
    Ordered (first >>= next) order :=
  ordered.bind continues

/-- An error which is passed on changes nothing. -/
theorem Ordered.ofDriver {function : Driver α} {order : List (Address × Word)}
    (ordered : Ordered function order) : Ordered (ofDriver function) order := by
  have mapped : (Lan9250.ofDriver function).run =
      function.run >>= fun result => pure (Except.mapError InitError.driver result) := rfl
  unfold Ordered
  rw [mapped]
  refine Program.InOrder.bind_unlabelled ordered (fun result _ => ⟨⟨[], rfl⟩, fun _ => rfl⟩) ?_
  intro result unfinished
  cases result with
  | ok value => exact absurd ⟨value, rfl⟩ unfinished
  | error error => exact fun any possible => ⟨possible, by simp [Except.mapError]⟩

/-- Code which makes no settings. -/
theorem Ordered.of_unlabelled {program : ExceptT ε (Program driverInterface) α}
    (only : program.run.Only fun request : Request => request.setting? = none) :
    Ordered program [] :=
  Program.InOrder.of_unlabelled only

/-- A write is its own setting. -/
theorem ordered_write {address : Address} {value : Word}
    (setting : ¬(address = macCsrCmd ∧ value &&& macCsrCmdRead ≠ 0)) :
    Ordered (writeSysReg address value) [(address, value)] := by
  have label : (Request.writeSysReg address value).setting? = some (address, value) := if_neg setting
  have single : Ordered (writeSysReg address value)
      (Request.writeSysReg address value).setting?.toList := Program.InOrder.of_ask
  rw [label] at single
  exact single

/-- A read is none. -/
theorem ordered_read (address : Address) : Ordered (readSysReg address) [] :=
  .of_unlabelled ⟨rfl, fun _ => trivial⟩

/-- A request which writes nothing. -/
def Request.Unset (request : Request) : Prop := request.setting? = none

/-- One which at most waits for what the chip does by itself. -/
def Request.Passive : Request → Prop
  | .readSysReg _ | .uptimeGet | .sleep _ | .busyWait _ | .mutexLock _ | .mutexUnlock _ | .hang => True
  | _ => False

/-- What is passive is no setting. -/
theorem Request.Passive.unset {request : Request} (passive : request.Passive) : request.Unset := by
  cases request <;> first | rfl | exact passive.elim

/-- Keeping an error asks for nothing else. -/
theorem only_attempt {kind : Request → Prop} {function : Driver α} (only : function.run.Only kind) :
    (attempt function).run.Only kind :=
  only.bind fun _ => trivial

/-- Waiting for a register only reads and sleeps. -/
private theorem passive_waitReadyLoop (address : Address) (mask expected : Word) (deadline : Int)
    (rounds : Nat) : (waitReadyLoop address mask expected deadline rounds).run.Only Request.Passive := by
  induction rounds with
  | zero =>
      refine Program.Only.run_bind (Program.Only.run_lift ⟨trivial, fun stuck => nomatch stuck⟩) ?_
      exact fun stuck => nomatch stuck
  | succ rounds inductionHypothesis =>
      unfold waitReadyLoop
      have goesOn : (ExceptT.run (do
          let now ← call .uptimeGet
          if deadline ≤ now then throw .eio
          call (.busyWait 1000)
          waitReadyLoop address mask expected deadline rounds : Driver Unit)).Only Request.Passive := by
        refine Program.Only.run_bind (Program.Only.run_lift ⟨trivial, fun _ => trivial⟩) fun now => ?_
        simp only
        split
        · trivial
        · exact Program.Only.run_bind (Program.Only.run_lift ⟨trivial, fun _ => trivial⟩) fun _ =>
            inductionHypothesis
      refine Program.Only.run_bind (only_attempt ⟨trivial, fun _ => trivial⟩) fun result => ?_
      cases result with
      | error error => exact goesOn
      | ok value =>
          simp only
          split
          · trivial
          · exact goesOn

/-- However long it may take. -/
theorem passive_waitReady (address : Address) (mask expected : Word) (milliseconds : Nat) :
    (waitReady address mask expected milliseconds).run.Only Request.Passive :=
  Program.Only.run_bind (Program.Only.run_lift ⟨trivial, fun _ => trivial⟩) fun _ =>
    passive_waitReadyLoop ..

/-- So it makes no settings. -/
theorem unset_waitReady (address : Address) (mask expected : Word) (milliseconds : Nat) :
    (waitReady address mask expected milliseconds).run.Only Request.Unset :=
  (passive_waitReady address mask expected milliseconds).weaken fun _ => Request.Passive.unset

theorem unset_readMacReg (address : MacAddress) : (readMacReg address).run.Only Request.Unset := by
  have reads : (Request.writeSysReg macCsrCmd (Mac.readCommand address)).Unset :=
    if_pos ⟨rfl, (Mac.readCommand_fields address).2.1⟩
  refine Program.Only.run_bind (unset_waitReady ..) fun _ => ?_
  refine Program.Only.run_bind ⟨reads, fun _ => trivial⟩ fun _ => ?_
  exact Program.Only.run_bind (unset_waitReady ..) fun _ => ⟨rfl, fun _ => trivial⟩

/-- A call which stores nothing. -/
def MacCall.Harmless (made : MacCall) : Prop := ∀ address value, made ≠ .write address value

/-- Waiting for the MII unit only reads and sleeps. -/
private theorem harmless_waitMacReadyLoop (address : MacAddress) (mask expected : Word)
    (deadline : Int) (rounds : Nat) :
    (waitMacReadyLoop address mask expected deadline rounds).run.Only MacCall.Harmless := by
  have lifted {γ : Type} (made : MacCall) (harmless : made.Harmless)
      {next : made.Result → MacClient γ} (nextOnly : ∀ value, (next value).run.Only MacCall.Harmless) :
      (liftM (MacClient.ask made) >>= next).run.Only MacCall.Harmless :=
    Program.Only.run_bind (Program.Only.run_lift ⟨harmless, fun _ => trivial⟩) nextOnly
  induction rounds with
  | zero => exact lifted .hang (by simp [MacCall.Harmless]) fun stuck => nomatch stuck
  | succ rounds inductionHypothesis =>
      unfold waitMacReadyLoop
      have goesOn : (ExceptT.run (do
          let now ← MacClient.ask .uptimeGet
          if deadline ≤ now then throw .eio
          MacClient.ask (.sleep 1)
          waitMacReadyLoop address mask expected deadline rounds : MacClient Unit)).Only
            MacCall.Harmless := by
        refine lifted .uptimeGet (by simp [MacCall.Harmless]) fun now => ?_
        simp only
        split
        · trivial
        · exact lifted (.sleep 1) (by simp [MacCall.Harmless]) fun _ => inductionHypothesis
      have reads : (ExceptT.run (ExceptT.lift (MacClient.read address).run : MacClient _)).Only
          MacCall.Harmless := ⟨by simp [MacCall.Harmless], fun _ => trivial⟩
      refine Program.Only.run_bind reads fun result => ?_
      cases result with
      | error error => exact goesOn
      | ok value =>
          simp only
          split
          · trivial
          · exact goesOn

/-- Waiting for the PHY writes only commands which read. -/
theorem unset_waitMacReady (address : MacAddress) (mask expected : Word) (milliseconds : Nat) :
    (onBus (waitMacReady address mask expected milliseconds)).run.Only Request.Unset := by
  have harmless : (waitMacReady address mask expected milliseconds).run.Only MacCall.Harmless :=
    Program.Only.run_bind (Program.Only.run_lift ⟨by simp [MacCall.Harmless], fun _ => trivial⟩)
      fun _ => harmless_waitMacReadyLoop ..
  refine harmless.translate fun made storesNothing => ?_
  cases made with
  | read address => exact unset_readMacReg address
  | write address value => exact absurd rfl (storesNothing address value)
  | uptimeGet | sleep | hang => exact ⟨rfl, fun _ => trivial⟩

/-- A write of a MAC register is two settings. -/
theorem ordered_writeMacReg (address : MacAddress) (value : Word) :
    Ordered (writeMacReg address value) (macOrder address value) := by
  have writes : ¬(macCsrCmd = macCsrCmd ∧ Mac.writeCommand address &&& macCsrCmdRead ≠ 0) :=
    fun ⟨_, reads⟩ => reads (Mac.writeCommand_fields address).2.1
  refine .skip (.of_unlabelled (unset_waitReady ..)) fun _ => ?_
  refine (ordered_write fun ⟨same, _⟩ => absurd same (by decide)).bind fun _ => ?_
  exact (ordered_write writes).bind fun _ => .of_unlabelled (unset_waitReady ..)

/-- A write of a PHY register is two writes of MAC registers. -/
theorem ordered_phyWrite (address : BitVec 8) (data : BitVec 16) :
    Ordered (phyWrite address data) (phyOrder address data) := by
  have waits : Ordered (onBus (waitMacReady hmacMiiAcc miiAccMiibzy 0 phyTimeout)) [] :=
    .of_unlabelled (unset_waitMacReady ..)
  unfold phyWrite writePhyReg
  rw [onBus_bind]
  refine waits.skip fun _ => ?_
  rw [onBus_bind, onBus_write]
  refine (ordered_writeMacReg _ _).bind fun _ => ?_
  rw [onBus_bind, onBus_write]
  exact ((ordered_writeMacReg _ _).bind fun _ => waits)

/-- A write of a register other than `MAC_CSR_CMD`, before the others. -/
theorem Ordered.set {address : Address} {value : Word}
    {next : Unit → ExceptT Errno (Program driverInterface) β} {order : List (Address × Word)}
    (other : address ≠ macCsrCmd) (continues : ∀ done, Ordered (next done) order) :
    Ordered (writeSysReg address value >>= next) ((address, value) :: order) :=
  Ordered.bind (ordered_write fun ⟨same, _⟩ => absurd same other) continues

/-- The configuration follows its list. -/
theorem ordered_configureRegisters : Ordered configureRegisters configureOrder := by
  unfold configureRegisters configureOrder
  refine .set (by decide) fun _ => .set (by decide) fun _ => .set (by decide) fun _ => ?_
  refine .set (by decide) fun _ => .set (by decide) fun _ => .set (by decide) fun _ => ?_
  refine .set (by decide) fun _ => (ordered_phyWrite _ _).bind fun _ => ?_
  refine (ordered_phyWrite _ _).bind fun _ => (ordered_phyWrite _ _).bind fun _ => ?_
  refine (ordered_phyWrite _ _).bind fun _ => (ordered_phyWrite _ _).bind fun _ => ?_
  refine (ordered_phyWrite _ _).bind fun _ => .set (by decide) fun _ => ?_
  refine (ordered_writeMacReg _ _).bind fun _ => (ordered_writeMacReg _ _).bind fun _ => ?_
  refine (ordered_writeMacReg _ _).bind fun _ => ordered_write ?_
  exact fun ⟨same, _⟩ => absurd same (by decide)

/-- The check for a ready chip only reads and waits. -/
theorem passive_hwCfgCheck (polls : Nat) : (hwCfgCheck polls).run.Only Request.Passive := by
  induction polls with
  | zero =>
      refine Program.Only.run_bind (Program.Only.run_lift ⟨trivial, fun stuck => nomatch stuck⟩) ?_
      exact fun stuck => nomatch stuck
  | succ polls inductionHypothesis =>
      refine Program.Only.run_bind ⟨trivial, fun _ => trivial⟩ fun tmp => ?_
      refine Program.Only.run_bind (Program.Only.run_lift ⟨trivial, fun _ => trivial⟩) fun _ => ?_
      split
      · exact inductionHypothesis
      · trivial

/-- It makes no settings. -/
theorem ordered_hwCfgCheck (polls : Nat) : Ordered (hwCfgCheck polls) [] :=
  .of_unlabelled ((passive_hwCfgCheck polls).weaken fun _ => Request.Passive.unset)

/-- With the check and the chip id in front. -/
theorem ordered_configure (polls : Nat) : Ordered (configure polls) configureOrder := by
  refine .skip (ordered_hwCfgCheck polls).ofDriver fun _ => ?_
  refine .skip (ordered_read idRev).ofDriver fun tmp => ?_
  split
  · exact .skip (.of_unlabelled (by trivial)) fun _ => ordered_configureRegisters.ofDriver
  · exact ordered_configureRegisters.ofDriver

/-- Code which only fails. -/
theorem ordered_throw (α : Type) (error : ε) : Ordered (throw error : ExceptT ε (Program driverInterface) α) [] :=
  ⟨⟨[], rfl⟩, by simp⟩

/-- A value the kernel returns. -/
theorem ordered_returned (result : Except ε α) : Ordered (ExceptT.mk (pure result)) [] :=
  ⟨⟨[], rfl⟩, fun _ => rfl⟩

/-- The pins are no registers of the chip. -/
theorem ordered_preparePins (board : Board) : Ordered (preparePins board) [] := by
  unfold preparePins
  simp only
  split
  · exact ordered_throw _ InitError.einval
  split
  · exact ordered_throw _ InitError.einval
  refine .skip (ordered_returned _) fun _ => .skip (ordered_returned _) fun _ => ?_
  refine .skip (ordered_returned _) fun _ => ?_
  split
  · exact ordered_returned (.ok ())
  · split
    · exact ordered_throw _ InitError.einval
    · refine .skip (ordered_returned _) fun _ => .of_unlabelled ?_
      exact Program.Only.run_lift ⟨rfl, fun _ => trivial⟩

/-! ### What the 1588 unit's registers have shown -/

/-- The program makes its writes in one of these orders. -/
def OrderedAny {ε α : Type} (program : ExceptT ε (Program driverInterface) α)
    (orders : Set (List (Address × Word))) : Prop :=
  program.run.InOrder Request.setting? Program.InOrder.Succeeded orders

/-- A read whose value the writes after it depend on. -/
theorem OrderedAny.read {address : Address} {next : Word → Driver α}
    {orders : Word → Set (List (Address × Word))}
    (continues : ∀ value, OrderedAny (next value) (orders value)) (possible : (orders 0).Nonempty) :
    OrderedAny (readSysReg address >>= next) {order | ∃ value, order ∈ orders value} := by
  intro response
  cases response with
  | ok value => exact Program.InOrder.weaken (continues value) fun order member => ⟨value, member⟩
  | error error =>
      obtain ⟨order, member⟩ := possible
      exact ⟨⟨order, 0, member⟩, by simp⟩

/-- An error which is passed on changes nothing. -/
theorem OrderedAny.ofDriver {function : Driver α} {orders : Set (List (Address × Word))}
    (ordered : OrderedAny function orders) : OrderedAny (ofDriver function) orders := by
  refine Program.InOrder.bind_unlabelled ordered (fun result _ => ⟨⟨[], rfl⟩, fun _ => rfl⟩) ?_
  intro result unfinished
  cases result with
  | ok value => exact absurd ⟨value, rfl⟩ unfinished
  | error error => exact fun any possible => ⟨possible, by simp [Except.mapError]⟩

/-- A known list, and then one of several. -/
theorem Ordered.bindAny {first : ExceptT ε (Program driverInterface) α}
    {next : α → ExceptT ε (Program driverInterface) β} {order : List (Address × Word)}
    {orders' : Set (List (Address × Word))} (ordered : Ordered first order)
    (orders : Set (List (Address × Word))) (possible : orders.Nonempty)
    (continues : ∀ value, OrderedAny (next value) orders)
    (known : ∀ rest ∈ orders, order ++ rest ∈ orders') : OrderedAny (first >>= next) orders' := by
  refine (Program.InOrder.run_bind ordered possible continues).weaken ?_
  rintro _ ⟨_, rfl, rest, member, rfl⟩
  exact known rest member

/-- One of several lists, and then one of several more. -/
theorem OrderedAny.bind {first : ExceptT ε (Program driverInterface) α}
    {next : α → ExceptT ε (Program driverInterface) β} {orders later : Set (List (Address × Word))}
    (ordered : OrderedAny first orders) (possible : later.Nonempty)
    (continues : ∀ value, OrderedAny (next value) later) :
    OrderedAny (first >>= next) (Program.followedBy orders later) :=
  Program.InOrder.run_bind ordered possible continues

/-- The 1588 unit, for what its configuration has shown. -/
theorem ordered_ieee1588Init : OrderedAny ieee1588Init {order | ∃ general, order =
    [(generalConfig, general ||| generalConfigTsuEnable), (clockSec, 0), (clockNs, 0),
      (cmdCtl, cmdCtlClockLoad)]} := by
  refine OrderedAny.read (fun general => ?_) ⟨_, rfl⟩
  refine Ordered.set (by decide) fun _ => .set (by decide) fun _ => .set (by decide) fun _ => ?_
  exact ordered_write fun ⟨same, _⟩ => absurd same (by decide)

/-- The time stamps, for what the two registers have shown. -/
theorem ordered_enableTimestamps : OrderedAny enableTimestamps {order | ∃ rx tx, order =
    [(bankPortGpioSel, bankSelPortRx),
      (rxTimestampConfig, (rx &&& ~~~rxTimestampConfigMessageEnMask) ||| ptpMessageEnDefault),
      (bankPortGpioSel, bankSelPortTx),
      (txTimestampConfig, (tx &&& ~~~txTimestampConfigMessageEnMask) ||| ptpMessageEnDefault)]} := by
  have select (bank : Word) : Ordered (ieee1588BankSelect bank) [(bankPortGpioSel, bank)] :=
    ordered_write fun ⟨same, _⟩ => absurd same (by decide)
  have other (address : Address) (value : Word) (apart : address ≠ macCsrCmd) :
      Ordered (writeSysReg address value) [(address, value)] :=
    ordered_write fun ⟨same, _⟩ => absurd same apart
  unfold enableTimestamps
  refine (select bankSelPortRx).bindAny ({order | ∃ rx tx, order =
      [(rxTimestampConfig, (rx &&& ~~~rxTimestampConfigMessageEnMask) ||| ptpMessageEnDefault),
        (bankPortGpioSel, bankSelPortTx),
        (txTimestampConfig, (tx &&& ~~~txTimestampConfigMessageEnMask) ||| ptpMessageEnDefault)]})
    ⟨_, 0, 0, rfl⟩ (fun _ => ?_) ?_
  · refine OrderedAny.read (fun rx => ?_) ⟨_, 0, rfl⟩
    refine (other _ _ (by decide)).bindAny ({order | ∃ tx, order =
        [(bankPortGpioSel, bankSelPortTx),
          (txTimestampConfig, (tx &&& ~~~txTimestampConfigMessageEnMask) ||| ptpMessageEnDefault)]})
      ⟨_, 0, rfl⟩ (fun _ => ?_) ?_
    · refine (select bankSelPortTx).bindAny ({order | ∃ tx, order =
          [(txTimestampConfig,
            (tx &&& ~~~txTimestampConfigMessageEnMask) ||| ptpMessageEnDefault)]})
        ⟨_, 0, rfl⟩ (fun _ => ?_) ?_
      · exact OrderedAny.read (fun tx => other _ _ (by decide)) ⟨_, rfl⟩
      · rintro _ ⟨tx, rfl⟩
        exact ⟨tx, rfl⟩
    · rintro _ ⟨tx, rfl⟩
      exact ⟨tx, rfl⟩
  · rintro _ ⟨rx, tx, rfl⟩
    exact ⟨rx, tx, rfl⟩

/-- A mutex is no register of the chip. -/
theorem OrderedAny.locked {function : Driver α} {orders : Set (List (Address × Word))}
    (mutex : Mutex) (ordered : OrderedAny function orders) :
    OrderedAny (ExceptT.mk (do
      call (.mutexLock mutex)
      let ret ← function.run
      call (.mutexUnlock mutex)
      return ret)) orders := by
  intro _
  change (function.run >>= fun ret => call (.mutexUnlock mutex) >>= fun _ => pure ret).InOrder
    Request.setting? Program.InOrder.Succeeded orders
  refine Program.InOrder.bind_unlabelled ordered ?_ ?_
  · rintro result ⟨value, rfl⟩ _
    exact ⟨⟨[], rfl⟩, fun _ => rfl⟩
  · intro result unfinished any possible _
    exact ⟨possible, fun finished => absurd finished unfinished⟩

/-! ### The whole bring-up -/

/-- Every write of `lan9250_init`. -/
def bringUpOrder (macAddress : Vector Byte 6) (general rx tx : Word) : List (Address × Word) :=
  preparationOrder macAddress general rx tx ++ [(cmdCtl, cmdCtlEnable)]

/-- All of the bring-up. -/
theorem ordered_lan9250Init (board : Board) (polls : Nat) : OrderedAny (lan9250Init board polls)
    {order | ∃ general rx tx, order = bringUpOrder board.macAddress general rx tx} := by
  have address : Ordered (onBus (setMacaddr board.macAddress))
      (macOrder hmacAddrl (addressLow board.macAddress) ++
        macOrder hmacAddrh (addressHigh board.macAddress)) := by
    unfold setMacaddr
    rw [onBus_bind, onBus_write]
    refine (ordered_writeMacReg _ _).bind fun _ => ?_
    rw [onBus_write]
    exact ordered_writeMacReg _ _
  have reset : Ordered swReset
      [(resetCtl, resetCtlHmacRst ||| resetCtlPhyRst ||| resetCtlDigitalRst)] :=
    Ordered.set (by decide) fun _ => .of_unlabelled (unset_waitReady ..)
  have enable : Ordered (ofDriver ieee1588Enable) [(cmdCtl, cmdCtlEnable)] :=
    Ordered.ofDriver (ordered_write fun ⟨same, _⟩ => absurd same (by decide))
  -- What remains of the bring-up, one step at a time from its end.
  have stamps : OrderedAny (do
      ofDriver (ExceptT.mk timestampingInit)
      ofDriver ieee1588Enable) {order | ∃ rx tx, order =
        [(bankPortGpioSel, bankSelPortRx),
          (rxTimestampConfig, (rx &&& ~~~rxTimestampConfigMessageEnMask) ||| ptpMessageEnDefault),
          (bankPortGpioSel, bankSelPortTx),
          (txTimestampConfig, (tx &&& ~~~txTimestampConfigMessageEnMask) ||| ptpMessageEnDefault),
          (cmdCtl, cmdCtlEnable)]} := by
    refine (OrderedAny.bind (ordered_enableTimestamps.locked .bankLock).ofDriver
      (Set.singleton_nonempty [(cmdCtl, cmdCtlEnable)]) fun _ => enable).weaken ?_
    rintro _ ⟨_, ⟨rx, tx, rfl⟩, _, rfl, rfl⟩
    exact ⟨rx, tx, rfl⟩
  have clock : OrderedAny (do
      ofDriver ieee1588Init
      ofDriver (ExceptT.mk timestampingInit)
      ofDriver ieee1588Enable) {order | ∃ general rx tx, order =
        ieee1588Order general rx tx ++ [(cmdCtl, cmdCtlEnable)]} := by
    have possible : Set.Nonempty {order | ∃ rx tx, order =
        [(bankPortGpioSel, bankSelPortRx),
          (rxTimestampConfig, (rx &&& ~~~rxTimestampConfigMessageEnMask) ||| ptpMessageEnDefault),
          (bankPortGpioSel, bankSelPortTx),
          (txTimestampConfig, (tx &&& ~~~txTimestampConfigMessageEnMask) ||| ptpMessageEnDefault),
          (cmdCtl, cmdCtlEnable)]} := ⟨_, 0, 0, rfl⟩
    refine (OrderedAny.bind ordered_ieee1588Init.ofDriver possible fun _ => stamps).weaken ?_
    rintro _ ⟨_, ⟨general, rfl⟩, _, ⟨rx, tx, rfl⟩, rfl⟩
    exact ⟨general, rx, tx, rfl⟩
  have possible : Set.Nonempty {order | ∃ general rx tx, order =
      bringUpOrder board.macAddress general rx tx} := ⟨_, 0, 0, 0, rfl⟩
  have possible' : Set.Nonempty {order | ∃ general rx tx, order =
      ieee1588Order general rx tx ++ [(cmdCtl, cmdCtlEnable)]} := ⟨_, 0, 0, 0, rfl⟩
  refine (ordered_preparePins board).bindAny _ possible (fun _ => ?_) fun _ => id
  refine reset.ofDriver.bindAny ({order | ∃ general rx tx, order =
    configureOrder ++ (macOrder hmacAddrl (addressLow board.macAddress) ++
      macOrder hmacAddrh (addressHigh board.macAddress)) ++
        (ieee1588Order general rx tx ++ [(cmdCtl, cmdCtlEnable)])}) ⟨_, 0, 0, 0, rfl⟩ (fun _ => ?_) ?_
  · refine (ordered_configure polls).bindAny ({order | ∃ general rx tx, order =
      (macOrder hmacAddrl (addressLow board.macAddress) ++
        macOrder hmacAddrh (addressHigh board.macAddress)) ++
          (ieee1588Order general rx tx ++ [(cmdCtl, cmdCtlEnable)])}) ⟨_, 0, 0, 0, rfl⟩
      (fun _ => ?_) ?_
    · refine address.ofDriver.bindAny _ possible' (fun _ => clock) ?_
      rintro _ ⟨general, rx, tx, rfl⟩
      exact ⟨general, rx, tx, rfl⟩
    · rintro _ ⟨general, rx, tx, rfl⟩
      exact ⟨general, rx, tx, by simp only [List.append_assoc]⟩
  · rintro _ ⟨general, rx, tx, rfl⟩
    exact ⟨general, rx, tx, by simp only [bringUpOrder, preparationOrder, List.append_assoc,
      List.cons_append, List.nil_append]⟩

end Order

/-- Before it is enabled the 1588 unit is given no command but the load of its clock. -/
theorem enable_not_prepared (macAddress : Vector Byte 6) (general rx tx : Word) :
    (cmdCtl, cmdCtlEnable) ∉ preparationOrder macAddress general rx tx := by
  have commands : (preparationOrder macAddress general rx tx).filter (fun setting => setting.1 = cmdCtl) =
      [(cmdCtl, cmdCtlClockLoad)] := rfl
  intro member
  have found : (cmdCtl, cmdCtlEnable) ∈ (preparationOrder macAddress general rx tx).filter
      (fun setting => setting.1 = cmdCtl) := List.mem_filter.mpr ⟨member, by simp⟩
  rw [commands, List.mem_singleton] at found
  exact absurd found (by decide)

/-- On any chip, ready or not, and whatever transactions fail: the registers `lan9250_init`
writes, in order, begin its list of settings. They are the whole list if it returns 0, and also
if it has tried to enable the 1588 unit. The list is fixed up to the three registers which are
written back as they were read, with some bits changed; the commands which have the MAC read a
register of its own are not settings, and left out. -/
theorem bring_up_in_order (device : Device driverInterface) (guard : device.recording.Guard)
    (board : Board) (polls : Nat) {state : device.State} {choices : List device.Choice}
    {result : Except InitError Unit} {finish : device.recording.State}
    (returned : device.recording.Returns guard (lan9250Init board polls).run (state, []) choices result
      finish) :
    ∃ general rx tx,
      finish.2.filterMap Request.setting? <+: bringUpOrder board.macAddress general rx tx ∧
      (result = .ok () ∨ (cmdCtl, cmdCtlEnable) ∈ finish.2.filterMap Request.setting? →
        finish.2.filterMap Request.setting? = bringUpOrder board.macAddress general rx tx) := by
  obtain ⟨made, same, order, ⟨general, rx, tx, rfl⟩, first, whole⟩ :=
    (ordered_lan9250Init board polls).of_returns returned
  rw [List.nil_append] at same
  rw [same]
  by_cases finished : result = .ok ()
  · obtain ⟨general, rx, tx, complete⟩ := whole ⟨(), finished⟩
    exact ⟨general, rx, tx, complete ▸ List.prefix_rfl, fun _ => complete⟩
  · refine ⟨general, rx, tx, first, ?_⟩
    rintro (returns | enabled)
    · exact absurd returns finished
    · rcases List.prefix_concat_iff.mp first with complete | earlier
      · exact complete
      · exact absurd (earlier.subset enabled) (enable_not_prepared _ _ _ _)

/-- A board whose pins are ready, with a reset pin and an 8-byte chip id. -/
def Board.ready : Board where
  spiReady := true
  interruptReady := true
  pinConfigured := .ok ()
  callbackAdded := .ok ()
  interruptConfigured := .ok ()
  reset := some (true, .ok ())
  configuredMac := #v[0x00, 0x00, 0x00, 0x01, 0x02, 0x03]
  hwId := [0xE6, 0x61, 0x38, 0x42, 0x7B, 0x1D, 0x5C, 0x2A]

/-- On a ready chip `lan9250_init` returns 0 and has made every write. -/
theorem ready_chip_brought_up : ∃ choices finish,
    stationDevice.recording.Returns stationDevice.recording.unguarded (lan9250Init .ready 1).run
      (Station.atRest, []) choices (.ok ()) finish ∧
    ∃ general rx tx, finish.2.filterMap Request.setting? =
      bringUpOrder Board.ready.macAddress general rx tx := by
  have played : (stationDevice.recording.play (fun _ _ _ => true) (lan9250Init .ready 1).run
      (Station.atRest, []) []).map (fun (_, result, _) => result) = some (.ok ()) := by
    decide +kernel
  obtain ⟨⟨choices, result, finish⟩, played, rfl⟩ := Option.map_eq_some_iff.mp played
  have returned : stationDevice.recording.Returns stationDevice.recording.unguarded
      (lan9250Init .ready 1).run (Station.atRest, []) choices (.ok ()) finish :=
    (Device.Returns.of_play played).weaken fun _ _ _ _ => trivial
  obtain ⟨general, rx, tx, _, whole⟩ := bring_up_in_order stationDevice _ .ready 1 returned
  exact ⟨choices, finish, returned, general, rx, tx, whole (.inl rfl)⟩

end Rp2350Stepper.Lan9250
