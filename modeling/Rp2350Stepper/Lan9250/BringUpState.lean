import Rp2350Stepper.Lan9250.BringUp

/-!
# The chip after the bring-up

When `lan9250_init` returns 0 the registers it configures hold their values, in front of the MAC,
in the MAC and in the PHY, whatever they held before, whatever reads have failed while it waited
and however late the MAC and the PHY have carried out their commands. `PMT_CTRL` and `INT_STS` are
left out: in both of them it writes bits which clear what the chip has noted.
-/

namespace Rp2350Stepper.Lan9250

open Rp2350Stepper.Data Rp2350Stepper.Semantics

/-! ### What a success leaves -/

/-- What is known is known of registers which the PHY leaves alone. -/
def Constant (volatile : PhyAddress → Prop) (phy : PhyAddress → Option (BitVec 16)) : Prop :=
  ∀ address, phy address ≠ none → ¬volatile address

/-- The registers in front of the MAC, and what is known of those behind it. -/
structure Configured (volatile : PhyAddress → Prop) (settings : Settings)
    (phy : PhyAddress → Option (BitVec 16)) (mac : MacAddress → Option Word) (station : Station) :
    Prop where
  constant : Constant volatile phy
  front : station.settings = settings
  behind : Holding phy mac station.waiting station.mii

open Classical in
/-- A word has been written to a PHY register, which holds it unless the PHY changes it. -/
noncomputable def learn (volatile : PhyAddress → Prop) (phy : PhyAddress → Option (BitVec 16))
    (address : PhyAddress) (data : BitVec 16) : PhyAddress → Option (BitVec 16) :=
  Function.update phy address (if volatile address then none else some data)

/-- If the program returns without an error, it does so in the postcondition. -/
def Reaches {ε α : Type} (volatile : PhyAddress → Prop)
    (program : ExceptT ε (Program driverInterface) α) (station : Station)
    (post : α → Station → Prop) : Prop :=
  stationDevice.Ensures (Steady volatile) program.run station fun result next =>
    ∀ value, result = .ok value → post value next

section Reaching

variable {volatile : PhyAddress → Prop} {ε α β : Type} {station : Station} {settings : Settings}
  {phy : PhyAddress → Option (BitVec 16)} {mac : MacAddress → Option Word}

namespace Reaches

theorem weaken {program : ExceptT ε (Program driverInterface) α} {post post' : α → Station → Prop}
    (reaches : Reaches volatile program station post)
    (implies : ∀ value next, post value next → post' value next) :
    Reaches volatile program station post' :=
  Device.Ensures.weaken reaches fun _ next holds value same => implies value next (holds value same)

theorem done {value : α} {post : α → Station → Prop} (holds : post value station) :
    Reaches volatile (pure value : ExceptT ε (Program driverInterface) α) station post :=
  Device.Ensures.pure fun _ same => Except.ok.inj same ▸ holds

/-- Code which fails has nothing to show. -/
theorem throw {error : ε} {post : α → Station → Prop} :
    Reaches volatile (throw error : ExceptT ε (Program driverInterface) α) station post :=
  Device.Ensures.pure fun _ same => by cases same

theorem bind {first : ExceptT ε (Program driverInterface) α}
    {next : α → ExceptT ε (Program driverInterface) β} {post : β → Station → Prop}
    (reaches : Reaches volatile first station fun value middle =>
      Reaches volatile (next value) middle post) :
    Reaches volatile (first >>= next) station post := by
  refine Device.Ensures.run_bind (Device.Ensures.weaken reaches ?_)
  intro result middle continues
  cases result with
  | ok value => exact continues value rfl
  | error error => exact fun _ same => by cases same

/-- An error which is passed on changes nothing. -/
theorem ofDriver {function : Driver α} {post : α → Station → Prop}
    (reaches : Reaches volatile function station post) :
    Reaches volatile (ofDriver function) station post := by
  have mapped : (Lan9250.ofDriver function).run =
      function.run >>= fun result => pure (Except.mapError InitError.driver result) := rfl
  unfold Reaches
  rw [mapped]
  refine Device.Ensures.bind (Device.Ensures.weaken reaches ?_)
  intro result middle holds
  refine Device.Ensures.pure fun value same => ?_
  cases result with
  | ok value' => exact holds value (congrArg Except.ok (Except.ok.inj same))
  | error error => cases same

/-- A function which reaches only the MAC. -/
theorem of_timely {function : Driver α} {post : Except Errno α → Station → Prop}
    (timely : Timely volatile function.run station post) :
    Reaches volatile function station fun value next =>
      next.settings = station.settings ∧ post (.ok value) next := by
  rintro choices result next returned value rfl
  obtain ⟨settings, _, holds⟩ := returned.of_completes timely
  exact ⟨settings, holds⟩

end Reaches

/-- What is learnt of a register the PHY changes is not kept. -/
theorem Constant.learn (constant : Constant volatile phy) (address : PhyAddress)
    (data : BitVec 16) : Constant volatile (learn volatile phy address data) := by
  intro held known
  unfold Lan9250.learn at known
  by_cases own : held = address
  · subst own
    rw [Function.update_self] at known
    exact fun changing => known (if_pos changing)
  · rw [Function.update_of_ne own] at known
    exact constant held known

/-- Whatever the chip does by itself, it stays configured. -/
theorem Configured.advance (configured : Configured volatile settings phy mac station)
    {choice : StationChoice} {request : Request} (allowed : Steady volatile station request choice) :
    Configured volatile settings phy mac (station.advance choice) :=
  ⟨configured.constant, (advance_apart station choice).1.trans configured.front,
    (stable_holding configured.constant).lasting.advance allowed configured.behind⟩

/-- A write in front of the MAC. -/
theorem reaches_write {address : Address} {value : Word}
    (front : address ≠ macCsrCmd ∧ address ≠ macCsrData ∧ address ≠ resetCtl)
    (configured : Configured volatile settings phy mac station) :
    Reaches volatile (writeSysReg address value) station fun _ next =>
      Configured volatile (settings.write address value) phy mac next := by
  apply Device.Ensures.ask
  intro choice response next allowed answered
  have advanced := configured.advance allowed
  simp only [Station.answer, Option.some.injEq, Prod.ext_iff] at answered
  obtain ⟨rfl, rfl⟩ := answered
  unfold Station.conclude
  split
  · rintro _ -
    unfold Station.write
    rw [if_neg front.1, if_neg front.2.1, if_neg front.2.2]
    exact ⟨advanced.constant, congrArg (·.write address value) advanced.front, advanced.behind⟩
  · exact fun _ same => by cases same
  · exact fun _ same => by cases same

/-- A read of a register in front of the MAC, and what it shows. -/
theorem reaches_read {address : Address}
    (front : address ≠ macCsrCmd ∧ address ≠ macCsrData)
    (configured : Configured volatile settings phy mac station) :
    Reaches volatile (readSysReg address) station fun value next =>
      Configured volatile settings phy mac next ∧ ∃ choice, value = settings.read address choice := by
  apply Device.Ensures.ask
  intro choice response next allowed answered
  have advanced := configured.advance allowed
  simp only [Station.answer, Option.some.injEq, Prod.ext_iff] at answered
  obtain ⟨rfl, rfl⟩ := answered
  unfold Station.conclude
  split
  · rintro value shown
    obtain rfl := Except.ok.inj shown
    unfold Station.read
    rw [if_neg front.1, if_neg front.2, advanced.front]
    exact ⟨advanced, choice, rfl⟩
  · exact fun _ same => by cases same
  · exact fun _ same => by cases same

/-- A write of a PHY register. -/
theorem reaches_phyWrite {address : BitVec 8} {data : BitVec 16}
    (configured : Configured volatile settings phy mac station) :
    Reaches volatile (phyWrite address data) station fun _ next =>
      Configured volatile settings (learn volatile phy (address.setWidth 5) data) mac next := by
  refine (Reaches.of_timely
    (timely_phyWrite configured.constant address data configured.behind)).weaken ?_
  rintro _ next ⟨same, forgotten, written⟩
  refine ⟨configured.constant.learn _ data, same.trans configured.front, ?_⟩
  unfold learn
  split
  · exact forgotten
  · exact written rfl ‹_›

/-! ### A Host MAC register -/

/-- A word has been stored in a Host MAC register, or is about to be. -/
structure MacStoring (phy : PhyAddress → Option (BitVec 16)) (mac : MacAddress → Option Word)
    (address : MacAddress) (value : Word) (waiting : Option (MacAddress × Word)) (mii : Mii) :
    Prop where
  kept : Holding phy mac waiting mii
  step : waiting = some (address, value) ∨ waiting = none ∧ mii.registers address = value

/-- A MAC register keeps its word, written or on its way. -/
theorem stable_storing (constant : Constant volatile phy) {address : MacAddress}
    (apart : address ≠ hmacMiiAcc ∧ address ≠ hmacMiiData) (value : Word) :
    Stable volatile (MacStoring phy mac address value) where
  store {stored word mii} storing := by
    refine ⟨(stable_holding constant).store storing.kept, .inr ⟨rfl, ?_⟩⟩
    rcases storing.step with same | ⟨impossible, _⟩
    · obtain ⟨rfl, rfl⟩ := Prod.mk.inj (Option.some.inj same)
      simp only [Mii.store, Function.update_self, if_neg apart.1]
    · cases impossible
  operate {waiting mii} storing := by
    refine ⟨(stable_holding constant).operate storing.kept, storing.step.imp_right ?_⟩
    rintro ⟨stored, holds⟩
    refine ⟨stored, ?_⟩
    unfold Mii.operate
    simp only
    split
    · exact holds
    · split <;> simp only [Function.update_of_ne apart.1, Function.update_of_ne apart.2, holds]
  change value changes storing :=
    ⟨(stable_holding constant).change value changes storing.kept, storing.step⟩

/-- A write of a MAC register. -/
theorem reaches_writeMacReg {address : MacAddress} {value : Word}
    (apart : address ≠ hmacMiiAcc ∧ address ≠ hmacMiiData)
    (configured : Configured volatile settings phy mac station) :
    Reaches volatile (writeMacReg address value) station fun _ next =>
      Configured volatile settings phy (Function.update mac address (some value)) next := by
  have forgotten : Holding phy (Function.update mac address none) station.waiting station.mii := by
    refine configured.behind.weaken (fun _ => .inl rfl) fun held => ?_
    by_cases own : held = address
    · exact .inr (own ▸ Function.update_self ..)
    · exact .inl (Function.update_of_ne own ..)
  refine (Reaches.of_timely (timely_writeMacReg (MacStoring phy (Function.update mac address none)
    address value) (stable_holding configured.constant) (stable_storing configured.constant apart value) ?_
    forgotten)).weaken ?_
  · intro mii holding
    refine ⟨⟨holding.phyHolds, holding.macHolds, holding.ownAcc, holding.ownData, ?_,
      holding.running, ?_⟩, .inl rfl⟩
    · rintro stored word same
      obtain ⟨rfl, -⟩ := Prod.mk.inj (Option.some.inj same)
      exact Function.update_self ..
    · rintro word same
      obtain ⟨same, -⟩ := Prod.mk.inj (Option.some.inj same)
      exact absurd same apart.1
  · rintro _ next ⟨same, done, _⟩
    obtain ⟨stored, kept, step⟩ := done rfl
    have holds : next.mii.registers address = value := by
      rcases step with impossible | ⟨_, holds⟩
      · cases impossible
      · exact holds
    refine ⟨configured.constant, same.trans configured.front, ?_⟩
    rw [stored]
    refine ⟨kept.phyHolds, ?_, ?_, ?_, by simp, kept.running, by simp⟩
    · intro held word known
      by_cases own : held = address
      · subst own
        rw [Function.update_self] at known
        exact holds.trans (Option.some.inj known)
      · rw [Function.update_of_ne own] at known
        exact kept.macHolds held word (by rw [Function.update_of_ne own]; exact known)
    · rw [Function.update_of_ne (Ne.symm apart.1)]
      exact configured.behind.ownAcc
    · rw [Function.update_of_ne (Ne.symm apart.2)]
      exact configured.behind.ownData

/-! ### Waiting -/

/-- What only waits leaves the configuration alone. -/
theorem reaches_passive 
    {program : ExceptT ε (Program driverInterface) α} (passive : program.run.Only Request.Passive)
    (configured : Configured volatile settings phy mac station) :
    Reaches volatile program station fun _ next => Configured volatile settings phy mac next := by
  refine Device.Ensures.weaken (Device.Ensures.of_only passive configured ?_)
    fun _ _ configured _ _ => configured
  intro before request choice response middle passive configured allowed answered
  have advanced := configured.advance allowed
  cases request with
  | readSysReg address =>
      simp only [Station.answer, Option.some.injEq, Prod.ext_iff] at answered
      obtain ⟨_, rfl⟩ := answered
      exact Station.conclude_cases (fun _ next => Configured volatile settings phy mac next) advanced
        (fun _ => advanced) fun _ => advanced
  | uptimeGet | mutexLock | mutexUnlock =>
      simp only [Station.answer, Option.some.injEq, Prod.ext_iff] at answered
      obtain ⟨_, rfl⟩ := answered
      exact advanced
  | sleep | busyWait =>
      simp only [Station.answer, Option.some.injEq, Prod.ext_iff] at answered
      obtain ⟨_, rfl⟩ := answered
      exact ⟨advanced.constant, advanced.front, advanced.behind⟩
  | writeSysReg => exact passive.elim
  | _ => simp [Station.answer] at answered

/-- Under a mutex. -/
theorem Reaches.locked (mutex : Mutex) {function : Driver α} {post : α → Station → Prop}
    (configured : Configured volatile settings phy mac station)
    (lasts : ∀ {value next request choice}, Steady volatile next request choice →
      post value next → post value (next.advance choice))
    (reaches : ∀ middle, Configured volatile settings phy mac middle →
      Reaches volatile function middle post) :
    Reaches volatile (ExceptT.mk (do
      call (.mutexLock mutex)
      let ret ← function.run
      call (.mutexUnlock mutex)
      return ret)) station post := by
  refine Device.Ensures.bind (Device.Ensures.ask fun choice response middle allowed answered => ?_)
  simp only [Station.answer, Option.some.injEq, Prod.ext_iff] at answered
  obtain ⟨_, rfl⟩ := answered
  refine Device.Ensures.bind (Device.Ensures.weaken (reaches _ (configured.advance allowed)) ?_)
  intro result next holds
  refine Device.Ensures.bind (Device.Ensures.ask fun choice response last allowed answered => ?_)
  simp only [Station.answer, Option.some.injEq, Prod.ext_iff] at answered
  obtain ⟨_, rfl⟩ := answered
  exact Device.Ensures.pure fun value same => lasts allowed (holds value same)

/-! ### Steps before the others -/

variable {next : Unit → Driver β} {post : β → Station → Prop}

/-- A write of a register in front of the MAC, and then the rest. -/
theorem Reaches.set {address : Address} {value : Word}
    (front : address ≠ macCsrCmd ∧ address ≠ macCsrData ∧ address ≠ resetCtl)
    (configured : Configured volatile settings phy mac station)
    (continues : ∀ middle, Configured volatile (settings.write address value) phy mac middle →
      Reaches volatile (next ()) middle post) :
    Reaches volatile (writeSysReg address value >>= next) station post :=
  .bind ((reaches_write front configured).weaken fun _ => continues)

/-- A write of a PHY register, and then the rest. -/
theorem Reaches.setPhy {address : BitVec 8} {data : BitVec 16}
    (configured : Configured volatile settings phy mac station)
    (continues : ∀ middle,
      Configured volatile settings (learn volatile phy (address.setWidth 5) data) mac middle →
      Reaches volatile (next ()) middle post) :
    Reaches volatile (phyWrite address data >>= next) station post :=
  .bind ((reaches_phyWrite configured).weaken fun _ => continues)

/-- A write of a MAC register, and then the rest. -/
theorem Reaches.setMac {address : MacAddress} {value : Word}
    (apart : address ≠ hmacMiiAcc ∧ address ≠ hmacMiiData)
    (configured : Configured volatile settings phy mac station)
    (continues : ∀ middle,
      Configured volatile settings phy (Function.update mac address (some value)) middle →
      Reaches volatile (next ()) middle post) :
    Reaches volatile (writeMacReg address value >>= next) station post :=
  .bind ((reaches_writeMacReg apart configured).weaken fun _ => continues)

end Reaching

/-! ### Several writes -/

section Assign

variable {κ ν : Type} [DecidableEq κ]

/-- The table after some assignments. -/
def assign (table : κ → ν) (assignments : List (κ × ν)) : κ → ν :=
  assignments.foldl (fun table assignment => Function.update table assignment.1 assignment.2) table

/-- The last assignment of a key counts. -/
theorem assign_apply (table : κ → ν) (assignments : List (κ × ν)) (key : κ) :
    assign table assignments key = (assignments.reverse.lookup key).getD (table key) := by
  induction assignments using List.reverseRecOn with
  | nil => rfl
  | append_singleton assignments assignment inductionHypothesis =>
      obtain ⟨last, value⟩ := assignment
      unfold assign at inductionHypothesis ⊢
      rw [List.foldl_append, List.reverse_append]
      simp only [List.foldl_cons, List.foldl_nil, List.reverse_singleton, List.singleton_append,
        List.lookup_cons]
      by_cases own : key = last
      · rw [own, Function.update_self, beq_self_eq_true]
        rfl
      · rw [Function.update_of_ne own, inductionHypothesis, beq_false_of_ne own]

end Assign

namespace Settings

/-- The settings after some writes. -/
def writes (settings : Settings) (order : List (Address × Word)) : Settings :=
  order.foldl (fun settings setting => settings.write setting.1 setting.2) settings

/-- A clock command changes no plain register. -/
theorem command_regs (settings : Settings) (value : Word) :
    (settings.command value).regs = settings.regs := by
  unfold command
  simp only
  split <;> split <;> rfl

/-- A plain register holds what it has been given last. -/
theorem regs_write (settings : Settings) {address : Address}
    (plain : address ≠ cmdCtl ∧ ¬Banked address) (written : Address) (value : Word) :
    (settings.write written value).regs address =
      Function.update settings.regs written value address := by
  unfold write
  split
  · rename_i command
    rw [command_regs, Function.update_of_ne (command ▸ plain.1)]
  split
  · rename_i banked
    have apart : address ≠ written := by
      rintro rfl
      exact plain.2 banked
    rw [Function.update_of_ne apart]
  · rfl

/-- A register of its own holds the last word written to it. -/
theorem regs_writes (settings : Settings) {address : Address}
    (plain : address ≠ cmdCtl ∧ ¬Banked address) (order : List (Address × Word)) :
    (settings.writes order).regs address = assign settings.regs order address := by
  induction order using List.reverseRecOn with
  | nil => rfl
  | append_singleton order setting inductionHypothesis =>
      unfold writes assign at inductionHypothesis ⊢
      rw [List.foldl_append, List.foldl_append]
      simp only [List.foldl_cons, List.foldl_nil]
      rw [regs_write _ plain]
      by_cases own : address = setting.1
      · rw [own, Function.update_self, Function.update_self]
      · rw [Function.update_of_ne own, Function.update_of_ne own, inductionHypothesis]

end Settings

/-! ### The configuration -/

/-- The registers in front of the MAC, without `PMT_CTRL` and `INT_STS`. -/
def frontSettings : List (Address × Word) :=
  [(hwCfg, hwCfgMbo ||| hwCfgTxFifSz8kb), (afcCfg, 0x006E3741),
    (irqCfg, irqCfgIntDeas100us ||| irqCfgIrqEn ||| irqCfgIrqTypePp),
    (intEn, intEnPhyIntEn ||| intEnRsflEn),
    (fifoInt, fifoIntTxDataAvailableLevel ||| fifoIntTxStatusLevel),
    (rxCfg, 0x06000000 ||| 0x00000400), (txCfg, txCfgTxOn)]

/-- Those of the PHY. -/
def phySettings : List (BitVec 8 × BitVec 16) :=
  [(phyBasicControl,
      phyBasicControlPhyAn ||| phyBasicControlPhySpeedSelLsb ||| phyBasicControlPhyDuplex),
    (phyAnAdv, phyAnAdvAsymPause ||| phyAnAdvSymPause ||| phyAnAdv100btxHd ||| phyAnAdv100btxFd |||
      phyAnAdv10btHd ||| phyAnAdv10btFd ||| phyAnAdvSelectorDefault),
    (phySpecialModes, 0x00E0 ||| 1),
    (phySpecialControlStatInd, statIndAmdixctrl ||| statIndAmdixen ||| statIndSqeoff),
    (phyInterruptMask, sourceLinkUp ||| sourceLinkDown),
    (phySpecialControlStatus, phyModeControlStatusAltint)]

/-- Those of the MAC. -/
def macSettings (macAddress : Vector Byte 6) : List (MacAddress × Word) :=
  [(hmacCr, hmacCrPadstr ||| hmacCrTxen ||| hmacCrRxen ||| hmacCrFdpx ||| hmacCrHpfilt),
    (hmacHashl, 0), (hmacHashh, 0), (hmacAddrl, addressLow macAddress),
    (hmacAddrh, addressHigh macAddress)]

/-- The chip as `lan9250_init` leaves it. -/
structure BroughtUp (volatile : PhyAddress → Prop) (macAddress : Vector Byte 6)
    (station : Station) : Prop where
  front : ∀ setting ∈ frontSettings, station.settings.regs setting.1 = setting.2
  phy : ∀ setting ∈ phySettings, ¬volatile (setting.1.setWidth 5) →
    station.mii.phy (setting.1.setWidth 5) = setting.2
  mac : ∀ setting ∈ macSettings macAddress, station.mii.registers setting.1 = setting.2
  timestampUnit : station.settings.regs generalConfig &&& generalConfigTsuEnable ≠ 0
  receiveStamps : station.settings.banked bankSelPortRx rxTimestampConfig &&&
    rxTimestampConfigMessageEnMask = ptpMessageEnDefault
  transmitStamps : station.settings.banked bankSelPortTx txTimestampConfig &&&
    txTimestampConfigMessageEnMask = ptpMessageEnDefault
  clock : station.settings.clock = ⟨0, 0⟩
  enabled : station.settings.enabled = true

section Configuring

variable {volatile : PhyAddress → Prop} {station : Station} {settings : Settings}
  {phy : PhyAddress → Option (BitVec 16)} {mac : MacAddress → Option Word}

/-- The writes of `lan9250_configure` in front of the MAC. -/
def configureWrites : List (Address × Word) :=
  [(hwCfg, hwCfgMbo ||| hwCfgTxFifSz8kb), (afcCfg, 0x006E3741),
    (irqCfg, irqCfgIntDeas100us ||| irqCfgIrqEn ||| irqCfgIrqTypePp),
    (intEn, intEnPhyIntEn ||| intEnRsflEn),
    (fifoInt, fifoIntTxDataAvailableLevel ||| fifoIntTxStatusLevel),
    (rxCfg, 0x06000000 ||| 0x00000400),
    (pmtCtrl, pmtCtrlPmWake ||| pmtCtrlWolEn ||| pmtCtrlWolSts), (intSts, 0xFFFFFFFF),
    (txCfg, txCfgTxOn)]

open Classical in
/-- What is known of the PHY once its registers have been written. -/
noncomputable def phyConfigured (volatile : PhyAddress → Prop)
    (phy : PhyAddress → Option (BitVec 16)) : PhyAddress → Option (BitVec 16) :=
  assign phy (phySettings.map fun setting => (setting.1.setWidth 5,
    if volatile (setting.1.setWidth 5) then none else some setting.2))

/-- What is known of the MAC. -/
def macConfigured (mac : MacAddress → Option Word) : MacAddress → Option Word :=
  assign mac [(hmacCr, some (hmacCrPadstr ||| hmacCrTxen ||| hmacCrRxen ||| hmacCrFdpx |||
    hmacCrHpfilt)), (hmacHashl, some 0), (hmacHashh, some 0)]

/-- What the configuration leaves. -/
theorem reaches_configureRegisters (configured : Configured volatile settings phy mac station) :
    Reaches volatile configureRegisters station fun _ next =>
      Configured volatile (settings.writes configureWrites) (phyConfigured volatile phy)
        (macConfigured mac) next := by
  unfold configureRegisters
  refine .set (by decide) configured fun _ configured => ?_
  refine .set (by decide) configured fun _ configured => ?_
  refine .set (by decide) configured fun _ configured => ?_
  refine .set (by decide) configured fun _ configured => ?_
  refine .set (by decide) configured fun _ configured => ?_
  refine .set (by decide) configured fun _ configured => ?_
  refine .set (by decide) configured fun _ configured => ?_
  refine .setPhy configured fun _ configured => ?_
  refine .setPhy configured fun _ configured => ?_
  refine .setPhy configured fun _ configured => ?_
  refine .setPhy configured fun _ configured => ?_
  refine .setPhy configured fun _ configured => ?_
  refine .setPhy configured fun _ configured => ?_
  refine .set (by decide) configured fun _ configured => ?_
  refine .setMac (by decide) configured fun _ configured => ?_
  refine .setMac (by decide) configured fun _ configured => ?_
  refine .setMac (by decide) configured fun _ configured => ?_
  exact reaches_write (by decide) configured

/-- What the start of the 1588 unit leaves. -/
theorem reaches_ieee1588Init (configured : Configured volatile settings phy mac station) :
    Reaches volatile ieee1588Init station fun _ next => ∃ general,
      Configured volatile (settings.writes [(generalConfig, general ||| generalConfigTsuEnable),
        (clockSec, 0), (clockNs, 0), (cmdCtl, cmdCtlClockLoad)]) phy mac next := by
  refine .bind ((reaches_read (by decide) configured).weaken ?_)
  rintro general _ ⟨configured, _⟩
  refine .set (by decide) configured fun _ configured => ?_
  refine .set (by decide) configured fun _ configured => ?_
  refine .set (by decide) configured fun _ configured => ?_
  exact (reaches_write (by decide) configured).weaken fun _ _ configured => ⟨general, configured⟩

/-- What the enabling of the time stamps leaves. -/
theorem reaches_timestampingInit (configured : Configured volatile settings phy mac station) :
    Reaches volatile (ExceptT.mk timestampingInit) station fun _ next => ∃ rx tx,
      Configured volatile (settings.writes [(bankPortGpioSel, bankSelPortRx),
        (rxTimestampConfig, (rx &&& ~~~rxTimestampConfigMessageEnMask) ||| ptpMessageEnDefault),
        (bankPortGpioSel, bankSelPortTx),
        (txTimestampConfig, (tx &&& ~~~txTimestampConfigMessageEnMask) ||| ptpMessageEnDefault)])
        phy mac next := by
  refine .locked .bankLock configured (fun allowed ⟨rx, tx, configured⟩ =>
    ⟨rx, tx, configured.advance allowed⟩) fun _ configured => ?_
  unfold enableTimestamps ieee1588BankSelect
  refine .set (by decide) configured fun _ configured => ?_
  refine .bind ((reaches_read (by decide) configured).weaken ?_)
  rintro rx _ ⟨configured, _⟩
  refine .set (by decide) configured fun _ configured => ?_
  refine .set (by decide) configured fun _ configured => ?_
  refine .bind ((reaches_read (by decide) configured).weaken ?_)
  rintro tx _ ⟨configured, _⟩
  exact (reaches_write (by decide) configured).weaken fun _ _ configured => ⟨rx, tx, configured⟩

/-- After a reset nothing is known yet. -/
theorem reaches_swReset (volatile : PhyAddress → Prop) (station : Station) :
    Reaches volatile swReset station fun _ next => ∃ settings,
      Configured volatile settings (fun _ => none) (fun _ => none) next := by
  unfold swReset
  refine .bind fun _ _ middle _ _ _ => ?_
  have unknown : Configured volatile middle.settings (fun _ => none) (fun _ => none) middle :=
    ⟨fun _ known => absurd rfl known, rfl, Holding.unknown _ _⟩
  exact (reaches_passive (passive_waitReady ..) unknown).weaken fun _ _ configured => ⟨_, configured⟩

/-- The configuration, once the chip is ready and has shown its id. -/
theorem reaches_configure (polls : Nat)
    (configured : Configured volatile settings phy mac station) :
    Reaches volatile (configure polls) station fun _ next =>
      Configured volatile (settings.writes configureWrites) (phyConfigured volatile phy)
        (macConfigured mac) next := by
  unfold configure
  refine .bind ((reaches_passive (passive_hwCfgCheck polls) configured).ofDriver.weaken ?_)
  intro _ _ configured
  refine .bind ((reaches_read (by decide) configured).ofDriver.weaken ?_)
  rintro chip _ ⟨configured, _⟩
  split
  · exact .bind .throw
  · exact .bind (.done (reaches_configureRegisters configured).ofDriver)

/-- The MAC address. -/
theorem reaches_setMacaddr (macAddress : Vector Byte 6)
    (configured : Configured volatile settings phy mac station) :
    Reaches volatile (onBus (setMacaddr macAddress)) station fun _ next =>
      Configured volatile settings phy (assign mac [(hmacAddrl, some (addressLow macAddress)),
        (hmacAddrh, some (addressHigh macAddress))]) next := by
  unfold setMacaddr
  rw [onBus_bind, onBus_write]
  refine .setMac (by decide) configured fun _ configured => ?_
  rw [onBus_write]
  exact reaches_writeMacReg (by decide) configured

/-- What `lan9250_init` writes in front of the MAC after the reset. -/
def initWrites (general rx tx : Word) : List (Address × Word) :=
  configureWrites ++ (ieee1588Order general rx tx ++ [(cmdCtl, cmdCtlEnable)])

/-- The whole of the bring-up. -/
theorem reaches_lan9250Init (board : Board) (polls : Nat) :
    Reaches volatile (lan9250Init board polls) station fun _ next =>
      ∃ (before : Settings) (general rx tx : Word),
      Configured volatile (before.writes (initWrites general rx tx))
        (phyConfigured volatile fun _ => none)
        (assign (macConfigured fun _ => none) [(hmacAddrl, some (addressLow board.macAddress)),
          (hmacAddrh, some (addressHigh board.macAddress))]) next := by
  unfold lan9250Init
  refine .bind fun _ _ middle _ _ _ => ?_
  refine .bind ((reaches_swReset volatile middle).ofDriver.weaken ?_)
  rintro _ _ ⟨before, configured⟩
  refine .bind ((reaches_configure polls configured).weaken fun _ _ configured => ?_)
  refine .bind ((reaches_setMacaddr board.macAddress configured).ofDriver.weaken ?_)
  intro _ _ configured
  refine .bind ((reaches_ieee1588Init configured).ofDriver.weaken ?_)
  rintro _ _ ⟨general, configured⟩
  refine .bind ((reaches_timestampingInit configured).ofDriver.weaken ?_)
  rintro _ _ ⟨rx, tx, configured⟩
  refine (reaches_write (by decide) configured).ofDriver.weaken fun _ _ configured => ?_
  exact ⟨before, general, rx, tx, configured⟩

end Configuring

/-- Only the enabled messages are left in the masked field. -/
private theorem masked_or (value : Word) :
    ((value &&& ~~~rxTimestampConfigMessageEnMask) ||| ptpMessageEnDefault) &&&
      rxTimestampConfigMessageEnMask = ptpMessageEnDefault := by
  have cleared : ~~~rxTimestampConfigMessageEnMask &&& rxTimestampConfigMessageEnMask = 0#32 := by
    decide
  have within : ptpMessageEnDefault &&& rxTimestampConfigMessageEnMask = ptpMessageEnDefault := by
    decide
  rw [BitVec.and_or_distrib_right, BitVec.and_assoc, cleared, within, BitVec.and_zero,
    BitVec.zero_or]

/-- Whatever its registers held before and whatever the reset leaves in them, whatever the MAC
and the PHY do meanwhile and however often a read of the bus has failed while the driver waited:
if `lan9250_init` returns 0 the chip is as it wants it, except for the PHY registers which the
PHY changes by itself. -/
theorem init_leaves_brought_up (volatile : PhyAddress → Prop) (board : Board) (polls : Nat)
    {station finish : Station} {choices : List StationChoice}
    (returned : stationDevice.Returns (Steady volatile) (lan9250Init board polls).run station choices
      (.ok ()) finish) :
    BroughtUp volatile board.macAddress finish := by
  obtain ⟨before, general, rx, tx, configured⟩ :=
    reaches_lan9250Init board polls choices _ finish returned () rfl
  obtain ⟨-, front, behind⟩ := configured
  have shown {address : Address} (plain : address ≠ cmdCtl ∧ ¬Banked address) :
      finish.settings.regs address = ((initWrites general rx tx).reverse.lookup address).getD
        (before.regs address) := by
    rw [front, Settings.regs_writes before plain, assign_apply]
  refine ⟨?_, ?_, ?_, ?_, ?_, ?_, ?_, ?_⟩
  · intro setting member
    simp only [frontSettings, List.mem_cons, List.not_mem_nil, or_false] at member
    rcases member with rfl | rfl | rfl | rfl | rfl | rfl | rfl <;> exact shown (by decide)
  · intro setting member still
    refine behind.phyHolds _ _ ?_
    unfold phyConfigured
    rw [assign_apply]
    simp only [phySettings, List.mem_cons, List.not_mem_nil, or_false] at member
    rcases member with rfl | rfl | rfl | rfl | rfl | rfl <;> exact if_neg still
  · intro setting member
    refine behind.macHolds _ _ ?_
    unfold macConfigured
    simp only [macSettings, List.mem_cons, List.not_mem_nil, or_false] at member
    rcases member with rfl | rfl | rfl | rfl | rfl <;> rfl
  · rw [shown (by decide)]
    change (general ||| generalConfigTsuEnable) &&& generalConfigTsuEnable ≠ 0
    rw [or_and_cancel]
    decide
  · rw [front]
    exact masked_or rx
  · rw [front]
    exact masked_or tx
  · rw [front]
    rfl
  · rw [front]
    rfl

/-- A ready chip with a PHY which changes no register, brought up from rest. -/
theorem ready_chip_is_brought_up : ∃ choices finish,
    stationDevice.Returns (Steady fun _ => False) (lan9250Init .ready 1).run .atRest choices (.ok ())
      finish ∧
    BroughtUp (fun _ => False) Board.ready.macAddress finish := by
  have played : (stationDevice.play allowsSteady (lan9250Init .ready 1).run .atRest []).map
      (fun (_, result, _) => result) = some (.ok ()) := by
    decide +kernel
  obtain ⟨⟨choices, result, finish⟩, played, rfl⟩ := Option.map_eq_some_iff.mp played
  have returned := (Device.Returns.of_play played).weaken
    fun _ _ _ allowed => steady_of_allows allowed
  exact ⟨choices, finish, returned, init_leaves_brought_up _ .ready 1 returned⟩

end Rp2350Stepper.Lan9250
