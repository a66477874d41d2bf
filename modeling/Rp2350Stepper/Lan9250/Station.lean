import Rp2350Stepper.Lan9250.Banks
import Rp2350Stepper.Lan9250.MacThreads

/-!
# The chip as its configuration sees it

`Station` has the directly addressed registers, the banked ones, those of the Host MAC and
those of the PHY behind it. A command waits in `MAC_CSR_CMD` until the MAC executes it, and a
word stored in `HMAC_MII_ACC` starts the PHY access it describes: `MIIBZY` reads 1 until that
is done. Before any transaction both may go on, in either order, and the transaction may fail,
with its effect or without it.

A register which the chip does not change by itself holds what was last written to it.
-/

namespace Rp2350Stepper.Lan9250

open Rp2350Stepper.Data Rp2350Stepper.Semantics

/-! ### More registers -/

/-- Which chip it is. -/
def idRev : Address := 0x0050
/-- A known word, once the chip is awake. -/
def byteTest : Address := 0x0064
/-- The hardware configuration, and whether the chip is ready. -/
def hwCfg : Address := 0x0074
/-- The resets of the chip's parts. -/
def resetCtl : Address := 0x01F8

/-- `ID_REV_CHIP_ID` and `ID_REV_CHIP_ID_DEFAULT`. -/
def idRevChipId : Word := 0xFFFF0000
/-- The id of a LAN9250. -/
def idRevChipIdDefault : Word := 0x92500000

/-- The known word of `BYTE_TEST`. -/
def byteTestDefault : Word := 0x87654321

/-- `HW_CFG_DEVICE_READY`. -/
def hwCfgDeviceReady : Word := 0x08000000

/-- `1588_CMD_CTL_ENABLE`. -/
def cmdCtlEnable : Word := 0x00000004

/-- The index of a PHY register. -/
abbrev PhyAddress := BitVec 5

/-- The PHY register of a word in `HMAC_MII_ACC`. -/
def miiIndex (access : Word) : PhyAddress := (access >>> 6).setWidth 5

/-! ### The MAC and the PHY -/

/-- The Host MAC registers and those of the PHY. -/
structure Mii where
  registers : MacAddress → Word
  phy : PhyAddress → BitVec 16

namespace Mii

/-- The MAC stores a word. -/
def store (mii : Mii) (address : MacAddress) (value : Word) : Mii :=
  { mii with
    registers := Function.update mii.registers address
      (if address = hmacMiiAcc then value ||| miiAccMiibzy else value) }

/-- The PHY access in `HMAC_MII_ACC` is made, if one is under way. -/
def operate (mii : Mii) : Mii :=
  let access := mii.registers hmacMiiAcc
  let registers := Function.update mii.registers hmacMiiAcc (access &&& ~~~miiAccMiibzy)
  if access &&& miiAccMiibzy = 0 then mii
  else if access &&& miiAccMiiwR = 0 then
    { mii with
      registers := Function.update registers hmacMiiData ((mii.phy (miiIndex access)).setWidth 32) }
  else
    { registers := registers
      phy := Function.update mii.phy (miiIndex access) ((mii.registers hmacMiiData).setWidth 16) }

/-- The PHY changes one of its registers. -/
def change (mii : Mii) (address : PhyAddress) (value : BitVec 16) : Mii :=
  { mii with phy := Function.update mii.phy address value }

end Mii

/-! ### The chip -/

/-- The part of the chip in front of the MAC. -/
structure Settings where
  regs : Address → Word
  /-- The registers of a bank. -/
  banked : Word → Address → Word
  /-- Whether the 1588 unit is enabled. -/
  enabled : Bool
  /-- The time last loaded into the 1588 clock. -/
  clock : PtpTime

/-- The registers in front of the MAC, the MAC's interface, what is behind it, and the time. -/
structure Station where
  settings : Settings
  /-- `MAC_CSR_CMD` and `MAC_CSR_DATA`. -/
  command : Word
  data : Word
  mii : Mii
  uptime : Int

/-- What the MAC and the PHY do by themselves. -/
inductive StationMove where
  | execute
  | operate
  | change (address : PhyAddress) (value : BitVec 16)
deriving DecidableEq

/-- What happens before a transaction, and how the transaction ends. -/
structure StationChoice where
  elapsed : Nat
  moves : List StationMove
  /-- Whether the chip is ready, and its `ID_REV`. -/
  ready : Bool
  chip : Word
  /-- What a reset leaves. -/
  defaults : Settings × Mii
  outcome : Outcome

namespace Settings

/-- Read a register of the chip. -/
def read (settings : Settings) (address : Address) (choice : StationChoice) : Word :=
  if address = idRev then choice.chip
  else if address = byteTest then if choice.ready then byteTestDefault else 0
  else if address = hwCfg then
    settings.regs hwCfg &&& ~~~hwCfgDeviceReady ||| if choice.ready then hwCfgDeviceReady else 0
  else if Banked address then settings.banked (settings.regs bankPortGpioSel) address
  else settings.regs address

/-- A command of the 1588 unit. -/
def command (settings : Settings) (value : Word) : Settings :=
  let enabled := if value &&& cmdCtlEnable = 0 then settings else { settings with enabled := true }
  if value &&& cmdCtlClockLoad = 0 then enabled
  else { enabled with clock := ⟨settings.regs clockSec, settings.regs clockNs⟩ }

/-- Write a register. -/
def write (settings : Settings) (address : Address) (value : Word) : Settings :=
  if address = cmdCtl then settings.command value
  else if Banked address then
    { settings with
      banked := Function.update settings.banked (settings.regs bankPortGpioSel)
        (Function.update (settings.banked (settings.regs bankPortGpioSel)) address value) }
  else { settings with regs := Function.update settings.regs address value }

end Settings

namespace Station

/-- No command is waiting. -/
def Idle (station : Station) : Prop := station.command &&& macCsrCmdBusy = 0

/-- The write command which is waiting. -/
def waiting (station : Station) : Option (MacAddress × Word) :=
  if station.command &&& macCsrCmdBusy = 0 then none
  else if station.command &&& macCsrCmdRead = 0 then
    some ((station.command &&& macCsrCmdAddr).setWidth 8, station.data)
  else none

/-- The MAC executes the command which is waiting, if any. -/
def execute (station : Station) : Station :=
  if station.command &&& macCsrCmdBusy = 0 then station
  else
    let address : MacAddress := (station.command &&& macCsrCmdAddr).setWidth 8
    let idle := { station with command := station.command &&& ~~~macCsrCmdBusy }
    if station.command &&& macCsrCmdRead = 0 then
      { idle with mii := station.mii.store address station.data }
    else { idle with data := station.mii.registers address }

/-- The chip does something by itself. -/
def move (station : Station) : StationMove → Station
  | .execute => station.execute
  | .operate => { station with mii := station.mii.operate }
  | .change address value => { station with mii := station.mii.change address value }

/-- Some milliseconds pass. -/
def wait (station : Station) (ms : Nat) : Station := { station with uptime := station.uptime + ms }

/-- What happens before a request. -/
def advance (station : Station) (choice : StationChoice) : Station :=
  choice.moves.foldl move (station.wait choice.elapsed)

/-- What a register in front of the MAC reads as. -/
def read (station : Station) (address : Address) (choice : StationChoice) : Word :=
  if address = macCsrCmd then station.command
  else if address = macCsrData then station.data
  else station.settings.read address choice

/-- Write a register; `RESET_CTL` resets the chip. -/
def write (station : Station) (address : Address) (value : Word) (choice : StationChoice) :
    Station :=
  if address = macCsrCmd then { station with command := value }
  else if address = macCsrData then { station with data := value }
  else if address = resetCtl then
    { settings := choice.defaults.1, command := 0, data := 0, mii := choice.defaults.2,
      uptime := station.uptime }
  else { station with settings := station.settings.write address value }

/-- End a transaction with its result and its effect. -/
def conclude {α : Type} (before : Station) (outcome : Outcome) (value : α) (after : Station) :
    Except Errno α × Station :=
  match outcome with
  | .ok => (.ok value, after)
  | .failed true error => (.error error, after)
  | .failed false error => (.error error, before)

/-- How the driver's requests are answered. -/
def answer (station : Station) : (request : Request) → StationChoice →
    Option (Response request × Station)
  | .readSysReg address, choice =>
      let current := station.advance choice
      some (current.conclude choice.outcome (current.read address choice) current)
  | .writeSysReg address value, choice =>
      let current := station.advance choice
      some (current.conclude choice.outcome () (current.write address value choice))
  | .uptimeGet, choice => some ((station.advance choice).uptime, station.advance choice)
  | .sleep ms, choice => some ((), (station.advance choice).wait ms)
  | .busyWait usec, choice => some ((), (station.advance choice).wait (usec / 1000))
  | .mutexLock _, choice => some ((), station.advance choice)
  | .mutexUnlock _, choice => some ((), station.advance choice)
  | _, _ => none

end Station

/-- The chip, as far as its start and the PHY are concerned. -/
abbrev stationDevice : Device driverInterface := ⟨Station, StationChoice, Station.answer⟩

/-- The PHY changes only registers which are volatile. -/
def Steady (volatile : PhyAddress → Prop) : stationDevice.Guard :=
  fun _ _ choice => ∀ address value, .change address value ∈ choice.moves → volatile address

/-- A chip at rest. -/
def Station.atRest : Station where
  settings := ⟨fun _ => 0, fun _ _ => 0, false, ⟨0, 0⟩⟩
  command := 0
  data := 0
  mii := ⟨fun _ => 0, fun _ => 0⟩
  uptime := 0

/-- A ready chip goes on before each transaction, and every transaction succeeds. -/
def StationChoice.prompt : StationChoice where
  elapsed := 0
  moves := [.execute, .operate]
  ready := true
  chip := 0x92500001
  defaults := (Station.atRest.settings, Station.atRest.mii)
  outcome := .ok

instance : Inhabited StationChoice := ⟨.prompt⟩

/-- The PHY changes no register by itself. -/
def allowsSteady : Station → Request → StationChoice → Bool :=
  fun _ _ choice => choice.moves.all fun move => move = .execute || move = .operate

/-- What the decidable form admits, the guard admits. -/
theorem steady_of_allows {station : Station} {request : Request} {choice : StationChoice}
    (allowed : allowsSteady station request choice = true) :
    Steady (fun _ => False) station request choice := by
  intro address value member
  simpa using List.all_eq_true.mp allowed _ member

/-! ### What the MAC and the PHY keep -/

section Keeping

variable (volatile : PhyAddress → Prop)

/-- Something about a waiting write command and the registers, which the MAC and the PHY keep. -/
structure Stable (holds : Option (MacAddress × Word) → Mii → Prop) : Prop where
  store : ∀ {address value mii}, holds (some (address, value)) mii →
    holds none (mii.store address value)
  operate : ∀ {waiting mii}, holds waiting mii → holds waiting mii.operate
  change : ∀ {waiting mii address} (value), volatile address → holds waiting mii →
    holds waiting (mii.change address value)

/-- Something about the chip which they keep. -/
structure Lasting (holds : Station → Prop) : Prop where
  move : ∀ {station move}, (∀ address value, move = .change address value → volatile address) →
    holds station → holds (station.move move)
  wait : ∀ {station uptime}, holds station → holds { station with uptime := uptime }

end Keeping

section Chip

variable {volatile : PhyAddress → Prop} {station : Station}

/-- An idle interface has no write waiting. -/
theorem Station.waiting_of_idle (idle : station.Idle) : station.waiting = none := if_pos idle

/-- It executes nothing. -/
theorem Station.execute_of_idle (idle : station.Idle) : station.execute = station := if_pos idle

/-- After its command the interface is idle. -/
theorem Station.idle_execute (station : Station) : station.execute.Idle := by
  have cleared : station.command &&& ~~~macCsrCmdBusy &&& macCsrCmdBusy = 0 := by
    rw [BitVec.and_assoc]
    simp [macCsrCmdBusy]
  unfold execute
  split
  · assumption
  · simp only
    split <;> exact cleared

/-- A write command stores its word, and any other command leaves the registers alone. -/
theorem Station.execute_mii (station : Station) : station.execute.mii =
    match station.waiting with
    | some (address, value) => station.mii.store address value
    | none => station.mii := by
  unfold execute waiting
  split
  · rfl
  · simp only
    split <;> rfl

/-- What the MAC keeps, the chip keeps. -/
theorem Stable.lasting {holds : Option (MacAddress × Word) → Mii → Prop}
    (stable : Stable volatile holds) :
    Lasting volatile fun station => holds station.waiting station.mii where
  move {station move} allowed here := by
    cases move with
    | execute =>
        have executed := station.execute_mii
        change holds station.execute.waiting station.execute.mii
        rw [Station.waiting_of_idle station.idle_execute, executed]
        replace here : holds station.waiting station.mii := here
        cases command : station.waiting with
        | none =>
            rw [command] at here
            exact here
        | some write =>
            rw [command] at here
            exact stable.store here
    | operate => exact stable.operate here
    | change address value => exact stable.change value (allowed address value rfl) here
  wait here := here

/-- Two things which last. -/
theorem Lasting.and {holds holds' : Station → Prop} (lasting : Lasting volatile holds)
    (lasting' : Lasting volatile holds') :
    Lasting volatile fun station => holds station ∧ holds' station where
  move allowed here := ⟨lasting.move allowed here.1, lasting'.move allowed here.2⟩
  wait here := ⟨lasting.wait here.1, lasting'.wait here.2⟩

/-- An idle interface stays idle. -/
theorem lasting_idle : Lasting volatile Station.Idle where
  move {station move} _ idle := by
    cases move with
    | execute => exact station.idle_execute
    | operate => exact idle
    | change => exact idle
  wait idle := idle

/-- What happens before a transaction keeps it. -/
theorem Lasting.advance {holds : Station → Prop} (lasting : Lasting volatile holds)
    {choice : StationChoice} {request : Request} (allowed : Steady volatile station request choice)
    (here : holds station) : holds (station.advance choice) := by
  have moves : ∀ (moves : List StationMove) (station : Station),
      (∀ address value, StationMove.change address value ∈ moves → volatile address) →
      holds station → holds (moves.foldl Station.move station) := by
    intro moves
    induction moves with
    | nil => exact fun _ _ here => here
    | cons move moves inductionHypothesis =>
        intro station allowed here
        refine inductionHypothesis (station.move move)
          (fun address value member => allowed address value (List.mem_cons_of_mem _ member)) ?_
        exact lasting.move (fun address value same => allowed address value (by simp [same])) here
  exact moves choice.moves _ allowed (lasting.wait here)

/-- What the chip does by itself leaves its settings and the time. -/
theorem move_apart (station : Station) (move : StationMove) :
    (station.move move).settings = station.settings ∧ (station.move move).uptime = station.uptime := by
  cases move with
  | execute =>
      unfold Station.move Station.execute
      simp only
      split
      · exact ⟨rfl, rfl⟩
      · split <;> exact ⟨rfl, rfl⟩
  | operate => exact ⟨rfl, rfl⟩
  | change => exact ⟨rfl, rfl⟩

/-- Nothing of it reaches the registers in front of the MAC. -/
theorem advance_apart (station : Station) (choice : StationChoice) :
    (station.advance choice).settings = station.settings ∧
      (station.advance choice).uptime = station.uptime + choice.elapsed := by
  have kept := foldl_keeps (fun station : Station => (station.settings, station.uptime))
    (fun station move => Prod.ext (move_apart station move).1 (move_apart station move).2)
    choice.moves (station.wait choice.elapsed)
  exact Prod.mk.inj kept

/-! ### Programs which reach only the MAC -/

/-- The program returns in the postcondition, leaves the registers in front of the MAC alone,
and time does not go back. -/
def Timely {α : Type} (volatile : PhyAddress → Prop) (program : Code α) (station : Station)
    (post : α → Station → Prop) : Prop :=
  stationDevice.Completes (Steady volatile) program station fun result next =>
    next.settings = station.settings ∧ station.uptime ≤ next.uptime ∧ post result next

namespace Timely

variable {α β : Type} {post : α → Station → Prop}

theorem weaken {program : Code α} {post' : α → Station → Prop}
    (timely : Timely volatile program station post)
    (implies : ∀ result next, post result next → post' result next) :
    Timely volatile program station post' :=
  Device.Completes.weaken timely fun result next ⟨settings, later, holds⟩ =>
    ⟨settings, later, implies result next holds⟩

/-- Time has not gone back. -/
theorem later {program : Code α} (timely : Timely volatile program station post) :
    Timely volatile program station fun result next =>
      station.uptime ≤ next.uptime ∧ post result next :=
  Device.Completes.weaken timely fun _ _ ⟨settings, later, holds⟩ =>
    ⟨settings, later, later, holds⟩

theorem done {value : α} (holds : post value station) :
    Timely volatile (pure value) station post :=
  Device.completes_pure.mpr ⟨rfl, le_refl _, holds⟩

theorem bind {program : Code α} {next : α → Code β} {after : β → Station → Prop}
    (timely : Timely volatile program station fun value middle =>
      Timely volatile (next value) middle after) :
    Timely volatile (program >>= next) station after := by
  unfold Timely
  rw [Device.completes_bind]
  apply Device.Completes.weaken timely
  rintro value middle ⟨settings, later, rest⟩
  apply Device.Completes.weaken rest
  rintro result finish ⟨settings', later', holds⟩
  exact ⟨settings'.trans settings, le_trans later later', holds⟩

theorem run_bind {program : Driver α} {next : α → Driver β}
    {after : Except Errno β → Station → Prop}
    (timely : Timely volatile program.run station fun result middle =>
      match result with
      | .ok value => Timely volatile (next value).run middle after
      | .error error => after (.error error) middle) :
    Timely volatile (program >>= next).run station after := by
  rw [ExceptT.run_bind]
  apply (timely.weaken _).bind
  intro result middle rest
  cases result with
  | ok value => exact rest
  | error error => exact done rest

/-- Code which cannot fail. -/
theorem run_lift {program : Code α} {post : Except Errno α → Station → Prop}
    (timely : Timely volatile program station fun value next => post (.ok value) next) :
    Timely volatile (liftM program : Driver α).run station post :=
  Device.completes_run_lift.mpr timely

/-- The result of a function which may fail, as a value. -/
theorem attempt {function : Driver α} {post : Except Errno (Except Errno α) → Station → Prop}
    (timely : Timely volatile function.run station fun result next => post (.ok result) next) :
    Timely volatile (Lan9250.attempt function).run station post := by
  have opened : (Lan9250.attempt function).run = function.run >>= fun result => pure (.ok result) :=
    rfl
  rw [opened]
  exact (timely.weaken fun _ _ holds => done holds).bind

end Timely

/-- Every request may be answered. -/
theorem quiet_steady (request : Request) : ∃ choice, Steady volatile station request choice :=
  ⟨⟨0, [], true, 0, ⟨⟨fun _ => 0, fun _ _ => 0, false, ⟨0, 0⟩⟩, ⟨fun _ => 0, fun _ => 0⟩⟩, .ok⟩,
    fun _ _ member => by simp at member⟩

/-- Reading the clock. -/
theorem timely_uptimeGet {holds : Station → Prop} (lasting : Lasting volatile holds)
    (here : holds station) :
    Timely volatile (call .uptimeGet) station fun now next => holds next ∧ now = next.uptime := by
  apply Device.Completes.ask (quiet_steady _)
  intro choice allowed
  obtain ⟨settings, timed⟩ := advance_apart station choice
  exact ⟨_, _, rfl, settings, by rw [timed]; omega, lasting.advance allowed here, rfl⟩

/-- A wait, of some milliseconds at least. -/
private theorem timely_waiting {holds : Station → Prop} (lasting : Lasting volatile holds)
    {request : Request} (ms : Nat) (response : StationChoice → Response request)
    (waits : ∀ choice, station.answer request choice =
      some (response choice, (station.advance choice).wait ms)) (here : holds station) :
    Timely volatile (call request) station fun _ next =>
      holds next ∧ station.uptime + ms ≤ next.uptime := by
  apply Device.Completes.ask (quiet_steady _)
  intro choice allowed
  obtain ⟨settings, timed⟩ := advance_apart station choice
  refine ⟨_, _, waits choice, settings, ?_, lasting.wait (lasting.advance allowed here), ?_⟩
  · simp only [Station.wait, timed]
    omega
  · simp only [Station.wait, timed]
    omega

/-- A wait of a millisecond. -/
theorem timely_busyWait {holds : Station → Prop} (lasting : Lasting volatile holds)
    (here : holds station) :
    Timely volatile (call (.busyWait 1000)) station fun _ next =>
      holds next ∧ station.uptime + 1 ≤ next.uptime :=
  timely_waiting lasting 1 (fun _ => ()) (fun _ => rfl) here

/-- A sleep of a millisecond. -/
theorem timely_sleep {holds : Station → Prop} (lasting : Lasting volatile holds)
    (here : holds station) :
    Timely volatile (call (.sleep 1)) station fun _ next =>
      holds next ∧ station.uptime + 1 ≤ next.uptime :=
  timely_waiting lasting 1 (fun _ => ()) (fun _ => rfl) here

/-- How a transaction may end. -/
theorem Station.conclude_cases {α : Type} {before after : Station} {outcome : Outcome} {value : α}
    (holds : Except Errno α → Station → Prop) (succeeds : holds (.ok value) after)
    (applied : ∀ error, holds (.error error) after) (fails : ∀ error, holds (.error error) before) :
    holds (before.conclude outcome value after).1 (before.conclude outcome value after).2 := by
  unfold Station.conclude
  split
  · exact succeeds
  · exact applied _
  · exact fails _

/-- Reading `MAC_CSR_CMD` or `MAC_CSR_DATA`. -/
theorem timely_read {holds : Station → Prop} (lasting : Lasting volatile holds) (address : Address)
    (here : holds station) :
    Timely volatile (readSysReg address).run station fun result next => holds next ∧
      ∀ value, result = .ok value → ∃ choice, value = next.read address choice := by
  apply Device.Completes.ask (quiet_steady _)
  intro choice allowed
  obtain ⟨settings, timed⟩ := advance_apart station choice
  have kept := lasting.advance allowed here
  refine ⟨_, _, rfl, ?_⟩
  apply Station.conclude_cases (fun result next => next.settings = station.settings ∧
    station.uptime ≤ next.uptime ∧ holds next ∧
      ∀ value, result = .ok value → ∃ choice, value = next.read address choice)
  · exact ⟨settings, by rw [timed]; omega, kept, fun value same => ⟨choice, (Except.ok.inj same).symm⟩⟩
  · exact fun error => ⟨settings, by rw [timed]; omega, kept, by simp⟩
  · exact fun error => ⟨settings, by rw [timed]; omega, kept, by simp⟩

/-- Writing one of them: the write has its effect, or fails without it. -/
theorem timely_write {holds : Station → Prop} (holds' : Station → Prop)
    (lasting : Lasting volatile holds) {address : Address}
    (reaches : address = macCsrCmd ∨ address = macCsrData) {value : Word}
    (writes : ∀ station choice, holds station → holds' (station.write address value choice))
    (here : holds station) :
    Timely volatile (writeSysReg address value).run station fun result next =>
      (result = .ok () → holds' next) ∧ (holds next ∨ holds' next) := by
  apply Device.Completes.ask (quiet_steady _)
  intro choice allowed
  obtain ⟨settings, timed⟩ := advance_apart station choice
  have kept := lasting.advance allowed here
  have written := writes _ choice kept
  have apart : ((station.advance choice).write address value choice).settings = station.settings ∧
      station.uptime ≤ ((station.advance choice).write address value choice).uptime := by
    have later : station.uptime ≤ (station.advance choice).uptime := by
      rw [timed]
      omega
    rcases reaches with rfl | rfl
    · exact ⟨settings, later⟩
    · exact ⟨settings, later⟩
  refine ⟨_, _, rfl, ?_⟩
  apply Station.conclude_cases (fun result next => next.settings = station.settings ∧
    station.uptime ≤ next.uptime ∧ (result = .ok () → holds' next) ∧ (holds next ∨ holds' next))
  · exact ⟨apart.1, apart.2, fun _ => written, .inr written⟩
  · exact fun error => ⟨apart.1, apart.2, by simp, .inr written⟩
  · exact fun error => ⟨settings, by rw [timed]; omega, by simp, .inl kept⟩

/-! ### Host MAC registers -/

/-- How a wait ends: what is kept is kept, and at a success no command is waiting. -/
def Waited (holds : Station → Prop) (result : Except Errno Unit) (next : Station) : Prop :=
  holds next ∧ (result = .ok () → next.Idle)

/-- One round of the wait: it ends it, or goes on before the deadline after a millisecond. -/
private theorem timely_waitReady_round {holds : Station → Prop} (lasting : Lasting volatile holds)
    {deadline : Int} {rounds : Nat} (here : holds station)
    (continues : ∀ next, holds next → station.uptime < deadline →
      station.uptime + 1 ≤ next.uptime →
      Timely volatile (waitReadyLoop macCsrCmd macCsrCmdBusy 0 deadline rounds).run next
        (Waited holds)) :
    Timely volatile (waitReadyLoop macCsrCmd macCsrCmdBusy 0 deadline (rounds + 1)).run station
      (Waited holds) := by
  unfold waitReadyLoop
  -- The rest of the round, when the register does not show that the MAC is ready.
  have goesOn : ∀ read, station.uptime ≤ read.uptime → holds read →
      Timely volatile (ExceptT.run (do
        let now ← call .uptimeGet
        if deadline ≤ now then throw .eio
        call (.busyWait 1000)
        waitReadyLoop macCsrCmd macCsrCmdBusy 0 deadline rounds : Driver Unit)) read
          (Waited holds) := by
    intro read later kept
    apply Timely.run_bind
    apply Timely.run_lift
    apply (timely_uptimeGet lasting kept).later.weaken
    rintro now timed ⟨later', kept, rfl⟩
    simp only
    split
    · exact Timely.done ⟨kept, by simp⟩
    · apply Timely.run_bind
      apply Timely.run_lift
      apply (timely_busyWait lasting kept).weaken
      rintro _ waited ⟨kept, later''⟩
      exact continues waited kept (by omega) (by omega)
  apply Timely.run_bind
  apply Timely.attempt
  apply (timely_read lasting macCsrCmd here).later.weaken
  rintro result read ⟨later, kept, shown⟩
  cases result with
  | error => exact goesOn read later kept
  | ok value =>
      simp only
      obtain ⟨choice, rfl⟩ := shown value rfl
      split
      · rename_i ready
        exact Timely.done ⟨kept, fun _ => ready⟩
      · exact goesOn read later kept

/-- Waiting for the MAC ends, for every round which goes on costs a millisecond. -/
private theorem timely_waitReadyLoop {holds : Station → Prop} (lasting : Lasting volatile holds)
    (deadline : Int) (rounds : Nat) (station : Station) (here : holds station)
    (enough : deadline ≤ station.uptime + rounds) :
    Timely volatile (waitReadyLoop macCsrCmd macCsrCmdBusy 0 deadline (rounds + 1)).run station
      (Waited holds) := by
  induction rounds generalizing station with
  | zero =>
      apply timely_waitReady_round lasting here
      intro next _ early _
      omega
  | succ rounds inductionHypothesis =>
      apply timely_waitReady_round lasting here
      intro next kept _ later
      exact inductionHypothesis next kept (by omega)

/-- Waiting for the interface ends, in time. -/
theorem timely_waitReady {holds : Station → Prop} (lasting : Lasting volatile holds)
    (milliseconds : Nat) (here : holds station) :
    Timely volatile (waitReady macCsrCmd macCsrCmdBusy 0 milliseconds).run station
      (Waited holds) := by
  unfold waitReady
  apply Timely.run_bind
  apply Timely.run_lift
  apply (timely_uptimeGet lasting here).weaken
  rintro now next ⟨kept, rfl⟩
  exact timely_waitReadyLoop lasting _ _ _ kept (le_refl _)

/-- A read command is waiting, or has fetched its register. -/
structure Fetching (holds : Option (MacAddress × Word) → Mii → Prop)
    (shows : Word → Option (MacAddress × Word) → Mii → Prop) (address : MacAddress)
    (station : Station) : Prop where
  stores : station.waiting = none
  kept : holds none station.mii
  fetched : station.command = Mac.readCommand address ∨
    station.Idle ∧ shows station.data none station.mii

/-- A read command leaves no write waiting. -/
theorem waiting_readCommand {address : MacAddress}
    (reads : station.command = Mac.readCommand address) : station.waiting = none := by
  obtain ⟨_, read, _⟩ := Mac.readCommand_fields address
  unfold Station.waiting
  rw [reads, if_neg read, ite_self]

/-- It fetches the register. -/
theorem execute_readCommand {address : MacAddress}
    (reads : station.command = Mac.readCommand address) :
    station.execute.data = station.mii.registers address ∧ station.execute.mii = station.mii := by
  obtain ⟨busy, read, addressed⟩ := Mac.readCommand_fields address
  unfold Station.execute
  rw [reads, if_neg busy]
  simp only [if_neg read, addressed, and_self]

section Registers

variable {holds : Option (MacAddress × Word) → Mii → Prop}
  {shows : Word → Option (MacAddress × Word) → Mii → Prop} {address : MacAddress}

/-- A read under way stays so, or is done. -/
theorem lasting_fetching (stable : Stable volatile holds)
    (stable' : ∀ value, Stable volatile (shows value))
    (fetches : ∀ mii, holds none mii → shows (mii.registers address) none mii) :
    Lasting volatile (Fetching holds shows address) where
  move {station move} allowed fetching := by
    obtain ⟨stores, kept, fetched⟩ := fetching
    cases move with
    | execute =>
        change Fetching holds shows address station.execute
        have idle := station.idle_execute
        rcases fetched with reads | ⟨idle', shown⟩
        · obtain ⟨data, same⟩ := execute_readCommand reads
          exact ⟨Station.waiting_of_idle idle, same ▸ kept, .inr ⟨idle, by
            rw [data, same]
            exact fetches _ kept⟩⟩
        · rw [Station.execute_of_idle idle']
          exact ⟨stores, kept, .inr ⟨idle', shown⟩⟩
    | operate =>
        exact ⟨stores, stable.operate kept, fetched.imp_right fun ⟨idle, shown⟩ =>
          ⟨idle, (stable' _).operate shown⟩⟩
    | change changed value =>
        have volatile := allowed changed value rfl
        exact ⟨stores, stable.change value volatile kept, fetched.imp_right fun ⟨idle, shown⟩ =>
          ⟨idle, (stable' _).change value volatile shown⟩⟩
  wait fetching := ⟨fetching.stores, fetching.kept, fetching.fetched⟩

/-- `lan9250_read_mac_reg` returns what its register has shown when the MAC has read it. -/
theorem timely_readMacReg (stable : Stable volatile holds)
    (stable' : ∀ value, Stable volatile (shows value))
    (fetches : ∀ mii, holds none mii → shows (mii.registers address) none mii)
    (here : holds station.waiting station.mii) :
    Timely volatile (readMacReg address).run station fun result next =>
      holds next.waiting next.mii ∧
        ∀ value, result = .ok value → shows value none next.mii ∧ next.waiting = none := by
  unfold readMacReg
  apply Timely.run_bind
  apply (timely_waitReady stable.lasting macTimeout here).weaken
  rintro result ready ⟨kept, idle⟩
  cases result with
  | error error => exact ⟨kept, by simp⟩
  | ok _ =>
      replace idle := idle rfl
      have kept' : holds none ready.mii := Station.waiting_of_idle idle ▸ kept
      have reads : Lasting volatile fun station => station.Idle ∧ holds station.waiting station.mii :=
        lasting_idle.and stable.lasting
      apply Timely.run_bind
      apply (timely_write (Fetching holds shows address) reads (.inl rfl) ?_
        ⟨idle, kept⟩).weaken
      · rintro result commanded ⟨fetching, either⟩
        have known : holds commanded.waiting commanded.mii := by
          rcases either with ⟨_, kept⟩ | fetching
          · exact kept
          · exact fetching.stores ▸ fetching.kept
        cases result with
        | error error => exact ⟨known, by simp⟩
        | ok _ =>
            have lasting := lasting_fetching stable stable' fetches
            apply Timely.run_bind
            apply (timely_waitReady lasting macTimeout (fetching rfl)).weaken
            rintro result waited ⟨fetching, idle⟩
            cases result with
            | error error => exact ⟨fetching.stores ▸ fetching.kept, by simp⟩
            | ok _ =>
                have shown : Lasting volatile fun station =>
                    station.Idle ∧ Fetching holds shows address station := lasting_idle.and lasting
                apply (timely_read shown macCsrData ⟨idle rfl, fetching⟩).weaken
                rintro result read ⟨⟨idle, fetching⟩, returned⟩
                refine ⟨fetching.stores ▸ fetching.kept, fun value same => ?_⟩
                obtain ⟨choice, rfl⟩ := returned value same
                rcases fetching.fetched with reads | ⟨_, shown⟩
                · exact absurd (reads ▸ idle) (Mac.readCommand_fields address).1
                · exact ⟨shown, fetching.stores⟩
      · rintro station choice ⟨idle, kept⟩
        have reads : (station.write macCsrCmd (Mac.readCommand address) choice).command =
          Mac.readCommand address := rfl
        exact ⟨waiting_readCommand reads, Station.waiting_of_idle idle ▸ kept, .inl reads⟩

/-- A write command leaves its write waiting. -/
theorem waiting_writeCommand {value : Word} (writes : station.command = Mac.writeCommand address)
    (data : station.data = value) : station.waiting = some (address, value) := by
  obtain ⟨busy, write, addressed⟩ := Mac.writeCommand_fields address
  unfold Station.waiting
  rw [writes, data, if_neg busy, if_pos write, addressed]

/-- A successful `lan9250_write_mac_reg` has had its word stored, and one which fails may have. -/
theorem timely_writeMacReg {value : Word} (holds' : Option (MacAddress × Word) → Mii → Prop)
    (stable : Stable volatile holds) (stable' : Stable volatile holds')
    (issues : ∀ mii, holds none mii → holds' (some (address, value)) mii)
    (here : holds station.waiting station.mii) :
    Timely volatile (writeMacReg address value).run station fun result next =>
      (result = .ok () → next.waiting = none ∧ holds' none next.mii) ∧
        (holds next.waiting next.mii ∨ holds' next.waiting next.mii) := by
  unfold writeMacReg
  apply Timely.run_bind
  apply (timely_waitReady stable.lasting macTimeout here).weaken
  rintro result ready ⟨kept, idle⟩
  cases result with
  | error error => exact ⟨by simp, .inl kept⟩
  | ok _ =>
      have quiet : Lasting volatile fun station => station.Idle ∧ holds station.waiting station.mii :=
        lasting_idle.and stable.lasting
      -- Once it is written the data word stays, for no command is waiting.
      have loaded : Lasting volatile fun station =>
          station.data = value ∧ station.Idle ∧ holds station.waiting station.mii := by
        refine ⟨?_, fun here => here⟩
        rintro station move allowed ⟨data, here⟩
        refine ⟨?_, quiet.move allowed here⟩
        cases move with
        | execute =>
            change station.execute.data = value
            rw [Station.execute_of_idle here.1, data]
        | operate => exact data
        | change => exact data
      apply Timely.run_bind
      apply (timely_write (fun station =>
        station.data = value ∧ station.Idle ∧ holds station.waiting station.mii) quiet (.inr rfl) ?_
        ⟨idle rfl, kept⟩).weaken
      · rintro result stored ⟨stored', either⟩
        have known : holds stored.waiting stored.mii := by
          rcases either with ⟨_, kept⟩ | ⟨_, _, kept⟩
          · exact kept
          · exact kept
        cases result with
        | error error => exact ⟨by simp, .inl known⟩
        | ok _ =>
            apply Timely.run_bind
            apply (timely_write (fun station => holds' station.waiting station.mii) loaded
              (.inl rfl) ?_ (stored' rfl)).weaken
            · rintro result commanded ⟨issued, either⟩
              cases result with
              | error error =>
                  refine ⟨by simp, ?_⟩
                  rcases either with ⟨_, _, kept⟩ | kept
                  · exact .inl kept
                  · exact .inr kept
              | ok _ =>
                  apply (timely_waitReady stable'.lasting macTimeout (issued rfl)).weaken
                  rintro result next ⟨kept, idle⟩
                  refine ⟨fun succeeded => ?_, .inr kept⟩
                  have none := Station.waiting_of_idle (idle succeeded)
                  exact ⟨none, none ▸ kept⟩
            · rintro station choice ⟨data, idle, kept⟩
              have waiting : (station.write macCsrCmd (Mac.writeCommand address) choice).waiting =
                some (address, value) := waiting_writeCommand rfl data
              rw [Station.waiting_of_idle idle] at kept
              change holds' (station.write macCsrCmd (Mac.writeCommand address) choice).waiting
                station.mii
              rw [waiting]
              exact issues _ kept
      · rintro station choice ⟨idle, kept⟩
        have none := Station.waiting_of_idle idle
        have none' : (station.write macCsrData value choice).waiting = Option.none :=
          Station.waiting_of_idle idle
        refine ⟨rfl, idle, ?_⟩
        rw [none']
        exact none ▸ kept

end Registers

end Chip

end Rp2350Stepper.Lan9250
