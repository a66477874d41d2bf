import Rp2350Stepper.Data.Retries
import Rp2350Stepper.Lan9250.PtpClock

/-!
# The PPS output

`lan9250_1588_pps_enable` changes some bits of three registers, writes the reload and the target
of channel A, and returns early at the first transaction which fails, whether or not that has
taken effect. It may be called again: each of its steps is repeatable, and they touch different
fields. What the chip does once the clock reaches the target (a pulse, and a target moved on by
the reload) is not modelled.
-/

namespace Rp2350Stepper.Lan9250

open Rp2350Stepper.Data Rp2350Stepper.Semantics

/-! ### The function of the driver -/

/-- GPIO1 in GPIO mode. -/
def gpio1Selected (led : Word) : Word := led &&& ~~~ledCfgLedEn 1

/-- GPIO1 push/pull, active high, on channel A and with its 1588 output enabled. -/
def gpio1Output (gpio : Word) : Word :=
  (((gpio ||| gpioCfgGpiobuf 1) ||| gpioCfgGpioPol 1) &&& ~~~gpioCfg1588GpioChSel 1) |||
    gpioCfg1588GpioOe 1

/-- Channel A with a 100 ns pulse for each event, incrementing its target. -/
def channelAPulses (general : Word) : Word :=
  ((general &&& ~~~generalConfigClockEventAMask) |||
    (clockEventMode100nsPulse <<< generalConfigClockEventAShift)) &&& ~~~generalConfigReloadAddA

/-- `lan9250_1588_pps_enable`; its log line is left out. -/
def ppsEnable : Driver Unit := do
  let led ← readSysReg ledCfg
  writeSysReg ledCfg (gpio1Selected led)
  let gpio ← readSysReg gpioCfg
  writeSysReg gpioCfg (gpio1Output gpio)
  let general ← readSysReg generalConfig
  writeSysReg generalConfig (channelAPulses general)
  writeSysReg (clockTargetReloadSec 0) 1
  writeSysReg (clockTargetReloadNs 0) 0
  let (time, _) ← ptpClockRead false
  writeSysReg (clockTargetSec 0) (time.second + 2)
  writeSysReg (clockTargetNs 0) 0

/-! ### The registers it changes -/

/-- The registers which configure the output. -/
structure PpsConfig where
  ledCfg : Word
  gpioCfg : Word
  generalConfig : Word
  reload : PtpTime
deriving DecidableEq, Repr

/-- The clock, the registers of the output, and the configurations they have held. -/
structure PpsUnit where
  clock : ClockUnit
  config : PpsConfig
  target : PtpTime
  history : List PpsConfig

namespace PpsUnit

/-- The clock ticks before a transaction. -/
def advance (unit : PpsUnit) (choice : ClockChoice) : PpsUnit :=
  { unit with clock := unit.clock.advance choice }

/-- The unit with its configuration changed. -/
def configure (unit : PpsUnit) (config : PpsConfig) : PpsUnit :=
  { unit with config := config, history := unit.history ++ [config] }

/-- Read a register of the unit. -/
def read? (unit : PpsUnit) (address : Address) : Option Word :=
  if address = Lan9250.ledCfg then some unit.config.ledCfg
  else if address = Lan9250.gpioCfg then some unit.config.gpioCfg
  else if address = Lan9250.generalConfig then some unit.config.generalConfig
  else unit.clock.read? address

/-- Write a register of the unit. -/
def write? (unit : PpsUnit) (address : Address) (value : Word) : Option PpsUnit :=
  if address = Lan9250.ledCfg then
    some (unit.configure { unit.config with ledCfg := value })
  else if address = Lan9250.gpioCfg then
    some (unit.configure { unit.config with gpioCfg := value })
  else if address = Lan9250.generalConfig then
    some (unit.configure { unit.config with generalConfig := value })
  else if address = clockTargetReloadSec 0 then
    some (unit.configure
      { unit.config with reload := { unit.config.reload with second := value } })
  else if address = clockTargetReloadNs 0 then
    some (unit.configure
      { unit.config with reload := { unit.config.reload with nanosecond := value } })
  else if address = clockTargetSec 0 then
    some { unit with target := { unit.target with second := value } }
  else if address = clockTargetNs 0 then
    some { unit with target := { unit.target with nanosecond := value } }
  else (unit.clock.write? address value).map fun clock => { unit with clock := clock }

/-- End a transaction with its result and its effect. -/
def conclude {α : Type} (before : PpsUnit) (outcome : Outcome) (value : α) (after : PpsUnit) :
    Except Errno α × PpsUnit :=
  match outcome with
  | .ok => (.ok value, after)
  | .failed true error => (.error error, after)
  | .failed false error => (.error error, before)

/-- How the registers answer; others are not their concern. -/
def answer (unit : PpsUnit) : (request : Request) → ClockChoice →
    Option (Response request × PpsUnit)
  | .readSysReg address, choice =>
      ((unit.advance choice).read? address).map fun value =>
        (unit.advance choice).conclude choice.outcome value (unit.advance choice)
  | .writeSysReg address value, choice =>
      ((unit.advance choice).write? address value).map fun after =>
        (unit.advance choice).conclude choice.outcome () after
  | _, _ => none

end PpsUnit

/-- The unit behind its registers. -/
abbrev ppsDevice : Device driverInterface := ⟨PpsUnit, ClockChoice, PpsUnit.answer⟩

/-- Calls one after the other, in which any transaction may fail. -/
abbrev ppsCalls : System (Device.Finished ppsDevice Unit (Except Errno Unit)) :=
  ppsDevice.calls ppsDevice.unguarded (fun _ => True) fun _ => ppsEnable.run

/-- No transaction fails; the clock may tick. -/
def Faultless : ppsDevice.Guard := fun _ _ choice => choice.outcome = .ok

/-! ### The steps of a call -/

namespace PpsConfig

/-- The pin is a GPIO pin. -/
def selectGpio1 (config : PpsConfig) : PpsConfig :=
  { config with ledCfg := gpio1Selected config.ledCfg }

/-- The pin shows the clock event. -/
def outputGpio1 (config : PpsConfig) : PpsConfig :=
  { config with gpioCfg := gpio1Output config.gpioCfg }

/-- The event of channel A is a pulse, and its target is added to. -/
def pulseChannelA (config : PpsConfig) : PpsConfig :=
  { config with generalConfig := channelAPulses config.generalConfig }

/-- A second is added to the target. -/
def reloadSecond (config : PpsConfig) : PpsConfig :=
  { config with reload := { config.reload with second := 1 } }

/-- And no nanoseconds. -/
def reloadNanosecond (config : PpsConfig) : PpsConfig :=
  { config with reload := { config.reload with nanosecond := 0 } }

/-- What a call does to the configuration, one write after the other. -/
def steps : List (PpsConfig → PpsConfig) :=
  [selectGpio1, outputGpio1, pulseChannelA, reloadSecond, reloadNanosecond]

end PpsConfig

/-- Selecting the pin again changes nothing. -/
theorem gpio1Selected_twice (led : Word) :
    gpio1Selected (gpio1Selected led) = gpio1Selected led := by
  rw [gpio1Selected, gpio1Selected, BitVec.and_assoc, BitVec.and_self]

theorem gpio1Output_twice (gpio : Word) : gpio1Output (gpio1Output gpio) = gpio1Output gpio := by
  unfold gpio1Output
  generalize gpioCfgGpiobuf 1 = buf, gpioCfgGpioPol 1 = pol, gpioCfg1588GpioChSel 1 = sel,
    gpioCfg1588GpioOe 1 = oe
  ext index within
  simp only [BitVec.getElem_or, BitVec.getElem_and, BitVec.getElem_not]
  cases gpio[index] <;> cases buf[index] <;> cases pol[index] <;> cases sel[index] <;>
    cases oe[index] <;> rfl

theorem channelAPulses_twice (general : Word) :
    channelAPulses (channelAPulses general) = channelAPulses general := by
  unfold channelAPulses
  generalize generalConfigClockEventAMask = mask, generalConfigReloadAddA = reload,
    clockEventMode100nsPulse <<< generalConfigClockEventAShift = mode
  ext index within
  simp only [BitVec.getElem_or, BitVec.getElem_and, BitVec.getElem_not]
  cases general[index] <;> cases mask[index] <;> cases reload[index] <;> cases mode[index] <;> rfl

/-- A call may be given up after any of its writes. -/
theorem repeatable_steps : Repeatable PpsConfig.steps where
  idempotent := by
    simp only [PpsConfig.steps, List.forall_mem_cons, List.not_mem_nil, false_implies,
      implies_true, and_true]
    refine ⟨?_, ?_, ?_, fun _ => rfl, fun _ => rfl⟩
    · intro config
      simp only [PpsConfig.selectGpio1, gpio1Selected_twice]
    · intro config
      simp only [PpsConfig.outputGpio1, gpio1Output_twice]
    · intro config
      simp only [PpsConfig.pulseChannelA, channelAPulses_twice]
  commute := by
    simp only [PpsConfig.steps, List.forall_mem_cons, List.not_mem_nil, false_implies,
      implies_true, and_true]
    -- Two steps change different fields, or are the same.
    refine ⟨⟨?_, ?_, ?_, ?_, ?_⟩, ⟨?_, ?_, ?_, ?_, ?_⟩, ⟨?_, ?_, ?_, ?_, ?_⟩, ⟨?_, ?_, ?_, ?_, ?_⟩,
      ⟨?_, ?_, ?_, ?_, ?_⟩⟩ <;> exact fun _ => rfl

/-! ### The other bits -/

/-- The bits of GPIO1 in `LED_CFG` and in `GPIO_CFG`, and those of channel A in
`1588_GENERAL_CONFIG`. -/
def ledCfgGpio1 : Word := ledCfgLedEn 1

def gpioCfgGpio1 : Word :=
  gpioCfgGpiobuf 1 ||| gpioCfgGpioPol 1 ||| gpioCfg1588GpioChSel 1 ||| gpioCfg1588GpioOe 1

/-- The bits of `1588_GENERAL_CONFIG` for channel A. -/
def generalConfigChannelA : Word := generalConfigClockEventAMask ||| generalConfigReloadAddA

/-- Two configurations agree in every bit which belongs neither to GPIO1 nor to channel A. -/
structure SameElsewhere (config other : PpsConfig) : Prop where
  ledCfg : config.ledCfg &&& ~~~ledCfgGpio1 = other.ledCfg &&& ~~~ledCfgGpio1
  gpioCfg : config.gpioCfg &&& ~~~gpioCfgGpio1 = other.gpioCfg &&& ~~~gpioCfgGpio1
  generalConfig : config.generalConfig &&& ~~~generalConfigChannelA =
    other.generalConfig &&& ~~~generalConfigChannelA

/-- The other pins stay what they are. -/
theorem gpio1Selected_elsewhere (led : Word) :
    gpio1Selected led &&& ~~~ledCfgGpio1 = led &&& ~~~ledCfgGpio1 := by
  rw [gpio1Selected, ledCfgGpio1, BitVec.and_assoc, BitVec.and_self]

/-- The other pins are driven as before. -/
theorem gpio1Output_elsewhere (gpio : Word) :
    gpio1Output gpio &&& ~~~gpioCfgGpio1 = gpio &&& ~~~gpioCfgGpio1 := by
  unfold gpio1Output gpioCfgGpio1
  generalize gpioCfgGpiobuf 1 = buf, gpioCfgGpioPol 1 = pol, gpioCfg1588GpioChSel 1 = sel,
    gpioCfg1588GpioOe 1 = oe
  ext index within
  simp only [BitVec.getElem_or, BitVec.getElem_and, BitVec.getElem_not]
  cases gpio[index] <;> cases buf[index] <;> cases pol[index] <;> cases sel[index] <;>
    cases oe[index] <;> rfl

/-- The rest of the configuration stays. -/
theorem channelAPulses_elsewhere (general : Word) :
    channelAPulses general &&& ~~~generalConfigChannelA =
      general &&& ~~~generalConfigChannelA := by
  have mode : clockEventMode100nsPulse <<< generalConfigClockEventAShift = 0#32 := by decide
  rw [channelAPulses, generalConfigChannelA, mode, BitVec.or_zero]
  generalize generalConfigClockEventAMask = mask, generalConfigReloadAddA = reload
  ext index within
  simp only [BitVec.getElem_or, BitVec.getElem_and, BitVec.getElem_not]
  cases general[index] <;> cases mask[index] <;> cases reload[index] <;> rfl

/-- No step of a call changes a bit which belongs neither to GPIO1 nor to channel A. -/
theorem sameElsewhere_of_step : ∀ step ∈ PpsConfig.steps, ∀ config : PpsConfig,
    SameElsewhere (step config) config := by
  simp only [PpsConfig.steps, List.forall_mem_cons, List.not_mem_nil, false_implies,
    implies_true, and_true]
  refine ⟨?_, ?_, ?_, fun _ => ⟨rfl, rfl, rfl⟩, fun _ => ⟨rfl, rfl, rfl⟩⟩
  · exact fun config => ⟨gpio1Selected_elsewhere config.ledCfg, rfl, rfl⟩
  · exact fun config => ⟨rfl, gpio1Output_elsewhere config.gpioCfg, rfl⟩
  · exact fun config => ⟨rfl, rfl, channelAPulses_elsewhere config.generalConfig⟩

/-- Nor do any number of them. -/
theorem sameElsewhere_of_attempted {config next : PpsConfig}
    (attempted : Attempted PpsConfig.steps config next) : SameElsewhere next config where
  ledCfg := attempted.unchanged (fun config => config.ledCfg &&& ~~~ledCfgGpio1)
    fun step member config => (sameElsewhere_of_step step member config).ledCfg
  gpioCfg := attempted.unchanged (fun config => config.gpioCfg &&& ~~~gpioCfgGpio1)
    fun step member config => (sameElsewhere_of_step step member config).gpioCfg
  generalConfig := attempted.unchanged
    (fun config => config.generalConfig &&& ~~~generalConfigChannelA)
    fun step member config => (sameElsewhere_of_step step member config).generalConfig

/-- The timestamp unit and channel B have no bit of channel A. -/
theorem SameElsewhere.others {config other : PpsConfig} (same : SameElsewhere config other) :
    config.generalConfig &&& (generalConfigTsuEnable ||| generalConfigClockEventBMask |||
        generalConfigReloadAddB) =
      other.generalConfig &&& (generalConfigTsuEnable ||| generalConfigClockEventBMask |||
        generalConfigReloadAddB) := by
  have apart : generalConfigTsuEnable ||| generalConfigClockEventBMask |||
      generalConfigReloadAddB = ~~~generalConfigChannelA &&& (generalConfigTsuEnable |||
        generalConfigClockEventBMask ||| generalConfigReloadAddB) := by decide
  rw [apart, ← BitVec.and_assoc, same.generalConfig, BitVec.and_assoc]

/-! ### What the transactions do -/

/-- Only the clock has ticked. -/
structure Passed (unit next : PpsUnit) : Prop where
  ticked : Ticked unit.clock next.clock
  config : next.config = unit.config
  target : next.target = unit.target
  history : next.history = unit.history

/-- Since a state, the configuration has gone through steps of a call only. -/
structure Progress (start unit : PpsUnit) : Prop where
  moved : Moved start.clock unit.clock
  attempted : Attempted PpsConfig.steps start.config unit.config
  history : ∃ later, unit.history = start.history ++ later ∧
    ∀ config ∈ later, Attempted PpsConfig.steps start.config config

namespace Progress

variable {start unit next : PpsUnit}

/-- Nothing has been done. -/
theorem refl (unit : PpsUnit) : Progress unit unit :=
  ⟨.refl unit.clock, .refl unit.config, [], by simp, by simp⟩

/-- Something has been done, and then more. -/
theorem trans (first : Progress start unit) (second : Progress unit next) :
    Progress start next := by
  obtain ⟨moved, attempted, later, history, configs⟩ := first
  obtain ⟨moved', attempted', later', history', configs'⟩ := second
  refine ⟨moved.trans moved', attempted.trans attempted', later ++ later', ?_, ?_⟩
  · rw [history', history, List.append_assoc]
  · intro config member
    rcases List.mem_append.mp member with old | new
    · exact configs config old
    · exact attempted.trans (configs' config new)

/-- The clock ticks. -/
theorem passed (passed : Passed unit next) : Progress unit next := by
  refine ⟨passed.ticked.toMoved, ?_, [], ?_, by simp⟩
  · rw [passed.config]
    exact .refl unit.config
  · rw [passed.history, List.append_nil]

/-- A write of the configuration which is a step of a call. -/
theorem configure {step : PpsConfig → PpsConfig} (member : step ∈ PpsConfig.steps) :
    Progress unit (unit.configure (step unit.config)) := by
  have done : Attempted PpsConfig.steps unit.config (step unit.config) :=
    (Attempted.refl unit.config).step member
  refine ⟨.refl unit.clock, done, [step unit.config], rfl, ?_⟩
  intro config same
  rw [List.mem_singleton.mp same]
  exact done

/-- A write which concerns only the clock and the target. -/
theorem elsewhere (moved : Moved unit.clock next.clock) (config : next.config = unit.config)
    (history : next.history = unit.history) : Progress unit next := by
  refine ⟨moved, ?_, [], ?_, by simp⟩
  · rw [config]
    exact .refl unit.config
  · rw [history, List.append_nil]

end Progress

/-- What a piece of a call leaves: progress since the start of the call, and its result if it
has not failed. -/
def Attempt {α : Type} (start : PpsUnit) (holds : α → PpsUnit → Prop) (result : Except Errno α)
    (finish : PpsUnit) : Prop :=
  Progress start finish ∧ ∀ value, result = .ok value → holds value finish

section Rules

variable {start unit : PpsUnit} {guard : ppsDevice.Guard} {address : Address} {value : Word}

/-- What happens before a request is ticks. -/
theorem passed_advance (unit : PpsUnit) (choice : ClockChoice) :
    Passed unit (unit.advance choice) :=
  ⟨Ticked.advance unit.clock choice, rfl, rfl, rfl⟩

/-- Ticks change no register. -/
theorem Passed.read? {next : PpsUnit} (passed : Passed unit next) (address : Address) :
    next.read? address = unit.read? address := by
  unfold PpsUnit.read?
  rw [passed.config, passed.ticked.read?]

/-- Sequencing: a failure skips what follows. -/
theorem attempt_bind {α β : Type} {first : Driver α} {next : α → Driver β}
    {holds : α → PpsUnit → Prop} {holds' : β → PpsUnit → Prop}
    (before : ppsDevice.Ensures guard first.run unit (Attempt start holds))
    (after : ∀ value middle, Progress start middle → holds value middle →
      ppsDevice.Ensures guard (next value).run middle (Attempt start holds')) :
    ppsDevice.Ensures guard (first >>= next).run unit (Attempt start holds') := by
  refine (before.weaken ?_).run_bind
  rintro result middle ⟨progress, held⟩
  cases result with
  | ok value => exact after value middle progress (held value rfl)
  | error error => exact ⟨progress, by simp⟩

/-- A register read. -/
theorem attempt_read (progress : Progress start unit) (shown : unit.read? address = some value) :
    ppsDevice.Ensures guard (readSysReg address).run unit
      (Attempt start fun result next => result = value ∧ Passed unit next) := by
  refine .ask ?_
  intro choice result finish _ answered
  simp only [PpsUnit.answer, (passed_advance unit choice).read? address, shown,
    Option.map_some, Option.some.injEq] at answered
  have passed := passed_advance unit choice
  have same : finish = unit.advance choice ∧ ∀ read, result = .ok read → read = value := by
    unfold PpsUnit.conclude at answered
    split at answered <;> obtain ⟨rfl, rfl⟩ := Prod.mk.inj answered <;> simp
  obtain ⟨rfl, read⟩ := same
  refine ⟨progress.trans (.passed passed), ?_⟩
  intro result succeeded
  exact ⟨read result succeeded, passed⟩

/-- A register write, which may take effect and fail. -/
theorem attempt_write {holds : PpsUnit → Prop} (progress : Progress start unit)
    (accepted : ∀ current, Passed unit current → ∃ written,
      current.write? address value = some written ∧ Progress current written ∧ holds written) :
    ppsDevice.Ensures guard (writeSysReg address value).run unit
      (Attempt start fun _ => holds) := by
  refine .ask ?_
  intro choice result finish _ answered
  have passed := passed_advance unit choice
  obtain ⟨written, found, further, held⟩ := accepted _ passed
  simp only [PpsUnit.answer, found, Option.map_some, Option.some.injEq] at answered
  have before := progress.trans (.passed passed)
  unfold PpsUnit.conclude at answered
  split at answered
  · obtain ⟨rfl, rfl⟩ := Prod.mk.inj answered
    exact ⟨before.trans further, fun _ _ => held⟩
  · obtain ⟨rfl, rfl⟩ := Prod.mk.inj answered
    exact ⟨before.trans further, by simp⟩
  · obtain ⟨rfl, rfl⟩ := Prod.mk.inj answered
    exact ⟨before, by simp⟩

/-- A write of the configuration. -/
theorem attempt_configure {step : PpsConfig → PpsConfig} (member : step ∈ PpsConfig.steps)
    (progress : Progress start unit)
    (accepted : ∀ current : PpsUnit, current.config = unit.config →
      current.write? address value = some (current.configure (step current.config))) :
    ppsDevice.Ensures guard (writeSysReg address value).run unit
      (Attempt start fun _ next => next.config = step unit.config) := by
  apply attempt_write progress
  intro current passed
  refine ⟨_, accepted current passed.config, .configure member, ?_⟩
  rw [← passed.config]
  rfl

end Rules

/-! ### A call -/

section Calls

variable {start unit : PpsUnit} {guard : ppsDevice.Guard}

/-- A register is read, modified and written. -/
theorem attempt_modify {α : Type} {address : Address} {holds : α → PpsUnit → Prop}
    {next : Driver α} (step : PpsConfig → PpsConfig) (field : PpsConfig → Word)
    (modify : Word → Word) (member : step ∈ PpsConfig.steps) (progress : Progress start unit)
    (reads : ∀ unit : PpsUnit, unit.read? address = some (field unit.config))
    (writes : ∀ unit : PpsUnit, unit.write? address (modify (field unit.config)) =
      some (unit.configure (step unit.config)))
    (after : ∀ middle, Progress start middle → middle.config = step unit.config →
      ppsDevice.Ensures guard next.run middle (Attempt start holds)) :
    ppsDevice.Ensures guard (readSysReg address >>= fun value =>
      writeSysReg address (modify value) >>= fun _ => next).run unit (Attempt start holds) := by
  refine attempt_bind (attempt_read progress (reads unit)) ?_
  rintro _ shown progress ⟨rfl, passed⟩
  have accepted (current : PpsUnit) (same : current.config = shown.config) :
      current.write? address (modify (field unit.config)) =
        some (current.configure (step current.config)) := by
    rw [← passed.config, ← same]
    exact writes current
  refine attempt_bind (attempt_configure member progress accepted) ?_
  intro _ middle progress config
  apply after middle progress
  rw [config, passed.config]

/-- A clock read returns a time the clock has held since the start, and leaves it in the
registers. -/
theorem attempt_clockRead (progress : Progress start unit) :
    ppsDevice.Ensures guard (ptpClockRead false).run unit
      (Attempt start fun value next => next.config = unit.config ∧
        value.1 = next.clock.registers ∧ Snapshot start.clock next.clock) := by
  have command : ppsDevice.Ensures guard (writeSysReg cmdCtl cmdCtlClockRead).run unit
      (Attempt start fun _ next => next.config = unit.config ∧
        Snapshot start.clock next.clock) := by
    apply attempt_write progress
    intro current passed
    have moved := progress.moved.trans passed.ticked.toMoved
    refine ⟨{ current with clock := current.clock.snapshot }, rfl, ?_, passed.config, moved,
      moved.live⟩
    exact .elsewhere (write_moved (write?_clockRead current.clock)) rfl rfl
  unfold ptpClockRead
  refine attempt_bind command ?_
  rintro _ taken progress ⟨config, snapshot⟩
  refine attempt_bind (attempt_read progress (rfl : taken.read? clockSec = _)) ?_
  rintro _ atSec progress ⟨rfl, passedSec⟩
  refine attempt_bind (attempt_read progress (rfl : atSec.read? clockNs = _)) ?_
  rintro _ atNs progress ⟨rfl, passedNs⟩
  refine .pure ⟨progress, ?_⟩
  rintro value same
  cases same
  refine ⟨passedNs.config.trans (passedSec.config.trans config), ?_,
    (snapshot.tick passedSec.ticked).tick passedNs.ticked⟩
  rw [passedNs.ticked.registers, passedSec.ticked.registers]

/-- The target is written: two seconds after the one in the clock's registers. -/
theorem attempt_aim (progress : Progress start unit) (snapshot : Snapshot start.clock unit.clock) :
    ppsDevice.Ensures guard (writeSysReg (clockTargetSec 0) (unit.clock.registers.second + 2) >>=
        fun _ => writeSysReg (clockTargetNs 0) 0).run unit
      (Attempt start fun _ finish => finish.config = unit.config ∧
        HeldDuring start.clock finish.clock finish.clock.registers ∧
        finish.target = ⟨finish.clock.registers.second + 2, 0⟩) := by
  have second : ppsDevice.Ensures guard
      (writeSysReg (clockTargetSec 0) (unit.clock.registers.second + 2)).run unit
      (Attempt start fun _ next => next.config = unit.config ∧ Snapshot start.clock next.clock ∧
        next.target.second = next.clock.registers.second + 2) := by
    apply attempt_write progress
    intro current passed
    refine ⟨_, rfl, .elsewhere (.refl current.clock) rfl rfl, passed.config,
      snapshot.tick passed.ticked, ?_⟩
    rw [passed.ticked.registers]
  refine attempt_bind second ?_
  rintro _ middle progress ⟨config, snapshot, second⟩
  apply attempt_write progress
  intro current passed
  refine ⟨_, rfl, .elsewhere (.refl current.clock) rfl rfl, ?_, (snapshot.tick passed.ticked).2, ?_⟩
  · exact passed.config.trans config
  · rw [passed.ticked.registers, ← second, ← passed.target]

/-- A call which returns 0 has done all its steps, and set the target by the time it has read. -/
theorem attempt_ppsEnable (start : PpsUnit) :
    ppsDevice.Ensures guard ppsEnable.run start
      (Attempt start fun _ finish => finish.config = perform PpsConfig.steps start.config ∧
        HeldDuring start.clock finish.clock finish.clock.registers ∧
        finish.target = ⟨finish.clock.registers.second + 2, 0⟩) := by
  unfold ppsEnable
  refine attempt_modify .selectGpio1 (·.ledCfg) gpio1Selected (by simp [PpsConfig.steps])
    (.refl start) (fun _ => rfl) (fun _ => rfl) ?_
  intro selected progress selectedConfig
  refine attempt_modify .outputGpio1 (·.gpioCfg) gpio1Output (by simp [PpsConfig.steps])
    progress (fun _ => rfl) (fun _ => rfl) ?_
  intro output progress outputConfig
  refine attempt_modify .pulseChannelA (·.generalConfig) channelAPulses
    (by simp [PpsConfig.steps]) progress (fun _ => rfl) (fun _ => rfl) ?_
  intro pulsing progress pulsingConfig
  have reloadSecond : PpsConfig.reloadSecond ∈ PpsConfig.steps := by simp [PpsConfig.steps]
  refine attempt_bind (attempt_configure reloadSecond progress fun _ _ => rfl) ?_
  intro _ second progress secondConfig
  have reloadNanosecond : PpsConfig.reloadNanosecond ∈ PpsConfig.steps := by
    simp [PpsConfig.steps]
  refine attempt_bind (attempt_configure reloadNanosecond progress fun _ _ => rfl) ?_
  intro _ reloaded progress reloadedConfig
  have config : reloaded.config = perform PpsConfig.steps start.config := by
    rw [reloadedConfig, secondConfig, pulsingConfig, outputConfig, selectedConfig]
    rfl
  refine attempt_bind (attempt_clockRead progress) ?_
  rintro ⟨time, _⟩ read progress ⟨readConfig, rfl, snapshot⟩
  refine (attempt_aim progress snapshot).weaken ?_
  rintro result finish ⟨progress, aimed⟩
  refine ⟨progress, fun value succeeded => ?_⟩
  obtain ⟨aimedConfig, held, target⟩ := aimed value succeeded
  exact ⟨aimedConfig.trans (readConfig.trans config), held, target⟩

end Calls

/-! ### An uninterrupted call -/

/-- While no transaction fails, the program returns no error. -/
def Succeeds {α : Type} (program : Driver α) : Prop :=
  ∀ unit, ppsDevice.Completes Faultless program.run unit fun result _ =>
    ∃ value, result = .ok value

namespace Succeeds

variable {α β : Type} {address : Address} {value : Word}

theorem pure (value : α) : Succeeds (pure value) := fun _ => ⟨value, rfl⟩

theorem bind {first : Driver α} {next : α → Driver β} (before : Succeeds first)
    (after : ∀ value, Succeeds (next value)) : Succeeds (first >>= next) := by
  intro unit
  apply Device.completes_run_bind.mpr
  apply (before unit).weaken
  rintro result middle ⟨value, rfl⟩
  exact after value middle

/-- A read succeeds if the register can be read. -/
theorem read (shown : ∀ unit : PpsUnit, (unit.read? address).isSome = true) :
    Succeeds (readSysReg address) := by
  intro unit
  refine Device.Completes.ask ⟨default, rfl⟩ ?_
  intro choice (succeeded : choice.outcome = .ok)
  obtain ⟨value, found⟩ := Option.isSome_iff_exists.mp (shown (unit.advance choice))
  refine ⟨.ok value, unit.advance choice, ?_, value, rfl⟩
  simp only [PpsUnit.answer, found, Option.map_some, PpsUnit.conclude, succeeded]

/-- A write succeeds if the register can be written. -/
theorem write (accepted : ∀ unit : PpsUnit, (unit.write? address value).isSome = true) :
    Succeeds (writeSysReg address value) := by
  intro unit
  refine Device.Completes.ask ⟨default, rfl⟩ ?_
  intro choice (succeeded : choice.outcome = .ok)
  obtain ⟨written, found⟩ := Option.isSome_iff_exists.mp (accepted (unit.advance choice))
  refine ⟨.ok (), written, ?_, (), rfl⟩
  simp only [PpsUnit.answer, found, Option.map_some, PpsUnit.conclude, succeeded]

/-- The clock can be read. -/
theorem ptpClockRead : Succeeds (ptpClockRead false) := by
  refine (write fun _ => rfl).bind fun _ => (read fun _ => rfl).bind fun sec => ?_
  refine (read fun _ => rfl).bind fun ns => ?_
  exact pure ((⟨sec, ns⟩ : PtpTime), none)

/-- The whole function succeeds. -/
theorem ppsEnable : Succeeds ppsEnable := by
  refine (read fun _ => rfl).bind fun led => (write fun _ => rfl).bind fun _ => ?_
  refine (read fun _ => rfl).bind fun gpio => (write fun _ => rfl).bind fun _ => ?_
  refine (read fun _ => rfl).bind fun general => (write fun _ => rfl).bind fun _ => ?_
  refine (write fun _ => rfl).bind fun _ => (write fun _ => rfl).bind fun _ => ?_
  refine ptpClockRead.bind fun value => ?_
  exact (write fun _ => rfl).bind fun _ => write fun _ => rfl

end Succeeds

/-! ### Runs of calls -/

/-- A run of calls does nothing but steps of a call to the configuration. -/
theorem progress_of_run {start finish : PpsUnit} {calls : List (Unit × List ClockChoice)}
    {events : List (Device.Finished ppsDevice Unit (Except Errno Unit))}
    (run : ppsCalls.Run ppsCalls.unguarded start calls events finish) : Progress start finish := by
  refine run.invariant (fun unit _ => Progress start unit) (.refl start) ?_
  rintro unit _ ⟨_, choices⟩ _ next progress _ ⟨result, returns, _⟩
  exact progress.trans (attempt_ppsEnable unit choices result next returns).1

/-- After calls in which any transactions have failed, a call which returns 0 leaves the
configuration one uninterrupted call would have left at first; no bit which belongs neither to
GPIO1 nor to channel A has ever changed; and the target is the whole second two after the time
the clock read of that last call has returned, which is still in the clock's registers. -/
theorem pps_enable_converges {start unit finish : PpsUnit}
    {calls : List (Unit × List ClockChoice)}
    {events : List (Device.Finished ppsDevice Unit (Except Errno Unit))}
    {choices : List ClockChoice}
    (earlier : ppsCalls.Run ppsCalls.unguarded start calls events unit)
    (last : ppsDevice.Returns ppsDevice.unguarded ppsEnable.run unit choices (.ok ()) finish) :
    ppsDevice.Completes Faultless ppsEnable.run start (fun result once =>
      result = .ok () ∧ finish.config = once.config) ∧
    (∀ config ∈ finish.config :: finish.history.drop start.history.length,
      SameElsewhere config start.config ∧
      config.generalConfig &&& (generalConfigTsuEnable ||| generalConfigClockEventBMask |||
          generalConfigReloadAddB) =
        start.config.generalConfig &&& (generalConfigTsuEnable ||| generalConfigClockEventBMask |||
          generalConfigReloadAddB)) ∧
    HeldDuring unit.clock finish.clock finish.clock.registers ∧
    finish.target = ⟨finish.clock.registers.second + 2, 0⟩ := by
  have before := progress_of_run earlier
  obtain ⟨during, done⟩ := attempt_ppsEnable unit choices _ finish last
  obtain ⟨config, held, target⟩ := done () rfl
  have progress := before.trans during
  refine ⟨?_, ?_, held, target⟩
  · have once : ppsDevice.Ensures Faultless ppsEnable.run start _ := attempt_ppsEnable start
    apply (once.completes (Succeeds.ppsEnable start)).and (Succeeds.ppsEnable start) |>.weaken
    rintro result finish' ⟨⟨_, done'⟩, value, rfl⟩
    refine ⟨rfl, ?_⟩
    rw [(done' value rfl).1, config, before.attempted.converges repeatable_steps]
  · obtain ⟨later, history, attempts⟩ := progress.history
    intro config member
    rw [history, List.drop_left] at member
    have attempted : Attempted PpsConfig.steps start.config config := by
      rcases List.mem_cons.mp member with rfl | written
      · exact progress.attempted
      · exact attempts config written
    have same := sameElsewhere_of_attempted attempted
    exact ⟨same, same.others⟩

/-- Every bit is set, and the clock is at its last second. -/
def allSet : PpsUnit where
  clock := ⟨⟨0xFFFFFFFF, 5⟩, 0, ⟨0, 0⟩, 0, []⟩
  config := ⟨0xFFFFFFFF, 0xFFFFFFFF, 0xFFFFFFFF, ⟨7, 7⟩⟩
  target := ⟨0, 0⟩
  history := []

/-- The write of `GPIO_CFG` has taken effect and failed; the next call returns 0. -/
theorem pps_rearmed :
    ∃ calls events unit choices finish,
      ppsCalls.Run ppsCalls.unguarded allSet calls events unit ∧
      events.map (·.result) = [.error .eio] ∧
      ppsDevice.Returns ppsDevice.unguarded ppsEnable.run unit choices (.ok ()) finish ∧
      finish.config = ⟨0xFFFFFFFD, 0xFDFFFFFF, 0xFFFFFFF2, ⟨1, 0⟩⟩ ∧
      finish.target = ⟨1, 0⟩ ∧
      ppsDevice.Completes Faultless ppsEnable.run allSet fun result once =>
        result = .ok () ∧ finish.config = once.config := by
  have ran : (ppsDevice.play (fun _ _ _ => true) ppsEnable.run allSet
      [default, default, default, ⟨[], .failed true .eio⟩]).map (fun played =>
        (played.2.1, (ppsDevice.play (fun _ _ _ => true) ppsEnable.run played.2.2 []).map
          fun again => (again.2.1, again.2.2.config, again.2.2.clock.registers))) =
      some (.error .eio, some (.ok (), ⟨0xFFFFFFFD, 0xFDFFFFFF, 0xFFFFFFF2, ⟨1, 0⟩⟩,
        ⟨0xFFFFFFFF, 5⟩)) := by
    decide +kernel
  obtain ⟨⟨choices, result, unit⟩, played, same⟩ := Option.map_eq_some_iff.mp ran
  obtain ⟨rfl, ran'⟩ := Prod.mk.inj same
  obtain ⟨⟨choices', result', finish⟩, played', same'⟩ := Option.map_eq_some_iff.mp ran'
  simp only [Prod.mk.injEq] at same'
  obtain ⟨rfl, config, registers⟩ := same'
  have admits {guard : ppsDevice.Guard} (state : PpsUnit) (request : Request)
      (choice : ClockChoice) (_ : guard state request choice) :
      ppsDevice.unguarded state request choice := trivial
  have earlier : ppsCalls.Run ppsCalls.unguarded allSet [((), choices)] _ unit :=
    .single trivial ⟨_, (Device.Returns.of_play played).weaken admits, rfl⟩
  have last := (Device.Returns.of_play played').weaken admits
  obtain ⟨once, _, _, target⟩ := pps_enable_converges earlier last
  refine ⟨_, _, unit, choices', finish, earlier, rfl, last, config, ?_, once⟩
  rw [target, registers]
  rfl

end Rp2350Stepper.Lan9250
