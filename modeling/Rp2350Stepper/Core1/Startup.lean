import Mathlib.Data.List.GetD
import Rp2350Stepper.Core1.Mailbox
import Rp2350Stepper.Semantics.Program

/-!
# core1 before its loop

`core1_main` sets up the pins, the timer and PIO 0 and enables the driver of the motor after 10 ms.
A block which is in reset takes no writes, and comes out of it in its own time. The hardware
keeps every state it has been in after an access.
-/

namespace Rp2350Stepper.Core1.Startup

open Rp2350Stepper.Semantics

/-! ### The registers -/

/-- `PIN_ENABLE`, active low. -/
def pinEnable : Nat := 13
/-- `PIN_DIR`. -/
def pinDir : Nat := 14
/-- `PIN_STEP`. -/
def pinStep : Nat := 15

/-- The pin is driven by the processor. -/
def sioFuncsel : Nat := 5
/-- The pin is driven by PIO 0. -/
def pio0Funcsel : Nat := 6

/-- A block of the chip which is reset by itself. -/
inductive Block where
  | timer0
  | pio0
deriving DecidableEq, Repr

/-- A write to the hardware. -/
inductive Write where
  /-- `REG_CLR` of the isolation bit of a pin's pad. -/
  | unisolate (pin : Nat)
  /-- `IO_BANK0_GPIO_CTRL`. -/
  | select (pin : Nat) (funcsel : Nat)
  | gpioOeSet (mask : Word)
  | gpioOutSet (mask : Word)
  | gpioOutClr (mask : Word)
  /-- `REG_CLR` on `RESETS_RESET`. -/
  | release (block : Block)
  | instrMem (index : Nat) (instruction : BitVec 16)
  | execctrl (value : Word)
  | pinctrl (value : Word)
  /-- `PIO0_SM0_INSTR`. -/
  | instr (instruction : BitVec 16)
  /-- `PIO0_CTRL`. -/
  | ctrl (value : Word)
deriving DecidableEq, Repr

/-- What the code asks of the hardware. -/
inductive Request where
  | write (write : Write)
  /-- Whether `RESETS_RESET_DONE` shows the block. -/
  | resetDone (block : Block)
  | timerawl
  | hang

/-- What it gets in return. -/
@[reducible] def Response : Request → Type
  | .resetDone _ => Bool
  | .timerawl => Word
  | .hang => Empty
  | .write _ => Unit

/-- The interface of the start-up. -/
abbrev interface : Interface := ⟨Request, Response⟩

/-- Code of the start-up. -/
abbrev Code (α : Type) := Program interface α

/-- Code which only asks. -/
def call (request : Request) : Code (Response request) := .ask request .done

/-- Code which only writes. -/
def write (write : Write) : Code Unit := call (.write write)

/-- The mask of a pin. -/
def bit (pin : Nat) : Word := 1#32 <<< pin

/-! ### The functions of core1 -/

/-- `gpio_pad_init`. -/
def gpioPadInit (pin funcsel : Nat) : Code Unit := do
  write (.unisolate pin)
  write (.select pin funcsel)

/-- `enable_dir_init`. -/
def enableDirInit : Code Unit := do
  gpioPadInit pinEnable sioFuncsel
  write (.gpioOeSet (bit pinEnable))
  write (.gpioOutSet (bit pinEnable))
  gpioPadInit pinDir sioFuncsel
  write (.gpioOeSet (bit pinDir))
  write (.gpioOutSet (bit pinDir))

/-- Wait until a block is out of reset; the loop has no bound of its own. -/
def waitReset (block : Block) : Nat → Code Unit
  | 0 => do
      let stuck ← call .hang
      nomatch stuck
  | polls + 1 => do
      let done ← call (.resetDone block)
      if !done then waitReset block polls

/-- `timer0_init`. -/
def timer0Init (polls : Nat) : Code Unit := do
  write (.release .timer0)
  waitReset .timer0 polls

/-- `now_us`. -/
def nowUs : Code Word := call .timerawl

/-- The loop of `delay_us`. -/
def delayLoop (start us : Word) : Nat → Code Unit
  | 0 => do
      let stuck ← call .hang
      nomatch stuck
  | polls + 1 => do
      let now ← nowUs
      if now - start < us then delayLoop start us polls

/-- `delay_us`. -/
def delayUs (us : Word) (polls : Nat) : Code Unit := do
  let start ← nowUs
  delayLoop start us polls

/-- What `pioasm` makes of `stepper.pio`. -/
structure StepperProgram where
  instructions : List (BitVec 16)
  wrap : Word
  wrapTarget : Word

/-- Load the instructions from an index on. -/
def loadInstructions : Nat → List (BitVec 16) → Code Unit
  | _, [] => return
  | index, instruction :: rest => do
      write (.instrMem index instruction)
      loadInstructions (index + 1) rest

/-- `pio_step_init`. -/
def pioStepInit (program : StepperProgram) (polls : Nat) : Code Unit := do
  write (.release .pio0)
  waitReset .pio0 polls
  gpioPadInit pinStep pio0Funcsel
  loadInstructions 0 program.instructions
  write (.execctrl (program.wrap <<< 12 ||| program.wrapTarget <<< 7))
  write (.pinctrl (1#32 <<< 26 ||| BitVec.ofNat 32 pinStep <<< 5))
  write (.instr 0xE09F)
  write (.pinctrl (1#32 <<< 29 ||| BitVec.ofNat 32 pinStep <<< 10))
  write (.ctrl 1)

/-- `core1_main` up to the write which enables the driver. -/
def prepare (program : StepperProgram) (polls : Nat) : Code Unit := do
  enableDirInit
  timer0Init polls
  pioStepInit program polls
  delayUs 10000 polls

/-- `core1_main` up to its loop. -/
def core1Start (program : StepperProgram) (polls : Nat) : Code Unit := do
  prepare program polls
  write (.gpioOutClr (bit pinEnable))

/-! ### The hardware -/

/-- State machine 0 of PIO 0, as far as it is configured. -/
structure StateMachine where
  instrMem : Nat → BitVec 16
  execctrl : Word
  pinctrl : Word
  /-- The pins PIO 0 drives. -/
  pindirs : Nat → Bool
  running : Bool

/-- What has been configured. -/
structure Config where
  isolated : Nat → Bool
  funcsel : Nat → Nat
  gpioOe : Word
  gpioOut : Word
  inReset : Block → Bool
  machine : StateMachine

/-- The configuration, the time, and what an observer has seen of them. -/
structure Hardware where
  config : Config
  /-- In microseconds. -/
  uptime : Nat
  /-- When the timer has come out of reset. -/
  timerStart : Nat
  history : List (Nat × Config)

/-- How much time passes before an access, and whether a block reports that it is out of reset. -/
structure HardwareChoice where
  elapsed : Nat
  done : Bool

instance : Inhabited HardwareChoice := ⟨⟨1, true⟩⟩

namespace StateMachine

/-- Execute an instruction; of those which could be, `SET PINDIRS` only. -/
def execute (machine : StateMachine) (instruction : BitVec 16) : StateMachine :=
  let base := ((machine.pinctrl >>> 5) &&& 0x1F).toNat
  let count := ((machine.pinctrl >>> 26) &&& 7).toNat
  if (instruction >>> 13 = 7) ∧ ((instruction >>> 5) &&& 7 = 4) then
    { machine with
      pindirs := fun pin =>
        if base ≤ pin ∧ pin < base + count then instruction.getLsbD (pin - base)
        else machine.pindirs pin }
  else machine

/-- A write to a register of PIO 0. -/
def write (machine : StateMachine) : Write → StateMachine
  | .instrMem index instruction =>
      { machine with instrMem := Function.update machine.instrMem index instruction }
  | .execctrl value => { machine with execctrl := value }
  | .pinctrl value => { machine with pinctrl := value }
  | .instr instruction => machine.execute instruction
  | .ctrl value => { machine with running := value.getLsbD 0 }
  | _ => machine

end StateMachine

namespace Config

/-- What a write changes. -/
def write (config : Config) : Write → Config
  | .unisolate pin => { config with isolated := Function.update config.isolated pin false }
  | .select pin funcsel => { config with funcsel := Function.update config.funcsel pin funcsel }
  | .gpioOeSet mask => { config with gpioOe := config.gpioOe ||| mask }
  | .gpioOutSet mask => { config with gpioOut := config.gpioOut ||| mask }
  | .gpioOutClr mask => { config with gpioOut := config.gpioOut &&& ~~~mask }
  | .release block => { config with inReset := Function.update config.inReset block false }
  | other =>
      if config.inReset .pio0 then config
      else { config with machine := config.machine.write other }

/-- core1 drives a pin. -/
def Drives (config : Config) (pin : Nat) : Prop :=
  config.isolated pin = false ∧ config.funcsel pin = sioFuncsel ∧ config.gpioOe.getLsbD pin = true

/-- The driver of the motor is enabled, by a low level. -/
def DriverEnabled (config : Config) : Prop :=
  config.Drives pinEnable ∧ config.gpioOut.getLsbD pinEnable = false

end Config

namespace Hardware

/-- Some microseconds pass. -/
def wait (hardware : Hardware) (us : Nat) : Hardware :=
  { hardware with uptime := hardware.uptime + us }

/-- An observer looks at the configuration. -/
def record (hardware : Hardware) : Hardware :=
  { hardware with history := hardware.history ++ [(hardware.uptime, hardware.config)] }

/-- A write takes effect, and an observer looks. -/
def write (hardware : Hardware) (write : Write) : Hardware :=
  { hardware with
    config := hardware.config.write write
    timerStart :=
      if write = .release .timer0 ∧ hardware.config.inReset .timer0 then hardware.uptime
      else hardware.timerStart }

/-- `TIMER0_TIMERAWL`. -/
def timerawl (hardware : Hardware) : Word :=
  if hardware.config.inReset .timer0 then 0
  else BitVec.ofInt 32 (hardware.uptime - hardware.timerStart)

/-- How requests are answered. -/
def answer (hardware : Hardware) (request : Request) (choice : HardwareChoice) :
    Option (Response request × Hardware) :=
  let current := hardware.wait choice.elapsed
  match request with
  | .write write => some ((), (current.write write).record)
  | .resetDone block => some (choice.done && !current.config.inReset block, current.record)
  | .timerawl => some (current.timerawl, current.record)
  | .hang => none

end Hardware

/-- The hardware behind its registers. -/
abbrev hardware : Device interface := ⟨Hardware, HardwareChoice, Hardware.answer⟩

/-! ### What is configured -/

namespace Config

/-- The configuration after some writes. -/
def writes (config : Config) (order : List Write) : Config := order.foldl write config

/-- Some writes, and then more. -/
theorem writes_append (config : Config) (order later : List Write) :
    config.writes (order ++ later) = (config.writes order).writes later :=
  List.foldl_append ..

end Config

/-- The program makes these writes, and any reads. -/
def Configures {α : Type} (program : Code α) (order : List Write) : Prop :=
  ∀ start, hardware.Ensures hardware.unguarded program start fun _ next =>
    next.config = start.config.writes order

section Configures

variable {α β : Type}

theorem Configures.bind {first : Code α} {next : α → Code β} {order later : List Write}
    (configures : Configures first order) (continues : ∀ value, Configures (next value) later) :
    Configures (first >>= next) (order ++ later) := by
  intro start
  refine Device.Ensures.bind ((configures start).weaken ?_)
  intro value middle same
  refine (continues value middle).weaken fun _ _ same' => ?_
  rw [same', same, Config.writes_append]

theorem configures_pure (value : α) : Configures (pure value) [] :=
  fun _ => Device.Ensures.pure rfl

/-- A write. -/
theorem configures_write (made : Write) : Configures (write made) [made] := by
  refine fun start => Device.Ensures.ask ?_
  intro choice response next _ answered
  obtain ⟨-, rfl⟩ := Prod.ext_iff.mp (Option.some.inj answered)
  rfl

/-- Reads configure nothing. -/
def Request.Reads : Request → Prop
  | .write _ => False
  | _ => True

/-- Code which only reads. -/
theorem configures_of_reads {program : Code α} (only : program.Only Request.Reads) :
    Configures program [] := by
  intro start
  refine Device.Ensures.of_only only rfl ?_
  intro before request choice response after reads same _ answered
  cases request with
  | write => exact reads.elim
  | resetDone | timerawl =>
      obtain ⟨-, rfl⟩ := Prod.ext_iff.mp (Option.some.inj answered)
      exact same
  | hang => cases answered

/-- Waiting for a block only reads. -/
theorem reads_waitReset (block : Block) (polls : Nat) :
    (waitReset block polls).Only Request.Reads := by
  induction polls with
  | zero => exact ⟨trivial, fun stuck => nomatch stuck⟩
  | succ polls inductionHypothesis =>
      refine .bind (Program.only_ask.mpr trivial) fun done => ?_
      exact Program.only_ite inductionHypothesis trivial

theorem reads_delayLoop (start us : Word) (polls : Nat) :
    (delayLoop start us polls).Only Request.Reads := by
  induction polls with
  | zero => exact ⟨trivial, fun stuck => nomatch stuck⟩
  | succ polls inductionHypothesis =>
      refine .bind (Program.only_ask.mpr trivial) fun now => ?_
      exact Program.only_ite inductionHypothesis trivial

/-- The writes which load the instructions. -/
def loadWrites : Nat → List (BitVec 16) → List Write
  | _, [] => []
  | index, instruction :: rest => .instrMem index instruction :: loadWrites (index + 1) rest

/-- The program is written one instruction after another. -/
theorem configures_load (index : Nat) (instructions : List (BitVec 16)) :
    Configures (loadInstructions index instructions) (loadWrites index instructions) := by
  induction instructions generalizing index with
  | nil => exact configures_pure ()
  | cons instruction rest inductionHypothesis =>
      exact (configures_write (.instrMem index instruction)).bind fun _ =>
        inductionHypothesis (index + 1)

/-- A pad is taken out of isolation, then its function chosen. -/
theorem configures_gpioPadInit (pin funcsel : Nat) :
    Configures (gpioPadInit pin funcsel) [.unisolate pin, .select pin funcsel] :=
  (configures_write _).bind fun _ => configures_write _

/-- The writes for `PIN_ENABLE` and `PIN_DIR`. -/
def enableDirWrites : List Write :=
  [.unisolate pinEnable, .select pinEnable sioFuncsel, .gpioOeSet (bit pinEnable),
    .gpioOutSet (bit pinEnable), .unisolate pinDir, .select pinDir sioFuncsel,
    .gpioOeSet (bit pinDir), .gpioOutSet (bit pinDir)]

/-- `enable_dir_init` makes them. -/
theorem configures_enableDirInit : Configures enableDirInit enableDirWrites := by
  refine (configures_gpioPadInit _ _).bind fun _ => (configures_write _).bind fun _ => ?_
  refine (configures_write _).bind fun _ => (configures_gpioPadInit _ _).bind fun _ => ?_
  exact (configures_write _).bind fun _ => configures_write _

/-- The timer is taken out of reset. -/
theorem configures_timer0Init (polls : Nat) : Configures (timer0Init polls) [.release .timer0] :=
  (configures_write _).bind fun _ => configures_of_reads (reads_waitReset .timer0 polls)

/-- The writes which set up state machine 0. -/
def machineWrites (program : StepperProgram) : List Write :=
  [.execctrl (program.wrap <<< 12 ||| program.wrapTarget <<< 7),
    .pinctrl (1#32 <<< 26 ||| BitVec.ofNat 32 pinStep <<< 5), .instr 0xE09F,
    .pinctrl (1#32 <<< 29 ||| BitVec.ofNat 32 pinStep <<< 10), .ctrl 1]

/-- The writes for the PIO. -/
def pioStepWrites (program : StepperProgram) : List Write :=
  [.release .pio0, .unisolate pinStep, .select pinStep pio0Funcsel] ++
    (loadWrites 0 program.instructions ++ machineWrites program)

/-- `pio_step_init` makes them. -/
theorem configures_pioStepInit (program : StepperProgram) (polls : Nat) :
    Configures (pioStepInit program polls) (pioStepWrites program) := by
  have machine : Configures (do
      write (.execctrl (program.wrap <<< 12 ||| program.wrapTarget <<< 7))
      write (.pinctrl (1#32 <<< 26 ||| BitVec.ofNat 32 pinStep <<< 5))
      write (.instr 0xE09F)
      write (.pinctrl (1#32 <<< 29 ||| BitVec.ofNat 32 pinStep <<< 10))
      write (.ctrl 1)) (machineWrites program) := by
    refine (configures_write _).bind fun _ => (configures_write _).bind fun _ => ?_
    exact (configures_write _).bind fun _ => (configures_write _).bind fun _ => configures_write _
  have whole := (configures_write (.release .pio0)).bind fun _ =>
    (configures_of_reads (reads_waitReset .pio0 polls)).bind fun _ =>
      (configures_gpioPadInit pinStep pio0Funcsel).bind fun _ =>
        (configures_load 0 program.instructions).bind fun _ => machine
  exact whole

/-- Every write of `core1_main` before its loop. -/
def startWrites (program : StepperProgram) : List Write :=
  enableDirWrites ++ .release .timer0 :: (pioStepWrites program ++ [.gpioOutClr (bit pinEnable)])

/-! ### What the configuration is -/

/-- The configuration core1 enters its loop with. -/
structure Ready (program : StepperProgram) (config : Config) : Prop where
  driver : config.DriverEnabled
  direction : config.Drives pinDir ∧ config.gpioOut.getLsbD pinDir = true
  step : config.isolated pinStep = false ∧ config.funcsel pinStep = pio0Funcsel ∧
    config.machine.pindirs pinStep = true
  loaded : ∀ index (within : index < program.instructions.length),
    config.machine.instrMem index = program.instructions[index]
  wrapping : config.machine.execctrl = program.wrap <<< 12 ||| program.wrapTarget <<< 7
  sideSet : config.machine.pinctrl = 1#32 <<< 29 ||| BitVec.ofNat 32 pinStep <<< 10
  running : config.machine.running = true

/-- The memory with instructions loaded from an index on. -/
def loadedFrom (memory : Nat → BitVec 16) : Nat → List (BitVec 16) → Nat → BitVec 16
  | _, [] => memory
  | index, instruction :: rest =>
      loadedFrom (Function.update memory index instruction) (index + 1) rest

/-- An instruction which has been loaded, or what was there before. -/
theorem loadedFrom_apply (memory : Nat → BitVec 16) (index : Nat) (instructions : List (BitVec 16))
    (at_ : Nat) : loadedFrom memory index instructions at_ =
      if at_ < index then memory at_ else instructions.getD (at_ - index) (memory at_) := by
  induction instructions generalizing memory index with
  | nil =>
      unfold loadedFrom
      split <;> rfl
  | cons instruction rest inductionHypothesis =>
      rw [loadedFrom, inductionHypothesis]
      rcases Nat.lt_trichotomy at_ index with earlier | rfl | later
      · rw [if_pos (by omega), if_pos earlier, Function.update_of_ne (by omega)]
      · rw [if_pos (by omega), if_neg (by omega), Function.update_self, Nat.sub_self]
        rfl
      · have next : at_ - index = at_ - (index + 1) + 1 := by omega
        rw [if_neg (by omega), if_neg (by omega), Function.update_of_ne (by omega), next]
        rfl

/-- Loading changes the instruction memory alone. -/
theorem writes_load {config : Config} (released : config.inReset .pio0 = false) (index : Nat)
    (instructions : List (BitVec 16)) : config.writes (loadWrites index instructions) =
      { config with
        machine.instrMem := loadedFrom config.machine.instrMem index instructions } := by
  induction instructions generalizing config index with
  | nil => rfl
  | cons instruction rest inductionHypothesis =>
      have first : config.write (.instrMem index instruction) =
          { config with
            machine.instrMem := Function.update config.machine.instrMem index instruction } := by
        simp [Config.write, released, StateMachine.write]
      change (config.write (.instrMem index instruction)).writes (loadWrites (index + 1) rest) = _
      rw [first, inductionHypothesis (by exact released)]
      rfl

/-- With one pin of `PINCTRL`'s set group, `0xE09F` makes it an output. -/
private theorem pindirs_set {machine : StateMachine}
    (aimed : machine.pinctrl = 1#32 <<< 26 ||| BitVec.ofNat 32 pinStep <<< 5) :
    (machine.execute 0xE09F).pindirs pinStep = true := by
  have base : ((machine.pinctrl >>> 5) &&& 0x1F).toNat = pinStep := by rw [aimed]; decide
  have count : ((machine.pinctrl >>> 26) &&& 7).toNat = 1 := by rw [aimed]; decide
  have sets : ((0xE09F : BitVec 16) >>> 13 = 7) ∧ (((0xE09F : BitVec 16) >>> 5) &&& 7 = 4) := by
    decide
  have within : pinStep ≤ pinStep ∧ pinStep < pinStep + 1 := by decide
  unfold StateMachine.execute
  simp only [base, count]
  rw [if_pos sets]
  change (if pinStep ≤ pinStep ∧ pinStep < pinStep + 1 then
    (0xE09F : BitVec 16).getLsbD (pinStep - pinStep) else machine.pindirs pinStep) = true
  rw [if_pos within]
  rfl

/-- A pin is its own bit. -/
private theorem set_bit (pin : Nat) (within : pin < 32) :
    (bit pin).getLsbD pin = true := by
  unfold bit
  simp [within]

/-- After these writes the state machine is ready. -/
theorem ready_of_writes (program : StepperProgram) (config : Config) :
    Ready program (config.writes (startWrites program)) := by
  have split : startWrites program = (enableDirWrites ++ [.release .timer0, .release .pio0,
      .unisolate pinStep, .select pinStep pio0Funcsel]) ++ (loadWrites 0 program.instructions ++
        (machineWrites program ++ [.gpioOutClr (bit pinEnable)])) := by
    simp [startWrites, pioStepWrites]
  have released : (config.writes (enableDirWrites ++ [.release .timer0, .release .pio0,
      .unisolate pinStep, .select pinStep pio0Funcsel])).inReset .pio0 = false := rfl
  rw [split, Config.writes_append, Config.writes_append, writes_load released]
  refine ⟨⟨⟨rfl, rfl, ?_⟩, ?_⟩, ⟨⟨rfl, rfl, ?_⟩, ?_⟩, ⟨rfl, rfl, ?_⟩, ?_, ?_, ?_, ?_⟩
  · change ((config.gpioOe ||| bit pinEnable) ||| bit pinDir).getLsbD pinEnable = true
    rw [BitVec.getLsbD_or, BitVec.getLsbD_or, set_bit pinEnable (by decide), Bool.or_true,
      Bool.true_or]
  · change (((config.gpioOut ||| bit pinEnable) ||| bit pinDir) &&&
      ~~~bit pinEnable).getLsbD pinEnable = false
    rw [BitVec.getLsbD_and, BitVec.getLsbD_not, set_bit pinEnable (by decide), Bool.not_true,
      Bool.and_false, Bool.and_false]
  · change ((config.gpioOe ||| bit pinEnable) ||| bit pinDir).getLsbD pinDir = true
    rw [BitVec.getLsbD_or, set_bit pinDir (by decide), Bool.or_true]
  · change (((config.gpioOut ||| bit pinEnable) ||| bit pinDir) &&&
      ~~~bit pinEnable).getLsbD pinDir = true
    have other : ((~~~bit pinEnable : Word)).getLsbD pinDir = true := by decide
    rw [BitVec.getLsbD_and, BitVec.getLsbD_or, set_bit pinDir (by decide), other, Bool.or_true,
      Bool.and_true]
  · exact pindirs_set rfl
  · intro index within
    change loadedFrom _ 0 program.instructions index = _
    rw [loadedFrom_apply, if_neg (Nat.not_lt_zero index), Nat.sub_zero]
    exact List.getD_eq_getElem _ _ within
  · rfl
  · rfl
  · rfl

/-- With the last write core1 has configured everything. -/
theorem configures_prepare (program : StepperProgram) (polls : Nat) :
    Configures (prepare program polls)
      (enableDirWrites ++ .release .timer0 :: pioStepWrites program) := by
  have delays : Configures (delayUs 10000 polls) [] :=
    configures_of_reads (.bind (Program.only_ask.mpr trivial) fun start =>
      reads_delayLoop start 10000 polls)
  have whole := configures_enableDirInit.bind fun _ => (configures_timer0Init polls).bind fun _ =>
    (configures_pioStepInit program polls).bind fun _ => delays
  unfold prepare
  simpa only [List.append_nil, List.singleton_append] using whole

end Configures

/-! ### How long core1 waits -/

/-- The difference of two readings of the timer is at most the time between them. -/
theorem elapsed_of_difference {start first second : Int} {us : Word} (later : first ≤ second)
    (waited : ¬BitVec.ofInt 32 (second - start) - BitVec.ofInt 32 (first - start) < us) :
    first + us.toNat ≤ second := by
  have difference : BitVec.ofInt 32 (second - start) - BitVec.ofInt 32 (first - start) =
      BitVec.ofInt 32 (second - first) := by
    have parts : second - start = (second - first) + (first - start) := by omega
    rw [parts, BitVec.ofInt_add, BitVec.add_sub_cancel]
  have period : ((2 ^ 32 : Nat) : Int) = 4294967296 := rfl
  rw [difference, BitVec.lt_def, BitVec.toNat_ofInt, period] at waited
  omega

/-- The timer runs. -/
def Hardware.Timed (start next : Hardware) : Prop :=
  next.config = start.config ∧ next.timerStart = start.timerStart ∧ start.uptime ≤ next.uptime ∧
    next.history = start.history ++ [(next.uptime, next.config)]

/-- The timer shows the time since its start. -/
theorem ensures_nowUs {start : Hardware} (released : start.config.inReset .timer0 = false) :
    hardware.Ensures hardware.unguarded nowUs start fun now next =>
      now = BitVec.ofInt 32 (next.uptime - start.timerStart) ∧ start.Timed next := by
  refine Device.Ensures.ask ?_
  intro choice now next _ answered
  obtain ⟨rfl, rfl⟩ := Prod.ext_iff.mp (Option.some.inj answered)
  exact ⟨if_neg (by simp [Hardware.wait, released]), rfl, rfl, Nat.le_add_right .., rfl⟩

/-- `delay_us` lasts as long as it should after its first reading, whenever the timer wraps. -/
theorem ensures_delayUs {start : Hardware} (released : start.config.inReset .timer0 = false)
    (us : Word) (polls : Nat) :
    hardware.Ensures hardware.unguarded (delayUs us polls) start fun _ next =>
      ∃ began waiting, next.history = start.history ++ (began, start.config) :: waiting ∧
        began + us.toNat ≤ next.uptime := by
  refine Device.Ensures.bind ((ensures_nowUs released).weaken ?_)
  rintro _ begun ⟨rfl, config, timerStart, later, recorded⟩
  have loop : ∀ (polls : Nat) (current : Hardware), current.config = begun.config →
      current.timerStart = begun.timerStart → begun.uptime ≤ current.uptime →
      (∃ waiting, current.history = begun.history ++ waiting) →
      hardware.Ensures hardware.unguarded
        (delayLoop (BitVec.ofInt 32 (begun.uptime - start.timerStart)) us polls) current
        fun _ next => (∃ waiting, next.history = begun.history ++ waiting) ∧
          begun.uptime + us.toNat ≤ next.uptime := by
    intro polls
    induction polls with
    | zero =>
        intro current _ _ _ _
        refine Device.Ensures.bind (Device.Ensures.ask fun _ stuck => ?_)
        exact nomatch stuck
    | succ polls inductionHypothesis =>
        rintro current same started after ⟨waiting, kept⟩
        have running : current.config.inReset .timer0 = false := by rw [same, config, released]
        refine Device.Ensures.bind ((ensures_nowUs running).weaken ?_)
        rintro _ next ⟨rfl, nextSame, nextStarted, nextAfter, nextRecorded⟩
        have nextKept : ∃ waiting, next.history = begun.history ++ waiting :=
          ⟨_, by rw [nextRecorded, kept, List.append_assoc]⟩
        split
        · exact inductionHypothesis next (nextSame.trans same) (nextStarted.trans started)
            (after.trans nextAfter) nextKept
        · rename_i waited
          rw [started, timerStart] at waited
          have enough := elapsed_of_difference (by omega) waited
          exact Device.Ensures.pure ⟨nextKept, by omega⟩
  refine (loop polls begun rfl rfl le_rfl ⟨[], (List.append_nil _).symm⟩).weaken ?_
  rintro _ next ⟨⟨waiting, kept⟩, enough⟩
  refine ⟨begun.uptime, waiting, ?_, enough⟩
  rw [kept, recorded, config, List.append_assoc, List.singleton_append]

/-! ### When the driver is enabled -/

/-- ENABLE is high in the register of the outputs. -/
def EnableHigh (config : Config) : Prop := config.gpioOut.getLsbD pinEnable = true

/-- A request which does not lower ENABLE. -/
def Request.KeepsHigh : Request → Prop
  | .write (.gpioOutClr mask) => mask.getLsbD pinEnable = false
  | _ => True

/-- A write may keep `PIN_ENABLE` high. -/
theorem enableHigh_write {config : Config} {made : Write} (high : EnableHigh config)
    (keeps : (Request.write made).KeepsHigh) : EnableHigh (config.write made) := by
  unfold EnableHigh at high ⊢
  cases made with
  | gpioOutSet mask =>
      change (config.gpioOut ||| mask).getLsbD pinEnable = true
      rw [BitVec.getLsbD_or, high, Bool.true_or]
  | gpioOutClr mask =>
      have clear : mask.getLsbD pinEnable = false := keeps
      have within : pinEnable < 32 := by decide
      change (config.gpioOut &&& ~~~mask).getLsbD pinEnable = true
      rw [BitVec.getLsbD_and, BitVec.getLsbD_not, high, clear, decide_eq_true within]
      rfl
  | unisolate | select | gpioOeSet | release => exact high
  | instrMem | execctrl | pinctrl | instr | ctrl =>
      simp only [Config.write]
      split <;> exact high

/-- Since ENABLE was first set it has been high. -/
structure HighSince (start next : Hardware) : Prop where
  high : EnableHigh next.config
  history : ∃ early later, next.history = start.history ++ early ++ later ∧ early.length = 3 ∧
    ∀ entry ∈ later, EnableHigh entry.2

/-- It has been high, and is so now. -/
theorem HighSince.record {start current next : Hardware} (since : HighSince start current)
    (high : EnableHigh next.config)
    (recorded : next.history = current.history ++ [(next.uptime, next.config)]) :
    HighSince start next := by
  obtain ⟨early, later, history, count, held⟩ := since.history
  refine ⟨high, early, later ++ [(next.uptime, next.config)], ?_, count, fun entry member => ?_⟩
  · rw [recorded, history, List.append_assoc _ later]
  · rcases List.mem_append.mp member with old | new
    · exact held entry old
    · rw [List.mem_singleton.mp new]
      exact high

/-- Code which keeps it high. -/
theorem ensures_highSince {α : Type} {program : Code α} {start current : Hardware}
    (keeps : program.Only Request.KeepsHigh) (since : HighSince start current) :
    hardware.Ensures hardware.unguarded program current fun _ next => HighSince start next := by
  refine Device.Ensures.of_only keeps since ?_
  intro before request choice response after keeps since _ answered
  cases request with
  | write made =>
      obtain ⟨-, rfl⟩ := Prod.ext_iff.mp (Option.some.inj answered)
      exact since.record (enableHigh_write since.high keeps) rfl
  | resetDone | timerawl =>
      obtain ⟨-, rfl⟩ := Prod.ext_iff.mp (Option.some.inj answered)
      exact since.record since.high rfl
  | hang => cases answered

/-- `enable_dir_init` sets it high first. -/
theorem ensures_enableDirInit (start : Hardware) :
    hardware.Ensures hardware.unguarded enableDirInit start fun _ next => HighSince start next := by
  have recorded : ∀ (made : Write) (current : Hardware),
      hardware.Ensures hardware.unguarded (write made) current fun _ next =>
        next.config = current.config.write made ∧
          next.history = current.history ++ [(next.uptime, next.config)] := by
    refine fun made current => Device.Ensures.ask ?_
    intro choice response next _ answered
    obtain ⟨-, rfl⟩ := Prod.ext_iff.mp (Option.some.inj answered)
    exact ⟨rfl, rfl⟩
  refine Device.Ensures.bind (Device.Ensures.bind ((recorded _ start).weaken ?_))
  rintro _ first ⟨-, firstKept⟩
  refine (recorded _ first).weaken ?_
  rintro _ second ⟨-, secondKept⟩
  refine Device.Ensures.bind ((recorded _ second).weaken ?_)
  rintro _ third ⟨-, thirdKept⟩
  refine Device.Ensures.bind ((recorded _ third).weaken ?_)
  rintro _ fourth ⟨set, fourthKept⟩
  have high : EnableHigh fourth.config := by
    rw [set]
    change (third.config.gpioOut ||| bit pinEnable).getLsbD pinEnable = true
    rw [BitVec.getLsbD_or, set_bit pinEnable (by decide), Bool.or_true]
  have since : HighSince start fourth := by
    refine ⟨high, [(first.uptime, first.config), (second.uptime, second.config),
      (third.uptime, third.config)], [(fourth.uptime, fourth.config)], ?_, rfl, ?_⟩
    · rw [fourthKept, thirdKept, secondKept, firstKept]
      simp only [List.append_assoc, List.cons_append, List.nil_append]
    · intro entry member
      rw [List.mem_singleton.mp member]
      exact high
  refine ensures_highSince ?_ since
  refine .bind (.bind (Program.only_ask.mpr trivial) fun _ => Program.only_ask.mpr trivial) ?_
  exact fun _ => .bind (Program.only_ask.mpr trivial) fun _ => Program.only_ask.mpr trivial

/-- What is out of reset stays out. -/
theorem released_writes {config : Config} {block : Block} (released : config.inReset block = false)
    (order : List Write) : (config.writes order).inReset block = false := by
  induction order generalizing config with
  | nil => exact released
  | cons made rest inductionHypothesis =>
      suffices kept : (config.write made).inReset block = false from inductionHypothesis kept
      cases made with
      | release other =>
          change Function.update config.inReset other false block = false
          by_cases same : block = other
          · rw [same, Function.update_self]
          · rw [Function.update_of_ne same, released]
      | unisolate | select | gpioOeSet | gpioOutSet | gpioOutClr => exact released
      | instrMem | execctrl | pinctrl | instr | ctrl =>
          simp only [Config.write]
          split <;> exact released

/-- A read keeps the pin high. -/
theorem keeps_of_reads {request : Request} (reads : request.Reads) : request.KeepsHigh := by
  cases request with
  | write => exact reads.elim
  | resetDone | timerawl | hang => trivial

theorem keeps_load (index : Nat) (instructions : List (BitVec 16)) :
    (loadInstructions index instructions).Only Request.KeepsHigh := by
  induction instructions generalizing index with
  | nil => trivial
  | cons instruction rest inductionHypothesis =>
      exact .bind (Program.only_ask.mpr trivial) fun _ => inductionHypothesis (index + 1)

theorem keeps_pioStepInit (program : StepperProgram) (polls : Nat) :
    (pioStepInit program polls).Only Request.KeepsHigh := by
  have made : ∀ {other : Write}, (Request.write other).KeepsHigh →
      (write other).Only Request.KeepsHigh := fun keeps => Program.only_ask.mpr keeps
  refine .bind (made trivial) fun _ => .bind ?_ fun _ => ?_
  · exact (reads_waitReset .pio0 polls).weaken fun _ => keeps_of_reads
  refine .bind (.bind (made trivial) fun _ => made trivial) fun _ => ?_
  refine .bind (keeps_load 0 program.instructions) fun _ => ?_
  refine .bind (made trivial) fun _ => .bind (made trivial) fun _ => ?_
  exact .bind (made trivial) fun _ => .bind (made trivial) fun _ => made trivial

/-- For 10 ms before the driver is enabled nothing is configured, and ENABLE is high. -/
theorem ensures_prepare (program : StepperProgram) (polls : Nat) (start : Hardware) :
    hardware.Ensures hardware.unguarded (prepare program polls) start fun _ next =>
      ∃ early setup began waiting,
        next.history = start.history ++ early ++ setup ++ (began, next.config) :: waiting ∧
        early.length = 3 ∧
        (∀ entry ∈ setup ++ (began, next.config) :: waiting, EnableHigh entry.2) ∧
        began + 10000 ≤ next.uptime := by
  unfold prepare
  refine Device.Ensures.bind ((ensures_enableDirInit start).weaken ?_)
  rintro - first since
  have keeps : (timer0Init polls).Only Request.KeepsHigh :=
    .bind (Program.only_ask.mpr trivial) fun _ =>
      (reads_waitReset .timer0 polls).weaken fun _ => keeps_of_reads
  have timer : hardware.Ensures hardware.unguarded (timer0Init polls) first fun _ next =>
      HighSince start next ∧ next.config = first.config.writes [.release .timer0] :=
    fun choices value finish returns =>
      ⟨ensures_highSince keeps since choices value finish returns,
        configures_timer0Init polls first choices value finish returns⟩
  refine Device.Ensures.bind (timer.weaken ?_)
  rintro - second ⟨since, configured⟩
  have released : second.config.inReset .timer0 = false := by
    rw [configured]
    change Function.update first.config.inReset .timer0 false .timer0 = false
    exact Function.update_self ..
  have machine : hardware.Ensures hardware.unguarded (pioStepInit program polls) second
      fun _ next => HighSince start next ∧
        next.config = second.config.writes (pioStepWrites program) :=
    fun choices value finish returns =>
      ⟨ensures_highSince (keeps_pioStepInit program polls) since choices value finish returns,
        configures_pioStepInit program polls second choices value finish returns⟩
  refine Device.Ensures.bind (machine.weaken ?_)
  rintro - third ⟨since, configured⟩
  have released : third.config.inReset .timer0 = false := by
    rw [configured]
    exact released_writes released _
  have reads : (delayUs 10000 polls).Only Request.Reads :=
    .bind (Program.only_ask.mpr trivial) fun began => reads_delayLoop began 10000 polls
  intro choices value finish returns
  obtain ⟨early, setup, history, count, held⟩ := since.history
  obtain ⟨began, waiting, waited, enough⟩ :=
    ensures_delayUs released 10000 polls choices value finish returns
  have same : finish.config = third.config :=
    configures_of_reads reads third choices value finish returns
  obtain ⟨-, early', later, history', count', held'⟩ :=
    ensures_highSince (reads.weaken fun _ => keeps_of_reads) since choices value finish returns
  have whole : finish.history =
      start.history ++ early ++ setup ++ (began, finish.config) :: waiting := by
    rw [waited, history, same]
  refine ⟨early, setup, began, waiting, whole, count, ?_, enough⟩
  rw [history'] at whole
  simp only [List.append_assoc] at whole
  have tails := List.append_cancel_left whole
  obtain ⟨-, rfl⟩ := List.append_inj tails (count'.trans count.symm)
  exact held'

/-- `stepper.pio`. -/
def StepperProgram.stepper : StepperProgram where
  instructions := [0x80A0, 0xA047, 0xB022, 0x1043, 0xA022, 0x0045]
  wrap := 5
  wrapTarget := 0

/-- The chip after its reset. -/
def Hardware.afterReset : Hardware where
  config := {
    isolated := fun _ => true
    funcsel := fun _ => 31
    gpioOe := 0
    gpioOut := 0
    inReset := fun _ => true
    machine := ⟨fun _ => 0, 0x1F000, 0x14000000, fun _ => false, false⟩ }
  uptime := 0
  timerStart := 0
  history := []

end Rp2350Stepper.Core1.Startup
