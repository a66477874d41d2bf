import Rp2350Stepper.Lan9250.Quiet
import Rp2350Stepper.Semantics.Concurrent

/-!
# Reading and setting the 1588 clock from several threads

`CLOCK_READ` copies the running clock into `CLOCK_SEC`, `CLOCK_NS` and `CLOCK_SUBNS`, and
`CLOCK_LOAD` copies these registers into the clock. A read and a set are three or four
transactions on the same registers, and no lock covers them: a call is exact in every run
in which no other call writes to these registers between its own first write and its
return.
-/

namespace Rp2350Stepper.Lan9250

open Rp2350Stepper.Data Rp2350Stepper.Semantics

/-! ### The functions of the driver -/

/-- `lan9250_ptp_clock_read`; whether `subns` is asked for. -/
def ptpClockRead (subns : Bool) : Driver (PtpTime × Option Word) := do
  writeSysReg cmdCtl cmdCtlClockRead
  let sec ← readSysReg clockSec
  let ns ← readSysReg clockNs
  if subns then
    let subns ← readSysReg clockSubns
    return (⟨sec, ns⟩, some subns)
  return (⟨sec, ns⟩, none)

/-- `lan9250_ptp_clock_set`. -/
def ptpClockSet (time : PtpTime) : Driver Unit := do
  writeSysReg clockSec time.second
  writeSysReg clockNs time.nanosecond
  writeSysReg cmdCtl cmdCtlClockLoad

/-- The calls whose interleavings matter. -/
inductive ClockCall where
  | read (subns : Bool)
  | set (time : PtpTime)
deriving DecidableEq

/-- What an access returns. -/
@[reducible] def ClockCall.Result : ClockCall → Type
  | .read _ => Except Errno (PtpTime × Option Word)
  | .set _ => Except Errno Unit

/-- What a thread which uses the clock calls. -/
abbrev clockCalls : Interface := ⟨ClockCall, ClockCall.Result⟩

/-- Code over the clock calls which returns early with a negative value on an error. -/
abbrev ClockClient (α : Type) := ExceptT Errno (Program clockCalls) α

/-- `lan9250_ptp_clock_read`, as code calls it. -/
def ClockClient.read (subns : Bool) : ClockClient (PtpTime × Option Word) :=
  ExceptT.mk (.ask (.read subns) .done)

/-- `lan9250_ptp_clock_set`, as code calls it. -/
def ClockClient.set (time : PtpTime) : ClockClient Unit := ExceptT.mk (.ask (.set time) .done)

/-- `lan9250_ptp_clock_adjust`. Its division rounds towards 0. -/
def ptpClockAdjust (incrementNs : BitVec 32) : ClockClient Unit := do
  let (time, _) ← ClockClient.read false
  let totalNs : Int := time.nanosecond.toNat + incrementNs.toInt
  let sec := time.second + BitVec.ofInt 32 (totalNs.tdiv 1000000000)
  let restNs := totalNs.tmod 1000000000
  if restNs < 0 then
    ClockClient.set ⟨sec - 1, BitVec.ofInt 32 (restNs + 1000000000)⟩
  else
    ClockClient.set ⟨sec, BitVec.ofInt 32 restNs⟩

/-! ### The clock -/

/-- What is recorded of the clock. -/
inductive ClockEvent where
  /-- The clock has come to a time, by ticking or by a load. -/
  | held (time : PtpTime)
  | loaded (time : PtpTime)
deriving DecidableEq, Repr

/-- The 1588 clock with its registers. -/
structure ClockUnit where
  live : PtpTime
  liveSubns : Word
  registers : PtpTime
  subns : Word
  history : List ClockEvent

/-- How the clock ticks before a transaction, and how the transaction ends. -/
structure ClockChoice where
  ticks : List (PtpTime × Word)
  outcome : Outcome

instance : Inhabited ClockChoice := ⟨⟨[], .ok⟩⟩

namespace ClockUnit

/-- The clock goes on to a value. -/
def tick (clock : ClockUnit) (value : PtpTime × Word) : ClockUnit :=
  { clock with
    live := value.1
    liveSubns := value.2
    history := clock.history ++ [.held value.1] }

/-- What happens before a request. -/
def advance (clock : ClockUnit) (choice : ClockChoice) : ClockUnit :=
  choice.ticks.foldl tick clock

/-- A register of the clock, if it is one of the three. -/
def read? (clock : ClockUnit) (address : Address) : Option Word :=
  if address = clockSec then some clock.registers.second
  else if address = clockNs then some clock.registers.nanosecond
  else if address = clockSubns then some clock.subns
  else none

/-- The registers take the clock's time. -/
def snapshot (clock : ClockUnit) : ClockUnit :=
  { clock with registers := clock.live, subns := clock.liveSubns }

/-- The clock takes the registers' time. -/
def load (clock : ClockUnit) : ClockUnit :=
  { clock with
    live := clock.registers
    liveSubns := clock.subns
    history := clock.history ++ [.loaded clock.registers, .held clock.registers] }

/-- Write a register of the clock, or have a command executed. -/
def write? (clock : ClockUnit) (address : Address) (value : Word) : Option ClockUnit :=
  if address = clockSec then
    some { clock with registers := { clock.registers with second := value } }
  else if address = clockNs then
    some { clock with registers := { clock.registers with nanosecond := value } }
  else if address = cmdCtl ∧ value = cmdCtlClockRead then some clock.snapshot
  else if address = cmdCtl ∧ value = cmdCtlClockLoad then some clock.load
  else none

/-- End a transaction with its result and its effect. -/
def conclude {α : Type} (before : ClockUnit) (outcome : Outcome) (value : α) (after : ClockUnit) :
    Except Errno α × ClockUnit :=
  match outcome with
  | .ok => (.ok value, after)
  | .failed true error => (.error error, after)
  | .failed false error => (.error error, before)

/-- How the clock answers; other registers are not its concern. -/
def answer (clock : ClockUnit) : (request : Request) → ClockChoice →
    Option (Response request × ClockUnit)
  | .readSysReg address, choice =>
      ((clock.advance choice).read? address).map fun value =>
        (clock.advance choice).conclude choice.outcome value (clock.advance choice)
  | .writeSysReg address value, choice =>
      ((clock.advance choice).write? address value).map fun after =>
        (clock.advance choice).conclude choice.outcome () after
  | _, _ => none

end ClockUnit

/-- The clock behind its registers. -/
abbrev clockDevice : Device driverInterface := ⟨ClockUnit, ClockChoice, ClockUnit.answer⟩

/-- A call is open from its first write to its return. -/
def clockImplementation : Implementation clockCalls clockDevice where
  body
    | .read subns => (ptpClockRead subns).run
    | .set time => (ptpClockSet time).run
  opens
    | .writeSysReg _ _ => true
    | _ => false
  ready _ := True

/-! ### What a call should do -/

/-- The clock has shown a time at some instant between two states. -/
def HeldDuring (before after : ClockUnit) (time : PtpTime) : Prop :=
  before.live = time ∨ .held time ∈ after.history.drop before.history.length

/-- The times loaded among these events. -/
def loads (events : List ClockEvent) : List PtpTime :=
  events.filterMap fun event => match event with
    | .loaded time => some time
    | .held _ => none

/-- The times loaded between two states. -/
def loadedDuring (before after : ClockUnit) : List PtpTime :=
  loads (after.history.drop before.history.length)

/-- A read returns a time the clock has held during the call; from its first write on, a set has
loaded its time once, and nothing else has been loaded. -/
def ClockExact : (call : ClockCall) → (before : ClockUnit) → (opened : Option ClockUnit) →
    ClockCall.Result call → (after : ClockUnit) → Prop
  | .read _, before, _, result, after => ∀ value, result = .ok value → HeldDuring before after value.1
  | .set time, _, opened, result, after =>
      result = .ok () → ∃ state ∈ opened, loadedDuring state after = [time]

/-! ### What the transactions do -/

/-- Whatever is done to the clock, it holds the time it shows. -/
def Moved (clock next : ClockUnit) : Prop :=
  ∃ later, next.history = clock.history ++ later ∧
    (next.live = clock.live ∨ .held next.live ∈ later)

/-- The clock may tick. -/
structure Ticked (clock next : ClockUnit) : Prop where
  moved : ∃ later, next.history = clock.history ++ later ∧
    (next.live = clock.live ∨ .held next.live ∈ later) ∧ loads later = []
  registers : next.registers = clock.registers
  subns : next.subns = clock.subns

/-- Just these times have been loaded since. -/
def LoadedSince (since : ClockUnit) (times : List PtpTime) (clock : ClockUnit) : Prop :=
  ∃ later, clock.history = since.history ++ later ∧ loads later = times

namespace Moved

theorem refl (clock : ClockUnit) : Moved clock clock := ⟨[], by simp, .inl rfl⟩

theorem trans {first second third : ClockUnit} (before : Moved first second)
    (after : Moved second third) : Moved first third := by
  obtain ⟨later, history, held⟩ := before
  obtain ⟨later', history', held'⟩ := after
  refine ⟨later ++ later', by rw [history', history, List.append_assoc], ?_⟩
  rcases held' with same | ticked
  · rw [same]
    exact held.imp_right (List.mem_append_left _)
  · exact .inr (List.mem_append_right _ ticked)

/-- A time held earlier in a call is held during the call. -/
theorem heldDuring {before clock next : ClockUnit} {time : PtpTime} (earlier : Moved before clock)
    (moved : Moved clock next) (held : HeldDuring before clock time) :
    HeldDuring before next time := by
  obtain ⟨later, history, _⟩ := earlier
  obtain ⟨later', history', _⟩ := moved
  refine held.imp_right fun member => ?_
  rw [history, List.drop_left] at member
  rw [history', history, List.append_assoc, List.drop_left]
  exact List.mem_append_left _ member

/-- The time the clock shows is held. -/
theorem live {before clock : ClockUnit} (moved : Moved before clock) :
    HeldDuring before clock clock.live := by
  obtain ⟨later, history, held⟩ := moved
  rw [HeldDuring, history, List.drop_left]
  exact held.imp_left Eq.symm

end Moved

namespace Ticked

theorem refl (clock : ClockUnit) : Ticked clock clock := ⟨⟨[], by simp, .inl rfl, rfl⟩, rfl, rfl⟩

/-- Ticks are moves. -/
theorem toMoved {clock next : ClockUnit} (ticked : Ticked clock next) : Moved clock next := by
  obtain ⟨later, history, held, _⟩ := ticked.moved
  exact ⟨later, history, held⟩

/-- Some ticks, and then more. -/
theorem trans {first second third : ClockUnit} (before : Ticked first second)
    (after : Ticked second third) : Ticked first third := by
  obtain ⟨⟨later, history, held, unloaded⟩, registers, subns⟩ := before
  obtain ⟨⟨later', history', held', unloaded'⟩, registers', subns'⟩ := after
  refine ⟨⟨later ++ later', by rw [history', history, List.append_assoc], ?_, ?_⟩,
    registers'.trans registers, subns'.trans subns⟩
  · rcases held' with same | ticked
    · rw [same]
      exact held.imp_right (List.mem_append_left _)
    · exact .inr (List.mem_append_right _ ticked)
  · rw [loads, List.filterMap_append]
    exact List.append_eq_nil_iff.mpr ⟨unloaded, unloaded'⟩

theorem tick (clock : ClockUnit) (value : PtpTime × Word) : Ticked clock (clock.tick value) :=
  ⟨⟨[.held value.1], rfl, .inr (by simp [ClockUnit.tick]), rfl⟩, rfl, rfl⟩

/-- What happens before a request is ticks. -/
theorem advance (clock : ClockUnit) (choice : ClockChoice) : Ticked clock (clock.advance choice) :=
  foldl_relates Ticked refl trans tick choice.ticks clock

/-- What has been loaded since is still all that has been. -/
theorem loaded {since clock next : ClockUnit} {times : List PtpTime} (ticked : Ticked clock next)
    (loaded : LoadedSince since times clock) : LoadedSince since times next := by
  obtain ⟨later, history, _, unloaded⟩ := ticked.moved
  obtain ⟨later', history', rfl⟩ := loaded
  refine ⟨later' ++ later, by rw [history, history', List.append_assoc], ?_⟩
  rw [loads, List.filterMap_append]
  exact (congrArg (loads later' ++ ·) unloaded).trans (List.append_nil _)

end Ticked

/-- A read of a register lets the clock tick. -/
theorem read_ticks {clock next : ClockUnit} {address : Address} {choice : ClockChoice}
    {result : Except Errno Word}
    (answered : clock.answer (.readSysReg address) choice = some (result, next)) :
    Ticked clock next ∧ ∀ value, result = .ok value → next.read? address = some value := by
  simp only [ClockUnit.answer, Option.map_eq_some_iff] at answered
  obtain ⟨shown, found, concluded⟩ := answered
  have ticked := Ticked.advance clock choice
  unfold ClockUnit.conclude at concluded
  split at concluded
  · obtain ⟨rfl, rfl⟩ := Prod.mk.inj concluded
    refine ⟨ticked, ?_⟩
    rintro value same
    obtain rfl := Except.ok.inj same
    exact found
  · obtain ⟨rfl, rfl⟩ := Prod.mk.inj concluded
    exact ⟨ticked, by simp⟩
  · obtain ⟨rfl, rfl⟩ := Prod.mk.inj concluded
    exact ⟨ticked, by simp⟩

/-- A write lets the clock tick, and has its effect if it succeeds. -/
theorem write_effect {clock next : ClockUnit} {address : Address} {value : Word}
    {choice : ClockChoice} {result : Except Errno Unit}
    (answered : clock.answer (.writeSysReg address value) choice = some (result, next)) :
    ∃ written, (clock.advance choice).write? address value = some written ∧
      (next = written ∨ next = clock.advance choice) ∧ (result = .ok () → next = written) := by
  simp only [ClockUnit.answer, Option.map_eq_some_iff] at answered
  obtain ⟨written, found, concluded⟩ := answered
  refine ⟨written, found, ?_⟩
  unfold ClockUnit.conclude at concluded
  split at concluded <;> obtain ⟨rfl, rfl⟩ := Prod.mk.inj concluded <;> simp

/-- A write is a move. -/
theorem write_moved {clock next : ClockUnit} {address : Address} {value : Word}
    (written : clock.write? address value = some next) : Moved clock next := by
  unfold ClockUnit.write? at written
  repeat' split at written
  all_goals cases written
  · exact ⟨[], by simp, .inl rfl⟩
  · exact ⟨[], by simp, .inl rfl⟩
  · exact ⟨[], by simp [ClockUnit.snapshot], .inl rfl⟩
  · exact ⟨[.loaded clock.registers, .held clock.registers], rfl, .inr (by simp [ClockUnit.load])⟩

/-- Nothing the threads do has the clock show a time it does not hold; and they only let it
tick while they write nothing. -/
def clockInterference : clockImplementation.Interference where
  anything := Moved
  harmless := Ticked
  anything_refl := Moved.refl
  anything_trans := Moved.trans
  harmless_refl := Ticked.refl
  harmless_trans := Ticked.trans
  answers {state request choice response after} answered := by
    cases request with
    | readSysReg address => exact (read_ticks answered).1.toMoved
    | writeSysReg address value =>
        obtain ⟨written, found, rfl | rfl, _⟩ := write_effect answered
        · exact (Ticked.advance state choice).toMoved.trans (write_moved found)
        · exact (Ticked.advance state choice).toMoved
    | _ => simp [ClockUnit.answer] at answered
  quiet {state request choice response after} unopened answered := by
    cases request with
    | readSysReg address => exact (read_ticks answered).1
    | writeSysReg address value => simp [clockImplementation] at unopened
    | _ => simp [ClockUnit.answer] at answered

/-! ### Calls under interference -/

/-- What a read relies on once it is open: the registers hold a time held during the call. -/
def Snapshot (before clock : ClockUnit) : Prop :=
  Moved before clock ∧ HeldDuring before clock clock.registers

/-- Ticks do not touch a snapshot. -/
theorem Snapshot.tick {before clock next : ClockUnit} (taken : Snapshot before clock)
    (ticked : Ticked clock next) : Snapshot before next := by
  refine ⟨taken.1.trans ticked.toMoved, ?_⟩
  rw [ticked.registers]
  exact taken.1.heldDuring ticked.toMoved taken.2

/-- The seconds of the registers. -/
theorem read?_clockSec (clock : ClockUnit) :
    clock.read? clockSec = some clock.registers.second := rfl

/-- Their nanoseconds. -/
theorem read?_clockNs (clock : ClockUnit) :
    clock.read? clockNs = some clock.registers.nanosecond := rfl

/-- The seconds are loaded into the registers. -/
theorem write?_clockSec (clock : ClockUnit) (value : Word) : clock.write? clockSec value =
    some { clock with registers := { clock.registers with second := value } } := rfl

theorem write?_clockNs (clock : ClockUnit) (value : Word) : clock.write? clockNs value =
    some { clock with registers := { clock.registers with nanosecond := value } } := rfl

/-- The command which takes a snapshot. -/
theorem write?_clockRead (clock : ClockUnit) :
    clock.write? cmdCtl cmdCtlClockRead = some clock.snapshot := rfl

/-- The command which loads the clock. -/
theorem write?_clockLoad (clock : ClockUnit) :
    clock.write? cmdCtl cmdCtlClockLoad = some clock.load := rfl

/-- Ticks change no register. -/
theorem Ticked.read? {clock next : ClockUnit} (ticked : Ticked clock next) (address : Address) :
    next.read? address = clock.read? address := by
  unfold ClockUnit.read?
  rw [ticked.registers, ticked.subns]

/-- A register read of an open call. -/
private theorem secure_read {address : Address} {opened : Option ClockUnit} {clock : ClockUnit}
    {post : Option ClockUnit → Except Errno Word → ClockUnit → Prop} (isOpen : opened.isSome = true)
    (returns : ∀ result next, Ticked clock next →
      (∀ value, result = .ok value → clock.read? address = some value) → post opened result next) :
    clockInterference.Secure (readSysReg address).run opened clock post := by
  obtain ⟨state, rfl⟩ := Option.isSome_iff_exists.mp isOpen
  intro later before _ choice result after answered finish since
  obtain ⟨ticked, shown⟩ := read_ticks answered
  have passed : Ticked clock after := Ticked.trans before ticked
  apply returns result finish (passed.trans since)
  intro value succeeded
  rw [← shown value succeeded, passed.read?]

/-- A register write of an open call. -/
private theorem secure_write {address : Address} {value : Word} {opened : Option ClockUnit}
    {clock : ClockUnit} {post : Option ClockUnit → Except Errno Unit → ClockUnit → Prop}
    (isOpen : opened.isSome = true)
    (returns : ∀ result current next, Ticked clock current →
      (result = .ok () → ∃ written, current.write? address value = some written ∧
        Ticked written next) → post opened result next) :
    clockInterference.Secure (writeSysReg address value).run opened clock post := by
  obtain ⟨state, rfl⟩ := Option.isSome_iff_exists.mp isOpen
  intro later before _ choice result after answered finish since
  obtain ⟨written, found, _, succeeds⟩ := write_effect answered
  refine returns result (later.advance choice) finish
    (Ticked.trans before (Ticked.advance later choice)) ?_
  intro succeeded
  exact ⟨written, found, succeeds succeeded ▸ since⟩

/-- The write which opens a call: until then the others may have done anything. -/
private theorem secure_first {address : Address} {value : Word} {clock : ClockUnit}
    {post : Option ClockUnit → Except Errno Unit → ClockUnit → Prop}
    (returns : ∀ result first current next, Moved clock first → Ticked first current →
      (result = .ok () → ∃ written, current.write? address value = some written ∧
        Ticked written next) → post (some first) result next) :
    clockInterference.Secure (writeSysReg address value).run none clock post := by
  intro later before _ choice result after answered finish since
  obtain ⟨written, found, _, succeeds⟩ := write_effect answered
  refine returns result later (later.advance choice) finish before
    (Ticked.advance later choice) ?_
  intro succeeded
  exact ⟨written, found, succeeds succeeded ▸ since⟩

/-- With the registers to itself a read returns a time of the clock. -/
theorem ptpClockRead_secure (subns : Bool) (before : ClockUnit) :
    clockInterference.Secure (ptpClockRead subns).run none before
      fun _ result after => ∀ value, result = .ok value → HeldDuring before after value.1 := by
  have failed (opened : Option ClockUnit) (error : Errno) (clock : ClockUnit) :
      ∀ later, clockInterference.rely opened clock later → ∀ value : PtpTime × Option Word,
        Except.error error = Except.ok value → HeldDuring before later value.1 :=
    fun _ _ _ => nofun
  unfold ptpClockRead
  refine .run_bind (secure_first ?_)
  intro result first current next earlier ticked taken
  cases result with
  | error error => exact failed _ _ _
  | ok _ =>
      obtain ⟨written, found, since⟩ := taken rfl
      rw [write?_clockRead, Option.some.injEq] at found
      have moved := earlier.trans ticked.toMoved
      have snapshot : Snapshot before next := by
        refine Snapshot.tick ?_ since
        rw [← found]
        exact ⟨moved, moved.live⟩
      refine .run_bind (secure_read rfl ?_)
      intro result atSec tickedSec shownSec
      cases result with
      | error error => exact failed _ _ _
      | ok sec =>
          refine .run_bind (secure_read rfl ?_)
          intro result atNs tickedNs shownNs
          cases result with
          | error error => exact failed _ _ _
          | ok ns =>
              have both := tickedSec.trans tickedNs
              have registers : (⟨sec, ns⟩ : PtpTime) = atNs.registers := by
                have sameSec := (tickedSec.read? clockSec).trans (shownSec sec rfl)
                have sameNs := (tickedNs.read? clockNs).trans (shownNs ns rfl)
                rw [read?_clockSec, ← tickedNs.registers, Option.some.injEq] at sameSec
                rw [read?_clockNs, Option.some.injEq] at sameNs
                rw [← sameSec, ← sameNs]
              have held (later : ClockUnit) (after : Ticked atNs later) :
                  HeldDuring before later ⟨sec, ns⟩ := by
                have kept := (snapshot.tick both).tick after
                rw [registers, ← after.registers]
                exact kept.2
              cases subns with
              | false =>
                  intro later after value same
                  cases same
                  exact held later after
              | true =>
                  refine .run_bind (secure_read rfl ?_)
                  intro result atSubns tickedSubns _
                  cases result with
                  | error error => exact failed _ _ _
                  | ok shown =>
                      intro later after value same
                      cases same
                      exact held later (tickedSubns.trans after)

/-- With the registers to itself a call loads its time, and only that. -/
theorem ptpClockSet_secure (time : PtpTime) (before : ClockUnit) :
    clockInterference.Secure (ptpClockSet time).run none before
      fun opened result after => result = .ok () → ∃ state ∈ opened, loadedDuring state after = [time] := by
  unfold ptpClockSet
  refine .run_bind (secure_first ?_)
  intro result first atSec storedSec _ tickedSec wroteSec
  cases result with
  | error error => exact fun _ _ => nofun
  | ok _ =>
      obtain ⟨written, found, sinceSec⟩ := wroteSec rfl
      refine .run_bind (secure_write rfl ?_)
      intro result atNs storedNs tickedNs wroteNs
      cases result with
      | error error => exact fun _ _ => nofun
      | ok _ =>
          obtain ⟨written', found', sinceNs⟩ := wroteNs rfl
          refine secure_write rfl ?_
          intro result atLoad loaded tickedLoad wroteLoad succeeded
          obtain ⟨written'', found'', sinceLoad⟩ := wroteLoad succeeded
          rw [write?_clockSec, Option.some.injEq] at found
          rw [write?_clockNs, Option.some.injEq] at found'
          rw [write?_clockLoad, Option.some.injEq] at found''
          -- Nothing has been loaded before the command, and the registers hold the time.
          have unloaded : LoadedSince first [] atLoad := by
            have atStart : LoadedSince first [] first := ⟨[], by simp, rfl⟩
            have afterSec : LoadedSince first [] written := by
              rw [← found]
              exact tickedSec.loaded atStart
            have afterNs : LoadedSince first [] written' := by
              rw [← found']
              exact tickedNs.loaded (sinceSec.loaded afterSec)
            exact tickedLoad.loaded (sinceNs.loaded afterNs)
          have registers : atLoad.registers = time := by
            rw [tickedLoad.registers, sinceNs.registers, ← found']
            simp only
            rw [tickedNs.registers, sinceSec.registers, ← found]
          obtain ⟨later, history, none⟩ := unloaded
          have loadedOnce : LoadedSince first [time] written'' := by
            refine ⟨later ++ [.loaded time, .held time], ?_, ?_⟩
            · rw [← found'', ClockUnit.load, registers, history, List.append_assoc]
            · rw [loads, List.filterMap_append]
              exact congrArg (· ++ [time]) none
          obtain ⟨later, history, once⟩ := sinceLoad.loaded loadedOnce
          exact ⟨first, rfl, by rw [loadedDuring, history, List.drop_left, once]⟩

/-! ### Runs -/

/-- Any threads, each with any client. -/
abbrev clockThreads (ThreadId : Type) [DecidableEq ThreadId] :
    System (Implementation.Ended clockCalls clockDevice) :=
  clockImplementation.system ThreadId

/-- In every run in which no register of the clock is written while another call is between
its first write and its return, every read which returns 0 yields a time the clock has held
during the call, and every set which returns 0 has loaded its time and nothing else. -/
theorem undisturbed_calls_exact {ThreadId : Type} [DecidableEq ThreadId]
    {start finish : Implementation.Shared ThreadId clockCalls clockDevice}
    {choices : List (ThreadId × ClockChoice)}
    {events : List (Implementation.Ended clockCalls clockDevice)}
    (initially : (clockThreads ThreadId).Initial start)
    (run : (clockThreads ThreadId).Run clockImplementation.Undisturbed start choices events finish) :
    ∀ event ∈ events,
      ClockExact event.call event.before event.opened event.result event.after := by
  have secure : ∀ (call : ClockCall) before, clockInterference.Secure (clockImplementation.body call)
      none before (ClockExact call before) := by
    intro call before
    cases call with
    | read subns => exact ptpClockRead_secure subns before
    | set time => exact ptpClockSet_secure time before
  exact Implementation.ended_of_secure secure initially run

/-! ### Two threads -/

instance (before after : ClockUnit) (time : PtpTime) : Decidable (HeldDuring before after time) :=
  inferInstanceAs (Decidable (_ ∨ _))

/-- Just before the second 10. -/
private def beforeTen : ClockUnit := ⟨⟨9, 999999999⟩, 0, ⟨0, 0⟩, 0, []⟩

private def ten : PtpTime := ⟨10, 1⟩

/-- Code which reads the clock. -/
private def reading : ClockClient Unit := do
  let _ ← ClockClient.read false

/-- Two threads, which end with their clients. -/
private def twoThreads (first second : ClockClient Unit) :
    Implementation.Shared Bool clockCalls clockDevice :=
  ⟨beforeTen, fun thread => .between ((if thread then second else first).run >>= fun _ => pure ())⟩

/-- The thread's next step, with or without a tick to the second 10 before it. -/
private def takes (thread ticks : Bool) : Bool × ClockChoice :=
  (thread, ⟨if ticks then [(ten, 0)] else [], .ok⟩)

/-- Whether a call has returned 0 with what it should not. -/
private def inexact : Implementation.Ended clockCalls clockDevice → Bool
  | ⟨.read _, .ok value, before, _, after⟩ => !decide (HeldDuring before after value.1)
  | ⟨.set time, .ok _, _, some opened, after⟩ => loadedDuring opened after ≠ [time]
  | _ => false

/-- A call which is spoilt is not exact. -/
private theorem not_exact {event : Implementation.Ended clockCalls clockDevice}
    (wrong : inexact event = true) :
    ¬ClockExact event.call event.before event.opened event.result event.after := by
  obtain ⟨call, result, before, opened, after⟩ := event
  intro exact
  cases call with
  | read subns =>
      cases result with
      | error => simp [inexact] at wrong
      | ok value =>
          have held := exact value rfl
          simp [inexact, held] at wrong
  | set time =>
      cases result with
      | error => simp [inexact] at wrong
      | ok done =>
          obtain ⟨state, isOpen, once⟩ := exact rfl
          obtain rfl : opened = some state := isOpen
          simp [inexact, once] at wrong

/-- A snapshot taken between the two register reads of another read tears its pair; and a
snapshot taken between a set's writes and its load has the load put the old time back. -/
theorem snapshots_collide :
    (∃ start choices events finish, (clockThreads Bool).Initial start ∧
      (clockThreads Bool).Run (clockThreads Bool).unguarded start choices events finish ∧
      ∃ event ∈ events, (∃ subns, event.call = .read subns) ∧
        ¬ClockExact event.call event.before event.opened event.result event.after) ∧
    ∃ start choices events finish, (clockThreads Bool).Initial start ∧
      (clockThreads Bool).Run (clockThreads Bool).unguarded start choices events finish ∧
      ∃ event ∈ events, event.call = .set ten ∧
        ¬ClockExact event.call event.before event.opened event.result event.after := by
  have initially (first second : ClockClient Unit) : (clockThreads Bool).Initial (twoThreads first second) :=
    fun _ => ⟨_, rfl⟩
  constructor
  · have ran : (System.execute clockImplementation.step (fun _ _ => true)
        (twoThreads reading reading)
        [takes false false, takes false false, takes false false, takes true false, takes true true,
          takes false false, takes false false]).map (fun (events, _) =>
            events.any fun event => (event.call matches .read _) && inexact event) = some true := by
      decide +kernel
    obtain ⟨⟨events, finish⟩, executed, found⟩ := Option.map_eq_some_iff.mp ran
    obtain ⟨event, member, wrong⟩ := List.any_eq_true.mp found
    obtain ⟨isRead, wrong⟩ := Bool.and_eq_true_iff.mp wrong
    refine ⟨_, _, events, finish, initially _ _, System.unguarded_run_of_execute executed, event,
      member, ?_, not_exact wrong⟩
    cases call : event.call with
    | read subns => exact ⟨subns, rfl⟩
    | set => simp [call] at isRead
  · have ran : (System.execute clockImplementation.step (fun _ _ => true)
        (twoThreads (.set ten) reading)
        [takes false false, takes false false, takes false false, takes true false, takes true false,
          takes false false, takes false false]).map (fun (events, _) =>
            events.any fun event => event.call = .set ten && inexact event) = some true := by
      decide +kernel
    obtain ⟨⟨events, finish⟩, executed, found⟩ := Option.map_eq_some_iff.mp ran
    obtain ⟨event, member, wrong⟩ := List.any_eq_true.mp found
    simp only [Bool.and_eq_true, decide_eq_true_eq] at wrong
    exact ⟨_, _, events, finish, initially _ _, System.unguarded_run_of_execute executed, event,
      member, wrong.1, not_exact wrong.2⟩

/-- An adjustment by 5 ns, which begins while a set is open and makes its first request after
the set has returned, is exact in its read and in its set. -/
theorem turns_are_exact : ∃ start choices events finish, (clockThreads Bool).Initial start ∧
    (clockThreads Bool).Run clockImplementation.Undisturbed start choices events finish ∧
    events.map (·.call) = [.set ten, .read false, .set ⟨10, 6⟩] ∧ ∀ event ∈ events,
      ClockExact event.call event.before event.opened event.result event.after := by
  have ran : (System.execute clockImplementation.step
      (clockImplementation.isUndisturbed (fun _ => true) [false, true])
      (twoThreads (.set ten) (ptpClockAdjust 5))
      ([takes false false, takes false false, takes true false] ++
        List.replicate 3 (takes false false) ++ List.replicate 9 (takes true false))).map
        (fun (events, _) => events.map (·.call)) = some [.set ten, .read false, .set ⟨10, 6⟩] := by
    decide +kernel
  obtain ⟨⟨events, finish⟩, executed, calls⟩ := Option.map_eq_some_iff.mp ran
  have initially : (clockThreads Bool).Initial (twoThreads (.set ten) (ptpClockAdjust 5)) :=
    fun _ => ⟨_, rfl⟩
  have run : (clockThreads Bool).Run clockImplementation.Undisturbed _ _ events finish :=
    (System.run_of_execute executed).weaken fun shared choice decided =>
      clockImplementation.undisturbed_of_isUndisturbed (fun _ _ => trivial) (by decide) decided
  exact ⟨_, _, events, finish, initially, run, calls, undisturbed_calls_exact initially run⟩

end Rp2350Stepper.Lan9250
