import Rp2350Stepper.Lan9250.LinkThread

/-!
# Failures under `lan9250_thread`

The thread keeps `ier`, `int_sts` and `tmp` from one iteration to the next and ignores what
its transactions return, so that a failed read leaves an earlier value in its variable. A
register reads as the environment chooses, except `INT_EN`, and interrupts come at any time.
-/

namespace Rp2350Stepper.Lan9250

open Rp2350Stepper.Semantics

/-! ### The thread -/

/-- How a read of a variable ends: a failed one may have put something into it. -/
inductive ReadResult where
  | succeeded (value : Word)
  | failed (left : Option Word)
deriving DecidableEq, Repr

/-- What the variable holds after the read. -/
def ReadResult.into (held : Word) : ReadResult → Word
  | .succeeded value => value
  | .failed left => left.getD held

/-- How a write ends: a failed one may have had its effect. -/
inductive WriteResult where
  | done
  | failed (applied : Bool)
deriving DecidableEq, Repr

/-- Whether the register has been written. -/
def WriteResult.applied : WriteResult → Bool
  | .done => true
  | .failed applied => applied

/-- What the thread asks for. -/
inductive ThreadRequest where
  /-- `k_sem_take` on `int_sem`, forever. -/
  | semTake
  | readSysReg (address : Address)
  | writeSysReg (address : Address) (value : Word)
  /-- `lan9250_read_phy_reg`, which assigns its variable only if it succeeds. -/
  | readPhyReg (address : BitVec 8)
  | carrierOn
  | carrierOff
  /-- `lan9250_rx`. -/
  | rx

/-- What it gets in return. -/
@[reducible] def ThreadResponse : ThreadRequest → Type
  | .readSysReg _ => ReadResult
  | .writeSysReg _ _ => WriteResult
  | .readPhyReg _ => Option (BitVec 16)
  | _ => Unit

/-- The interface of the thread, with its failures. -/
abbrev threadInterface : Interface := ⟨ThreadRequest, ThreadResponse⟩

/-- Code which only asks. -/
def threadCall (request : ThreadRequest) : Program threadInterface (ThreadResponse request) :=
  .ask request .done

/-- The variables of `lan9250_thread`; the first two are not initialized. -/
structure ThreadLocals where
  ier : Word
  intSts : Word
  tmp : BitVec 16
deriving DecidableEq, Repr

/-- What is done about the flags in `tmp`. -/
def followLink (tmp : BitVec 16) : Program threadInterface Unit := do
  if tmp &&& sourceLinkUp ≠ 0 then
    let _ ← threadCall (.readPhyReg phySpecialControlStatus)
    let _ ← threadCall (.readPhyReg phySpecialControlStatInd)
    threadCall .carrierOn
  else if tmp &&& sourceLinkDown ≠ 0 then threadCall .carrierOff

/-- The part of an iteration under `INT_STS_PHY_INT`, and `tmp` after it. -/
def servicePhyInt (intSts : Word) (tmp : BitVec 16) : Program threadInterface (BitVec 16) :=
  if intSts &&& intStsPhyInt ≠ 0 then do
    let source ← threadCall (.readPhyReg phyInterruptSource)
    followLink (source.getD tmp)
    return source.getD tmp
  else pure tmp

/-- The part under `INT_STS_RSFL`. -/
def serviceRsfl (intSts : Word) : Program threadInterface Unit :=
  if intSts &&& intStsRsfl ≠ 0 then do
    let _ ← threadCall (.writeSysReg Lan9250.intSts intStsRsfl)
    threadCall .rx
  else pure ()

/-- Both parts, and `tmp` after them. -/
def service (intSts : Word) (tmp : BitVec 16) : Program threadInterface (BitVec 16) := do
  let tmp ← servicePhyInt intSts tmp
  serviceRsfl intSts
  return tmp

/-- One iteration of `lan9250_thread`, from its variables to its variables. -/
def threadIteration (locals : ThreadLocals) : Program threadInterface ThreadLocals := do
  threadCall .semTake
  let saved ← threadCall (.readSysReg intEn)
  let ier := saved.into locals.ier
  let _ ← threadCall (.writeSysReg intEn 0)
  let status ← threadCall (.readSysReg intSts)
  let intSts := status.into locals.intSts
  let tmp ← service intSts locals.tmp
  let _ ← threadCall (.writeSysReg intEn ier)
  return ⟨ier, intSts, tmp⟩

/-! ### Its surroundings -/

/-- A transaction which has ended. -/
inductive ThreadEvent where
  | readSysReg (address : Address) (result : ReadResult)
  | writeSysReg (address : Address) (value : Word) (result : WriteResult)
  | readPhyReg (address : BitVec 8) (result : Option (BitVec 16))
deriving DecidableEq, Repr

/-- Whether a transaction has succeeded. -/
def ThreadEvent.succeeded : ThreadEvent → Bool
  | .readSysReg _ (.succeeded _) => true
  | .readSysReg _ (.failed _) => false
  | .writeSysReg _ _ result => result = .done
  | .readPhyReg _ result => result.isSome

/-- `INT_EN`, the interface's carrier, `int_sem`, and the transactions so far. -/
structure ThreadWorld where
  intEn : Word
  carrier : Bool
  intSem : Nat
  trace : List ThreadEvent
deriving DecidableEq, Repr

/-- What the registers show, and how the transactions end. -/
structure ThreadChoice where
  /-- How often `lan9250_gpio_callback` runs before the request. -/
  edges : Nat
  /-- What a register other than `INT_EN` reads as. -/
  value : Word
  readFails : Option (Option Word)
  writeResult : WriteResult
deriving DecidableEq, Repr

instance : Inhabited ThreadChoice := ⟨⟨0, 0, none, .done⟩⟩

namespace ThreadWorld

/-- Something is recorded. -/
def record (world : ThreadWorld) (event : ThreadEvent) : ThreadWorld :=
  { world with trace := world.trace ++ [event] }

/-- Interrupts come in before a request. -/
def wake (world : ThreadWorld) (choice : ThreadChoice) : ThreadWorld :=
  { world with intSem := world.intSem + choice.edges }

/-- What a read yields. -/
def readResult (world : ThreadWorld) (address : Address) (choice : ThreadChoice) : ReadResult :=
  match choice.readFails with
  | some left => .failed left
  | none => .succeeded (if address = Lan9250.intEn then world.intEn else choice.value)

/-- What a read of a PHY register returns. -/
def phyResult (choice : ThreadChoice) : Option (BitVec 16) :=
  if choice.readFails.isSome then none else some (choice.value.setWidth 16)

/-- What a write changes. -/
def write (world : ThreadWorld) (address : Address) (value : Word) (result : WriteResult) :
    ThreadWorld :=
  { world with intEn := if address = Lan9250.intEn ∧ result.applied then value else world.intEn }

/-- A write of `INT_EN` which is applied changes it. -/
theorem write_intEn (world : ThreadWorld) (value : Word) (result : WriteResult) :
    (world.write Lan9250.intEn value result).intEn =
      if result.applied then value else world.intEn := by
  simp [write]

/-- A write of another register leaves `INT_EN`. -/
theorem write_other (world : ThreadWorld) (address : Address) (value : Word) (result : WriteResult)
    (other : address ≠ Lan9250.intEn) : (world.write address value result).intEn = world.intEn := by
  unfold write
  apply if_neg
  exact fun both => other both.1

/-- How the surroundings answer. -/
def answer (world : ThreadWorld) (request : ThreadRequest) (choice : ThreadChoice) :
    Option (ThreadResponse request × ThreadWorld) :=
  let world := world.wake choice
  match request with
  -- On a count of 0 the thread blocks.
  | .semTake =>
      if world.intSem = 0 then none else some ((), { world with intSem := world.intSem - 1 })
  | .readSysReg address =>
      some (world.readResult address choice,
        world.record (.readSysReg address (world.readResult address choice)))
  | .writeSysReg address value =>
      some (choice.writeResult, (world.write address value choice.writeResult).record
        (.writeSysReg address value choice.writeResult))
  | .readPhyReg address =>
      some (phyResult choice, world.record (.readPhyReg address (phyResult choice)))
  | .carrierOn => some ((), { world with carrier := true })
  | .carrierOff => some ((), { world with carrier := false })
  | .rx => some ((), world)

end ThreadWorld

/-- The thread's registers, whose transactions may fail. -/
abbrev threadDevice : Device threadInterface := ⟨ThreadWorld, ThreadChoice, ThreadWorld.answer⟩

/-- The carrier after the flags in `tmp` have been followed. -/
def carrierFor (tmp : BitVec 16) (carrier : Bool) : Bool :=
  if tmp &&& sourceLinkUp ≠ 0 then true
  else if tmp &&& sourceLinkDown ≠ 0 then false
  else carrier

/-- An iteration which has ended. -/
structure Iteration where
  before : ThreadLocals
  worldBefore : ThreadWorld
  after : ThreadLocals
  worldAfter : ThreadWorld

/-- The thread, iteration after iteration, from `lan9250_configure` on. -/
abbrev threadSystem : System Iteration where
  State := ThreadLocals × ThreadWorld
  Choice := List ThreadChoice
  Initial state := state.1.tmp = 0 ∧ state.2.intEn = enabledInterrupts ∧ state.2.carrier = false
  Step state choices events next :=
    threadDevice.Returns threadDevice.unguarded (threadIteration state.1) state.2 choices next.1
      next.2 ∧
    events = [⟨state.1, state.2, next.1, next.2⟩]

namespace Iteration

variable (iteration : Iteration)

/-- The transactions of an iteration. -/
def trace : List ThreadEvent :=
  iteration.worldAfter.trace.drop iteration.worldBefore.trace.length

/-- Whether the write which disables the interrupts has had its effect. -/
def disables : Bool :=
  match (iteration.trace[1]? : Option ThreadEvent) with
  | some (.writeSysReg _ _ result) => result.applied
  | _ => false

/-- Whether the last write, which is to enable them again, has. -/
def enables : Bool :=
  match iteration.trace.getLast? with
  | some (.writeSysReg _ _ result) => result.applied
  | _ => false

/-- The carrier changes only if both values it rests on have been read in the iteration. -/
def Current : Prop :=
  iteration.worldAfter.carrier ≠ iteration.worldBefore.carrier →
    (∃ value, .readSysReg intSts (.succeeded value) ∈ iteration.trace) ∧
    ∃ value, .readPhyReg phyInterruptSource (some value) ∈ iteration.trace

/-- An iteration without a failure leaves in `INT_EN` what `lan9250_configure` wrote. -/
def Restored : Prop :=
  (∀ event ∈ iteration.trace, event.succeeded = true) →
    iteration.worldAfter.intEn = enabledInterrupts

/-- Where a failed read of `INT_STS` has left a PHY interrupt in `int_sts`, the flags read next are
those of the carrier. -/
def Agrees : Prop :=
  ∀ left, .readSysReg intSts (.failed left) ∈ iteration.trace →
    left.getD iteration.before.intSts &&& intStsPhyInt ≠ 0 →
    ∀ source, .readPhyReg phyInterruptSource (some source) ∈ iteration.trace →
      carrierFor source iteration.worldBefore.carrier = iteration.worldBefore.carrier

/-- `INT_EN` is written back unless it has not been cleared, and not after a failed read of it which
has left another value in `ier`. -/
structure WritesBack : Prop where
  written : iteration.disables = true → iteration.enables = true
  saved : iteration.enables = true → ∀ left, .readSysReg intEn (.failed left) ∈ iteration.trace →
    left.getD iteration.before.ier = enabledInterrupts

end Iteration

/-! ### What an iteration does -/

/-- The same flags set the same carrier again. -/
theorem carrierFor_idem (tmp : BitVec 16) (carrier : Bool) :
    carrierFor tmp (carrierFor tmp carrier) = carrierFor tmp carrier := by
  unfold carrierFor
  split
  · rfl
  · split <;> rfl

section Calls

variable {α : Type} {world : ThreadWorld} {post : α → ThreadWorld → Prop}

/-- A request, then the rest. -/
theorem ensures_threadCall {request : ThreadRequest}
    {next : ThreadResponse request → Program threadInterface α}
    (answers : ∀ choice response middle, world.answer request choice = some (response, middle) →
      threadDevice.Ensures threadDevice.unguarded (next response) middle post) :
    threadDevice.Ensures threadDevice.unguarded (threadCall request >>= next) world post := by
  apply Device.Ensures.bind
  apply Device.Ensures.ask
  intro choice response middle _ answered
  exact answers choice response middle answered

/-- A world as it was, but for its semaphore, its carrier and some transactions. -/
structure Records (world next : ThreadWorld) (events : List ThreadEvent) : Prop where
  intEn : next.intEn = world.intEn
  trace : next.trace = world.trace ++ events

/-- Nothing is recorded. -/
theorem Records.refl : Records world world [] := ⟨rfl, (List.append_nil _).symm⟩

/-- Something is recorded, and then more. -/
theorem Records.trans {middle next : ThreadWorld} {events later : List ThreadEvent}
    (first : Records world middle events) (second : Records middle next later) :
    Records world next (events ++ later) :=
  ⟨second.intEn.trans first.intEn, by rw [second.trace, first.trace, List.append_assoc]⟩

/-- A read of a PHY register other than `INTERRUPT_SOURCE`. -/
def ThreadEvent.OtherPhy (event : ThreadEvent) : Prop :=
  ∃ address result, address ≠ phyInterruptSource ∧ event = .readPhyReg address result

/-- Following the link reads only other PHY registers. -/
theorem followLink_ensures (tmp : BitVec 16) :
    threadDevice.Ensures threadDevice.unguarded (followLink tmp) world fun _ next =>
      next.carrier = carrierFor tmp world.carrier ∧ ∃ events, Records world next events ∧
        ∀ event ∈ events, event.OtherPhy := by
  unfold followLink carrierFor
  split
  · apply ensures_threadCall
    rintro control response middle answered
    obtain ⟨rfl, rfl⟩ := Prod.mk.inj (Option.some.inj answered)
    apply ensures_threadCall
    rintro indication response' middle' answered'
    obtain ⟨rfl, rfl⟩ := Prod.mk.inj (Option.some.inj answered')
    apply Device.Ensures.ask
    rintro last response'' finish _ answered''
    obtain ⟨rfl, rfl⟩ := Prod.mk.inj (Option.some.inj answered'')
    refine ⟨rfl, [.readPhyReg phySpecialControlStatus (ThreadWorld.phyResult control),
      .readPhyReg phySpecialControlStatInd (ThreadWorld.phyResult indication)],
      ⟨rfl, List.append_assoc _ _ _⟩, ?_⟩
    intro event member
    rcases List.mem_pair.mp member with rfl | rfl
    · exact ⟨_, _, by decide, rfl⟩
    · exact ⟨_, _, by decide, rfl⟩
  · split
    · apply Device.Ensures.ask
      rintro choice response finish _ answered
      obtain ⟨rfl, rfl⟩ := Prod.mk.inj (Option.some.inj answered)
      exact ⟨rfl, [], ⟨rfl, (List.append_nil _).symm⟩, by simp⟩
    · apply Device.Ensures.pure
      exact ⟨rfl, [], .refl, by simp⟩

/-- Reading `INTERRUPT_SOURCE` and following it takes the flags it reads, or those `tmp` still
holds. -/
theorem followSource_ensures (tmp : BitVec 16) :
    threadDevice.Ensures threadDevice.unguarded
      (threadCall (.readPhyReg phyInterruptSource) >>= fun source =>
        followLink (source.getD tmp) >>= fun _ => pure (source.getD tmp))
      world fun after next => ∃ source events, after = source.getD tmp ∧
        next.carrier = carrierFor (source.getD tmp) world.carrier ∧
        Records world next (.readPhyReg phyInterruptSource source :: events) ∧
        ∀ event ∈ events, event.OtherPhy := by
  apply ensures_threadCall
  rintro choice response middle answered
  obtain ⟨rfl, rfl⟩ := Prod.mk.inj (Option.some.inj answered)
  apply Device.Ensures.bind
  refine (followLink_ensures _).weaken ?_
  rintro _ next ⟨carrier, events, records, other⟩
  apply Device.Ensures.pure
  have read : Records world ((world.wake choice).record (.readPhyReg phyInterruptSource
      (ThreadWorld.phyResult choice))) [.readPhyReg phyInterruptSource
        (ThreadWorld.phyResult choice)] := ⟨rfl, rfl⟩
  exact ⟨_, events, rfl, carrier, read.trans records, other⟩

/-- What serving the interrupts does. -/
structure Serviced (status : Word) (before after : BitVec 16) (world next : ThreadWorld)
    (events : List ThreadEvent) : Prop where
  records : Records world next events
  /-- The link is followed only under `INT_STS_PHY_INT`. -/
  link : (status &&& intStsPhyInt = 0 ∧ after = before ∧ next.carrier = world.carrier) ∨
    status &&& intStsPhyInt ≠ 0 ∧ ∃ source,
      (∀ result, .readPhyReg phyInterruptSource result ∈ events ↔ result = source) ∧
      after = source.getD before ∧ next.carrier = carrierFor after world.carrier
  sysReads : ∀ address result, .readSysReg address result ∉ events

/-- What the PHY's part of an iteration records. -/
theorem servicePhyInt_ensures (status : Word) (tmp : BitVec 16) :
    threadDevice.Ensures threadDevice.unguarded (servicePhyInt status tmp) world
      fun after next => ∃ events, Serviced status tmp after world next events := by
  unfold servicePhyInt
  split
  case isTrue flagged =>
      refine (followSource_ensures tmp).weaken ?_
      rintro after next ⟨source, events, rfl, carrier, records, other⟩
      refine ⟨_, records, .inr ⟨flagged, source, ?_, rfl, carrier⟩, ?_⟩
      · intro result
        constructor
        · intro member
          rcases List.mem_cons.mp member with same | later
          · injection same
          · obtain ⟨address, value, different, same⟩ := other _ later
            injection same with same
            exact absurd same.symm different
        · rintro rfl
          exact List.mem_cons_self
      · intro address result member
        rcases List.mem_cons.mp member with same | later
        · cases same
        · obtain ⟨_, _, _, same⟩ := other _ later
          cases same
  case isFalse unflagged =>
      apply Device.Ensures.pure
      exact ⟨[], .refl, .inl ⟨not_not.mp unflagged, rfl, rfl⟩, by simp⟩

/-- Another write changes nothing of it. -/
theorem Serviced.append {status : Word} {before after : BitVec 16} {middle next : ThreadWorld}
    {events : List ThreadEvent} {address : Address} {value : Word} {result : WriteResult}
    (serviced : Serviced status before after world middle events)
    (carrier : next.carrier = middle.carrier)
    (records : Records middle next [.writeSysReg address value result]) :
    Serviced status before after world next (events ++ [.writeSysReg address value result]) := by
  refine ⟨serviced.records.trans records, ?_, ?_⟩
  · simpa [carrier] using serviced.link
  · simpa using serviced.sysReads

/-- Serving a received frame does not, either. -/
theorem Serviced.received {status : Word} {before after : BitVec 16} {middle : ThreadWorld}
    {events : List ThreadEvent} (serviced : Serviced status before after world middle events) :
    threadDevice.Ensures threadDevice.unguarded (serviceRsfl status) middle
      fun _ next => ∃ events, Serviced status before after world next events := by
  unfold serviceRsfl
  split
  · apply ensures_threadCall
    rintro choice response _ answered
    obtain ⟨rfl, rfl⟩ := Prod.mk.inj (Option.some.inj answered)
    apply Device.Ensures.ask
    rintro choice' response' finish _ answered'
    obtain ⟨rfl, rfl⟩ := Prod.mk.inj (Option.some.inj answered')
    have kept := (middle.wake choice).write_other intSts intStsRsfl choice.writeResult (by decide)
    exact ⟨_, serviced.append rfl ⟨kept, rfl⟩⟩
  · apply Device.Ensures.pure
    exact ⟨events, serviced⟩

/-- What the service of the interrupts records. -/
theorem service_ensures (status : Word) (tmp : BitVec 16) :
    threadDevice.Ensures threadDevice.unguarded (service status tmp) world
      fun after next => ∃ events, Serviced status tmp after world next events := by
  unfold service
  apply Device.Ensures.bind
  refine (servicePhyInt_ensures status tmp).weaken ?_
  rintro after middle ⟨events, serviced⟩
  apply Device.Ensures.bind
  refine serviced.received.weaken ?_
  rintro _ next later
  apply Device.Ensures.pure
  exact later

end Calls

/-- How the transactions of an iteration have ended. -/
structure Transactions where
  saved : ReadResult
  disabled : WriteResult
  status : ReadResult
  service : List ThreadEvent
  restored : WriteResult

/-- The transactions, in their order. -/
def Transactions.trace (ended : Transactions) (before : ThreadLocals) : List ThreadEvent :=
  .readSysReg intEn ended.saved :: .writeSysReg intEn 0 ended.disabled ::
    .readSysReg intSts ended.status :: ended.service ++
    [.writeSysReg intEn (ended.saved.into before.ier) ended.restored]

/-- What an iteration has done. -/
structure Effect (iteration : Iteration) (ended : Transactions) : Prop where
  trace : iteration.worldAfter.trace =
    iteration.worldBefore.trace ++ ended.trace iteration.before
  saved : ∀ value, ended.saved = .succeeded value → value = iteration.worldBefore.intEn
  intEn : iteration.worldAfter.intEn =
    if ended.restored.applied then ended.saved.into iteration.before.ier
    else if ended.disabled.applied then 0 else iteration.worldBefore.intEn
  serviced : ∃ world next, world.carrier = iteration.worldBefore.carrier ∧
    next.carrier = iteration.worldAfter.carrier ∧
    Serviced (ended.status.into iteration.before.intSts) iteration.before.tmp iteration.after.tmp
      world next ended.service

section Accesses

variable {world next : ThreadWorld} {choice : ThreadChoice}

/-- A read of a register. -/
theorem ThreadWorld.answer_readSysReg {address : Address} {result : ReadResult}
    (answered : world.answer (.readSysReg address) choice = some (result, next)) :
    Records world next [.readSysReg address result] ∧ next.carrier = world.carrier ∧
      (address = Lan9250.intEn → ∀ value, result = .succeeded value → value = world.intEn) := by
  obtain ⟨rfl, rfl⟩ := Prod.mk.inj (Option.some.inj answered)
  refine ⟨⟨rfl, rfl⟩, rfl, ?_⟩
  rintro rfl value succeeded
  unfold readResult at succeeded
  split at succeeded
  · cases succeeded
  · rw [if_pos rfl] at succeeded
    exact (ReadResult.succeeded.inj succeeded).symm

/-- A write of `INT_EN`. -/
theorem ThreadWorld.answer_writeIntEn {value : Word} {result : WriteResult}
    (answered : world.answer (.writeSysReg Lan9250.intEn value) choice = some (result, next)) :
    next.intEn = (if result.applied then value else world.intEn) ∧
      next.carrier = world.carrier ∧
      next.trace = world.trace ++ [.writeSysReg Lan9250.intEn value result] := by
  obtain ⟨rfl, rfl⟩ := Prod.mk.inj (Option.some.inj answered)
  exact ⟨write_intEn _ _ _, rfl, rfl⟩

/-- Being woken. -/
theorem ThreadWorld.answer_semTake {response : Unit}
    (answered : world.answer .semTake choice = some (response, next)) :
    Records world next [] ∧ next.carrier = world.carrier := by
  simp only [answer, Option.ite_none_left_eq_some, Option.some.injEq, Prod.mk.injEq] at answered
  obtain ⟨_, _, rfl⟩ := answered
  exact ⟨⟨rfl, (List.append_nil _).symm⟩, rfl⟩

end Accesses

/-- What a whole iteration records. -/
theorem threadIteration_ensures (locals : ThreadLocals) (world : ThreadWorld) :
    threadDevice.Ensures threadDevice.unguarded (threadIteration locals) world
      fun after next => ∃ ended, Effect ⟨locals, world, after, next⟩ ended := by
  unfold threadIteration
  apply ensures_threadCall
  intro _ _ taken answered
  obtain ⟨woken, takenCarrier⟩ := ThreadWorld.answer_semTake answered
  apply ensures_threadCall
  intro _ saved read answered
  obtain ⟨reading, readCarrier, current⟩ := ThreadWorld.answer_readSysReg answered
  apply ensures_threadCall
  intro _ disabled quiet answered
  obtain ⟨disabling, quietCarrier, trace⟩ := ThreadWorld.answer_writeIntEn answered
  apply ensures_threadCall
  intro _ status checked answered
  obtain ⟨checking, checkedCarrier, _⟩ := ThreadWorld.answer_readSysReg answered
  apply Device.Ensures.bind
  refine (service_ensures _ _).weaken ?_
  rintro tmp served ⟨events, serviced⟩
  apply ensures_threadCall
  intro _ restored finish answered
  obtain ⟨restoring, finishCarrier, trace'⟩ := ThreadWorld.answer_writeIntEn answered
  apply Device.Ensures.pure
  refine ⟨⟨saved, disabled, status, events, restored⟩, ?_, ?_, ?_, checked, served, ?_, ?_,
    serviced⟩
  · simp [trace', serviced.records.trace, checking.trace, trace, reading.trace, woken.trace,
      Transactions.trace]
  · intro value succeeded
    exact (current rfl value succeeded).trans woken.intEn
  · simp only [restoring, serviced.records.intEn, checking.intEn, disabling, reading.intEn,
      woken.intEn]
  · exact checkedCarrier.trans (quietCarrier.trans (readCarrier.trans takenCarrier))
  · exact finishCarrier.symm

namespace Effect

variable {iteration : Iteration} {ended : Transactions}

/-- The trace of an iteration is that of its end. -/
theorem trace_eq (effect : Effect iteration ended) :
    iteration.trace = ended.trace iteration.before := by
  rw [Iteration.trace, effect.trace, List.drop_left]

/-- It disables the interrupts if that write is applied. -/
theorem disables_eq (effect : Effect iteration ended) :
    iteration.disables = ended.disabled.applied := by
  rw [Iteration.disables, effect.trace_eq]
  rfl

/-- It enables them again if that one is. -/
theorem enables_eq (effect : Effect iteration ended) :
    iteration.enables = ended.restored.applied := by
  have last : (ended.trace iteration.before).getLast? =
      some (.writeSysReg Lan9250.intEn (ended.saved.into iteration.before.ier) ended.restored) :=
    List.getLast?_concat
  rw [Iteration.enables, effect.trace_eq, last]

/-- `INT_EN` is read once. -/
theorem saved_mem (effect : Effect iteration ended) {result : ReadResult} :
    .readSysReg Lan9250.intEn result ∈ iteration.trace ↔ result = ended.saved := by
  obtain ⟨_, _, _, _, serviced⟩ := effect.serviced
  have other : Lan9250.intEn ≠ intSts := by decide
  simp [effect.trace_eq, Transactions.trace, serviced.sysReads, other]

/-- So is `INT_STS`. -/
theorem status_mem (effect : Effect iteration ended) {result : ReadResult} :
    .readSysReg intSts result ∈ iteration.trace ↔ result = ended.status := by
  obtain ⟨_, _, _, _, serviced⟩ := effect.serviced
  have other : intSts ≠ Lan9250.intEn := by decide
  simp [effect.trace_eq, Transactions.trace, serviced.sysReads, other]

/-- A PHY register is read in the service, and nowhere else. -/
theorem phy_mem (effect : Effect iteration ended) {address : BitVec 8}
    {result : Option (BitVec 16)} :
    .readPhyReg address result ∈ iteration.trace ↔
      .readPhyReg address result ∈ ended.service := by
  simp [effect.trace_eq, Transactions.trace]

/-- An iteration keeps the configured value in `INT_EN` exactly if it writes it back. -/
theorem intEn_iff (effect : Effect iteration ended)
    (configured : iteration.worldBefore.intEn = enabledInterrupts) :
    iteration.worldAfter.intEn = enabledInterrupts ↔ iteration.WritesBack := by
  have different : (0 : Word) ≠ enabledInterrupts := by decide
  rw [effect.intEn]
  constructor
  · intro kept
    constructor
    · rw [effect.disables_eq, effect.enables_eq]
      intro disabled
      by_contra lost
      rw [if_neg lost, if_pos disabled] at kept
      exact different kept
    · rw [effect.enables_eq]
      intro enabled left failed
      rw [if_pos enabled, ← effect.saved_mem.mp failed] at kept
      exact kept
  · rintro ⟨written, saved⟩
    rw [effect.enables_eq] at written saved
    rw [effect.disables_eq] at written
    split
    case isTrue enabled =>
        cases result : ended.saved with
        | succeeded value => exact (effect.saved value result).trans configured
        | failed left => exact saved enabled left (effect.saved_mem.mpr result.symm)
    case isFalse lost => rw [if_neg fun disabled => lost (written disabled), configured]

/-- The flags in `tmp` are those of the carrier. -/
def InSync (tmp : BitVec 16) (carrier : Bool) : Prop := carrierFor tmp carrier = carrier

/-- They stay so. -/
theorem inSync (effect : Effect iteration ended)
    (before : InSync iteration.before.tmp iteration.worldBefore.carrier) :
    InSync iteration.after.tmp iteration.worldAfter.carrier := by
  obtain ⟨world, next, same, same', serviced⟩ := effect.serviced
  rw [← same']
  rcases serviced.link with ⟨_, kept, carrier⟩ | ⟨_, _, _, _, carrier⟩
  · rw [kept, carrier, same]
    exact before
  · rw [carrier]
    exact carrierFor_idem _ _

/-- From there a failed read of `INTERRUPT_SOURCE` leaves the carrier, and one of `INT_STS` exactly
if the flags agree. -/
theorem current_iff (effect : Effect iteration ended)
    (before : InSync iteration.before.tmp iteration.worldBefore.carrier) :
    iteration.Current ↔ iteration.Agrees := by
  obtain ⟨world, next, same, same', serviced⟩ := effect.serviced
  constructor
  · intro current left failed flagged source read
    by_contra changed
    rw [effect.status_mem] at failed
    rw [← failed] at serviced
    rcases serviced.link with ⟨unflagged, _⟩ | ⟨_, source', only, after, carrier⟩
    · exact flagged unflagged
    · obtain rfl := (only _).mp (effect.phy_mem.mp read)
      have fresh := current (by rwa [← same', carrier, after, same])
      obtain ⟨⟨value, succeeded⟩, _⟩ := fresh
      rw [effect.status_mem, ← failed] at succeeded
      cases succeeded
  · intro agrees changed
    rcases serviced.link with ⟨_, _, carrier⟩ | ⟨flagged, source, only, after, carrier⟩
    · exact absurd (same'.symm.trans (carrier.trans same)) changed
    · rw [← same', carrier, after, same] at changed
      cases source with
      | none => exact absurd before changed
      | some source =>
          have read := effect.phy_mem.mpr ((only _).mpr rfl)
          refine ⟨?_, source, read⟩
          cases result : ended.status with
          | succeeded value => exact ⟨value, effect.status_mem.mpr result.symm⟩
          | failed left =>
              rw [result] at flagged
              have failed := effect.status_mem.mpr result.symm
              exact absurd (agrees left failed flagged source read) changed

end Effect

/-- Iterations each of which writes `INT_EN` back and agrees with the carrier. -/
def Harmless (iterations : List Iteration) : Prop :=
  ∀ iteration ∈ iterations, iteration.WritesBack ∧ iteration.Agrees

/-- In a run whose iterations are harmless, whatever fails in them, the carrier changes only on what
the iteration has read, and every iteration without a failure leaves `INT_EN` as configured. -/
theorem transient_failures_recovered {start finish : ThreadLocals × ThreadWorld}
    {choices : List (List ThreadChoice)} {iterations : List Iteration}
    (initially : threadSystem.Initial start)
    (run : threadSystem.Run threadSystem.unguarded start choices iterations finish)
    (harmless : Harmless iterations) :
    ∀ iteration ∈ iterations, iteration.Current ∧ iteration.Restored := by
  obtain ⟨tmp, configured, carrier⟩ := initially
  have inSync : Effect.InSync start.1.tmp start.2.carrier := by
    rw [tmp, carrier]
    rfl
  have kept := run.invariant
    (fun (state : ThreadLocals × ThreadWorld) iterations => Harmless iterations →
      Effect.InSync state.1.tmp state.2.carrier ∧ state.2.intEn = enabledInterrupts ∧
        ∀ iteration ∈ iterations, iteration.Current ∧ iteration.Restored)
    (fun _ => ⟨inSync, configured, by simp⟩)
    (by
      rintro state earlier script emitted next before _ ⟨returns, rfl⟩ harmless
      obtain ⟨inSync, configured, sound⟩ := before fun iteration member =>
        harmless iteration (List.mem_append_left _ member)
      obtain ⟨writesBack, agrees⟩ := harmless _ (List.mem_append_right _ List.mem_cons_self)
      obtain ⟨ended, effect⟩ := threadIteration_ensures state.1 state.2 _ _ _ returns
      have intEn := (effect.intEn_iff configured).mpr writesBack
      refine ⟨effect.inSync inSync, intEn, ?_⟩
      intro iteration member
      rcases List.mem_append.mp member with old | new
      · exact sound iteration old
      · obtain rfl := List.mem_singleton.mp new
        exact ⟨(effect.current_iff inSync).mpr agrees, fun _ => intEn⟩)
  exact (kept harmless).2.2

/-- Iterations under scripts. -/
def playIterations : ThreadLocals × ThreadWorld → List (List ThreadChoice) →
    Option (List Iteration × ThreadLocals × ThreadWorld)
  | state, [] => some ([], state)
  | state, script :: scripts =>
      (threadDevice.play (fun _ _ _ => true) (threadIteration state.1) state.2 script).bind
        fun played => (playIterations played.2 scripts).map fun later =>
          (⟨state.1, state.2, played.2.1, played.2.2⟩ :: later.1, later.2)

/-- They are a run. -/
theorem run_of_playIterations {start finish : ThreadLocals × ThreadWorld}
    {scripts : List (List ThreadChoice)} {iterations : List Iteration}
    (played : playIterations start scripts = some (iterations, finish)) :
    ∃ choices, threadSystem.Run threadSystem.unguarded start choices iterations finish := by
  induction scripts generalizing start iterations with
  | nil =>
      obtain ⟨rfl, rfl⟩ := Prod.mk.inj (Option.some.inj played)
      exact ⟨[], .refl⟩
  | cons script scripts inductionHypothesis =>
      simp only [playIterations, Option.bind_eq_some_iff, Option.map_eq_some_iff, Prod.mk.injEq]
        at played
      obtain ⟨⟨choices, next⟩, ran, ⟨later, last⟩, rest, rfl, rfl⟩ := played
      obtain ⟨choices', run⟩ := inductionHypothesis rest
      have returns : threadDevice.Returns threadDevice.unguarded (threadIteration start.1) start.2
          choices next.1 next.2 := (Device.Returns.of_play ran).weaken fun _ _ _ _ => trivial
      have first : threadSystem.Run threadSystem.unguarded start [choices] _ next :=
        System.Run.single trivial ⟨returns, rfl⟩
      exact ⟨_, first.trans run⟩

/-- A failed read of a variable. -/
def ThreadEvent.stale : ThreadEvent → Bool
  | .readSysReg _ (.failed _) => true
  | _ => false

/-- Iterations which restore the interrupts and read nothing stale are harmless. -/
theorem harmless_of_reads {iterations : List Iteration}
    (reads : ∀ iteration ∈ iterations, (iteration.disables = true → iteration.enables = true) ∧
      ∀ event ∈ iteration.trace, event.stale = false) : Harmless iterations := by
  intro iteration member
  obtain ⟨written, fresh⟩ := reads iteration member
  refine ⟨⟨written, ?_⟩, ?_⟩
  · intro _ left failed
    cases fresh _ failed
  · intro left failed
    cases fresh _ failed

/-- No interrupt has come yet, and the variables hold 0. -/
def quietStart : ThreadLocals × ThreadWorld := (⟨0, 0, 0⟩, ⟨enabledInterrupts, false, 0, []⟩)

/-- A read of a register as `value`, or a write which is done. -/
def smooth (value : Word) : ThreadChoice := ⟨0, value, none, .done⟩

def interrupted : ThreadChoice := ⟨1, 0, none, .done⟩

def fails : ThreadChoice := ⟨0, 0, some none, .failed false⟩

/-- A failed read of `INTERRUPT_SOURCE`, and an iteration after it. -/
theorem failed_source_recovered : ∃ choices iterations finish,
    threadSystem.Run threadSystem.unguarded quietStart choices iterations finish ∧
      iterations.length = 2 ∧ ∀ iteration ∈ iterations, iteration.Current ∧ iteration.Restored := by
  have played : (playIterations quietStart
      [[interrupted, smooth 0, smooth 0, smooth intStsPhyInt, fails, smooth 0],
        [interrupted]]).any (fun played => decide (played.1.length = 2 ∧
          ∀ iteration ∈ played.1, (iteration.disables = true → iteration.enables = true) ∧
            ∀ event ∈ iteration.trace, event.stale = false)) = true := by
    decide +kernel
  obtain ⟨⟨iterations, finish⟩, ran, checked⟩ := (Option.any_eq_true _ _).mp played
  obtain ⟨length, reads⟩ := of_decide_eq_true checked
  obtain ⟨choices, run⟩ := run_of_playIterations ran
  exact ⟨choices, iterations, finish, run, length,
    transient_failures_recovered ⟨rfl, rfl, rfl⟩ run (harmless_of_reads reads)⟩

/-- In the first iteration the accesses to `INT_EN` fail and a frame is received; without any
failure the next one leaves `INT_EN` clear. -/
theorem failed_saving_lasts : threadSystem.Initial quietStart ∧ ∃ choices iterations finish,
    threadSystem.Run threadSystem.unguarded quietStart choices iterations finish ∧
      ∃ iteration ∈ iterations, (∀ event ∈ iteration.trace, event.succeeded = true) ∧
        iteration.worldAfter.intEn ≠ enabledInterrupts := by
  have played : (playIterations quietStart
      [[interrupted, fails, fails, smooth intStsRsfl, smooth 0, interrupted, smooth 0],
        [smooth 0, smooth 0, smooth 0, smooth intStsRsfl]]).any (fun played => decide
          (∃ iteration ∈ played.1, (∀ event ∈ iteration.trace, event.succeeded = true) ∧
            iteration.worldAfter.intEn ≠ enabledInterrupts)) = true := by
    decide +kernel
  obtain ⟨⟨iterations, finish⟩, ran, checked⟩ := (Option.any_eq_true _ _).mp played
  obtain ⟨choices, run⟩ := run_of_playIterations ran
  exact ⟨⟨rfl, rfl, rfl⟩, choices, iterations, finish, run, of_decide_eq_true checked⟩

end Rp2350Stepper.Lan9250
