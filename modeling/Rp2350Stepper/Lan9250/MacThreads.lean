import Mathlib.Logic.Relation
import Rp2350Stepper.Lan9250.MacRegisters
import Rp2350Stepper.Semantics.Concurrent

/-!
# Host MAC and PHY registers used from several threads

The RX thread reads PHY registers on a PHY interrupt while configuration callers write the
hash registers or the MAC address. All of them go through `MAC_CSR_CMD` and `MAC_CSR_DATA`,
and no lock covers these: an access is exact in every run in which no other access writes
there between its own first write and its return, or while a command is waiting.
-/

namespace Rp2350Stepper.Lan9250

open Rp2350Stepper.Data Rp2350Stepper.Semantics

/-! ### The functions of the driver -/

/-- `lan9250_read_mac_reg`. -/
def readMacReg (address : MacAddress) : Driver Word := do
  waitReady macCsrCmd macCsrCmdBusy 0 macTimeout
  writeSysReg macCsrCmd (address.setWidth 32 ||| macCsrCmdBusy ||| macCsrCmdRead)
  waitReady macCsrCmd macCsrCmdBusy 0 macTimeout
  readSysReg macCsrData

/-- What the threads call. -/
inductive MacCall where
  | read (address : MacAddress)
  | write (address : MacAddress) (data : Word)
  | uptimeGet
  | sleep (ms : Nat)
  | hang
deriving DecidableEq

/-- What an access returns. -/
@[reducible] def MacCall.Result : MacCall → Type
  | .read _ => Except Errno Word
  | .write _ _ => Except Errno Unit
  | .uptimeGet => Int
  | .sleep _ => Unit
  | .hang => Empty

/-- The interface of code which uses the MAC's registers. -/
abbrev macCalls : Interface := ⟨MacCall, MacCall.Result⟩

/-- Code over these calls which returns early with a negative value on an error. -/
abbrev MacClient (α : Type) := ExceptT Errno (Program macCalls) α

namespace MacClient

/-- Read a register of the MAC. -/
def read (address : MacAddress) : MacClient Word := ExceptT.mk (.ask (.read address) .done)

/-- Write a register of the MAC. -/
def write (address : MacAddress) (data : Word) : MacClient Unit :=
  ExceptT.mk (.ask (.write address data) .done)

/-- One access. -/
def ask (call : MacCall) : Program macCalls call.Result := .ask call .done

end MacClient

/-- The loop of `lan9250_wait_mac_ready`. -/
def waitMacReadyLoop (address : MacAddress) (mask expected : Word) (deadline : Int) :
    Nat → MacClient Unit
  | 0 => do
      let stuck ← MacClient.ask .hang
      nomatch stuck
  | rounds + 1 => do
      if let .ok value ← (ExceptT.lift (MacClient.read address).run : MacClient _) then
        if value &&& mask = expected then return
      let now ← MacClient.ask .uptimeGet
      if deadline ≤ now then throw .eio
      MacClient.ask (.sleep 1)
      waitMacReadyLoop address mask expected deadline rounds

/-- `lan9250_wait_mac_ready`. -/
def waitMacReady (address : MacAddress) (mask expected : Word) (milliseconds : Nat) :
    MacClient Unit := do
  let start ← MacClient.ask .uptimeGet
  waitMacReadyLoop address mask expected (start + milliseconds) (milliseconds + 1)

/-- `HMAC_MII_ACC` for a PHY register. -/
def miiAccess (address : BitVec 8) : Word :=
  1#32 <<< 11 ||| (address.setWidth 32 &&& 0x1F) <<< 6

/-- `lan9250_read_phy_reg`. -/
def readPhyReg (address : BitVec 8) : MacClient (BitVec 16) := do
  waitMacReady hmacMiiAcc miiAccMiibzy 0 phyTimeout
  MacClient.write hmacMiiAcc (miiAccess address)
  waitMacReady hmacMiiAcc miiAccMiibzy 0 phyTimeout
  let value ← MacClient.read hmacMiiData
  return value.setWidth 16

/-- `lan9250_write_phy_reg`. -/
def writePhyReg (address : BitVec 8) (data : BitVec 16) : MacClient Unit := do
  waitMacReady hmacMiiAcc miiAccMiibzy 0 phyTimeout
  MacClient.write hmacMiiData (data.setWidth 32)
  MacClient.write hmacMiiAcc (miiAccess address ||| miiAccMiiwR)
  waitMacReady hmacMiiAcc miiAccMiibzy 0 phyTimeout

/-- `lan9250_mcast_hash_write`, over the calls. -/
def hashWrite (counts : HashRefcount) : MacClient Unit := do
  let (hashh, hashl) := mcastHash counts
  MacClient.write hmacHashl hashl
  MacClient.write hmacHashh hashh

/-- `lan9250_set_macaddr`. -/
def setMacaddr (macAddress : Vector Byte 6) : MacClient Unit := do
  MacClient.write hmacAddrl (addressLow macAddress)
  MacClient.write hmacAddrh (addressHigh macAddress)

/-! ### The MAC by itself -/

/-- What is recorded of the MAC. -/
inductive MacEvent where
  /-- A write command has been executed. -/
  | stored (address : MacAddress) (value : Word)
  /-- The MAC or the PHY has changed a register on its own. -/
  | changed (address : MacAddress) (value : Word)
deriving DecidableEq, Repr

/-- The MAC, the time and what has been recorded. -/
structure MacWorld where
  mac : Mac
  uptime : Int
  history : List MacEvent

/-- What happens before a transaction, and how the transaction ends. -/
structure MacChoice where
  elapsed : Nat
  changes : List (MacAddress × Word)
  executes : Bool
  outcome : Outcome

instance : Inhabited MacChoice := ⟨⟨0, [], true, .ok⟩⟩

namespace MacWorld

/-- A register of the MAC is changed. -/
def change (world : MacWorld) (value : MacAddress × Word) : MacWorld :=
  { world with
    mac := { world.mac with registers := Function.update world.mac.registers value.1 value.2 }
    history := world.history ++ [.changed value.1 value.2] }

/-- The register a waiting write command stores to, and what it stores. -/
def storing (mac : Mac) : List (MacAddress × Word) :=
  if mac.command &&& macCsrCmdBusy = 0 then []
  else if mac.command &&& macCsrCmdRead = 0 then
    [((mac.command &&& macCsrCmdAddr).setWidth 8, mac.data)]
  else []

/-- The MAC executes its command. -/
def execute (world : MacWorld) : MacWorld :=
  { world with
    mac := world.mac.execute
    history := world.history ++ (storing world.mac).map fun (address, value) => .stored address value }

/-- Some milliseconds pass. -/
def wait (world : MacWorld) (ms : Nat) : MacWorld := { world with uptime := world.uptime + ms }

/-- What happens before a request. -/
def advance (world : MacWorld) (choice : MacChoice) : MacWorld :=
  let changed := (choice.changes.foldl change world).wait choice.elapsed
  if choice.executes then changed.execute else changed

/-- End a transaction with its result and its effect. -/
def conclude {α : Type} (world : MacWorld) (outcome : Outcome) (value : α) (after : MacWorld) :
    Except Errno α × MacWorld :=
  match outcome with
  | .ok => (.ok value, after)
  | .failed true error => (.error error, after)
  | .failed false error => (.error error, world)

/-- Read `MAC_CSR_CMD` or `MAC_CSR_DATA`. -/
def read? (world : MacWorld) (address : Address) : Option Word :=
  if address = macCsrCmd then some world.mac.command
  else if address = macCsrData then some world.mac.data
  else none

/-- Write one of them. -/
def write? (world : MacWorld) (address : Address) (value : Word) : Option MacWorld :=
  if address = macCsrCmd then some { world with mac := { world.mac with command := value } }
  else if address = macCsrData then some { world with mac := { world.mac with data := value } }
  else none

/-- How the requests of an access are answered. -/
def answer (world : MacWorld) : (request : Request) → MacChoice →
    Option (Response request × MacWorld)
  | .readSysReg address, choice =>
      ((world.advance choice).read? address).map fun value =>
        (world.advance choice).conclude choice.outcome value (world.advance choice)
  | .writeSysReg address value, choice =>
      ((world.advance choice).write? address value).map fun after =>
        (world.advance choice).conclude choice.outcome () after
  | .uptimeGet, choice => some ((world.advance choice).uptime, world.advance choice)
  | .sleep ms, choice => some ((), (world.advance choice).wait ms)
  | .busyWait usec, choice => some ((), (world.advance choice).wait (usec / 1000))
  | _, _ => none

end MacWorld

/-- The MAC behind its two registers. -/
abbrev macDevice : Device driverInterface := ⟨MacWorld, MacChoice, MacWorld.answer⟩

/-- An access is open from its first write to its return, and relies on no command waiting when
it opens. -/
def macImplementation : Implementation macCalls macDevice where
  body
    | .read address => (readMacReg address).run
    | .write address data => (writeMacReg address data).run
    | .uptimeGet => call .uptimeGet
    | .sleep ms => call (.sleep ms)
    | .hang => call .hang
  opens
    | .writeSysReg _ _ => true
    | _ => false
  ready world := world.mac.Idle

/-- The writes of the hash registers are those of `lan9250_mcast_hash_write`. -/
theorem translate_hashWrite :
    mcastHashWrite.run =
      call .loadRefcount >>= fun counts => (hashWrite counts).run.translate macImplementation.body := by
  have lifted : mcastHashWrite.run = call .loadRefcount >>= fun counts =>
      (do writeMacReg hmacHashl (mcastHash counts).2
          writeMacReg hmacHashh (mcastHash counts).1 : Driver Unit).run := rfl
  rw [lifted]
  refine congrArg _ (funext fun counts => ?_)
  unfold hashWrite
  generalize mcastHash counts = hash
  obtain ⟨hashh, hashl⟩ := hash
  refine congrArg (Program.bind (writeMacReg hmacHashl hashl).run) (funext fun result => ?_)
  cases result with
  | ok _ => exact (Program.bind_done _).symm
  | error _ => rfl

/-! ### What an access should do -/

/-- A register has held a value at some instant between two states. -/
def RegisterHeld (before after : MacWorld) (address : MacAddress) (value : Word) : Prop :=
  before.mac.registers address = value ∨
    .stored address value ∈ after.history.drop before.history.length ∨
    .changed address value ∈ after.history.drop before.history.length

/-- What the MAC has stored among these events. -/
def stores (events : List MacEvent) : List (MacAddress × Word) :=
  events.filterMap fun event => match event with
    | .stored address value => some (address, value)
    | .changed _ _ => none

/-- A read returns a value its register has held during the call; from its first write on, a
write has had its word stored in its register once, and nothing else has been stored. -/
def MacExact : (call : MacCall) → (before : MacWorld) → (opened : Option MacWorld) →
    call.Result → (after : MacWorld) → Prop
  | .read address, before, _, result, after =>
      ∀ value, result = .ok value → RegisterHeld before after address value
  | .write address data, _, opened, result, after =>
      result = .ok () → ∃ state ∈ opened,
        stores (after.history.drop state.history.length) = [(address, data)]
  | _, _, _, _, _ => True

/-! ### What the transactions do -/

/-- What the MAC does on its own. -/
inductive MacMove : MacWorld → MacWorld → Prop where
  | change (world value) : MacMove world (world.change value)
  | execute (world) : MacMove world world.execute
  | wait (world ms) : MacMove world (world.wait ms)

/-- Any number of such moves. -/
abbrev MacMoves : MacWorld → MacWorld → Prop := Relation.ReflTransGen MacMove

/-- What one move keeps, some moves keep. -/
theorem MacMoves.keeps {holds : MacWorld → Prop}
    (stable : ∀ {world next}, MacMove world next → holds world → holds next) {world next : MacWorld}
    (moves : MacMoves world next) (here : holds world) : holds next := by
  induction moves with
  | refl => exact here
  | tail _ last inductionHypothesis => exact stable last inductionHypothesis

/-- Whatever is done to the MAC, its registers change only as its history says. -/
def Grown (world next : MacWorld) : Prop :=
  ∃ later, next.history = world.history ++ later ∧ ∀ address,
    next.mac.registers address = world.mac.registers address ∨
    .stored address (next.mac.registers address) ∈ later ∨
    .changed address (next.mac.registers address) ∈ later

namespace Grown

theorem refl (world : MacWorld) : Grown world world := ⟨[], by simp, fun _ => .inl rfl⟩

theorem trans {first second third : MacWorld} (before : Grown first second)
    (after : Grown second third) : Grown first third := by
  obtain ⟨later, history, known⟩ := before
  obtain ⟨later', history', known'⟩ := after
  refine ⟨later ++ later', by rw [history', history, List.append_assoc], fun address => ?_⟩
  rcases known' address with same | stored | changed
  · rw [same]
    exact (known address).imp_right fun held =>
      held.imp (List.mem_append_left _) (List.mem_append_left _)
  · exact .inr (.inl (List.mem_append_right _ stored))
  · exact .inr (.inr (List.mem_append_right _ changed))

/-- A change which leaves the registers and the history alone. -/
theorem of_same {world next : MacWorld} (registers : next.mac.registers = world.mac.registers)
    (history : next.history = world.history) : Grown world next :=
  ⟨[], by rw [history, List.append_nil], fun address => .inl (congrFun registers address)⟩

/-- A move only adds to what has been recorded. -/
theorem move {world next : MacWorld} (move : MacMove world next) : Grown world next := by
  cases move with
  | change value =>
      refine ⟨[.changed value.1 value.2], rfl, fun address => ?_⟩
      by_cases own : address = value.1
      · subst own
        simp [MacWorld.change]
      · simp [MacWorld.change, Function.update_of_ne own]
  | execute =>
      refine ⟨_, rfl, fun address => ?_⟩
      simp only [MacWorld.execute, Mac.execute, MacWorld.storing]
      split
      · exact .inl rfl
      · split
        · by_cases own : address = (world.mac.command &&& macCsrCmdAddr).setWidth 8
          · subst own
            simp
          · exact .inl (Function.update_of_ne own _ _)
        · exact .inl rfl
  | wait => exact of_same rfl rfl

theorem moves {world next : MacWorld} (moves : MacMoves world next) : Grown world next :=
  MacMoves.keeps (fun last before => before.trans (move last)) moves (refl world)

/-- What a register holds is held, and what has been held earlier is held. -/
theorem registerHeld {before world next : MacWorld} {address : MacAddress} {value : Word}
    (earlier : Grown before world) (later : Grown world next)
    (held : RegisterHeld before world address value) : RegisterHeld before next address value := by
  obtain ⟨events, history, _⟩ := earlier
  obtain ⟨events', history', _⟩ := later
  unfold RegisterHeld at *
  rw [history, List.drop_left] at held
  rw [history', history, List.append_assoc, List.drop_left]
  exact held.imp_right fun member => member.imp (List.mem_append_left _) (List.mem_append_left _)

/-- What a register holds now it has held at some instant since. -/
theorem registerShown {before world : MacWorld} (grown : Grown before world) (address : MacAddress) :
    RegisterHeld before world address (world.mac.registers address) := by
  obtain ⟨later, history, known⟩ := grown
  rw [RegisterHeld, history, List.drop_left]
  exact (known address).imp_left Eq.symm

end Grown

/-- What happens before a request is some moves. -/
theorem advance_moves (world : MacWorld) (choice : MacChoice) :
    MacMoves world (world.advance choice) := by
  have changed := foldl_relates MacMoves (fun _ => .refl) .trans
    (fun world value => .single (.change world value)) choice.changes world
  have waited := changed.tail (.wait _ choice.elapsed)
  unfold MacWorld.advance
  simp only
  split
  · exact waited.tail (.execute _)
  · exact waited

/-- A read of a register leaves the MAC to itself. -/
theorem readReg_moves {world next : MacWorld} {address : Address} {choice : MacChoice}
    {result : Except Errno Word}
    (answered : world.answer (.readSysReg address) choice = some (result, next)) :
    MacMoves world next ∧ ∀ value, result = .ok value → next.read? address = some value := by
  simp only [MacWorld.answer, Option.map_eq_some_iff] at answered
  obtain ⟨shown, found, concluded⟩ := answered
  have moves := advance_moves world choice
  unfold MacWorld.conclude at concluded
  split at concluded <;> obtain ⟨rfl, rfl⟩ := Prod.mk.inj concluded <;> refine ⟨moves, ?_⟩
  · rintro value same
    obtain rfl := Except.ok.inj same
    exact found
  · intro value failed
    cases failed
  · intro value failed
    cases failed

/-- A write has its effect if it succeeds. -/
theorem writeReg_effect {world next : MacWorld} {address : Address} {value : Word}
    {choice : MacChoice} {result : Except Errno Unit}
    (answered : world.answer (.writeSysReg address value) choice = some (result, next)) :
    ∃ written, (world.advance choice).write? address value = some written ∧
      (next = written ∨ next = world.advance choice) ∧ (result = .ok () → next = written) := by
  simp only [MacWorld.answer, Option.map_eq_some_iff] at answered
  obtain ⟨written, found, concluded⟩ := answered
  refine ⟨written, found, ?_⟩
  unfold MacWorld.conclude at concluded
  split at concluded <;> obtain ⟨rfl, rfl⟩ := Prod.mk.inj concluded <;> simp

/-- A write only adds to what has been recorded. -/
theorem write?_grown {world next : MacWorld} {address : Address} {value : Word}
    (written : world.write? address value = some next) : Grown world next := by
  unfold MacWorld.write? at written
  repeat' split at written
  all_goals cases written
  · exact .of_same rfl rfl
  · exact .of_same rfl rfl

/-- Registers change only as the history says; and while the threads write nothing the MAC is
left to itself. -/
def macInterference : macImplementation.Interference where
  anything := Grown
  harmless := MacMoves
  anything_refl := Grown.refl
  anything_trans := Grown.trans
  harmless_refl _ := .refl
  harmless_trans := .trans
  answers {state request choice response after} answered := by
    have advanced := Grown.moves (advance_moves state choice)
    cases request with
    | readSysReg address => exact Grown.moves (readReg_moves answered).1
    | writeSysReg address value =>
        obtain ⟨written, found, rfl | rfl, _⟩ := writeReg_effect answered
        · exact advanced.trans (write?_grown found)
        · exact advanced
    | uptimeGet | sleep | busyWait =>
        simp only [MacWorld.answer, Option.some.injEq, Prod.mk.injEq] at answered
        obtain ⟨_, rfl⟩ := answered
        exact advanced
    | _ => simp [MacWorld.answer] at answered
  quiet {state request choice response after} unopened answered := by
    have advanced := advance_moves state choice
    cases request with
    | readSysReg address => exact (readReg_moves answered).1
    | writeSysReg address value => simp [macImplementation] at unopened
    | uptimeGet =>
        simp only [MacWorld.answer, Option.some.injEq, Prod.mk.injEq] at answered
        obtain ⟨_, rfl⟩ := answered
        exact advanced
    | sleep | busyWait =>
        simp only [MacWorld.answer, Option.some.injEq, Prod.mk.injEq] at answered
        obtain ⟨_, rfl⟩ := answered
        exact advanced.tail (.wait _ _)
    | _ => simp [MacWorld.answer] at answered

/-! ### Waiting -/

section Waiting

variable {opened : Option MacWorld} {holds : MacWorld → Prop}
  (kept : ∀ {world next}, macInterference.rely opened world next → holds world → holds next)

include kept

/-- A request which does not open the access keeps what the others keep. -/
private theorem secure_quiet {request : Request} {world : MacWorld}
    {post : Option MacWorld → Response request → MacWorld → Prop}
    (unopened : macImplementation.opens request = false) (here : holds world)
    (returns : ∀ response after next, holds after → macInterference.rely opened after next →
      (∃ later choice, MacWorld.answer later request choice = some (response, after)) →
      post opened response next) :
    macInterference.Secure (call request) opened world post := by
  intro later before _ choice response after answered
  rw [if_neg (by simp [unopened])]
  intro next since
  have quiet : macInterference.rely opened later after := by
    cases opened with
    | none => exact macInterference.answers answered
    | some => exact macInterference.quiet unopened answered
  exact returns response after next (kept quiet (kept before here)) since ⟨later, choice, answered⟩

/-- The loop keeps what the others keep, and after a success no command has been waiting. -/
theorem waitReadyLoop_secure (deadline : Int) (rounds : Nat) (world : MacWorld) (here : holds world) :
    macInterference.Secure (waitReadyLoop macCsrCmd macCsrCmdBusy 0 deadline rounds).run opened world
      fun opened' result next => opened' = opened ∧ (result = .ok () → ∃ ready, holds ready ∧
        ready.mac.Idle ∧ macInterference.rely opened ready next) := by
  induction rounds generalizing world with
  | zero =>
      intro later _ _ choice response after answered
      simp [MacWorld.answer] at answered
  | succ rounds inductionHypothesis =>
      unfold waitReadyLoop
      refine .run_bind ?_
      have attempted : (attempt (readSysReg macCsrCmd)).run =
          call (.readSysReg macCsrCmd) >>= fun result => pure (.ok result) := rfl
      rw [attempted]
      refine .bind (secure_quiet kept rfl here ?_)
      rintro result shown next here since ⟨_, _, answered⟩
      have found := (readReg_moves answered).2
      intro later after
      have sinceShown := macInterference.rely_trans since after
      have goesOn : macInterference.Secure (ExceptT.run (do
          let now ← call .uptimeGet
          if deadline ≤ now then throw .eio
          call (.busyWait 1000)
          waitReadyLoop macCsrCmd macCsrCmdBusy 0 deadline rounds : Driver Unit)) opened later
          fun opened' result next => opened' = opened ∧ (result = .ok () → ∃ ready, holds ready ∧
            ready.mac.Idle ∧ macInterference.rely opened ready next) := by
        refine .run_bind (.run_lift (secure_quiet kept rfl (kept sinceShown here) ?_))
        intro now timed next timedHere since _ later after
        have laterHere := kept (macInterference.rely_trans since after) timedHere
        simp only
        split
        · exact fun _ _ => ⟨rfl, by simp⟩
        · refine .run_bind (.run_lift (secure_quiet kept rfl laterHere ?_))
          intro _ waited next waitedHere since _ later after
          exact inductionHypothesis later (kept (macInterference.rely_trans since after) waitedHere)
      cases result with
      | error => exact goesOn
      | ok value =>
          simp only
          split
          · rename_i ready
            have command : shown.mac.command = value := Option.some.inj (found value rfl)
            rw [← command] at ready
            exact fun finish relied =>
              ⟨rfl, fun _ => ⟨shown, here, ready, macInterference.rely_trans sinceShown relied⟩⟩
          · exact goesOn

/-- Waiting ends with an idle MAC or an error, whoever else moves it. -/
theorem waitReady_secure (milliseconds : Nat) (world : MacWorld) (here : holds world) :
    macInterference.Secure (waitReady macCsrCmd macCsrCmdBusy 0 milliseconds).run opened world
      fun opened' result next => opened' = opened ∧ (result = .ok () → ∃ ready, holds ready ∧
        ready.mac.Idle ∧ macInterference.rely opened ready next) := by
  unfold waitReady
  refine .run_bind (.run_lift (secure_quiet kept rfl here ?_))
  intro start timed next timedHere since _ later after
  exact waitReadyLoop_secure kept _ _ later (kept (macInterference.rely_trans since after) timedHere)

end Waiting

/-! ### Writing -/

/-- The write which opens an access: no command is waiting. -/
private theorem secure_opening {address : Address} {value : Word} {world : MacWorld}
    {post : Option MacWorld → Except Errno Unit → MacWorld → Prop}
    (returns : ∀ result first current next, Grown world first → first.mac.Idle →
      MacMoves first current → (result = .ok () → ∃ written,
        current.write? address value = some written ∧ MacMoves written next) →
      post (some first) result next) :
    macInterference.Secure (writeSysReg address value).run none world post := by
  intro first before ready choice result after answered next since
  obtain ⟨written, found, _, succeeds⟩ := writeReg_effect answered
  have idle : first.mac.Idle := by simpa [macImplementation] using ready rfl
  apply returns result first (first.advance choice) next before idle (advance_moves first choice)
  exact fun succeeded => ⟨written, found, succeeds succeeded ▸ since⟩

/-- A later one. -/
private theorem secure_further {address : Address} {value : Word} {first world : MacWorld}
    {post : Option MacWorld → Except Errno Unit → MacWorld → Prop}
    (returns : ∀ result current next, MacMoves world current → (result = .ok () → ∃ written,
      current.write? address value = some written ∧ MacMoves written next) →
      post (some first) result next) :
    macInterference.Secure (writeSysReg address value).run (some first) world post := by
  intro later before _ choice result after answered next since
  obtain ⟨written, found, _, succeeds⟩ := writeReg_effect answered
  refine returns result (later.advance choice) next
    (Relation.ReflTransGen.trans before (advance_moves later choice)) ?_
  exact fun succeeded => ⟨written, found, succeeds succeeded ▸ since⟩

/-- Just this has been stored since. -/
def StoredSince (since : MacWorld) (stored : List (MacAddress × Word)) (world : MacWorld) : Prop :=
  ∃ later, world.history = since.history ++ later ∧ stores later = stored

/-- Nothing has been stored yet. -/
theorem StoredSince.refl (world : MacWorld) : StoredSince world [] world := ⟨[], by simp, rfl⟩

/-- A change by another hand is not stored by this call. -/
theorem StoredSince.change {since world : MacWorld} {stored : List (MacAddress × Word)}
    (before : StoredSince since stored world) (value : MacAddress × Word) :
    StoredSince since stored (world.change value) := by
  obtain ⟨later, history, rfl⟩ := before
  refine ⟨later ++ [.changed value.1 value.2], by simp [MacWorld.change, history], ?_⟩
  rw [stores, List.filterMap_append]
  exact List.append_nil _

/-- An executed write is stored. -/
theorem StoredSince.execute {since world : MacWorld} {stored : List (MacAddress × Word)}
    (before : StoredSince since stored world) :
    StoredSince since (stored ++ MacWorld.storing world.mac) world.execute := by
  obtain ⟨later, history, rfl⟩ := before
  refine ⟨later ++ (MacWorld.storing world.mac).map fun (address, value) => .stored address value,
    by simp [MacWorld.execute, history], ?_⟩
  rw [stores, List.filterMap_append, List.filterMap_map]
  exact congrArg (stores later ++ ·) List.filterMap_some

/-- The MAC is idle with this data word, and just this has been stored since. -/
structure Prepared (since : MacWorld) (data : Word) (stored : List (MacAddress × Word))
    (world : MacWorld) : Prop where
  idle : world.mac.Idle
  data : world.mac.data = data
  stored : StoredSince since stored world

/-- A loaded word stays loaded. -/
theorem Prepared.move {since world next : MacWorld} {data : Word}
    {stored : List (MacAddress × Word)} (move : MacMove world next)
    (before : Prepared since data stored world) : Prepared since data stored next := by
  obtain ⟨idle, sameData, since⟩ := before
  cases move with
  | change value => exact ⟨idle, sameData, since.change value⟩
  | wait => exact ⟨idle, sameData, since⟩
  | execute =>
      have none : MacWorld.storing world.mac = [] := if_pos idle
      have same : world.execute.mac = world.mac := Mac.execute_of_idle idle
      have still := since.execute
      rw [none, List.append_nil] at still
      exact ⟨same ▸ idle, same ▸ sameData, still⟩

/-- A write command is waiting, or has been executed. -/
def Writing (since : MacWorld) (address : MacAddress) (data : Word) (world : MacWorld) : Prop :=
  (world.mac.command = Mac.writeCommand address ∧ world.mac.data = data ∧
    StoredSince since [] world) ∨
  (world.mac.Idle ∧ StoredSince since [(address, data)] world)

/-- A write which has been given stays given or is executed. -/
theorem Writing.move {since world next : MacWorld} {address : MacAddress} {data : Word}
    (move : MacMove world next) (before : Writing since address data world) :
    Writing since address data next := by
  rcases before with ⟨command, sameData, stored⟩ | ⟨idle, stored⟩
  · cases move with
    | change value => exact .inl ⟨command, sameData, stored.change value⟩
    | wait => exact .inl ⟨command, sameData, stored⟩
    | execute =>
        obtain ⟨busy, writes, addressed⟩ := Mac.writeCommand_fields address
        have storing : MacWorld.storing world.mac = [(address, data)] := by
          rw [MacWorld.storing, command, if_neg busy, if_pos writes, addressed, sameData]
        exact .inr ⟨world.mac.idle_execute, storing ▸ stored.execute⟩
  · have prepared : Prepared since world.mac.data [(address, data)] world := ⟨idle, rfl, stored⟩
    exact .inr ⟨(prepared.move move).idle, (prepared.move move).stored⟩

/-- A write which returns 0 has had its word stored in its register, and nothing else. -/
theorem writeMacReg_secure (address : MacAddress) (data : Word) (before : MacWorld) :
    macInterference.Secure (writeMacReg address data).run none before
      fun opened result after => result = .ok () → ∃ state ∈ opened,
        stores (after.history.drop state.history.length) = [(address, data)] := by
  unfold writeMacReg
  refine .run_bind ((waitReady_secure (fun _ _ => trivial) macTimeout before trivial).weaken ?_)
  rintro _ result waited ⟨rfl, _⟩
  cases result with
  | error error => exact fun _ _ => nofun
  | ok _ =>
      refine .run_bind (secure_opening ?_)
      intro result first current stored _ idle moves wrote
      cases result with
      | error error => exact fun _ _ => nofun
      | ok _ =>
          obtain ⟨written, found, since⟩ := wrote rfl
          have prepared : Prepared first data [] stored := by
            have here : Prepared first first.mac.data [] first := ⟨idle, rfl, .refl first⟩
            have ready := MacMoves.keeps Prepared.move moves here
            apply MacMoves.keeps Prepared.move since
            rw [MacWorld.write?, if_neg (by decide), if_pos rfl, Option.some.injEq] at found
            rw [← found]
            exact ⟨ready.idle, rfl, ready.stored⟩
          refine .run_bind (secure_further ?_)
          intro result current commanded moves wrote
          cases result with
          | error error => exact fun _ _ => nofun
          | ok _ =>
              obtain ⟨written, found, since⟩ := wrote rfl
              have writing : Writing first address data commanded := by
                have ready := MacMoves.keeps Prepared.move moves prepared
                apply MacMoves.keeps Writing.move since
                rw [MacWorld.write?, if_pos rfl, Option.some.injEq] at found
                rw [← found]
                exact .inl ⟨rfl, ready.data, ready.stored⟩
              have kept {world next : MacWorld} (relied : macInterference.rely (some first) world next) :
                  Writing first address data world → Writing first address data next :=
                MacMoves.keeps Writing.move relied
              apply (waitReady_secure kept macTimeout commanded writing).weaken
              rintro _ result finished ⟨rfl, ready⟩ succeeded
              obtain ⟨shown, ⟨command, _⟩ | ⟨idle, stored⟩, unwaiting, since⟩ := ready succeeded
              · rw [Mac.Idle, command] at unwaiting
                exact absurd unwaiting (Mac.writeCommand_fields address).1
              · have executed : Prepared first shown.mac.data [(address, data)] finished :=
                  MacMoves.keeps Prepared.move since ⟨idle, rfl, stored⟩
                obtain ⟨later, history, once⟩ := executed.stored
                exact ⟨first, rfl, by rw [history, List.drop_left, once]⟩

/-! ### Reading -/

/-- The data word is a value the register has held, and no command is waiting. -/
structure Fetched (before : MacWorld) (address : MacAddress) (world : MacWorld) : Prop where
  grown : Grown before world
  idle : world.mac.Idle
  held : RegisterHeld before world address world.mac.data

/-- A word which has been fetched stays. -/
theorem Fetched.move {before world next : MacWorld} {address : MacAddress}
    (move : MacMove world next) (fetched : Fetched before address world) :
    Fetched before address next := by
  obtain ⟨grown, idle, held⟩ := fetched
  have prepared : Prepared world world.mac.data [] world := ⟨idle, rfl, .refl world⟩
  obtain ⟨still, same, _⟩ := prepared.move move
  have moved := Grown.move move
  refine ⟨grown.trans moved, still, ?_⟩
  rw [same]
  exact grown.registerHeld moved held

/-- A read command is waiting, or has been executed. -/
def Reading (before : MacWorld) (address : MacAddress) (world : MacWorld) : Prop :=
  Grown before world ∧ world.mac.command = Mac.readCommand address ∨ Fetched before address world

/-- A read which has been given stays given or is executed. -/
theorem Reading.move {before world next : MacWorld} {address : MacAddress}
    (move : MacMove world next) (reading : Reading before address world) :
    Reading before address next := by
  rcases reading with ⟨grown, command⟩ | fetched
  · have moved := Grown.move move
    cases move with
    | change => exact .inl ⟨grown.trans moved, command⟩
    | wait => exact .inl ⟨grown.trans moved, command⟩
    | execute =>
        have shown : world.execute.mac.data = world.mac.registers address := by
          have executed := Mac.execute_readCommand address world.mac.data world.mac.registers
          rwa [← command] at executed
        refine .inr ⟨grown.trans moved, world.mac.idle_execute, ?_⟩
        rw [shown]
        exact grown.registerHeld moved (grown.registerShown address)
  · exact .inr (fetched.move move)

/-- A read which returns 0 yields a value its register has held during the call. -/
theorem readMacReg_secure (address : MacAddress) (before : MacWorld) :
    macInterference.Secure (readMacReg address).run none before
      fun _ result after => ∀ value, result = .ok value → RegisterHeld before after address value := by
  have failed (opened : Option MacWorld) (error : Errno) (world : MacWorld) :
      ∀ later, macInterference.rely opened world later → ∀ value : Word,
        Except.error error = Except.ok value → RegisterHeld before later address value :=
    fun _ _ _ => nofun
  unfold readMacReg
  have grows {world next : MacWorld} (relied : macInterference.rely none world next) :
      Grown before world → Grown before next := fun earlier => earlier.trans relied
  refine .run_bind ((waitReady_secure grows macTimeout before (.refl before)).weaken ?_)
  rintro _ result waited ⟨rfl, ready⟩
  cases result with
  | error error => exact failed _ _ _
  | ok _ =>
      obtain ⟨shown, earlier, _, relied⟩ := ready rfl
      have grown := grows relied earlier
      refine .run_bind (secure_opening ?_)
      intro result first current commanded before' idle moves wrote
      cases result with
      | error error => exact failed _ _ _
      | ok _ =>
          obtain ⟨written, found, since⟩ := wrote rfl
          have reading : Reading before address commanded := by
            apply MacMoves.keeps Reading.move since
            rw [MacWorld.write?, if_pos rfl, Option.some.injEq] at found
            rw [← found]
            exact .inl ⟨((grown.trans before').trans (Grown.moves moves)).trans (.of_same rfl rfl), rfl⟩
          have kept {world next : MacWorld} (relied : macInterference.rely (some first) world next) :
              Reading before address world → Reading before address next :=
            MacMoves.keeps Reading.move relied
          refine .run_bind ((waitReady_secure kept macTimeout commanded reading).weaken ?_)
          rintro _ result fetched ⟨rfl, ready⟩
          cases result with
          | error error => exact failed _ _ _
          | ok _ =>
              obtain ⟨shown, ⟨_, command⟩ | executed, unwaiting, since⟩ := ready rfl
              · rw [Mac.Idle, command] at unwaiting
                exact absurd unwaiting (Mac.readCommand_fields address).1
              · have still {world next : MacWorld}
                    (relied : macInterference.rely (some first) world next) :
                    Fetched before address world → Fetched before address next :=
                  MacMoves.keeps Fetched.move relied
                refine secure_quiet still rfl (still since executed) ?_
                rintro result shown next held relied ⟨_, _, answered⟩ value succeeded
                have found := (readReg_moves answered).2 value succeeded
                rw [MacWorld.read?, if_neg (by decide), if_pos rfl, Option.some.injEq] at found
                rw [← found]
                exact held.grown.registerHeld (Grown.moves relied) held.held

/-! ### Runs -/

/-- Any threads, each with any client. -/
abbrev macThreads (ThreadId : Type) [DecidableEq ThreadId] :
    System (Implementation.Ended macCalls macDevice) :=
  macImplementation.system ThreadId

/-- In every run in which `MAC_CSR_CMD` and `MAC_CSR_DATA` are written only while no other
access is between its first write and its return, and first written by an access only while
no command is waiting, every write which returns 0 has stored its word in its register and
nothing else, and every read which returns 0 yields a value its register has held. -/
theorem undisturbed_accesses_exact {ThreadId : Type} [DecidableEq ThreadId]
    {start finish : Implementation.Shared ThreadId macCalls macDevice}
    {choices : List (ThreadId × MacChoice)}
    {events : List (Implementation.Ended macCalls macDevice)}
    (initially : (macThreads ThreadId).Initial start)
    (run : (macThreads ThreadId).Run macImplementation.Undisturbed start choices events finish) :
    ∀ event ∈ events,
      MacExact event.call event.before event.opened event.result event.after := by
  have secure : ∀ (call : MacCall) before, macInterference.Secure (macImplementation.body call)
      none before (MacExact call before) := by
    intro call before
    cases call with
    | read address => exact readMacReg_secure address before
    | write address data => exact writeMacReg_secure address data before
    | uptimeGet | sleep | hang =>
        exact secure_quiet (fun _ _ => trivial) rfl trivial fun _ _ _ _ _ _ => trivial
  exact Implementation.ended_of_secure secure initially run

/-! ### A link interrupt during a multicast join -/

/-- The PHY's last access has left `HMAC_MII_ACC` as it is, and no group has been joined. -/
private def noGroups : MacWorld where
  mac := ⟨0, 0, Function.update (fun _ => 0) hmacMiiAcc (miiAccess phyInterruptSource)⟩
  uptime := 0
  history := []

/-- One group is joined, whose hash is 5. -/
private def oneGroup : HashRefcount := fun bit => if bit = 5 then 1 else 0

/-- The thread reads the PHY's flags. -/
private def linkInterrupt : MacClient Unit := do
  let _ ← readPhyReg phyInterruptSource

/-- The configuration caller and the RX thread, which end with their clients. -/
private def callerAndRx (caller rx : MacClient Unit) :
    Implementation.Shared Bool macCalls macDevice :=
  ⟨noGroups, fun thread => .between ((if thread then rx else caller).run >>= fun _ => pure ())⟩

/-- This many steps of one thread. -/
private def takesSteps (rx : Bool) (count : Nat) : List (Bool × MacChoice) :=
  List.replicate count (rx, default)

/-- Whether an access has returned 0 and not done what it should. -/
private def spoilt : Implementation.Ended macCalls macDevice → Bool
  | ⟨.read address, .ok value, before, _, after⟩ =>
      !(decide (before.mac.registers address = value) ||
        (after.history.drop before.history.length).any fun event =>
          event = .stored address value || event = .changed address value)
  | ⟨.write address data, .ok _, _, some opened, after⟩ =>
      stores (after.history.drop opened.history.length) ≠ [(address, data)]
  | _ => false

/-- A call which is spoilt is not exact. -/
private theorem not_macExact {event : Implementation.Ended macCalls macDevice}
    (wrong : spoilt event = true) :
    ¬MacExact event.call event.before event.opened event.result event.after := by
  obtain ⟨call, result, before, opened, after⟩ := event
  intro exact
  cases call with
  | read address =>
      cases result with
      | error => simp [spoilt] at wrong
      | ok value =>
          simp only [spoilt, Bool.not_eq_true', Bool.or_eq_false_iff, decide_eq_false_iff_not,
            List.any_eq_false, Bool.or_eq_true, decide_eq_true_eq] at wrong
          rcases exact value rfl with held | stored | changed
          · exact wrong.1 held
          · exact wrong.2 _ stored (.inl rfl)
          · exact wrong.2 _ changed (.inr rfl)
  | write address data =>
      cases result with
      | error => simp [spoilt] at wrong
      | ok done =>
          obtain ⟨state, isOpen, once⟩ := exact rfl
          obtain rfl : opened = some state := isOpen
          simp [spoilt, once] at wrong
  | uptimeGet | sleep | hang => simp [spoilt] at wrong

/-- A PHY read between the data and the command of a hash register write has the write store
the PHY's access word; and a hash register write between the command and the data of a PHY
read has the read return the hash. -/
theorem link_interrupt_collides :
    (∃ start choices events finish, (macThreads Bool).Initial start ∧
      (macThreads Bool).Run (macThreads Bool).unguarded start choices events finish ∧
      (∃ event ∈ events, (∃ address data, event.call = .write address data) ∧
        ¬MacExact event.call event.before event.opened event.result event.after) ∧
      finish.state.mac.registers hmacHashl = miiAccess phyInterruptSource) ∧
    ∃ start choices events finish, (macThreads Bool).Initial start ∧
      (macThreads Bool).Run (macThreads Bool).unguarded start choices events finish ∧
      ∃ event ∈ events, (∃ address, event.call = .read address) ∧
        ¬MacExact event.call event.before event.opened event.result event.after := by
  have initially : (macThreads Bool).Initial (callerAndRx (hashWrite oneGroup) linkInterrupt) :=
    fun _ => ⟨_, rfl⟩
  constructor
  · have ran : (System.execute macImplementation.step (fun _ _ => true)
        (callerAndRx (hashWrite oneGroup) linkInterrupt)
        (takesSteps false 4 ++ takesSteps true 8 ++ takesSteps false 4)).map (fun (events, finish) =>
          (events.any fun event => (event.call matches .write _ _) && spoilt event) &&
            finish.state.mac.registers hmacHashl = miiAccess phyInterruptSource) = some true := by
      decide +kernel
    obtain ⟨⟨events, finish⟩, executed, found⟩ := Option.map_eq_some_iff.mp ran
    obtain ⟨found, shown⟩ := Bool.and_eq_true_iff.mp found
    obtain ⟨event, member, wrong⟩ := List.any_eq_true.mp found
    obtain ⟨isWrite, wrong⟩ := Bool.and_eq_true_iff.mp wrong
    refine ⟨_, _, events, finish, initially, System.unguarded_run_of_execute executed,
      ⟨event, member, ?_, not_macExact wrong⟩, of_decide_eq_true shown⟩
    cases call : event.call with
    | write address data => exact ⟨address, data, rfl⟩
    | _ => simp [call] at isWrite
  · have ran : (System.execute macImplementation.step (fun _ _ => true)
        (callerAndRx (hashWrite oneGroup) linkInterrupt)
        (takesSteps false 3 ++ takesSteps true 9 ++ takesSteps false 1 ++ takesSteps true 2)).map
          (fun (events, _) => events.any fun event => (event.call matches .read _) && spoilt event) =
        some true := by
      decide +kernel
    obtain ⟨⟨events, finish⟩, executed, found⟩ := Option.map_eq_some_iff.mp ran
    obtain ⟨event, member, wrong⟩ := List.any_eq_true.mp found
    obtain ⟨isRead, wrong⟩ := Bool.and_eq_true_iff.mp wrong
    refine ⟨_, _, events, finish, initially, System.unguarded_run_of_execute executed, event,
      member, ?_, not_macExact wrong⟩
    cases call : event.call with
    | read address => exact ⟨address, rfl⟩
    | _ => simp [call] at isRead

private def macAddress : Vector Byte 6 := #v[0x02, 0, 0, 0, 0, 0x01]

/-- While the MAC address is being set, the RX thread waits for the MAC and for the PHY, but
its first write comes after the last return: every access is exact. -/
theorem waits_are_harmless : ∃ start choices events finish, (macThreads Bool).Initial start ∧
    (macThreads Bool).Run macImplementation.Undisturbed start choices events finish ∧
    events.map (·.call) =
      [.uptimeGet, .write hmacAddrl 2, .write hmacAddrh 0x100, .read hmacMiiAcc,
        .write hmacMiiAcc (miiAccess phyInterruptSource), .uptimeGet, .read hmacMiiAcc,
        .read hmacMiiData] ∧
    ∀ event ∈ events,
      MacExact event.call event.before event.opened event.result event.after := by
  have ran : (System.execute macImplementation.step
      (macImplementation.isUndisturbed (fun world => world.mac.command &&& macCsrCmdBusy = 0)
        [false, true])
      (callerAndRx (setMacaddr macAddress) linkInterrupt)
      (takesSteps false 4 ++ takesSteps true 6 ++ takesSteps false 12 ++ takesSteps true 32)).map
        (fun (events, _) => events.map (·.call)) =
      some [.uptimeGet, .write hmacAddrl 2, .write hmacAddrh 0x100, .read hmacMiiAcc,
        .write hmacMiiAcc (miiAccess phyInterruptSource), .uptimeGet, .read hmacMiiAcc,
        .read hmacMiiData] := by
    decide +kernel
  obtain ⟨⟨events, finish⟩, executed, calls⟩ := Option.map_eq_some_iff.mp ran
  have initially : (macThreads Bool).Initial (callerAndRx (setMacaddr macAddress) linkInterrupt) :=
    fun _ => ⟨_, rfl⟩
  have run : (macThreads Bool).Run macImplementation.Undisturbed _ _ events finish :=
    (System.run_of_execute executed).weaken fun shared choice decided =>
      macImplementation.undisturbed_of_isUndisturbed
        (fun world idle => (of_decide_eq_true idle : world.mac.command &&& macCsrCmdBusy = 0))
        (by decide) decided
  exact ⟨_, _, events, finish, initially, run, calls, undisturbed_accesses_exact initially run⟩

end Rp2350Stepper.Lan9250
