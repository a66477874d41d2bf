import Rp2350Stepper.Lan9250.Multicast
import Rp2350Stepper.Lan9250.Captures
import Mathlib.Logic.Function.Basic

/-!
# The Host MAC registers

They are reached through `MAC_CSR_CMD` and `MAC_CSR_DATA`: a command waits there until
the MAC executes it. A write which has waited for the MAC to be ready, and after its
command for the MAC to be ready again, has stored its word and no other.
-/

namespace Rp2350Stepper.Lan9250

open Rp2350Stepper.Data Rp2350Stepper.Semantics

/-- The part of the chip behind `MAC_CSR_CMD` and `MAC_CSR_DATA`. -/
structure Mac where
  command : Word
  data : Word
  registers : MacAddress → Word

/-- The Host MAC of the chip. -/
def Chip.mac (chip : Chip) : Mac := ⟨chip.macCmd, chip.macData, chip.hmac⟩

namespace Mac

/-- Execute the command, if any. -/
def execute (mac : Mac) : Mac :=
  if mac.command &&& macCsrCmdBusy = 0 then mac
  else
    let address : MacAddress := (mac.command &&& macCsrCmdAddr).setWidth 8
    if mac.command &&& macCsrCmdRead = 0 then
      { mac with
        command := mac.command &&& ~~~macCsrCmdBusy
        registers := Function.update mac.registers address mac.data }
    else { mac with command := mac.command &&& ~~~macCsrCmdBusy, data := mac.registers address }

/-- No command is waiting. -/
def Idle (mac : Mac) : Prop := mac.command &&& macCsrCmdBusy = 0

variable {mac : Mac}

/-- An idle MAC executes nothing. -/
theorem execute_of_idle (idle : mac.Idle) : mac.execute = mac := if_pos idle

/-- After its command the MAC is idle. -/
theorem idle_execute (mac : Mac) : mac.execute.Idle := by
  have cleared : mac.command &&& ~~~macCsrCmdBusy &&& macCsrCmdBusy = 0 := by
    rw [BitVec.and_assoc]
    simp [macCsrCmdBusy]
  unfold execute
  split
  · assumption
  · simp only
    split <;> exact cleared

/-- The command word of a write. -/
def writeCommand (address : MacAddress) : Word := address.setWidth 32 ||| macCsrCmdBusy

/-- The command word of a read. -/
def readCommand (address : MacAddress) : Word :=
  address.setWidth 32 ||| macCsrCmdBusy ||| macCsrCmdRead

/-- The fields of every command, by their 256 values. -/
private theorem command_fields : ∀ address : Fin 256,
    (writeCommand (.ofFin address) &&& macCsrCmdBusy ≠ 0 ∧
      writeCommand (.ofFin address) &&& macCsrCmdRead = 0 ∧
      (writeCommand (.ofFin address) &&& macCsrCmdAddr).setWidth 8 = BitVec.ofFin address) ∧
    readCommand (.ofFin address) &&& macCsrCmdBusy ≠ 0 ∧
      readCommand (.ofFin address) &&& macCsrCmdRead ≠ 0 ∧
      (readCommand (.ofFin address) &&& macCsrCmdAddr).setWidth 8 = BitVec.ofFin address := by
  decide +kernel

/-- A write command is one, of its register. -/
theorem writeCommand_fields (address : MacAddress) :
    writeCommand address &&& macCsrCmdBusy ≠ 0 ∧ writeCommand address &&& macCsrCmdRead = 0 ∧
      (writeCommand address &&& macCsrCmdAddr).setWidth 8 = address :=
  (command_fields address.toFin).1

/-- A read command is one, of its register. -/
theorem readCommand_fields (address : MacAddress) :
    readCommand address &&& macCsrCmdBusy ≠ 0 ∧ readCommand address &&& macCsrCmdRead ≠ 0 ∧
      (readCommand address &&& macCsrCmdAddr).setWidth 8 = address :=
  (command_fields address.toFin).2

/-- A write stores the data word. -/
theorem execute_writeCommand (address : MacAddress) (data : Word)
    (registers : MacAddress → Word) :
    (execute ⟨writeCommand address, data, registers⟩).registers =
      Function.update registers address data := by
  obtain ⟨busy, writes, addressed⟩ := writeCommand_fields address
  unfold execute
  simp only
  rw [if_neg busy, if_pos writes, addressed]

/-- A read fetches the register into the data word. -/
theorem execute_readCommand (address : MacAddress) (data : Word)
    (registers : MacAddress → Word) :
    (execute ⟨readCommand address, data, registers⟩).data = registers address := by
  obtain ⟨busy, reads, addressed⟩ := readCommand_fields address
  unfold execute
  simp only
  rw [if_neg busy, if_neg reads, addressed]

end Mac

/-- The chip's MAC executes its command. -/
theorem executeMac_mac (chip : Chip) : chip.executeMac.mac = chip.mac.execute := by
  unfold Chip.executeMac Mac.execute Chip.mac
  split
  · rfl
  · simp only
    split
    · simp only [Mac.mk.injEq, true_and]
      funext other
      simp [Function.update_apply]
    · rfl

/-! ### What moves the MAC -/

/-- A frame does not touch the MAC. -/
private theorem arrive_mac (world : World) (frame : Frame) :
    ((world.arrive frame).chip.mac, (world.arrive frame).mcastHashRefcount) =
      (world.chip.mac, world.mcastHashRefcount) := by
  unfold World.arrive Chip.receive?
  cases world.chip.rxStatus.push? frame.status <;> rfl

private theorem capture_mac (world : World) (capture : Capture) :
    ((world.capture capture).chip.mac, (world.capture capture).mcastHashRefcount) =
      (world.chip.mac, world.mcastHashRefcount) := by
  unfold World.capture Chip.captureRx?
  cases world.chip.rxCaptures.push? capture <;> rfl

private theorem captureTx_mac (chip : Chip) (capture : Capture) :
    (chip.captureTx capture).mac = chip.mac := by
  unfold Chip.captureTx
  split <;> rfl

/-- The environment may have a command executed, and touches no reference count. -/
theorem advance_mac (world : World) (choice : Choice) :
    (world.advance choice).chip.mac =
        (if choice.macExecutes then world.chip.mac.execute else world.chip.mac) ∧
      (world.advance choice).mcastHashRefcount = world.mcastHashRefcount := by
  have arrived := foldl_keeps (fun world : World => (world.chip.mac, world.mcastHashRefcount))
    arrive_mac choice.arrivals world
  have captured := (foldl_keeps (fun world : World => (world.chip.mac, world.mcastHashRefcount))
    capture_mac choice.rxCaptures (choice.arrivals.foldl World.arrive world)).trans arrived
  simp only [Prod.mk.injEq] at captured
  obtain ⟨mac, counts⟩ := captured
  refine ⟨?_, counts⟩
  have egress := (foldl_keeps Chip.mac captureTx_mac choice.txCaptures
    (choice.rxCaptures.foldl World.capture (choice.arrivals.foldl World.arrive world)).chip).trans mac
  simp only [World.advance]
  split
  · rw [executeMac_mac, egress]
  · exact egress

/-- What is kept when a command is executed is kept by the environment. -/
theorem advance_keeps {holds : Mac → Prop} (stable : ∀ mac, holds mac → holds mac.execute)
    {world : World} (choice : Choice) (here : holds world.chip.mac) :
    holds (world.advance choice).chip.mac := by
  rw [(advance_mac world choice).1]
  split
  · exact stable _ here
  · exact here

theorem read_mac (chip : Chip) (address : Address) : (chip.read address).2.mac = chip.mac := by
  unfold Chip.read
  repeat' split
  all_goals rfl

/-- What is recorded of a read changes no counter. -/
private theorem noteRead_counts (world : World) (address : Address) :
    (world.noteRead address).mcastHashRefcount = world.mcastHashRefcount := by
  unfold World.noteRead
  split <;> rfl

private theorem noteWrite_counts (world : World) (address : Address) (value : Word) :
    (world.noteWrite address value).mcastHashRefcount = world.mcastHashRefcount := by
  unfold World.noteWrite
  repeat' split
  all_goals rfl

private theorem conclude_counts {α : Type} (world : World) (outcome : Outcome) (result : α × Chip) :
    (world.conclude outcome result).2.mcastHashRefcount = world.mcastHashRefcount := by
  unfold World.conclude
  split <;> rfl

/-- A read moves the MAC no further than the environment. -/
theorem readSysReg_mac (world : World) (address : Address) (choice : Choice) :
    (world.readSysReg address choice).2.chip.mac = (world.advance choice).chip.mac ∧
      (world.readSysReg address choice).2.mcastHashRefcount = world.mcastHashRefcount := by
  unfold World.readSysReg
  constructor
  · unfold World.conclude
    split
    · rw [read_mac, noteRead_chip]
    · rw [read_mac, noteRead_chip]
    · rw [noteRead_chip]
  · rw [conclude_counts, noteRead_counts, (advance_mac world choice).2]

/-- A write which succeeds has its effect on the MAC, after what the environment did. -/
theorem writeSysReg_mac (world : World) (address : Address) (value : Word) (choice : Choice) :
    (world.writeSysReg address value choice).2.mcastHashRefcount = world.mcastHashRefcount ∧
    ∀ done, (world.writeSysReg address value choice).1 = .ok done →
      (world.writeSysReg address value choice).2.chip.mac =
        ((world.advance choice).chip.write address value).mac := by
  unfold World.writeSysReg
  constructor
  · rw [conclude_counts, noteWrite_counts, (advance_mac world choice).2]
  · intro done succeeded
    rw [(conclude_ok succeeded).2, noteWrite_chip]

/-! ### Waiting for the MAC -/

/-- The result of a function which may fail, as a value. -/
theorem completes_attempt {α : Type} {guard : lan9250.Guard} {function : Driver α} {world : World}
    {post : Except Errno (Except Errno α) → World → Prop} :
    lan9250.Completes guard (attempt function).run world post ↔
      lan9250.Completes guard function.run world fun result next => post (.ok result) next := by
  have opened : (attempt function).run = function.run >>= fun result => pure (.ok result) := rfl
  rw [opened, Device.completes_bind]
  exact Iff.rfl

section Waiting

variable {guard : lan9250.Guard} (live : Live guard) {holds : Mac → Prop}
  (stable : ∀ mac, holds mac → holds mac.execute)

include live stable

/-- One round: it ends the loop, or goes on before the deadline and costs a millisecond. -/
private theorem waitReadyLoop_round {deadline : Int} {rounds : Nat} {world : World}
    {post : Except Errno Unit → World → Prop} (here : holds world.chip.mac)
    (succeeds : ∀ next, next.mcastHashRefcount = world.mcastHashRefcount → holds next.chip.mac →
      next.chip.mac.Idle → post (.ok ()) next)
    (fails : ∀ next, next.mcastHashRefcount = world.mcastHashRefcount → holds next.chip.mac →
      post (.error .eio) next)
    (continues : ∀ next, next.mcastHashRefcount = world.mcastHashRefcount → holds next.chip.mac →
      world.uptime < deadline → world.uptime + 1 ≤ next.uptime →
      lan9250.Completes guard (waitReadyLoop macCsrCmd macCsrCmdBusy 0 deadline rounds).run next post) :
    lan9250.Completes guard (waitReadyLoop macCsrCmd macCsrCmdBusy 0 deadline (rounds + 1)).run world
      post := by
  unfold waitReadyLoop
  rw [Device.completes_run_bind, completes_attempt, completes_readSysReg live]
  intro choice _
  have timed := (quiet_readSysReg world macCsrCmd choice).uptime
  obtain ⟨mac, counts⟩ := readSysReg_mac world macCsrCmd choice
  have kept := mac ▸ advance_keeps stable choice here
  have shown {value : Word} (succeeded : (world.readSysReg macCsrCmd choice).1 = .ok value) :
      value = (world.readSysReg macCsrCmd choice).2.chip.mac.command := by
    rw [readSysReg_ok succeeded, mac]
    simp [Chip.read, Chip.mac, macCsrCmd, rxFifoInf, rxStatusFifo, rxDataFifo]
  generalize world.readSysReg macCsrCmd choice = read at timed mac counts kept shown ⊢
  -- The rest of the round, when the register does not show what is waited for.
  have goesOn : lan9250.Completes guard (ExceptT.run (do
      let now ← call .uptimeGet
      if deadline ≤ now then throw .eio
      call (.busyWait 1000)
      waitReadyLoop macCsrCmd macCsrCmdBusy 0 deadline rounds : Driver Unit)) read.2 post := by
    rw [Device.completes_run_bind, Device.completes_run_lift, completes_uptimeGet live]
    intro choice _
    have counts' := (advance_mac read.2 choice).2.trans counts
    have kept' := advance_keeps stable choice kept
    have timed' := timed.trans (Quiet.advance read.2 choice).uptime
    simp only
    split
    · exact fails _ counts' kept'
    · rw [Device.completes_run_bind, Device.completes_run_lift, completes_busyWait live]
      intro waiting _
      refine continues _ ((advance_mac _ waiting).2.trans counts') (advance_keeps stable waiting kept')
        (by omega) ?_
      have later := (Quiet.advance (read.2.advance choice) waiting).uptime
      simp only [World.wait]
      omega
  obtain ⟨result, next⟩ := read
  cases result with
  | error => exact goesOn
  | ok value =>
      simp only
      split
      · rename_i ready
        rw [shown rfl] at ready
        exact succeeds next counts kept ready
      · exact goesOn

/-- The loop ends, for every round which goes on costs a millisecond; what is kept when
commands are executed is kept, and at a success the MAC is idle. -/
theorem waitReadyLoop_spec (deadline : Int) (rounds : Nat) (world : World)
    (enough : deadline ≤ world.uptime + rounds) (here : holds world.chip.mac) :
    lan9250.Completes guard (waitReadyLoop macCsrCmd macCsrCmdBusy 0 deadline (rounds + 1)).run world
      fun result next => next.mcastHashRefcount = world.mcastHashRefcount ∧ holds next.chip.mac ∧
        ∀ done, result = .ok done → next.chip.mac.Idle := by
  induction rounds generalizing world with
  | zero =>
      refine waitReadyLoop_round live stable here (fun next counts kept idle => ⟨counts, kept, fun _ _ => idle⟩)
        (fun next counts kept => ⟨counts, kept, nofun⟩) ?_
      intro next _ _ early _
      omega
  | succ rounds inductionHypothesis =>
      refine waitReadyLoop_round live stable here (fun next counts kept idle => ⟨counts, kept, fun _ _ => idle⟩)
        (fun next counts kept => ⟨counts, kept, nofun⟩) ?_
      intro next counts kept _ later
      apply (inductionHypothesis next (by omega) kept).weaken
      rintro result finish ⟨counts', kept', idle⟩
      exact ⟨counts'.trans counts, kept', idle⟩

/-- So does `lan9250_wait_ready`. -/
theorem waitReady_spec (milliseconds : Nat) (world : World) (here : holds world.chip.mac) :
    lan9250.Completes guard (waitReady macCsrCmd macCsrCmdBusy 0 milliseconds).run world
      fun result next => next.mcastHashRefcount = world.mcastHashRefcount ∧ holds next.chip.mac ∧
        ∀ done, result = .ok done → next.chip.mac.Idle := by
  unfold waitReady
  rw [Device.completes_run_bind, Device.completes_run_lift, completes_uptimeGet live]
  intro choice _
  apply (waitReadyLoop_spec live stable _ _ _ (le_refl _) (advance_keeps stable choice here)).weaken
  rintro result next ⟨counts, kept, idle⟩
  exact ⟨counts.trans (advance_mac world choice).2, kept, idle⟩

end Waiting

/-! ### Writing a register -/

/-- A write of `MAC_CSR_DATA` loads the word. -/
theorem write_macData (chip : Chip) (value : Word) :
    (chip.write macCsrData value).mac = { chip.mac with data := value } := by
  simp [Chip.write, Chip.mac, macCsrData, macCsrCmd, bankPortGpioSel, ieee1588IntSts]

/-- A write of `MAC_CSR_CMD` gives the command. -/
theorem write_macCmd (chip : Chip) (value : Word) :
    (chip.write macCsrCmd value).mac = { chip.mac with command := value } := by
  simp [Chip.write, Chip.mac, macCsrCmd, bankPortGpioSel, ieee1588IntSts]

/-- While no command is waiting the environment leaves the MAC as it is. -/
theorem advance_idle {world : World} (choice : Choice) (idle : world.chip.mac.Idle) :
    (world.advance choice).chip.mac = world.chip.mac := by
  rw [(advance_mac world choice).1, Mac.execute_of_idle idle, ite_self]

section Writing

variable {guard : lan9250.Guard} (live : Live guard)

include live

/-- Waiting keeps what the waiting command leads to. -/
theorem waitReady_execute (milliseconds : Nat) (world : World) :
    lan9250.Completes guard (waitReady macCsrCmd macCsrCmdBusy 0 milliseconds).run world
      fun result next => next.mcastHashRefcount = world.mcastHashRefcount ∧
        ∀ done, result = .ok done → next.chip.mac.Idle ∧ next.chip.mac = world.chip.mac.execute := by
  have stable : ∀ mac : Mac, mac.execute = world.chip.mac.execute →
      mac.execute.execute = world.chip.mac.execute := by
    intro mac same
    rw [Mac.execute_of_idle mac.idle_execute, same]
  apply (waitReady_spec live stable milliseconds world rfl).weaken
  rintro result next ⟨counts, same, idle⟩
  refine ⟨counts, fun done succeeded => ⟨idle done succeeded, ?_⟩⟩
  rw [← same, Mac.execute_of_idle (idle done succeeded)]

/-- A success leaves the word in its register, and no command waiting; every other register is
as the command which was waiting before has left it. -/
theorem writeMacReg_spec (address : MacAddress) (data : Word) (world : World) :
    lan9250.Completes guard (writeMacReg address data).run world fun result next =>
      next.mcastHashRefcount = world.mcastHashRefcount ∧ ∀ done, result = .ok done →
        next.chip.mac.Idle ∧
        next.chip.mac.registers = Function.update world.chip.mac.execute.registers address data := by
  unfold writeMacReg
  rw [Device.completes_run_bind]
  apply (waitReady_execute live macTimeout world).weaken
  rintro result ready ⟨counts, waited⟩
  cases result with
  | error => exact ⟨counts, nofun⟩
  | ok _ =>
      obtain ⟨idle, settled⟩ := waited () rfl
      simp only
      rw [Device.completes_run_bind, completes_writeSysReg live]
      intro choice _
      obtain ⟨sameCounts, written⟩ := writeSysReg_mac ready macCsrData data choice
      rw [write_macData, advance_idle choice idle] at written
      generalize ready.writeSysReg macCsrData data choice = storing at sameCounts written ⊢
      obtain ⟨result, stored⟩ := storing
      cases result with
      | error => exact ⟨sameCounts.trans counts, nofun⟩
      | ok _ =>
          replace written := written () rfl
          have idle' : stored.chip.mac.Idle := by
            rw [written]
            exact idle
          simp only
          rw [Device.completes_run_bind, completes_writeSysReg live]
          intro choice _
          obtain ⟨sameCounts', commanded⟩ := writeSysReg_mac stored macCsrCmd
            (address.setWidth 32 ||| macCsrCmdBusy) choice
          rw [write_macCmd, advance_idle choice idle'] at commanded
          generalize stored.writeSysReg macCsrCmd (address.setWidth 32 ||| macCsrCmdBusy) choice =
            commanding at sameCounts' commanded ⊢
          obtain ⟨result, waiting⟩ := commanding
          have kept := sameCounts'.trans (sameCounts.trans counts)
          cases result with
          | error => exact ⟨kept, nofun⟩
          | ok _ =>
              replace commanded := commanded () rfl
              apply (waitReady_execute live macTimeout waiting).weaken
              rintro result next ⟨sameCounts'', executed⟩
              refine ⟨sameCounts''.trans kept, fun done succeeded => ?_⟩
              obtain ⟨idle, executed⟩ := executed done succeeded
              refine ⟨idle, ?_⟩
              rw [executed, commanded, written, settled]
              exact Mac.execute_writeCommand address data _

end Writing

end Rp2350Stepper.Lan9250
