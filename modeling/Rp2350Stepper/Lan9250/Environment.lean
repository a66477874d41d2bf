import Rp2350Stepper.Lan9250.Interface

/-!
# The world the driver runs in

`World` is the chip, the clock, the runtime fields and the history of what an
observer of the packets and of the chip records. Before each transaction, clock
reading or wait the environment may let time pass, frames arrive, PTP events be
captured and the MAC execute a command; then the transaction succeeds or fails,
and a failed one has taken effect or not.

One thread of the driver runs, so a mutex is always free.
-/

namespace Rp2350Stepper.Lan9250

open Rp2350Stepper.Data Rp2350Stepper.Semantics

/-- What an observer of the packets and of the chip records. -/
inductive Event where
  /-- A frame has been stored in the RX FIFOs. -/
  | arrived (frame : Frame)
  /-- An ingress event has been queued. -/
  | captured (capture : Capture)
  /-- `RX_TS_INT` has been written while this was the oldest ingress event. -/
  | acknowledged (capture : Capture)
  /-- `CAP_INFO` has been read while these were the queued egress events. -/
  | polled (egress : List Capture)
  | allocated (succeeded : Bool)
  | ref (pkt : PktId)
  | unref (pkt : PktId)
  | stamped (pkt : PktId) (time : PtpTime)
  | notified (pkt : PktId)
  | delivered (pkt : NetPkt)
  | errorsRx
  | logged (message : Message)
deriving DecidableEq, Repr

/-- The chip, the time, the fields of `struct lan9250_runtime` and what has been recorded. -/
structure World where
  chip : Chip
  uptime : Int
  rxPending : PendingTable
  rxUnclaimed : UnclaimedTable
  mcastHashRefcount : HashRefcount
  txRxSem : Nat
  history : List Event

/-- A chip at rest: nothing queued, and every register 0. -/
def Chip.idle : Chip where
  rxStatus := .empty
  rxData := []
  bank := 0
  rxCaptures := .empty
  txCaptures := .empty
  macCmd := 0
  macData := 0
  hmac _ := 0
  regs _ := 0

/-- The world at time 0, with nothing received or queued. -/
def World.idle : World where
  chip := .idle
  uptime := 0
  rxPending := SlotTable.empty
  rxUnclaimed := SlotTable.empty
  mcastHashRefcount _ := 0
  txRxSem := 0
  history := []

/-- How an SPI transaction ends. -/
inductive Outcome where
  | ok
  | failed (applied : Bool) (error : Errno)
deriving DecidableEq, Repr

/-- What the environment does before and at a request. -/
structure Choice where
  elapsed : Nat
  arrivals : List Frame
  rxCaptures : List Capture
  txCaptures : List Capture
  macExecutes : Bool
  outcome : Outcome
  /-- The packet an allocation returns, and how many buffers it has. -/
  alloc : Option (PktId × Nat)
  accepted : Bool

/-- Nothing happens and everything succeeds. -/
def Choice.quiet : Choice where
  elapsed := 0
  arrivals := []
  rxCaptures := []
  txCaptures := []
  macExecutes := true
  outcome := .ok
  alloc := none
  accepted := true

instance : Inhabited Choice := ⟨.quiet⟩

namespace World

/-- An observer records something. -/
def record (world : World) (event : Event) : World :=
  { world with history := world.history ++ [event] }

/-- A frame is stored, if there is room for it. -/
def arrive (world : World) (frame : Frame) : World :=
  match world.chip.receive? frame with
  | some chip => { world with chip := chip }.record (.arrived frame)
  | none => world

/-- An ingress event is queued, if there is room for it. -/
def capture (world : World) (capture : Capture) : World :=
  match world.chip.captureRx? capture with
  | some chip => { world with chip := chip }.record (.captured capture)
  | none => world

/-- What happens before a request. -/
def advance (world : World) (choice : Choice) : World :=
  let arrived := choice.arrivals.foldl arrive world
  let captured := choice.rxCaptures.foldl capture arrived
  let chip := choice.txCaptures.foldl Chip.captureTx captured.chip
  { captured with
    chip := if choice.macExecutes then chip.executeMac else chip
    uptime := world.uptime + choice.elapsed }

/-- Let a wait of some milliseconds pass. -/
def wait (world : World) (ms : Nat) : World := { world with uptime := world.uptime + ms }

/-- End a transaction with its result and its effect on the chip. -/
def conclude {α : Type} (world : World) (outcome : Outcome) (result : α × Chip) :
    Except Errno α × World :=
  match outcome with
  | .ok => (.ok result.1, { world with chip := result.2 })
  | .failed true error => (.error error, { world with chip := result.2 })
  | .failed false error => (.error error, world)

/-- What an observer records of a register read. -/
def noteRead (world : World) (address : Address) : World :=
  if address = capInfo ∧ world.chip.bank = bankSelPortGeneral then
    world.record (.polled world.chip.txCaptures.items)
  else world

/-- What an observer records of a register write. -/
def noteWrite (world : World) (address : Address) (value : Word) : World :=
  if address = ieee1588IntSts ∧ value &&& intStsRxTsInt ≠ 0 then
    match world.chip.rxCaptures.items with
    | [] => world
    | capture :: _ => world.record (.acknowledged capture)
  else world

/-- Read a register, after what happens before. -/
def readSysReg (world : World) (address : Address) (choice : Choice) :
    Except Errno Word × World :=
  let current := (world.advance choice).noteRead address
  current.conclude choice.outcome (current.chip.read address)

/-- Write a register, after what happens before. -/
def writeSysReg (world : World) (address : Address) (value : Word) (choice : Choice) :
    Except Errno Unit × World :=
  let current := (world.advance choice).noteWrite address value
  current.conclude choice.outcome ((), current.chip.write address value)

/-- Read bytes from the RX data FIFO, after what happens before. -/
def readBuf (world : World) (len : Nat) (choice : Choice) : Except Errno (List Byte) × World :=
  let current := world.advance choice
  current.conclude choice.outcome (current.chip.readData len)

/-- Allocate a packet with some buffers, or not. -/
def rxAlloc (world : World) (choice : Choice) : Option NetPkt × World :=
  match choice.alloc with
  | none => (none, (world.advance choice).record (.allocated false))
  | some (id, count) =>
      (some ⟨id, List.replicate count []⟩, (world.advance choice).record (.allocated true))

end World

/-- How the world answers a request. -/
def answer (world : World) : (request : Request) → Choice → Option (Response request × World)
  | .readSysReg address, choice => some (world.readSysReg address choice)
  | .writeSysReg address value, choice => some (world.writeSysReg address value choice)
  | .readBuf len, choice => some (world.readBuf len choice)
  | .uptimeGet, choice => some ((world.advance choice).uptime, world.advance choice)
  | .sleep ms, choice => some ((), (world.advance choice).wait ms)
  | .busyWait usec, choice => some ((), (world.advance choice).wait (usec / 1000))
  | .mutexLock _, choice => some ((), world.advance choice)
  | .mutexUnlock _, _ => some ((), world)
  | .loadPending, _ => some (world.rxPending, world)
  | .storePending table, _ => some ((), { world with rxPending := table })
  | .loadUnclaimed, _ => some (world.rxUnclaimed, world)
  | .storeUnclaimed table, _ => some ((), { world with rxUnclaimed := table })
  | .loadRefcount, _ => some (world.mcastHashRefcount, world)
  | .storeRefcount counts, _ => some ((), { world with mcastHashRefcount := counts })
  | .rxAlloc _, choice => some (world.rxAlloc choice)
  | .pktRef pkt, _ => some ((), world.record (.ref pkt))
  | .pktUnref pkt, _ => some ((), world.record (.unref pkt))
  | .setTimestamp pkt time, _ => some ((), world.record (.stamped pkt time))
  | .addTxTimestamp pkt, _ => some ((), world.record (.notified pkt))
  | .recvData pkt, choice => some (choice.accepted, (world.advance choice).record (.delivered pkt))
  | .updateErrorsRx, _ => some ((), world.record .errorsRx)
  | .semGive, _ => some ((), { world with txRxSem := world.txRxSem + 1 })
  | .log message, _ => some ((), world.record (.logged message))
  | .crash, _ => none
  | .hang, _ => none

/-- The LAN9250 with its kernel and network stack. -/
abbrev lan9250 : Device driverInterface := ⟨World, Choice, answer⟩

end Rp2350Stepper.Lan9250
