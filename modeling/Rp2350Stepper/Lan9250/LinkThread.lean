import Rp2350Stepper.Lan9250.Registers
import Rp2350Stepper.Semantics.Program

/-!
# The link and the carrier: `lan9250_thread`

One round of the driver's thread, the PHY whose interrupts it services, and the interface's
carrier. The PHY latches what happens to the link until its `INTERRUPT_SOURCE` is read, and
every access succeeds. `Tracks` is what is known of the link from the latched flags and from
where it was when they were last read.
-/

namespace Rp2350Stepper.Lan9250

open Rp2350Stepper.Semantics

/-! ### The thread -/

/-- What the thread asks for. -/
inductive LinkRequest where
  /-- `k_sem_take` on `int_sem`, forever. -/
  | semTake
  | readSysReg (address : Address)
  | writeSysReg (address : Address) (value : Word)
  /-- `lan9250_read_phy_reg`. -/
  | readPhyReg (address : BitVec 8)
  /-- `net_eth_carrier_on`. -/
  | carrierOn
  /-- `net_eth_carrier_off`. -/
  | carrierOff
  /-- `lan9250_rx`. -/
  | rx

/-- What it gets in return. -/
@[reducible] def LinkResponse : LinkRequest → Type
  | .readSysReg _ => Word
  | .readPhyReg _ => BitVec 16
  | _ => Unit

/-- The interface of `lan9250_thread`. -/
abbrev linkInterface : Interface := ⟨LinkRequest, LinkResponse⟩

/-- Code which only asks. -/
def linkCall (request : LinkRequest) : Program linkInterface (LinkResponse request) :=
  .ask request .done

/-- The part of a round of `lan9250_thread` under `INT_STS_PHY_INT`. -/
def servicePhy : Program linkInterface Unit := do
  let tmp ← linkCall (.readPhyReg phyInterruptSource)
  if tmp &&& sourceLinkUp ≠ 0 then
    let _ ← linkCall (.readPhyReg phySpecialControlStatus)
    let _ ← linkCall (.readPhyReg phySpecialControlStatInd)
    linkCall .carrierOn
  else if tmp &&& sourceLinkDown ≠ 0 then linkCall .carrierOff

/-- The part under `INT_STS_RSFL`. -/
def serviceRx : Program linkInterface Unit := do
  linkCall (.writeSysReg intSts intStsRsfl)
  linkCall .rx

/-- A round of `lan9250_thread` once it has been woken. -/
def serviceInterrupts : Program linkInterface Unit := do
  let ier ← linkCall (.readSysReg intEn)
  linkCall (.writeSysReg intEn 0)
  let status ← linkCall (.readSysReg intSts)
  if status &&& intStsPhyInt ≠ 0 then servicePhy
  if status &&& intStsRsfl ≠ 0 then serviceRx
  linkCall (.writeSysReg intEn ier)

/-- One round of `lan9250_thread`. -/
def threadRound : Program linkInterface Unit := do
  linkCall .semTake
  serviceInterrupts

/-! ### The link -/

/-- The PHY, the interrupt and the interface. -/
structure Link where
  /-- Whether the physical link is up. -/
  up : Bool
  /-- The flags latched in `INTERRUPT_SOURCE`. -/
  source : BitVec 16
  /-- Whether `INT_STS_RSFL` is set. -/
  rsfl : Bool
  intEn : Word
  /-- The count of `int_sem`. -/
  intSem : Nat
  /-- Whether the last call for the carrier was `net_eth_carrier_on`. -/
  carrier : Bool
deriving DecidableEq, Repr

/-- What happens to the link and to the FIFO. -/
inductive LinkEvent where
  /-- The physical link goes up, or down. -/
  | transition
  /-- The PHY latches other flags. -/
  | flags (flags : BitVec 16)
  /-- A frame is received. -/
  | frame
deriving DecidableEq, Repr

/-- What happens before a request, and what a register without a meaning here reads as. -/
structure LinkChoice where
  events : List LinkEvent
  value : Word

instance : Inhabited LinkChoice := ⟨⟨[], 0⟩⟩

/-- The flags of the link, which are also those `lan9250_configure` puts in
`PHY_INTERRUPT_MASK`. -/
def linkFlags : BitVec 16 := sourceLinkUp ||| sourceLinkDown

namespace Link

/-- `INT_STS`. -/
def status (link : Link) : Word :=
  (if link.source &&& linkFlags ≠ 0 then intStsPhyInt else 0) |||
    (if link.rsfl then intStsRsfl else 0)

/-- Whether the interrupt line is active. -/
def line (link : Link) : Bool := link.status &&& link.intEn ≠ 0

/-- `lan9250_gpio_callback` runs on an edge of the line. -/
def settle (link next : Link) : Link :=
  if !link.line && next.line then { next with intSem := next.intSem + 1 } else next

/-- What an event changes. -/
def apply (link : Link) : LinkEvent → Link
  | .transition =>
      { link with
        up := !link.up
        source := link.source ||| if link.up then sourceLinkDown else sourceLinkUp }
  | .flags flags => { link with source := link.source ||| flags &&& ~~~linkFlags }
  | .frame => { link with rsfl := true }

/-- Some events happen. -/
def advance (link : Link) (events : List LinkEvent) : Link :=
  events.foldl (fun link event => link.settle (link.apply event)) link

end Link

/-- How the link answers the thread. -/
def linkAnswer (link : Link) (request : LinkRequest) (choice : LinkChoice) :
    Option (LinkResponse request × Link) :=
  let current := link.advance choice.events
  match request with
  -- On a count of 0 the thread blocks.
  | .semTake =>
      if current.intSem = 0 then none else some ((), { current with intSem := current.intSem - 1 })
  | .readSysReg address =>
      some (if address = intEn then current.intEn
        else if address = intSts then current.status
        else choice.value, current)
  | .writeSysReg address value =>
      some ((), current.settle
        (if address = intEn then { current with intEn := value }
        else if address = intSts ∧ value &&& intStsRsfl ≠ 0 then { current with rsfl := false }
        else current))
  | .readPhyReg address =>
      some (if address = phyInterruptSource then (current.source, { current with source := 0 })
        else (choice.value.setWidth 16, current))
  | .carrierOn => some ((), { current with carrier := true })
  | .carrierOff => some ((), { current with carrier := false })
  | .rx => some ((), current)

/-- The device of the thread. -/
abbrev linkDevice : Device linkInterface := ⟨Link, LinkChoice, linkAnswer⟩

/-- The interrupts `lan9250_configure` enables. -/
def enabledInterrupts : Word := intStsPhyInt ||| intStsRsfl

/-- The link is down, and nothing has happened since `lan9250_configure`. -/
def Link.initial : Link := ⟨false, 0, false, enabledInterrupts, 0, false⟩

/-- Rounds of the thread, one after the other. -/
abbrev threadRounds (guard : linkDevice.Guard) : System (linkDevice.Finished Unit Unit) :=
  linkDevice.calls guard (fun link => link = .initial) fun _ => threadRound

end Rp2350Stepper.Lan9250
