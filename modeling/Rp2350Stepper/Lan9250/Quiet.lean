import Rp2350Stepper.Lan9250.Rules

/-!
# What the environment and a transaction leave alone

`Quiet` steps change neither table of the RX timestamp check and only append to
the ingress queue; every request is quiet except those which are the point of the
check. Only the driver selects banks, and a transaction that succeeds has its effect.
-/

namespace Rp2350Stepper.Lan9250

open Rp2350Stepper.Data Rp2350Stepper.Semantics

/-- A projection every step of a fold preserves is preserved by the fold. -/
theorem foldl_keeps {α β γ : Type} {step : β → α → β} (projection : β → γ)
    (keeps : ∀ state item, projection (step state item) = projection state)
    (items : List α) (state : β) : projection (items.foldl step state) = projection state := by
  induction items generalizing state with
  | nil => rfl
  | cons item rest inductionHypothesis =>
      rw [List.foldl_cons, inductionHypothesis, keeps]

/-- A preorder every step of a fold follows is followed by the fold. -/
theorem foldl_relates {α β : Type} {step : β → α → β} (relation : β → β → Prop)
    (refl : ∀ state, relation state state)
    (trans : ∀ {first second third}, relation first second → relation second third →
      relation first third)
    (steps : ∀ state item, relation state (step state item)) (items : List α) (state : β) :
    relation state (items.foldl step state) := by
  induction items generalizing state with
  | nil => exact refl state
  | cons item rest inductionHypothesis =>
      exact trans (steps state item) (inductionHypothesis (step state item))

/-! ### Quiet steps -/

/-- Events which concern neither a packet's reference or timestamp nor the
acknowledgement of a capture. -/
def Event.quiet : Event → Bool
  | .ref _ | .unref _ | .stamped _ _ | .acknowledged _ => false
  | _ => true

/-- Time may pass, events may be captured and messages logged, but the tables stay. -/
structure Quiet (world next : World) : Prop where
  rxPending : next.rxPending = world.rxPending
  rxUnclaimed : next.rxUnclaimed = world.rxUnclaimed
  uptime : world.uptime ≤ next.uptime
  grows : ∃ later captures, next.history = world.history ++ later ∧
    next.chip.rxCaptures.items = world.chip.rxCaptures.items ++ captures ∧
    (∀ event ∈ later, event.quiet = true) ∧ ∀ capture ∈ captures, .captured capture ∈ later

namespace Quiet

theorem refl (world : World) : Quiet world world :=
  ⟨rfl, rfl, le_refl _, [], [], by simp, by simp, by simp, by simp⟩

theorem trans {first second third : World} (before : Quiet first second)
    (after : Quiet second third) : Quiet first third := by
  obtain ⟨pending, unclaimed, uptime, later, captures, history, queue, quiet, captured⟩ := before
  obtain ⟨pending', unclaimed', uptime', later', captures', history', queue', quiet',
    captured'⟩ := after
  refine ⟨pending'.trans pending, unclaimed'.trans unclaimed, uptime.trans uptime',
    later ++ later', captures ++ captures', ?_, ?_, ?_, ?_⟩
  · rw [history', history, List.append_assoc]
  · rw [queue', queue, List.append_assoc]
  · intro event member
    exact (List.mem_append.mp member).elim (quiet event) (quiet' event)
  · intro capture member
    rcases List.mem_append.mp member with old | new
    · exact List.mem_append_left _ (captured capture old)
    · exact List.mem_append_right _ (captured' capture new)

/-- Something quiet is recorded. -/
theorem record (world : World) {event : Event} (quiet : event.quiet = true) :
    Quiet world (world.record event) :=
  ⟨rfl, rfl, le_refl _, [event], [], rfl, by simp [World.record], by simpa using quiet, by simp⟩

/-- A change of the chip which leaves the ingress queue alone. -/
theorem chip (world : World) (chip : Chip) (same : chip.rxCaptures = world.chip.rxCaptures) :
    Quiet world { world with chip := chip } :=
  ⟨rfl, rfl, le_refl _, [], [], by simp, by simp [same], by simp, by simp⟩

/-- Time passes. -/
theorem wait (world : World) (ms : Nat) : Quiet world (world.wait ms) :=
  ⟨rfl, rfl, by simp only [World.wait]; omega, [], [], by simp [World.wait],
    by simp [World.wait], by simp, by simp⟩

/-- What is at the head of the ingress queue stays there. -/
theorem head {world next : World} (quiet : Quiet world next) {capture : Capture}
    {rest : List Capture} (here : world.chip.rxCaptures.items = capture :: rest) :
    ∃ rest', next.chip.rxCaptures.items = capture :: rest' := by
  obtain ⟨_, _, _, _, captures, _, queue, _⟩ := quiet
  exact ⟨rest ++ captures, by rw [queue, here, List.cons_append]⟩

/-- A frame arrives. -/
private theorem arrive (world : World) (frame : Frame) : Quiet world (world.arrive frame) := by
  unfold World.arrive Chip.receive?
  cases world.chip.rxStatus.push? frame.status with
  | none => exact refl world
  | some rxStatus =>
      have stored := chip world { world.chip with
        rxStatus := rxStatus, rxData := world.chip.rxData ++ frame.layout } rfl
      exact stored.trans (record _ rfl)

/-- An ingress event is queued. -/
private theorem capture (world : World) (capture : Capture) :
    Quiet world (world.capture capture) := by
  unfold World.capture Chip.captureRx?
  cases pushed : world.chip.rxCaptures.push? capture with
  | none => exact refl world
  | some rxCaptures =>
      obtain ⟨_, items⟩ := Fifo.push?_eq_some_iff.mp pushed
      exact ⟨rfl, rfl, le_refl _, [.captured capture], [capture], rfl, items,
        by simp [Event.quiet], by simp⟩

/-- An egress event does not touch the ingress events. -/
private theorem captureTx_rxCaptures (chip : Chip) (capture : Capture) :
    (chip.captureTx capture).rxCaptures = chip.rxCaptures := by
  unfold Chip.captureTx
  split <;> rfl

private theorem executeMac_rxCaptures (chip : Chip) : chip.executeMac.rxCaptures = chip.rxCaptures := by
  unfold Chip.executeMac
  split
  · rfl
  · split <;> rfl

/-- Whatever happens before a request is quiet. -/
theorem advance (world : World) (choice : Choice) : Quiet world (world.advance choice) := by
  have arrived := foldl_relates Quiet refl trans arrive choice.arrivals world
  have captured := arrived.trans (foldl_relates Quiet refl trans capture choice.rxCaptures _)
  let current := choice.rxCaptures.foldl World.capture (choice.arrivals.foldl World.arrive world)
  obtain ⟨pending, unclaimed, _, later, captures, history, queue, quiet, known⟩ := captured
  refine ⟨pending, unclaimed, by simp only [World.advance]; omega, later, captures, history, ?_, quiet,
    known⟩
  have egress := foldl_keeps Chip.rxCaptures captureTx_rxCaptures choice.txCaptures current.chip
  have same : (world.advance choice).chip.rxCaptures = current.chip.rxCaptures := by
    simp only [World.advance]
    split
    · rw [executeMac_rxCaptures, egress]
    · exact egress
  rw [same, queue]

/-- A transaction is quiet when its effect leaves the ingress queue alone. -/
theorem conclude {α : Type} (world : World) (outcome : Outcome) (result : α × Chip)
    (same : result.2.rxCaptures = world.chip.rxCaptures) :
    Quiet world (world.conclude outcome result).2 := by
  cases outcome with
  | ok => exact chip world result.2 same
  | failed applied error =>
      cases applied with
      | true => exact chip world result.2 same
      | false => exact refl world

/-- What is recorded of a read is quiet. -/
theorem noteRead (world : World) (address : Address) : Quiet world (world.noteRead address) := by
  unfold World.noteRead
  split
  · exact record world rfl
  · exact refl world

end Quiet

/-! ### Going onward -/

/-- What has been recorded since. -/
def newEvents (before after : World) : List Event := after.history.drop before.history.length

/-- Time goes on and nothing recorded is taken back. -/
structure Onward (world next : World) : Prop where
  uptime : world.uptime ≤ next.uptime
  history : world.history <+: next.history

namespace Onward

theorem refl (world : World) : Onward world world := ⟨le_refl _, List.prefix_rfl⟩

theorem trans {first second third : World} (before : Onward first second)
    (after : Onward second third) : Onward first third :=
  ⟨before.uptime.trans after.uptime, before.history.trans after.history⟩

/-- Something is recorded. -/
theorem record (world : World) (event : Event) : Onward world (world.record event) :=
  ⟨le_refl _, List.prefix_append _ _⟩

/-- What is quiet goes on as well. -/
theorem of_quiet {world next : World} (same : Quiet world next) : Onward world next := by
  obtain ⟨later, _, history, _⟩ := same.grows
  exact ⟨same.uptime, history ▸ List.prefix_append _ _⟩

/-- A transaction ends. -/
theorem conclude {α : Type} (world : World) (outcome : Outcome) (result : α × Chip) :
    Onward world (world.conclude outcome result).2 := by
  unfold World.conclude
  split <;> exact ⟨le_refl _, List.prefix_rfl⟩

/-- What is recorded of a write goes on. -/
theorem noteWrite (world : World) (address : Address) (value : Word) :
    Onward world (world.noteWrite address value) := by
  unfold World.noteWrite
  split
  · split
    · exact refl world
    · exact record world _
  · exact refl world

/-- So does every answer. -/
theorem answer {world next : World} {request : Request} {choice : Choice}
    {response : Response request}
    (answered : Lan9250.answer world request choice = some (response, next)) :
    Onward world next := by
  have timed : Onward world (world.advance choice) := .of_quiet (Quiet.advance world choice)
  cases request with
  | crash => simp [Lan9250.answer] at answered
  | hang => simp [Lan9250.answer] at answered
  | rxAlloc =>
      simp only [Lan9250.answer, Option.some.injEq, Prod.ext_iff] at answered
      obtain ⟨_, rfl⟩ := answered
      unfold World.rxAlloc
      split <;> exact timed.trans (record _ _)
  | _ =>
      simp only [Lan9250.answer, Option.some.injEq, Prod.ext_iff] at answered
      obtain ⟨_, rfl⟩ := answered
      -- The driver's own fields, what is recorded, what lets time pass, and the transactions.
      first
        | exact timed
        | exact refl world
        | exact record world _
        | exact ⟨le_refl _, List.prefix_rfl⟩
        | exact timed.trans (.of_quiet (Quiet.wait _ _))
        | exact timed.trans (record _ _)
        | exact timed.trans ((of_quiet (Quiet.noteRead _ _)).trans (conclude _ _ _))
        | exact timed.trans ((noteWrite _ _ _).trans (conclude _ _ _))
        | exact timed.trans (conclude _ _ _)

end Onward

/-! ### Transactions -/

/-- A read takes no event. -/
theorem read_rxCaptures (chip : Chip) (address : Address) :
    (chip.read address).2.rxCaptures = chip.rxCaptures := by
  unfold Chip.read
  repeat' split
  all_goals rfl

/-- A read selects no bank. -/
theorem read_bank (chip : Chip) (address : Address) :
    (chip.read address).2.bank = chip.bank := by
  unfold Chip.read
  repeat' split
  all_goals rfl

/-- No read disturbs the tables or the ingress queue. -/
theorem quiet_readSysReg (world : World) (address : Address) (choice : Choice) :
    Quiet world (world.readSysReg address choice).2 := by
  apply ((Quiet.advance world choice).trans (Quiet.noteRead _ address)).trans
  exact Quiet.conclude _ _ _ (read_rxCaptures _ address)

/-- Only a write of `1588_INT_STS` takes an event. -/
theorem write_rxCaptures (chip : Chip) {address : Address} (value : Word)
    (other : address ≠ ieee1588IntSts) :
    (chip.write address value).rxCaptures = chip.rxCaptures := by
  unfold Chip.write
  repeat' split
  all_goals rfl

/-- Nor does a write, except to the interrupt status. -/
theorem quiet_writeSysReg (world : World) {address : Address} (value : Word) (choice : Choice)
    (other : address ≠ ieee1588IntSts) :
    Quiet world (world.writeSysReg address value choice).2 := by
  have unnoted : (world.advance choice).noteWrite address value = world.advance choice := by
    simp [World.noteWrite, other]
  apply (Quiet.advance world choice).trans
  rw [World.writeSysReg, unnoted]
  exact Quiet.conclude _ _ _ (write_rxCaptures _ value other)

/-- A transaction that succeeds has its effect. -/
theorem conclude_ok {α : Type} {world : World} {outcome : Outcome} {result : α × Chip} {value : α}
    (succeeded : (world.conclude outcome result).1 = .ok value) :
    value = result.1 ∧ (world.conclude outcome result).2 = { world with chip := result.2 } := by
  cases outcome with
  | ok =>
      simp only [World.conclude, Except.ok.injEq] at succeeded
      exact ⟨succeeded.symm, rfl⟩
  | failed applied error => cases applied <;> simp [World.conclude] at succeeded

/-- A frame selects no bank. -/
theorem arrive_bank (world : World) (frame : Frame) :
    (world.arrive frame).chip.bank = world.chip.bank := by
  unfold World.arrive Chip.receive?
  cases world.chip.rxStatus.push? frame.status <;> rfl

theorem capture_bank (world : World) (capture : Capture) :
    (world.capture capture).chip.bank = world.chip.bank := by
  unfold World.capture Chip.captureRx?
  cases world.chip.rxCaptures.push? capture <;> rfl

theorem captureTx_bank (chip : Chip) (capture : Capture) :
    (chip.captureTx capture).bank = chip.bank := by
  unfold Chip.captureTx
  split <;> rfl

theorem executeMac_bank (chip : Chip) : chip.executeMac.bank = chip.bank := by
  unfold Chip.executeMac
  split
  · rfl
  · split <;> rfl

/-- Only the driver selects banks. -/
theorem advance_bank (world : World) (choice : Choice) :
    (world.advance choice).chip.bank = world.chip.bank := by
  have captured := foldl_keeps (fun world => world.chip.bank) capture_bank choice.rxCaptures
    (choice.arrivals.foldl World.arrive world)
  have arrived := foldl_keeps (fun world => world.chip.bank) arrive_bank choice.arrivals world
  have egress := foldl_keeps Chip.bank captureTx_bank choice.txCaptures
    (choice.rxCaptures.foldl World.capture (choice.arrivals.foldl World.arrive world)).chip
  simp only [World.advance]
  split
  · rw [executeMac_bank, egress, captured, arrived]
  · rw [egress, captured, arrived]

/-- What is recorded of a read changes no register. -/
theorem noteRead_chip (world : World) (address : Address) :
    (world.noteRead address).chip = world.chip := by
  unfold World.noteRead
  split <;> rfl

theorem noteWrite_chip (world : World) (address : Address) (value : Word) :
    (world.noteWrite address value).chip = world.chip := by
  unfold World.noteWrite
  split
  · split <;> rfl
  · rfl

/-- A read never changes the bank. -/
theorem readSysReg_bank (world : World) (address : Address) (choice : Choice) :
    (world.readSysReg address choice).2.chip.bank = world.chip.bank := by
  have bank : ((world.advance choice).noteRead address).chip.bank = world.chip.bank := by
    rw [noteRead_chip, advance_bank]
  unfold World.readSysReg World.conclude
  split
  · exact (read_bank _ _).trans bank
  · exact (read_bank _ _).trans bank
  · exact bank

/-- A bank select that succeeds selects the bank. -/
theorem bankSelect_bank {world : World} {bank : Word} {choice : Choice} {done : Unit}
    (succeeded : (world.writeSysReg bankPortGpioSel bank choice).1 = .ok done) :
    (world.writeSysReg bankPortGpioSel bank choice).2.chip.bank = bank := by
  rw [World.writeSysReg, (conclude_ok succeeded).2]
  simp [Chip.write]

end Rp2350Stepper.Lan9250
