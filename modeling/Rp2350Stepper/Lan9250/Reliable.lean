import Rp2350Stepper.Lan9250.Captures

/-!
# Transactions which do not fail

Under a guard which admits no SPI failure a transaction returns what the chip shows
and has its effect, after whatever the environment does first. The environment itself
records arrivals and captures only, and takes nothing from any queue.
-/

namespace Rp2350Stepper.Lan9250

open Rp2350Stepper.Data Rp2350Stepper.Semantics

/-- No SPI transaction fails. -/
def Reliable (guard : lan9250.Guard) : Prop :=
  ∀ world request choice, guard world request choice → choice.outcome = .ok

/-- The guard which admits every choice but a failure. -/
def noFailure : lan9250.Guard := fun _ _ choice => choice.outcome = .ok

/-- Every request may succeed. -/
theorem live_noFailure : Live noFailure := fun _ _ => ⟨.quiet, rfl⟩

/-- No request may fail. -/
theorem reliable_noFailure : Reliable noFailure := fun _ _ _ succeeded => succeeded

/-- The same guard, for scripts. -/
def allowsSuccess : World → Request → Choice → Bool := fun _ _ choice => choice.outcome = .ok

/-- A program played without failures returns. -/
theorem returns_of_playSuccess {α : Type} {program : Code α} {start finish : World}
    {script choices : List Choice} {value : α}
    (played : lan9250.play allowsSuccess program start script = some (choices, value, finish)) :
    lan9250.Returns noFailure program start choices value finish := by
  apply (Device.Returns.of_play played).weaken
  intro world request choice succeeded
  have decided : choice.outcome = .ok := of_decide_eq_true succeeded
  exact decided

/-- Played calls without failures are a run. -/
theorem run_of_playSuccess {Call Result : Type} {initial : World → Prop} {body : Call → Code Result}
    {start finish : World} {script : List (Call × List Choice)}
    {events : List (lan9250.Finished Call Result)}
    (played : lan9250.playCalls allowsSuccess (fun _ _ => true) body start script =
      some (events, finish)) :
    ∃ calls, (lan9250.calls noFailure initial body).Run (System.unguarded _) start calls events
      finish := by
  have run := Device.run_of_playCalls initial played
  refine ⟨_, Device.calls_weaken run ?_ fun _ _ _ => trivial⟩
  intro world request choice succeeded
  have decided : choice.outcome = .ok := of_decide_eq_true succeeded
  exact decided

section Rules

variable {guard : lan9250.Guard} (live : Live guard) (reliable : Reliable guard) {world : World}

include live reliable

/-- A read shows the register. -/
theorem completes_readSysReg_ok {address : Address} {post : Except Errno Word → World → Prop} :
    lan9250.Completes guard (readSysReg address).run world post ↔
      ∀ choice, guard world (.readSysReg address) choice →
        post (.ok ((world.advance choice).chip.read address).1)
          { (world.advance choice).noteRead address with
            chip := ((world.advance choice).chip.read address).2 } := by
  rw [completes_readSysReg live]
  refine forall_congr' fun choice => forall_congr' fun allowed => ?_
  simp only [World.readSysReg, reliable _ _ _ allowed, World.conclude, noteRead_chip]

/-- A write writes it. -/
theorem completes_writeSysReg_ok {address : Address} {value : Word}
    {post : Except Errno Unit → World → Prop} :
    lan9250.Completes guard (writeSysReg address value).run world post ↔
      ∀ choice, guard world (.writeSysReg address value) choice →
        post (.ok ()) { (world.advance choice).noteWrite address value with
          chip := (world.advance choice).chip.write address value } := by
  rw [completes_writeSysReg live]
  refine forall_congr' fun choice => forall_congr' fun allowed => ?_
  simp only [World.writeSysReg, reliable _ _ _ allowed, World.conclude, noteWrite_chip]

end Rules

/-! ### The environment -/

/-- What the environment records. -/
def Event.environmental : Event → Bool
  | .arrived _ | .captured _ => true
  | _ => false

/-- The frames a history has stored in the RX FIFOs. -/
def arrivedFrames (history : List Event) : List Frame :=
  history.filterMap fun event => match event with
    | .arrived frame => some frame
    | _ => none

/-- The frames of two histories. -/
theorem arrivedFrames_append (before after : List Event) :
    arrivedFrames (before ++ after) = arrivedFrames before ++ arrivedFrames after :=
  List.filterMap_append

/-- Frames may arrive and events may be captured, behind what is queued already. -/
structure Surroundings (world next : World) : Prop where
  grows : ∃ later, next.history = world.history ++ later ∧
    (∀ event ∈ later, event.environmental = true) ∧
    next.chip.rxStatus.items =
      world.chip.rxStatus.items ++ (arrivedFrames later).map Frame.status ∧
    next.chip.rxData = world.chip.rxData ++ (arrivedFrames later).flatMap Frame.layout
  egress : world.chip.txCaptures.items <+: next.chip.txCaptures.items

namespace Surroundings

theorem refl (world : World) : Surroundings world world :=
  ⟨⟨[], by simp, by simp, by simp [arrivedFrames], by simp [arrivedFrames]⟩, List.prefix_rfl⟩

theorem trans {first second third : World} (before : Surroundings first second)
    (after : Surroundings second third) : Surroundings first third := by
  obtain ⟨⟨later, history, environmental, status, data⟩, egress⟩ := before
  obtain ⟨⟨later', history', environmental', status', data'⟩, egress'⟩ := after
  refine ⟨⟨later ++ later', ?_, ?_, ?_, ?_⟩, egress.trans egress'⟩
  · rw [history', history, List.append_assoc]
  · intro event member
    exact (List.mem_append.mp member).elim (environmental event) (environmental' event)
  · rw [status', status, arrivedFrames_append, List.map_append, List.append_assoc]
  · rw [data', data, arrivedFrames_append, List.flatMap_append, List.append_assoc]

/-- A frame arrives. -/
private theorem arrive (world : World) (frame : Frame) : Surroundings world (world.arrive frame) := by
  unfold World.arrive Chip.receive?
  cases pushed : world.chip.rxStatus.push? frame.status with
  | none => exact refl world
  | some rxStatus =>
      obtain ⟨_, items⟩ := Fifo.push?_eq_some_iff.mp pushed
      refine ⟨⟨[.arrived frame], rfl, by simp [Event.environmental], ?_, ?_⟩, List.prefix_rfl⟩
      · simpa [arrivedFrames, World.record] using items
      · simp [arrivedFrames, World.record]

/-- An ingress event is queued. -/
private theorem capture (world : World) (capture : Capture) :
    Surroundings world (world.capture capture) := by
  unfold World.capture Chip.captureRx?
  cases world.chip.rxCaptures.push? capture with
  | none => exact refl world
  | some rxCaptures =>
      exact ⟨⟨[.captured capture], rfl, by simp [Event.environmental],
        by simp [arrivedFrames, World.record], by simp [arrivedFrames, World.record]⟩,
        List.prefix_rfl⟩

/-- An egress event is queued behind the others. -/
private theorem captureTx (chip : Chip) (capture : Capture) :
    (chip.captureTx capture).rxStatus = chip.rxStatus ∧
    (chip.captureTx capture).rxData = chip.rxData ∧
    chip.txCaptures.items <+: (chip.captureTx capture).txCaptures.items := by
  unfold Chip.captureTx
  cases pushed : chip.txCaptures.push? capture with
  | none => exact ⟨rfl, rfl, List.prefix_rfl⟩
  | some txCaptures =>
      obtain ⟨_, items⟩ := Fifo.push?_eq_some_iff.mp pushed
      exact ⟨rfl, rfl, items ▸ List.prefix_append _ _⟩

/-- The MAC does not touch the FIFOs. -/
private theorem executeMac (chip : Chip) : chip.executeMac.rxStatus = chip.rxStatus ∧
    chip.executeMac.rxData = chip.rxData ∧ chip.executeMac.txCaptures = chip.txCaptures := by
  unfold Chip.executeMac
  split
  · exact ⟨rfl, rfl, rfl⟩
  · split <;> exact ⟨rfl, rfl, rfl⟩

/-- Nothing else happens before a request. -/
theorem advance (world : World) (choice : Choice) : Surroundings world (world.advance choice) := by
  have arrived := foldl_relates Surroundings refl trans arrive choice.arrivals world
  have captured := foldl_relates Surroundings refl trans capture choice.rxCaptures
    (choice.arrivals.foldl World.arrive world)
  obtain ⟨⟨later, history, environmental, status, data⟩, egress⟩ := arrived.trans captured
  have transmitted := foldl_relates (fun before after : Chip => after.rxStatus = before.rxStatus ∧
      after.rxData = before.rxData ∧ before.txCaptures.items <+: after.txCaptures.items)
    (fun _ => ⟨rfl, rfl, List.prefix_rfl⟩)
    (fun first second => ⟨second.1.trans first.1, second.2.1.trans first.2.1,
      first.2.2.trans second.2.2⟩) captureTx choice.txCaptures
    (choice.rxCaptures.foldl World.capture (choice.arrivals.foldl World.arrive world)).chip
  obtain ⟨sameStatus, sameData, more⟩ := transmitted
  obtain ⟨sameStatus', sameData', same⟩ := executeMac (choice.txCaptures.foldl Chip.captureTx
    (choice.rxCaptures.foldl World.capture (choice.arrivals.foldl World.arrive world)).chip)
  refine ⟨⟨later, history, environmental, ?_, ?_⟩, ?_⟩
  · rw [← status, ← sameStatus]
    simp only [World.advance]
    split
    · rw [sameStatus']
    · rfl
  · rw [← data, ← sameData]
    simp only [World.advance]
    split
    · rw [sameData']
    · rfl
  · apply (egress.trans more).trans
    simp only [World.advance]
    split
    · rw [same]
    · exact List.prefix_rfl

end Surroundings
/-! ### Packets -/

/-- What a history says about the packets of received frames. -/
def Event.packet : Event → Bool
  | .allocated _ | .delivered _ => true
  | _ => false

/-- What concerns packets in a history. -/
def packets (history : List Event) : List Event := history.filter Event.packet

/-- What is new comes behind what was there. -/
theorem packets_newEvents {world next : World} (onward : Onward world next) :
    packets next.history = packets world.history ++ packets (newEvents world next) := by
  obtain ⟨later, history⟩ := onward.history
  rw [newEvents, ← history, List.drop_left, packets, List.filter_append]
  rfl

/-- No packet has been allocated or handed over. -/
def Unpacked (world next : World) : Prop :=
  ∃ later, next.history = world.history ++ later ∧ ∀ event ∈ later, event.packet = false

namespace Unpacked

theorem refl (world : World) : Unpacked world world := ⟨[], by simp, by simp⟩

theorem trans {first second third : World} (before : Unpacked first second)
    (after : Unpacked second third) : Unpacked first third := by
  obtain ⟨later, history, none⟩ := before
  obtain ⟨later', history', none'⟩ := after
  refine ⟨later ++ later', by rw [history', history, List.append_assoc], ?_⟩
  intro event member
  exact (List.mem_append.mp member).elim (none event) (none' event)

/-- Something else is recorded. -/
theorem record (world : World) {event : Event} (other : event.packet = false) :
    Unpacked world (world.record event) := ⟨[event], rfl, by simpa using other⟩

/-- What happens before a request. -/
theorem advance (world : World) (choice : Choice) : Unpacked world (world.advance choice) := by
  obtain ⟨⟨later, history, environmental, _⟩, _⟩ := Surroundings.advance world choice
  refine ⟨later, history, ?_⟩
  intro event member
  have known := environmental event member
  cases event <;> simp_all [Event.environmental, Event.packet]

/-- No packet is concerned. -/
theorem packets {world next : World} (unpacked : Unpacked world next) :
    packets next.history = packets world.history := by
  obtain ⟨later, history, none⟩ := unpacked
  have nothing : later.filter Event.packet = [] := by
    rw [List.filter_eq_nil_iff]
    exact fun event member => by simp [none event member]
  rw [history, Lan9250.packets, List.filter_append, nothing, List.append_nil]
  rfl

/-- Nothing is recorded. -/
private theorem of_history {world next : World} (same : next.history = world.history) :
    Unpacked world next := ⟨[], by simp [same], by simp⟩

/-- A transaction ends. -/
private theorem conclude {α : Type} (world : World) (outcome : Outcome) (result : α × Chip) :
    Unpacked world (world.conclude outcome result).2 := by
  unfold World.conclude
  split <;> exact of_history rfl

/-- What is recorded of a read. -/
private theorem noteRead (world : World) (address : Address) :
    Unpacked world (world.noteRead address) := by
  unfold World.noteRead
  split
  · exact record world rfl
  · exact refl world

/-- What is recorded of a write. -/
private theorem noteWrite (world : World) (address : Address) (value : Word) :
    Unpacked world (world.noteWrite address value) := by
  unfold World.noteWrite
  split
  · split
    · exact refl world
    · exact record world rfl
  · exact refl world

/-- Only an allocation and the handing over concern packets. -/
theorem answer {world next : World} {request : Request} {choice : Choice}
    {response : Response request} (noAlloc : ∀ len, request ≠ .rxAlloc len)
    (noDelivery : ∀ pkt, request ≠ .recvData pkt)
    (answered : Lan9250.answer world request choice = some (response, next)) :
    Unpacked world next := by
  have timed := advance world choice
  cases request with
  | crash => simp [Lan9250.answer] at answered
  | hang => simp [Lan9250.answer] at answered
  | rxAlloc len => exact absurd rfl (noAlloc len)
  | recvData pkt => exact absurd rfl (noDelivery pkt)
  | _ =>
      simp only [Lan9250.answer, Option.some.injEq, Prod.ext_iff] at answered
      obtain ⟨_, rfl⟩ := answered
      first
        | exact timed
        | exact refl world
        | exact record world rfl
        | exact of_history rfl
        | exact timed.trans (of_history rfl)
        | exact timed.trans ((noteRead _ _).trans (conclude _ _ _))
        | exact timed.trans ((noteWrite _ _ _).trans (conclude _ _ _))
        | exact timed.trans (conclude _ _ _)

end Unpacked
end Rp2350Stepper.Lan9250
