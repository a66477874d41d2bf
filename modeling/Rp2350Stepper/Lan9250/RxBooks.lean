import Rp2350Stepper.Lan9250.ReceiveRequests
import Rp2350Stepper.Lan9250.Reliable

/-!
# The books of the RX FIFOs

Which frames have been taken from the RX status FIFO, what the RX data FIFO still holds of
the last of them, and which packets have been made of them. A request of the receive path
which reads neither FIFO only lets more frames be queued.
-/

namespace Rp2350Stepper.Lan9250

open Rp2350Stepper.Data Rp2350Stepper.Semantics

/-! ### Frames which arrive meanwhile -/

/-- Frames are queued behind those in the FIFOs, and nothing else happens there. -/
def Supplied (world next : World) : Prop :=
  ∃ later, arrivedFrames next.history = arrivedFrames world.history ++ later ∧
    next.chip.rxStatus.items = world.chip.rxStatus.items ++ later.map Frame.status ∧
    next.chip.rxData = world.chip.rxData ++ later.flatMap Frame.layout

namespace Supplied

theorem refl (world : World) : Supplied world world := ⟨[], by simp, by simp, by simp⟩

theorem trans {first second third : World} (before : Supplied first second)
    (after : Supplied second third) : Supplied first third := by
  obtain ⟨later, stored, status, data⟩ := before
  obtain ⟨later', stored', status', data'⟩ := after
  refine ⟨later ++ later', ?_, ?_, ?_⟩
  · rw [stored', stored, List.append_assoc]
  · rw [status', status, List.map_append, List.append_assoc]
  · rw [data', data, List.flatMap_append, List.append_assoc]

/-- Another event is recorded. -/
theorem record (world : World) {event : Event} (other : arrivedFrames [event] = []) :
    Supplied world (world.record event) := by
  refine ⟨[], ?_, by simp [World.record], by simp [World.record]⟩
  rw [World.record, arrivedFrames_append, other]

/-- Something else changes. -/
theorem of_same {world next : World} (history : next.history = world.history)
    (status : next.chip.rxStatus = world.chip.rxStatus)
    (data : next.chip.rxData = world.chip.rxData) : Supplied world next :=
  ⟨[], by simp [history], by simp [status], by simp [data]⟩

/-- What happens before a request only stores frames. -/
theorem advance (world : World) (choice : Choice) : Supplied world (world.advance choice) := by
  obtain ⟨⟨later, history, _, status, data⟩, _⟩ := Surroundings.advance world choice
  exact ⟨arrivedFrames later, by rw [history, arrivedFrames_append], status, data⟩

/-- What is recorded of a read stores none. -/
theorem noteRead (world : World) (address : Address) : Supplied world (world.noteRead address) := by
  unfold World.noteRead
  split
  · exact record world rfl
  · exact refl world

theorem noteWrite (world : World) (address : Address) (value : Word) :
    Supplied world (world.noteWrite address value) := by
  unfold World.noteWrite
  split
  · split
    · exact refl world
    · exact record world rfl
  · exact refl world

/-- A transaction which leaves the FIFOs alone. -/
theorem conclude {α : Type} (world : World) (outcome : Outcome) (result : α × Chip)
    (status : result.2.rxStatus = world.chip.rxStatus) (data : result.2.rxData = world.chip.rxData) :
    Supplied world (world.conclude outcome result).2 := by
  unfold World.conclude
  split
  · exact of_same rfl status data
  · exact of_same rfl status data
  · exact refl world

end Supplied

/-- A read of any other register. -/
theorem read_fifos (chip : Chip) {address : Address} (other : address ≠ rxStatusFifo)
    (other' : address ≠ rxDataFifo) : (chip.read address).2 = chip := by
  unfold Chip.read
  rw [if_neg other, if_neg other']
  repeat' split
  all_goals rfl

/-- A write does not touch the FIFOs. -/
theorem write_fifos (chip : Chip) (address : Address) (value : Word) :
    (chip.write address value).rxStatus = chip.rxStatus ∧
    (chip.write address value).rxData = chip.rxData := by
  unfold Chip.write
  repeat' split
  all_goals exact ⟨rfl, rfl⟩

/-- Requests which read neither FIFO and concern no packet. -/
def Request.steady : Request → Prop
  | .readSysReg address => address ≠ rxStatusFifo ∧ address ≠ rxDataFifo
  | .readBuf _ | .rxAlloc _ | .recvData _ => False
  | _ => True

/-- Time stamping does not touch the FIFOs. -/
theorem steady_of_timestamping (request : Request) (timestamping : request.timestamping) :
    request.steady := by
  cases request with
  | readSysReg address =>
      simp only [Request.timestamping, List.mem_cons, List.not_mem_nil, or_false] at timestamping
      rcases timestamping with rfl | rfl | rfl | rfl <;>
        exact ⟨by decide, by decide⟩
  | _ => trivial

/-- Meanwhile frames may arrive. -/
theorem Supplied.answer {world next : World} {request : Request} {choice : Choice}
    {response : Response request} (steady : request.steady)
    (answered : Lan9250.answer world request choice = some (response, next)) :
    Supplied world next := by
  have timed := advance world choice
  cases request with
  | crash => simp [Lan9250.answer] at answered
  | hang => simp [Lan9250.answer] at answered
  | readBuf len => exact steady.elim
  | rxAlloc len => exact steady.elim
  | recvData pkt => exact steady.elim
  | readSysReg address =>
      simp only [Lan9250.answer, Option.some.injEq, Prod.ext_iff] at answered
      obtain ⟨_, rfl⟩ := answered
      have kept := read_fifos ((world.advance choice).noteRead address).chip steady.1 steady.2
      exact timed.trans ((noteRead _ _).trans (conclude _ _ _ (by rw [kept]) (by rw [kept])))
  | writeSysReg address value =>
      simp only [Lan9250.answer, Option.some.injEq, Prod.ext_iff] at answered
      obtain ⟨_, rfl⟩ := answered
      have kept := write_fifos ((world.advance choice).noteWrite address value).chip address value
      exact timed.trans ((noteWrite _ _ _).trans (conclude _ _ _ kept.1 kept.2))
  | _ =>
      simp only [Lan9250.answer, Option.some.injEq, Prod.ext_iff] at answered
      obtain ⟨_, rfl⟩ := answered
      first
        | exact timed
        | exact refl world
        | exact record world rfl

/-! ### The books -/

/-- What has become of the frames which have been stored. -/
structure Books where
  /-- The frames whose status words have been read. -/
  consumed : List Frame
  /-- What the data FIFO still holds of the last of them. -/
  rest : List Byte
  /-- What has been recorded of packets. -/
  packets : List Event

/-- The books, with the frames still queued, are those of a world. -/
structure Books.Kept (books : Books) (queued : List Frame) (world : World) : Prop where
  stored : arrivedFrames world.history = books.consumed ++ queued
  status : world.chip.rxStatus.items = queued.map Frame.status
  data : world.chip.rxData = books.rest ++ queued.flatMap Frame.layout
  packets : Lan9250.packets world.history = books.packets

/-- The books are right, whichever frames are queued. -/
def Books.Balanced (books : Books) (world : World) : Prop := ∃ queued, books.Kept queued world

namespace Books

variable {books : Books} {queued : List Frame} {world next : World}

/-- Frames which are stored come behind those which are queued. -/
theorem Kept.supplied (kept : books.Kept queued world) (supplied : Supplied world next)
    (unpacked : Unpacked world next) : ∃ later, books.Kept (queued ++ later) next := by
  obtain ⟨later, stored, status, data⟩ := supplied
  refine ⟨later, ?_, ?_, ?_, ?_⟩
  · rw [stored, kept.stored, List.append_assoc]
  · rw [status, kept.status, List.map_append]
  · rw [data, kept.data, List.flatMap_append, List.append_assoc]
  · rw [unpacked.packets, kept.packets]

/-- They do not upset the balance. -/
theorem Balanced.supplied (balanced : books.Balanced world) (supplied : Supplied world next)
    (unpacked : Unpacked world next) : books.Balanced next := by
  obtain ⟨queued, kept⟩ := balanced
  obtain ⟨later, kept'⟩ := kept.supplied supplied unpacked
  exact ⟨queued ++ later, kept'⟩

theorem Balanced.advance (balanced : books.Balanced world) (choice : Choice) :
    books.Balanced (world.advance choice) :=
  balanced.supplied (Supplied.advance world choice) (Unpacked.advance world choice)

/-- Steady requests keep the books right. -/
theorem Balanced.answer {request : Request} {choice : Choice} {response : Response request}
    (balanced : books.Balanced world) (steady : request.steady)
    (answered : Lan9250.answer world request choice = some (response, next)) :
    books.Balanced next := by
  refine balanced.supplied (Supplied.answer steady answered) (Unpacked.answer ?_ ?_ answered)
  · rintro len rfl
    exact steady
  · rintro pkt rfl
    exact steady

variable {guard : lan9250.Guard}

theorem Balanced.only {α : Type} {program : Code α} (balanced : books.Balanced world)
    (only : program.Only Request.steady) :
    lan9250.Ensures guard program world fun _ finish => books.Balanced finish :=
  .of_only only balanced fun _ _ _ _ _ steady balanced _ answered =>
    Balanced.answer balanced steady answered

end Books

/-- What concerns a packet is recorded last. -/
theorem packets_record (world : World) {event : Event} (packet : event.packet = true) :
    packets (world.record event).history = packets world.history ++ [event] := by
  simp [packets, World.record, List.filter_append, packet]

/-- A round reads no more than is left. -/
theorem chunkLen_le (bufRxSize pktLen : Nat) : chunkLen bufRxSize pktLen ≤ pktLen := by
  unfold chunkLen
  split <;> omega

/-! ### Reads of the data FIFO, and packets -/

section Requests

variable {guard : lan9250.Guard} (reliable : Reliable guard) {world : World}
  {consumed : List Frame} {packets : List Event}

/-- Taking the first bytes of what the FIFO holds. -/
theorem Books.Balanced.drain {taken rest : List Byte}
    (balanced : Books.Balanced ⟨consumed, taken ++ rest, packets⟩ world) :
    (world.chip.readData taken.length).1 = taken ∧
      Books.Balanced ⟨consumed, rest, packets⟩
        { world with chip := (world.chip.readData taken.length).2 } := by
  obtain ⟨queued, stored, status, data, same⟩ := balanced
  refine ⟨?_, queued, stored, status, ?_, same⟩
  · simp [Chip.readData, data]
  · simp [Chip.readData, data]

include reliable

/-- `lan9250_read_buf` returns the next bytes. -/
theorem readBuf_drains {taken rest : List Byte}
    (balanced : Books.Balanced ⟨consumed, taken ++ rest, packets⟩ world) :
    lan9250.Ensures guard (readBuf taken.length).run world fun result after =>
      result = .ok taken ∧ Books.Balanced ⟨consumed, rest, packets⟩ after := by
  refine .ask fun choice response finish allowed answered => ?_
  simp only [answer, World.readBuf, reliable _ _ _ allowed, World.conclude, Option.some.injEq,
    Prod.mk.injEq] at answered
  obtain ⟨rfl, rfl⟩ := answered
  obtain ⟨read, drained⟩ := (balanced.advance choice).drain
  exact ⟨by rw [read], drained⟩

/-- The dummy read takes the start offset. -/
theorem readDataFifo_drains {offset rest : List Byte} (word : offset.length = 4)
    (balanced : Books.Balanced ⟨consumed, offset ++ rest, packets⟩ world) :
    lan9250.Ensures guard (readSysReg rxDataFifo).run world fun result after =>
      ∃ value, result = .ok value ∧ Books.Balanced ⟨consumed, rest, packets⟩ after := by
  refine .ask fun choice response finish allowed answered => ?_
  have advanced := balanced.advance choice
  have unnoted : (world.advance choice).noteRead rxDataFifo = world.advance choice := by
    simp [World.noteRead, rxDataFifo, capInfo]
  have effect : ((world.advance choice).chip.read rxDataFifo).2 =
      ((world.advance choice).chip.readData offset.length).2 := by
    simp [Chip.read, Chip.readData, rxDataFifo, rxFifoInf, rxStatusFifo, word]
  simp only [answer, World.readSysReg, unnoted, reliable _ _ _ allowed, World.conclude,
    Option.some.injEq, Prod.mk.injEq] at answered
  obtain ⟨rfl, rfl⟩ := answered
  rw [effect]
  exact ⟨_, rfl, advanced.drain.2⟩

omit reliable in
/-- An allocation is recorded; the buffers of a packet are empty. -/
theorem rxAlloc_books {rest : List Byte} {len : Nat}
    (balanced : Books.Balanced ⟨consumed, rest, packets⟩ world) :
    lan9250.Ensures guard (call (.rxAlloc len)) world fun result after =>
      match result with
      | none => Books.Balanced ⟨consumed, rest, packets ++ [.allocated false]⟩ after
      | some pkt => (∀ data ∈ pkt.frags, data = []) ∧
          Books.Balanced ⟨consumed, rest, packets ++ [.allocated true]⟩ after := by
  refine .ask fun choice response finish allowed answered => ?_
  have recorded : ∀ succeeded, Books.Balanced
      ⟨consumed, rest, packets ++ [.allocated succeeded]⟩
        ((world.advance choice).record (.allocated succeeded)) := by
    intro succeeded
    obtain ⟨queued, stored, status, data, same⟩ := balanced.advance choice
    refine ⟨queued, ?_, status, data, ?_⟩
    · simpa [World.record, arrivedFrames_append, arrivedFrames] using stored
    · rw [packets_record _ rfl, same]
  cases chosen : choice.alloc with
  | none =>
      simp only [answer, World.rxAlloc, chosen, Option.some.injEq, Prod.mk.injEq] at answered
      obtain ⟨rfl, rfl⟩ := answered
      exact recorded false
  | some alloc =>
      simp only [answer, World.rxAlloc, chosen, Option.some.injEq, Prod.mk.injEq] at answered
      obtain ⟨rfl, rfl⟩ := answered
      exact ⟨fun data member => List.eq_of_mem_replicate member, recorded true⟩

omit reliable in
/-- So is the handing over of a packet. -/
theorem recvData_books {rest : List Byte} {pkt : NetPkt}
    (balanced : Books.Balanced ⟨consumed, rest, packets⟩ world) :
    lan9250.Ensures guard (call (.recvData pkt)) world fun _ after =>
      Books.Balanced ⟨consumed, rest, packets ++ [.delivered pkt]⟩ after := by
  refine .ask fun choice response finish allowed answered => ?_
  simp only [answer, Option.some.injEq, Prod.mk.injEq] at answered
  obtain ⟨_, rfl⟩ := answered
  obtain ⟨queued, stored, status, data, same⟩ := balanced.advance choice
  refine ⟨queued, ?_, status, data, ?_⟩
  · simpa [World.record, arrivedFrames_append, arrivedFrames] using stored
  · rw [packets_record _ rfl, same]

/-! ### The drain loops -/

/-- One round of either loop. -/
theorem readChunk_drains {bufRxSize : Nat} {bytes rest : List Byte}
    (balanced : Books.Balanced ⟨consumed, bytes ++ rest, packets⟩ world) :
    lan9250.Ensures guard (readBuf (chunkLen bufRxSize bytes.length)).run world fun result after =>
      result = .ok (bytes.take (chunkLen bufRxSize bytes.length)) ∧
        Books.Balanced ⟨consumed, bytes.drop (chunkLen bufRxSize bytes.length) ++ rest, packets⟩
          after := by
  have length : (bytes.take (chunkLen bufRxSize bytes.length)).length =
      chunkLen bufRxSize bytes.length := by
    rw [List.length_take, Nat.min_eq_left (chunkLen_le bufRxSize bytes.length)]
  have split : Books.Balanced ⟨consumed, bytes.take (chunkLen bufRxSize bytes.length) ++
      (bytes.drop (chunkLen bufRxSize bytes.length) ++ rest), packets⟩ world := by
    rwa [← List.append_assoc, List.take_append_drop]
  have read := readBuf_drains reliable split
  rwa [length] at read

/-- The discarding loop takes the whole frame, if it ends. -/
theorem discardFrame_drains {bufRxSize rounds : Nat} {bytes rest : List Byte}
    (balanced : Books.Balanced ⟨consumed, bytes ++ rest, packets⟩ world) :
    lan9250.Ensures guard (discardFrame bufRxSize rounds bytes.length) world fun _ after =>
      Books.Balanced ⟨consumed, rest, packets⟩ after := by
  generalize length : bytes.length = pktLen
  induction rounds generalizing bytes pktLen world with
  | zero =>
      cases pktLen with
      | zero =>
          obtain rfl := List.length_eq_zero_iff.mp length
          exact .pure balanced
      | succ pktLen =>
          refine .bind (.ask ?_)
          intro choice response finish allowed answered
          cases answered
  | succ rounds inductionHypothesis =>
      cases pktLen with
      | zero =>
          obtain rfl := List.length_eq_zero_iff.mp length
          exact .pure balanced
      | succ pktLen =>
          have read : lan9250.Ensures guard (readBuf (chunkLen bufRxSize bytes.length)).run world _ :=
            readChunk_drains reliable balanced
          rw [length] at read
          refine .bind (read.weaken ?_)
          rintro result after ⟨rfl, balanced⟩
          apply inductionHypothesis balanced _
          rw [List.length_drop, length]

/-- The filling loop leaves the frame in the buffers, if it ends. -/
theorem fillFrags_drains {bufRxSize rounds : Nat} {bytes rest : List Byte}
    {frags : List (List Byte)} (empty : ∀ data ∈ frags, data = [])
    (balanced : Books.Balanced ⟨consumed, bytes ++ rest, packets⟩ world) :
    lan9250.Ensures guard (fillFrags bufRxSize rounds bytes.length frags).run world
      fun result after => ∃ filled, result = .ok filled ∧ filled.flatten = bytes ∧
        Books.Balanced ⟨consumed, rest, packets⟩ after := by
  induction rounds generalizing bytes frags world with
  | zero =>
      refine .run_bind (.run_lift (.ask ?_))
      intro choice response finish allowed answered
      cases answered
  | succ rounds inductionHypothesis =>
      cases frags with
      | nil =>
          refine .run_bind (.run_lift (.ask ?_))
          intro choice response finish allowed answered
          cases answered
      | cons data frags =>
          obtain rfl := empty data List.mem_cons_self
          have others : ∀ data ∈ frags, data = [] := fun data member =>
            empty data (List.mem_cons_of_mem _ member)
          refine .run_bind ((readChunk_drains reliable balanced).weaken ?_)
          rintro result after ⟨rfl, balanced⟩
          have left : (bytes.drop (chunkLen bufRxSize bytes.length)).length =
              bytes.length - chunkLen bufRxSize bytes.length := List.length_drop
          have whole := List.take_append_drop (chunkLen bufRxSize bytes.length) bytes
          simp only
          split
          · have filling := inductionHypothesis others balanced
            rw [left] at filling
            refine .run_bind (filling.weaken ?_)
            rintro result after ⟨filled, rfl, filled_flatten, balanced⟩
            exact .pure ⟨_, rfl, by simp [filled_flatten], balanced⟩
          · have nothing : bytes.drop (chunkLen bufRxSize bytes.length) = [] :=
              List.length_eq_zero_iff.mp (by omega)
            rw [nothing] at balanced whole
            have unused : frags.flatten = [] := List.flatten_eq_nil_iff.mpr others
            exact .run_bind (.pure (.pure ⟨_, rfl, by simpa [unused] using whole, balanced⟩))

end Requests
end Rp2350Stepper.Lan9250
