import Rp2350Stepper.Lan9250.RxBooks

/-!
# The fate of a frame

`lan9250_rx` counts the queued frames, takes the oldest status word, and then reads the
data of its frame. When a frame has been queued before the count, or none before the status
word is read, a call settles the fate of one frame: it takes the whole frame off both FIFOs
and hands it over, or discards it when no packet could be allocated.
-/

namespace Rp2350Stepper.Lan9250

open Rp2350Stepper.Data Rp2350Stepper.Semantics

/-! ### Fates of frames -/

/-- What has become of a frame: the packet it is in, if one could be allocated. -/
structure Fate where
  frame : Frame
  pkt : Option NetPkt
  whole : ∀ filled, pkt = some filled → filled.data = frame.bytes

/-- What is recorded of it. -/
def Fate.events (fate : Fate) : List Event :=
  match fate.pkt with
  | none => [.allocated false]
  | some filled => [.allocated true, .delivered filled]

/-! ### What a count and a status word say -/

/-- `RX_FIFO_INF` tells whether there are status words, by their 129 counts. -/
private theorem queued_of_le : ∀ count : Fin 129,
    (BitVec.ofNat 32 count <<< 16 &&& rxFifoInfRxsused) >>> 16 = 0 ↔ count = 0 := by
  decide

/-- The bytes used of the data FIFO stand below the count. -/
private theorem dataUsed_and (used : BitVec 16) : used.setWidth 32 &&& rxFifoInfRxsused = 0 := by
  ext bit bound
  rw [BitVec.getElem_and, BitVec.getElem_setWidth]
  by_cases low : bit < 16
  · have unset : ∀ bit : Fin 16, rxFifoInfRxsused.getLsbD bit = false := by decide
    have here := unset ⟨bit, low⟩
    simp only [BitVec.getLsbD_eq_getElem, bound] at here
    simp [here]
  · rw [BitVec.getLsbD_of_ge _ _ (by omega)]
    simp

/-- The count is 0 when no status word is queued. -/
theorem rxFifoInf_eq_zero (chip : Chip) :
    ((chip.read rxFifoInf).1 &&& rxFifoInfRxsused) >>> 16 = 0 ↔ chip.rxStatus.items = [] := by
  have few := chip.rxStatus.bounded
  unfold rxStatusDepth at few
  have counted := queued_of_le ⟨chip.rxStatus.items.length, by omega⟩
  simp only [Fin.ext_iff, Fin.val_zero, List.length_eq_zero_iff] at counted
  have shown : (chip.read rxFifoInf).1 = BitVec.ofNat 32 chip.rxStatus.items.length <<< 16 |||
      (BitVec.ofNat 16 chip.rxData.length).setWidth 32 := by
    simp [Chip.read]
  rwa [shown, BitVec.and_or_distrib_right, dataUsed_and, show _ ||| (0 : Word) = _ from BitVec.or_zero]

/-- A status word says how many bytes of the data FIFO its frame takes. -/
theorem layout_length (frame : Frame) :
    frame.layout.length = 4 + packetLen frame.status + endPad (packetLen frame.status) := by
  simp only [Frame.layout, frame.reported, List.length_append, List.length_replicate]

/-- What an empty status FIFO reads as is no frame's status word. -/
theorem packetLen_zero : packetLen 0 = 0 := by decide

/-- No frame is reported as empty. -/
theorem packetLen_status (frame : Frame) : packetLen frame.status ≠ 0 := by
  have nonempty := frame.nonempty
  rw [frame.reported]
  omega

/-! ### The environment, frame by frame -/

/-- An ingress event stores no frame. -/
private theorem capture_stored (world : World) (capture : Capture) :
    arrivedFrames (world.capture capture).history = arrivedFrames world.history := by
  unfold World.capture
  split
  · rw [World.record, arrivedFrames_append]
    exact List.append_nil _
  · rfl

/-- When no frame arrives, none is stored. -/
theorem advance_stored (world : World) {choice : Choice} (none : choice.arrivals = []) :
    arrivedFrames (world.advance choice).history = arrivedFrames world.history := by
  have captured := foldl_keeps (fun world : World => arrivedFrames world.history) capture_stored
    choice.rxCaptures world
  rw [World.advance, none]
  exact captured

/-- When none is stored, none is queued. -/
theorem advance_queued {world : World} {choice : Choice} (none : choice.arrivals = []) :
    (world.advance choice).chip.rxStatus.items = world.chip.rxStatus.items := by
  obtain ⟨⟨later, history, _, status, _⟩, _⟩ := Surroundings.advance world choice
  have same := advance_stored world none
  rw [history, arrivedFrames_append, List.append_right_eq_self] at same
  rw [status, same, List.map_nil, List.append_nil]

/-- The first frame which arrives finds room in an empty FIFO. -/
theorem advance_nonempty {world : World} {choice : Choice}
    (empty : world.chip.rxStatus.items = []) (some : choice.arrivals ≠ []) :
    (world.advance choice).chip.rxStatus.items ≠ [] := by
  obtain ⟨frame, rest, arrivals⟩ := List.exists_cons_of_ne_nil some
  have same : (world.advance choice).chip =
      ((world.arrive frame).advance { choice with arrivals := rest }).chip := by
    simp only [World.advance, arrivals, List.foldl_cons]
  have stored : (world.arrive frame).chip.rxStatus.items = [frame.status] := by
    unfold World.arrive Chip.receive?
    cases pushed : world.chip.rxStatus.push? frame.status with
    | none =>
        have full := Fifo.push?_eq_none_iff.mp pushed
        simp [Fifo.isFull, empty, rxStatusDepth] at full
    | some rxStatus =>
        have items := (Fifo.push?_eq_some_iff.mp pushed).2
        simpa [World.record, empty] using items
  obtain ⟨⟨later, _, _, status, _⟩, _⟩ :=
    Surroundings.advance (world.arrive frame) { choice with arrivals := rest }
  rw [same, status, stored]
  exact List.cons_ne_nil _ _

/-! ### The count and the status word -/

section Requests

variable {guard : lan9250.Guard} (reliable : Reliable guard) {world : World} {books : Books}
  {α : Type}

include reliable

/-- The count shows whether a frame is queued at the moment it is read. -/
theorem readCount_books (balanced : books.Balanced world) :
    lan9250.Ensures guard (readSysReg rxFifoInf).run world fun result after =>
      ∃ info, result = .ok info ∧
        ((info &&& rxFifoInfRxsused) >>> 16 = 0 ↔ after.chip.rxStatus.items = []) ∧
        world.chip.rxStatus.items <+: after.chip.rxStatus.items ∧ books.Balanced after := by
  refine .ask fun choice response finish allowed answered => ?_
  have unnoted : (world.advance choice).noteRead rxFifoInf = world.advance choice := by
    simp [World.noteRead, rxFifoInf, capInfo]
  have untouched := read_fifos (world.advance choice).chip
    (show rxFifoInf ≠ rxStatusFifo by decide) (by decide)
  simp only [answer, World.readSysReg, unnoted, reliable _ _ _ allowed, World.conclude, untouched,
    Option.some.injEq, Prod.mk.injEq] at answered
  obtain ⟨rfl, rfl⟩ := answered
  obtain ⟨_, _, status, _⟩ := Supplied.advance world choice
  exact ⟨_, rfl, rxFifoInf_eq_zero _, status ▸ List.prefix_append _ _, balanced.advance choice⟩

omit reliable in
/-- The status word which is read is that of the oldest frame, when there is one. -/
theorem readStatus_cases {consumed : List Frame} {packets : List Event} {choice : Choice}
    (succeeded : choice.outcome = .ok)
    (balanced : Books.Balanced ⟨consumed, [], packets⟩ world) :
    ((world.advance choice).chip.rxStatus.items = [] ∧
      (world.readSysReg rxStatusFifo choice).1 = .ok 0 ∧
      Books.Balanced ⟨consumed, [], packets⟩ (world.readSysReg rxStatusFifo choice).2) ∨
    (world.advance choice).chip.rxStatus.items ≠ [] ∧ ∃ frame,
      (world.readSysReg rxStatusFifo choice).1 = .ok frame.status ∧
      Books.Balanced ⟨consumed ++ [frame], frame.layout, packets⟩
        (world.readSysReg rxStatusFifo choice).2 := by
  obtain ⟨queued, stored, status, data, same⟩ := balanced.advance choice
  have unnoted : (world.advance choice).noteRead rxStatusFifo = world.advance choice := by
    simp [World.noteRead, rxStatusFifo, capInfo]
  simp only [World.readSysReg, unnoted, succeeded, World.conclude]
  cases popped : (world.advance choice).chip.rxStatus.pop? with
  | none =>
      have shown : (world.advance choice).chip.read rxStatusFifo =
          (0, (world.advance choice).chip) := by
        rw [Chip.read, if_neg (by decide), if_pos rfl, popped]
      rw [shown]
      exact .inl ⟨Fifo.pop?_eq_none_iff.mp popped, rfl, queued, stored, status, data, same⟩
  | some taken =>
      have shown : (world.advance choice).chip.read rxStatusFifo =
          (taken.1, { (world.advance choice).chip with rxStatus := taken.2 }) := by
        rw [Chip.read, if_neg (by decide), if_pos rfl, popped]
      have head := Fifo.pop?_eq_some_iff.mp popped
      rw [shown]
      cases queued with
      | nil => simp [head] at status
      | cons frame queued =>
          rw [status, List.map_cons, List.cons.injEq] at head
          refine .inr ⟨by simp [status], frame, by rw [head.1], queued, ?_, head.2.symm, ?_, same⟩
          · rw [stored, List.append_assoc, List.singleton_append]
          · simpa using data

/-! ### Taking a frame -/

/-- The end padding is drained, if there is any. -/
theorem endPad_drains {consumed : List Frame} {packets : List Event} {filler : Byte} {len : Nat}
    (balanced : Books.Balanced ⟨consumed, List.replicate (endPad len) filler, packets⟩ world) :
    lan9250.Ensures guard (readBuf (endPad len)).run world fun result after =>
      (∃ bytes, result = .ok bytes) ∧ Books.Balanced ⟨consumed, [], packets⟩ after := by
  have whole : Books.Balanced ⟨consumed, List.replicate (endPad len) filler ++ [], packets⟩ world := by
    rwa [List.append_nil]
  have read := readBuf_drains reliable whole
  rw [List.length_replicate] at read
  exact read.weaken fun _ _ ⟨shape, balanced⟩ => ⟨⟨_, shape⟩, balanced⟩

omit reliable in
/-- A steady request in code which cannot fail. -/
theorem steady_bind {request : Request} {next : Response request → Code α}
    {post : α → World → Prop} (balanced : books.Balanced world) (steady : request.steady)
    (continues : ∀ response after, books.Balanced after →
      lan9250.Ensures guard (next response) after post) :
    lan9250.Ensures guard (call request >>= next) world post :=
  .bind ((balanced.only (only_call steady)).weaken continues)

omit reliable in
/-- And in code which can. -/
theorem steady_run_bind {request : Request} {next : Response request → Driver α}
    {post : Except Errno α → World → Prop} (balanced : books.Balanced world)
    (steady : request.steady) (continues : ∀ response after, books.Balanced after →
      lan9250.Ensures guard (next response).run after post) :
    lan9250.Ensures guard (liftM (call request) >>= next).run world post :=
  .run_bind (.run_lift ((balanced.only (only_call steady)).weaken continues))

/-- A frame no packet could be allocated for is discarded. -/
theorem dropFrame_drains {consumed : List Frame} {packets : List Event} {bytes : List Byte}
    {filler : Byte} {bufRxSize : Nat}
    (balanced : Books.Balanced
      ⟨consumed, bytes ++ List.replicate (endPad bytes.length) filler, packets⟩ world) :
    lan9250.Ensures guard (dropFrame bufRxSize bytes.length) world fun _ after =>
      Books.Balanced ⟨consumed, [], packets⟩ after := by
  refine steady_bind balanced trivial fun _ _ balanced => ?_
  refine steady_bind balanced trivial fun _ _ balanced => ?_
  refine steady_bind balanced trivial fun _ _ balanced => ?_
  refine steady_bind balanced trivial fun now _ balanced => ?_
  refine .bind ((balanced.only (((rxPendingExpire_only now).weaken timestamping_of_bookkeeping).weaken
      steady_of_timestamping)).weaken
    fun _ _ balanced => ?_)
  refine steady_bind balanced trivial fun _ _ balanced => ?_
  refine .bind ((discardFrame_drains reliable balanced).weaken fun _ _ balanced => ?_)
  split
  · exact .bind ((endPad_drains reliable balanced).weaken fun _ _ drained => .pure drained.2)
  · rename_i unpadded
    rw [Nat.eq_zero_of_not_pos unpadded] at balanced
    exact .pure balanced

omit reliable in
/-- The check of a packet, and its handing over. -/
theorem handOver_books {consumed : List Frame} {packets : List Event} {filled : NetPkt}
    {frameLen : Nat} (balanced : Books.Balanced ⟨consumed, [], packets⟩ world) :
    lan9250.Ensures guard (handOver filled frameLen).run world fun result after =>
      result = .ok () ∧ Books.Balanced ⟨consumed, [], packets ++ [.delivered filled]⟩ after := by
  refine .run_bind (.run_lift ((balanced.only
    ((rxTimestampCheck_only _ _).weaken steady_of_timestamping)).weaken fun _ _ balanced => ?_))
  refine .run_bind (.run_lift ((recvData_books balanced).weaken fun accepted _ balanced => ?_))
  have given {world : World}
      (balanced : Books.Balanced ⟨consumed, [], packets ++ [.delivered filled]⟩ world) :
      lan9250.Ensures guard (liftM (call .semGive) : Driver Unit).run world fun result after =>
        result = .ok () ∧ Books.Balanced ⟨consumed, [], packets ++ [.delivered filled]⟩ after :=
    .run_lift ((balanced.only (@only_call _ .semGive trivial)).weaken fun _ _ balanced =>
      ⟨rfl, balanced⟩)
  simp only
  split
  · exact steady_run_bind balanced trivial fun _ _ balanced => given balanced
  · exact given balanced

/-- A packet is handed over with the bytes of its frame. -/
theorem deliverFrame_drains {consumed : List Frame} {packets : List Event} {bytes : List Byte}
    {filler : Byte} {bufRxSize : Nat} {pkt : NetPkt} (empty : ∀ data ∈ pkt.frags, data = [])
    (balanced : Books.Balanced
      ⟨consumed, bytes ++ List.replicate (endPad bytes.length) filler, packets⟩ world) :
    lan9250.Ensures guard (deliverFrame bufRxSize bytes.length pkt).run world fun result after =>
      result = .ok () ∧ ∃ filled : NetPkt, filled.data = bytes ∧
        Books.Balanced ⟨consumed, [], packets ++ [.delivered filled]⟩ after := by
  rw [deliverFrame_eq]
  refine .run_bind ((fillFrags_drains reliable empty balanced).weaken ?_)
  rintro result world ⟨frags, rfl, whole, balanced⟩
  have finished {world : World} (balanced : Books.Balanced ⟨consumed, [], packets⟩ world) :
      lan9250.Ensures guard (handOver { pkt with frags := frags } bytes.length).run world
        fun result after => result = .ok () ∧ ∃ filled : NetPkt, filled.data = bytes ∧
          Books.Balanced ⟨consumed, [], packets ++ [.delivered filled]⟩ after :=
    (handOver_books balanced).weaken fun _ _ ⟨ended, balanced⟩ =>
      ⟨ended, ⟨pkt.id, frags⟩, whole, balanced⟩
  simp only
  split
  · refine .run_bind ((endPad_drains reliable balanced).weaken ?_)
    rintro _ _ ⟨⟨padding, rfl⟩, balanced⟩
    exact finished balanced
  · rename_i unpadded
    rw [Nat.eq_zero_of_not_pos unpadded] at balanced
    exact finished balanced

/-- The allocation, and what follows it. -/
theorem takePacket_settles {consumed : List Frame} {packets : List Event} {frame : Frame}
    {bufRxSize : Nat} (balanced : Books.Balanced ⟨consumed,
      frame.bytes ++ List.replicate (endPad frame.bytes.length) frame.filler, packets⟩ world) :
    lan9250.Ensures guard (takePacket bufRxSize frame.bytes.length).run world
      fun result after => result = .ok () ∧ ∃ fate : Fate, fate.frame = frame ∧
        Books.Balanced ⟨consumed, [], packets ++ fate.events⟩ after := by
  refine .run_bind (.run_lift ((rxAlloc_books balanced).weaken fun allocated _ allocation => ?_))
  cases allocated with
  | none =>
      refine .run_lift ((dropFrame_drains reliable allocation).weaken fun _ _ balanced => ?_)
      exact ⟨rfl, ⟨frame, none, by simp⟩, rfl, balanced⟩
  | some pkt =>
      refine (deliverFrame_drains reliable allocation.1 allocation.2).weaken ?_
      rintro _ _ ⟨ended, filled, whole, balanced⟩
      refine ⟨ended, ⟨frame, some filled, by simpa using whole⟩, rfl, ?_⟩
      simpa [Fate.events] using balanced

/-- The rest of a call takes the data of the frame. -/
theorem takeFrame_settles {consumed : List Frame} {packets : List Event} {frame : Frame}
    {bufRxSize : Nat} (balanced : Books.Balanced ⟨consumed, frame.layout, packets⟩ world) :
    lan9250.Ensures guard (takeFrame bufRxSize (packetLen frame.status)).run world
      fun result after => result = .ok () ∧ ∃ fate : Fate, fate.frame = frame ∧
        Books.Balanced ⟨consumed, [], packets ++ fate.events⟩ after := by
  have laid : frame.layout = List.replicate 4 frame.filler ++ (frame.bytes ++
      List.replicate (endPad frame.bytes.length) frame.filler) := List.append_assoc ..
  rw [laid] at balanced
  rw [frame.reported]
  refine .run_bind ((readDataFifo_drains reliable List.length_replicate balanced).weaken ?_)
  rintro _ world ⟨offset, rfl, balanced⟩
  simp only
  split
  · refine steady_run_bind balanced trivial fun _ _ balanced => ?_
    exact steady_run_bind balanced trivial fun _ _ balanced => takePacket_settles reliable balanced
  · exact takePacket_settles reliable balanced

end Requests

/-! ### Calls -/

/-- No frame arrives after a count of 0 has been read and before the status word is. -/
def countHolds (world : World) (request : Request) (choice : Choice) : Prop :=
  request = .readSysReg rxStatusFifo → world.chip.rxStatus.items = [] → choice.arrivals = []

section Calls

variable {guard : lan9250.Guard} (reliable : Reliable guard)
  (unsurprised : ∀ world request choice, guard world request choice →
    countHolds world request choice)
  {world : World}

include reliable unsurprised

/-- The status word is that of the oldest frame if there was one to count. -/
theorem readStatus_books {consumed : List Frame} {packets : List Event}
    (balanced : Books.Balanced ⟨consumed, [], packets⟩ world) :
    lan9250.Ensures guard (readSysReg rxStatusFifo).run world fun result after =>
      (world.chip.rxStatus.items = [] ∧ result = .ok 0 ∧
        Books.Balanced ⟨consumed, [], packets⟩ after) ∨
      world.chip.rxStatus.items ≠ [] ∧ ∃ frame, result = .ok frame.status ∧
        Books.Balanced ⟨consumed ++ [frame], frame.layout, packets⟩ after := by
  refine .ask fun choice response after allowed answered => ?_
  have taken : world.readSysReg rxStatusFifo choice = (response, after) := Option.some.inj answered
  have cases := readStatus_cases (reliable _ _ _ allowed) balanced
  rw [taken] at cases
  obtain ⟨nothing, read⟩ | ⟨something, read⟩ := cases
  · obtain ⟨_, _, status, _⟩ := Supplied.advance world choice
    rw [nothing] at status
    exact .inl ⟨(List.append_eq_nil_iff.mp status.symm).1, read⟩
  · refine .inr ⟨fun empty => something ?_, read⟩
    exact (advance_queued (unsurprised _ _ _ allowed rfl empty)).trans empty

/-- A call settles the fate of one frame, if one is queued when it counts. -/
theorem lan9250Rx_settles {consumed : List Frame} {packets : List Event} {bufDataSize : Nat}
    (balanced : Books.Balanced ⟨consumed, [], packets⟩ world) :
    lan9250.Ensures guard (lan9250Rx bufDataSize).run world fun result after =>
      result = .ok () ∧ ∃ fate? : Option Fate,
        (world.chip.rxStatus.items ≠ [] → fate? ≠ none) ∧
        Books.Balanced ⟨consumed ++ fate?.toList.map Fate.frame, [],
          packets ++ fate?.toList.flatMap Fate.events⟩ after := by
  rw [lan9250Rx_eq]
  refine .run_bind ((readCount_books reliable balanced).weaken ?_)
  rintro _ counted ⟨info, rfl, count, more, balanced⟩
  refine .run_bind ((readStatus_books reliable unsurprised balanced).weaken ?_)
  rintro _ popped (⟨empty, rfl, balanced⟩ | ⟨nonempty, frame, rfl, balanced⟩)
  · simp only
    rw [if_pos (.inr packetLen_zero)]
    rw [empty, List.prefix_nil] at more
    exact .pure ⟨rfl, none, absurd more, by simpa using balanced⟩
  · simp only
    rw [if_neg (not_or.mpr ⟨fun zero => nonempty (count.mp zero), packetLen_status frame⟩)]
    refine (takeFrame_settles reliable balanced).weaken ?_
    rintro _ _ ⟨ended, fate, rfl, balanced⟩
    exact ⟨ended, some fate, fun _ => Option.some_ne_none fate, by simpa using balanced⟩

end Calls

end Rp2350Stepper.Lan9250
