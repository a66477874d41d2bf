import Rp2350Stepper.Lan9250.RxLockstep

/-!
# Every frame is taken whole

When no frame arrives in the middle of a call, a call made with a frame queued takes exactly
that frame off both FIFOs, and a frame for which a packet could be allocated is handed over
in it. Both drain loops need a buffer size other than 0, and the filling loop as many buffers
as the frame fills.
-/

namespace Rp2350Stepper.Lan9250

open Rp2350Stepper.Data Rp2350Stepper.Semantics

/-- No transaction fails, no frame arrives, and an allocated packet has enough buffers of this
size for its frame. -/
def roomy (bufSize : Nat) : lan9250.Guard := fun _ request choice =>
  choice.outcome = .ok ∧ choice.arrivals = [] ∧
    ∀ len id count, request = .rxAlloc len → choice.alloc = some (id, count) →
      len ≤ count * bufSize

section Guard

variable {bufSize : Nat}

/-- Every request may succeed with enough buffers. -/
theorem live_roomy : Live (roomy bufSize) :=
  fun _ _ => ⟨.quiet, rfl, rfl, fun _ _ _ _ allocated => by cases allocated⟩

/-- No request may fail. -/
theorem reliable_roomy : Reliable (roomy bufSize) := fun _ _ _ allowed => allowed.1

/-- No frame comes between the count and its status word. -/
theorem countHolds_roomy {world : World} {request : Request} {choice : Choice}
    (allowed : roomy bufSize world request choice) : countHolds world request choice :=
  fun _ _ => allowed.2.1

end Guard

/-! ### No call stores a frame -/

/-- Something else than a frame is recorded. -/
private theorem note_stored (world : World) {event : Event} (other : arrivedFrames [event] = []) :
    arrivedFrames (world.record event).history = arrivedFrames world.history := by
  rw [World.record, arrivedFrames_append, other, List.append_nil]

/-- What is recorded of a read stores no frame. -/
private theorem noteRead_stored (world : World) (address : Address) :
    arrivedFrames (world.noteRead address).history = arrivedFrames world.history := by
  unfold World.noteRead
  split
  · exact note_stored world rfl
  · rfl

private theorem noteWrite_stored (world : World) (address : Address) (value : Word) :
    arrivedFrames (world.noteWrite address value).history = arrivedFrames world.history := by
  unfold World.noteWrite
  split
  · split
    · rfl
    · exact note_stored world rfl
  · rfl

/-- The end of a transaction records nothing. -/
private theorem conclude_stored {β : Type} (world : World) (outcome : Outcome) (result : β × Chip) :
    (world.conclude outcome result).2.history = world.history := by
  unfold World.conclude
  split <;> rfl

/-- Without arrivals no frame is stored. -/
private theorem answer_stored {world next : World} {request : Request} {choice : Choice}
    {response : Response request} (none : choice.arrivals = [])
    (answered : answer world request choice = some (response, next)) :
    arrivedFrames next.history = arrivedFrames world.history := by
  have timed := advance_stored world none
  cases request with
  | crash => simp [answer] at answered
  | hang => simp [answer] at answered
  | readSysReg address =>
      simp only [answer, Option.some.injEq, Prod.ext_iff] at answered
      obtain ⟨_, rfl⟩ := answered
      rw [World.readSysReg, conclude_stored, noteRead_stored, timed]
  | writeSysReg address value =>
      simp only [answer, Option.some.injEq, Prod.ext_iff] at answered
      obtain ⟨_, rfl⟩ := answered
      rw [World.writeSysReg, conclude_stored, noteWrite_stored, timed]
  | readBuf len =>
      simp only [answer, Option.some.injEq, Prod.ext_iff] at answered
      obtain ⟨_, rfl⟩ := answered
      rw [World.readBuf, conclude_stored, timed]
  | rxAlloc len =>
      simp only [answer, Option.some.injEq, Prod.ext_iff] at answered
      obtain ⟨_, rfl⟩ := answered
      unfold World.rxAlloc
      split <;> exact (note_stored _ rfl).trans timed
  | _ =>
      simp only [answer, Option.some.injEq, Prod.ext_iff] at answered
      obtain ⟨_, rfl⟩ := answered
      first
        | exact timed
        | rfl
        | exact note_stored world rfl
        | exact (note_stored _ rfl).trans timed

theorem returns_stored {α : Type} {bufSize : Nat} {program : Code α} {before after : World}
    {choices : List Choice} {value : α}
    (returns : lan9250.Returns (roomy bufSize) program before choices value after) :
    arrivedFrames after.history = arrivedFrames before.history :=
  returns.relates
    (fun before after : World => arrivedFrames after.history = arrivedFrames before.history)
    (fun _ => rfl) (fun first second => second.trans first)
    fun allowed answered => answer_stored allowed.2.1 answered

/-! ### Requests which are answered -/

/-- Every request but those of a call which never returns. -/
def Request.answered : Request → Prop
  | .crash | .hang => False
  | _ => True

/-- Time stamping asks for nothing which is not answered. -/
private theorem answered_of_timestamping (request : Request) (timestamping : request.timestamping) :
    request.answered := by
  cases request <;> trivial

section Answered

variable {guard : lan9250.Guard} (live : Live guard) {world : World} {α : Type}

include live

/-- Code which makes only such requests returns. -/
theorem completes_of_answered {program : Code α} (only : program.Only Request.answered) :
    lan9250.Completes guard program world fun _ _ => True := by
  refine .of_only only trivial ?_ fun _ _ _ _ _ _ _ _ _ => trivial
  intro world request answered _
  obtain ⟨choice, allowed⟩ := live world request
  cases request with
  | crash => exact answered.elim
  | hang => exact answered.elim
  | _ => exact ⟨choice, _, _, allowed, rfl⟩

/-- One of them, in code which cannot fail. -/
theorem answered_bind {request : Request} {next : Response request → Code α}
    {post : α → World → Prop} (answered : request.answered)
    (continues : ∀ response after, lan9250.Completes guard (next response) after post) :
    lan9250.Completes guard (call request >>= next) world post := by
  rw [Device.completes_bind]
  exact (completes_of_answered live (only_call answered)).weaken fun response after _ =>
    continues response after

/-- And in code which can. -/
theorem answered_run_bind {request : Request} {next : Response request → Driver α}
    {post : Except Errno α → World → Prop} (answered : request.answered)
    (continues : ∀ response after, lan9250.Completes guard (next response).run after post) :
    lan9250.Completes guard (liftM (call request) >>= next).run world post := by
  rw [Device.completes_run_bind, Device.completes_run_lift]
  exact (completes_of_answered live (only_call answered)).weaken fun response after _ =>
    continues response after

end Answered

/-! ### The drain loops end -/

/-- A round reads something. -/
theorem chunkLen_pos {bufRxSize pktLen : Nat} (positive : 0 < bufRxSize) (some : 0 < pktLen) :
    0 < chunkLen bufRxSize pktLen := by
  unfold chunkLen
  split <;> assumption

section Loops

variable {guard : lan9250.Guard} (live : Live guard) {bufRxSize : Nat} (positive : 0 < bufRxSize)
  {world : World}

include live positive

/-- Each round of the discarding loop reads a byte or more. -/
theorem discardFrame_completes {rounds pktLen : Nat} (enough : pktLen ≤ rounds) :
    lan9250.Completes guard (discardFrame bufRxSize rounds pktLen) world fun _ _ => True := by
  induction rounds generalizing pktLen world with
  | zero =>
      obtain rfl := Nat.le_zero.mp enough
      exact trivial
  | succ rounds inductionHypothesis =>
      cases pktLen with
      | zero => exact trivial
      | succ pktLen =>
          have less : 0 < chunkLen bufRxSize (pktLen + 1) :=
            chunkLen_pos positive (Nat.succ_pos pktLen)
          unfold discardFrame
          rw [Device.completes_bind, completes_readBuf live]
          intro choice _
          split
          · exact inductionHypothesis (by omega)
          · exact trivial

/-- So does each of the filling loop, which needs a buffer for each. -/
theorem fillFrags_completes {rounds pktLen : Nat} {frags : List (List Byte)} (some : 0 < pktLen)
    (enough : pktLen ≤ rounds) (room : pktLen ≤ frags.length * bufRxSize) :
    lan9250.Completes guard (fillFrags bufRxSize rounds pktLen frags).run world
      fun _ _ => True := by
  induction rounds generalizing pktLen frags world with
  | zero => omega
  | succ rounds inductionHypothesis =>
      cases frags with
      | nil => simp at room; omega
      | cons data frags =>
          have less := chunkLen_pos positive some
          rw [List.length_cons, Nat.succ_mul] at room
          have fits : pktLen - chunkLen bufRxSize pktLen ≤ frags.length * bufRxSize := by
            unfold chunkLen
            split <;> omega
          unfold fillFrags
          rw [Device.completes_run_bind, completes_readBuf live]
          intro choice _
          split
          · simp only
            split
            · rename_i left
              rw [Device.completes_run_bind]
              apply (inductionHypothesis left (by omega) fits).weaken
              intro result _ _
              cases result <;> exact trivial
            · exact trivial
          · exact trivial

/-- The dropping of a frame returns. -/
theorem dropFrame_completes (frameLen : Nat) :
    lan9250.Completes guard (dropFrame bufRxSize frameLen) world fun _ _ => True := by
  refine answered_bind live trivial fun _ _ => answered_bind live trivial fun _ _ => ?_
  refine answered_bind live trivial fun _ _ => answered_bind live trivial fun now _ => ?_
  rw [Device.completes_bind]
  refine (completes_of_answered live
    (((rxPendingExpire_only now).weaken timestamping_of_bookkeeping).weaken
      answered_of_timestamping)).weaken fun _ _ _ => ?_
  refine answered_bind live trivial fun _ _ => ?_
  rw [Device.completes_bind]
  refine (discardFrame_completes live positive (le_refl frameLen)).weaken fun _ _ _ => ?_
  split
  · exact @answered_bind guard live _ _ (.readBuf _) _ _ trivial fun _ _ => trivial
  · exact trivial

end Loops

section Delivery

variable {guard : lan9250.Guard} (live : Live guard) {world : World}

include live

theorem handOver_completes (filled : NetPkt) (frameLen : Nat) :
    lan9250.Completes guard (handOver filled frameLen).run world fun _ _ => True := by
  unfold handOver
  rw [Device.completes_run_bind, Device.completes_run_lift]
  refine (completes_of_answered live
    ((rxTimestampCheck_only _ _).weaken answered_of_timestamping)).weaken fun _ _ _ => ?_
  refine answered_run_bind live trivial fun accepted _ => ?_
  have given (world : World) : lan9250.Completes guard (liftM (call .semGive) : Driver Unit).run
      world fun _ _ => True :=
    answered_bind live trivial fun _ _ => trivial
  simp only
  split
  · exact answered_run_bind live trivial fun _ _ => given _
  · exact given _

theorem deliverFrame_completes {bufRxSize frameLen : Nat} {pkt : NetPkt} (positive : 0 < bufRxSize)
    (some : 0 < frameLen) (room : frameLen ≤ pkt.frags.length * bufRxSize) :
    lan9250.Completes guard (deliverFrame bufRxSize frameLen pkt).run world fun _ _ => True := by
  rw [deliverFrame_eq, Device.completes_run_bind]
  refine (fillFrags_completes live positive some (le_refl _) room).weaken fun filled _ _ => ?_
  cases filled with
  | error => exact trivial
  | ok frags =>
      simp only
      split
      · rw [Device.completes_run_bind, completes_readBuf live]
        intro choice _
        split
        · exact handOver_completes live _ _
        · exact trivial
      · exact handOver_completes live _ _

end Delivery

/-! ### Calls -/

section Calls

variable {guard : lan9250.Guard} (live : Live guard) {bufRxSize : Nat} (positive : 0 < bufRxSize)
  (room : ∀ world len choice id count, guard world (.rxAlloc len) choice →
    choice.alloc = some (id, count) → len ≤ count * bufRxSize)
  {world : World}

include live positive room

private theorem takePacket_completes {pktLen : Nat} (some : 0 < pktLen) :
    lan9250.Completes guard (takePacket bufRxSize pktLen).run world fun _ _ => True := by
  unfold takePacket
  rw [Device.completes_run_bind, Device.completes_run_lift, completes_rxAlloc live]
  intro choice allowed
  unfold World.rxAlloc
  cases allocated : choice.alloc with
  | none =>
      simp only
      rw [Device.completes_run_lift]
      exact dropFrame_completes live positive pktLen
  | some alloc =>
      apply deliverFrame_completes live positive some
      rw [List.length_replicate]
      exact room _ _ _ _ _ allowed allocated

/-- A call returns, if every packet which is allocated has enough buffers. -/
theorem call_completes {bufDataSize : Nat} (size : bufDataSize % 2 ^ 16 = bufRxSize) :
    lan9250.Completes guard (lan9250Rx bufDataSize).run world fun _ _ => True := by
  have reads {address : Address} {next : Word → Driver Unit} {world : World}
      (continues : ∀ value after,
        lan9250.Completes guard (next value).run after fun _ _ => True) :
      lan9250.Completes guard (readSysReg address >>= next).run world fun _ _ => True := by
    rw [Device.completes_run_bind, completes_readSysReg live]
    intro choice _
    split
    · exact continues _ _
    · exact trivial
  rw [lan9250Rx_eq, size]
  refine reads fun info _ => reads fun status _ => ?_
  split
  · exact trivial
  · rename_i taken
    have some : 0 < packetLen status := Nat.pos_of_ne_zero (not_or.mp taken).2
    have takes {world : World} := @takePacket_completes guard live bufRxSize positive room world _ some
    refine reads fun offset _ => ?_
    simp only
    split
    · exact answered_run_bind live trivial fun _ _ =>
        answered_run_bind live trivial fun _ _ => takes
    · exact takes

end Calls

/-- A call in whose middle no frame arrives returns. -/
theorem lan9250Rx_completes {bufRxSize : Nat} (positive : 0 < bufRxSize) {world : World}
    {bufDataSize : Nat} (size : bufDataSize % 2 ^ 16 = bufRxSize) :
    lan9250.Completes (roomy bufRxSize) (lan9250Rx bufDataSize).run world fun _ _ => True :=
  call_completes live_roomy positive
    (fun _ _ _ _ _ allowed allocated => allowed.2.2 _ _ _ rfl allocated) size

/-! ### Frames and calls in any order -/

/-- A frame arrives between two calls, or a call is made. -/
inductive RxStep where
  /-- A frame arrives. -/
  | arrive (frame : Frame)
  /-- `lan9250_rx` is called. -/
  | call (choices : List Choice)

/-- Frames arrive and calls are made in any order, but no frame in the middle of a call. -/
abbrev rxFrames (bufDataSize bufSize : Nat) :
    System (lan9250.Finished Unit (Except Errno Unit)) where
  State := World
  Choice := RxStep
  Initial world := arrivedFrames world.history = [] ∧ packets world.history = [] ∧
    world.chip.rxStatus.items = [] ∧ world.chip.rxData = []
  Step before step events after := match step with
    | .arrive frame => after = before.arrive frame ∧ events = []
    | .call choices => ∃ result, lan9250.Returns (roomy bufSize) (lan9250Rx bufDataSize).run before
        choices result after ∧ events = [⟨(), choices, result, before, after⟩]

/-- A call takes one status word, and of the data exactly what the word's frame has been laid
out as; what it records is the fate of this frame. -/
def Takes (fate : Fate) (before after : World) : Prop :=
  before.chip.rxStatus.items = fate.frame.status :: after.chip.rxStatus.items ∧
  before.chip.rxData = fate.frame.layout ++ after.chip.rxData ∧
  before.chip.rxData.length = 4 + fate.frame.bytes.length + endPad fate.frame.bytes.length +
    after.chip.rxData.length ∧
  packets after.history = packets before.history ++ fate.events

/-- A frame which arrives does not upset the balance. -/
theorem Books.Balanced.arrive {books : Books} {world : World} (balanced : books.Balanced world)
    (frame : Frame) : books.Balanced (world.arrive frame) := by
  unfold World.arrive Chip.receive?
  cases pushed : world.chip.rxStatus.push? frame.status with
  | none => exact balanced
  | some rxStatus =>
      have items := (Fifo.push?_eq_some_iff.mp pushed).2
      refine balanced.supplied ⟨[frame], ?_, ?_, ?_⟩ ⟨[.arrived frame], rfl, by simp [Event.packet]⟩
      · exact arrivedFrames_append _ _
      · exact items
      · simp [World.record]

/-- A call takes the oldest frame, if one is queued. -/
theorem call_takes {consumed : List Frame} {packets : List Event} {bufDataSize bufSize : Nat}
    {before after : World} {choices : List Choice} {result : Except Errno Unit}
    (balanced : Books.Balanced ⟨consumed, [], packets⟩ before)
    (returns : lan9250.Returns (roomy bufSize) (lan9250Rx bufDataSize).run before choices result
      after) :
    result = .ok () ∧
      (before.chip.rxStatus.items = [] ∧ Books.Balanced ⟨consumed, [], packets⟩ after ∨
      ∃ fate : Fate, Takes fate before after ∧
        Books.Balanced ⟨consumed ++ [fate.frame], [], packets ++ fate.events⟩ after) := by
  obtain ⟨ended, fate?, settled, balanced'⟩ := lan9250Rx_settles reliable_roomy
    (fun _ _ _ => countHolds_roomy) balanced _ _ _ returns
  refine ⟨ended, ?_⟩
  obtain ⟨queued, stored, status, data, same⟩ := balanced
  obtain ⟨queued', stored', status', data', same'⟩ := balanced'
  rw [returns_stored returns, stored, List.append_assoc, List.append_cancel_left_eq] at stored'
  cases fate? with
  | none =>
      have nothing : before.chip.rxStatus.items = [] := by
        by_contra something
        exact settled something rfl
      refine .inl ⟨nothing, queued', ?_, status', data', by simpa using same'⟩
      rw [returns_stored returns, stored, stored']
      rfl
  | some fate =>
      obtain rfl : queued = fate.frame :: queued' := stored'
      refine .inr ⟨fate, ⟨?_, ?_, ?_, ?_⟩, queued', ?_, status', data', by simpa using same'⟩
      · rw [status, status', List.map_cons]
      · rw [data, data', List.flatMap_cons]
        rfl
      · rw [data, data', List.flatMap_cons, List.nil_append, List.nil_append, List.length_append,
          layout_length, fate.frame.reported]
      · rw [same', same]
        simp
      · rw [returns_stored returns, stored, List.append_assoc]
        rfl

/-- The calls which have been made with a frame queued. -/
def callsForFrames (events : List (lan9250.Finished Unit (Except Errno Unit))) :
    List (lan9250.Finished Unit (Except Errno Unit)) :=
  events.filter fun event => !event.before.chip.rxStatus.items.isEmpty

/-- Each call made with a frame queued has settled the fate of one frame, in order. -/
structure Accounted (events : List (lan9250.Finished Unit (Except Errno Unit)))
    (fates : List Fate) (world : World) : Prop where
  returned : ∀ event ∈ events, event.result = .ok ()
  takes : List.Forall₂ (fun event fate => Takes fate event.before event.after)
    (callsForFrames events) fates
  balanced : Books.Balanced ⟨fates.map Fate.frame, [], fates.flatMap Fate.events⟩ world

/-- In every run the frames stored are taken or queued. -/
theorem accounted_of_run {bufDataSize bufSize : Nat} {start finish : World} {steps : List RxStep}
    {events : List (lan9250.Finished Unit (Except Errno Unit))}
    (initially : (rxFrames bufDataSize bufSize).Initial start)
    (run : (rxFrames bufDataSize bufSize).Run (rxFrames bufDataSize bufSize).unguarded start steps
      events finish) :
    ∃ fates, Accounted events fates finish := by
  obtain ⟨stored, packets, status, data⟩ := initially
  refine run.invariant (fun world events => ∃ fates, Accounted events fates world)
    ⟨[], by simp, .nil, [], stored, status, data, packets⟩ ?_
  rintro before events step emitted after ⟨fates, returned, takes, balanced⟩ _ transition
  cases step with
  | arrive frame =>
      obtain ⟨rfl, rfl⟩ := transition
      refine ⟨fates, ?_, ?_, balanced.arrive frame⟩
      · simpa using returned
      · simpa using takes
  | call choices =>
      obtain ⟨result, returns, rfl⟩ := transition
      obtain ⟨rfl, settled⟩ := call_takes balanced returns
      have all : ∀ event ∈ events ++ [⟨(), choices, .ok (), before, after⟩],
          event.result = .ok () := by
        intro event member
        rcases List.mem_append.mp member with old | new
        · exact returned event old
        · obtain rfl := List.mem_singleton.mp new
          rfl
      obtain ⟨empty, balanced⟩ | ⟨fate, taken, balanced⟩ := settled
      · refine ⟨fates, all, ?_, balanced⟩
        simpa [callsForFrames, empty] using takes
      · refine ⟨fates ++ [fate], all, ?_, by simpa using balanced⟩
        have counts : callsForFrames (events ++ [⟨(), choices, .ok (), before, after⟩]) =
            callsForFrames events ++ [⟨(), choices, .ok (), before, after⟩] := by
          simp [callsForFrames, taken.1]
        rw [counts]
        exact List.rel_append takes (.cons taken .nil)

/-- Whatever frames arrive, whichever allocations succeed and whatever size the driver's buffers
have: every call returns, each call with a frame queued takes that frame's status word and its
data and nothing else, and a frame with a packet is handed over once, in order and whole. -/
theorem frames_taken_whole {bufDataSize : Nat} (positive : 0 < bufDataSize % 2 ^ 16)
    {start finish : World} {steps : List RxStep}
    {events : List (lan9250.Finished Unit (Except Errno Unit))}
    (initially : (rxFrames bufDataSize (bufDataSize % 2 ^ 16)).Initial start)
    (run : (rxFrames bufDataSize (bufDataSize % 2 ^ 16)).Run
      (rxFrames bufDataSize (bufDataSize % 2 ^ 16)).unguarded start steps events finish) :
    (∃ fates queued,
      List.Forall₂ (fun event fate => Takes fate event.before event.after)
        (callsForFrames events) fates ∧
      arrivedFrames finish.history = fates.map Fate.frame ++ queued ∧
      finish.chip.rxStatus.items = queued.map Frame.status ∧
      finish.chip.rxData = queued.flatMap Frame.layout ∧
      packets finish.history = fates.flatMap Fate.events) ∧
    (∀ event ∈ events, event.result = .ok ()) ∧
    lan9250.Completes (roomy (bufDataSize % 2 ^ 16)) (lan9250Rx bufDataSize).run finish
      fun result _ => result = .ok () := by
  obtain ⟨fates, returned, takes, balanced⟩ := accounted_of_run initially run
  refine ⟨?_, returned, ?_⟩
  · obtain ⟨queued, stored, status, data, same⟩ := balanced
    exact ⟨fates, queued, takes, stored, status, data, same⟩
  · refine Device.Ensures.completes ?_ (lan9250Rx_completes positive rfl)
    intro choices result after returns
    exact (call_takes balanced returns).1

/-! ### A buffer size of which 16 bits are 0 -/

section Stuck

variable {guard : lan9250.Guard} (reliable : Reliable guard) {world : World}

/-- Nothing is claimed. -/
private theorem anything {α : Type} {program : Code α} :
    lan9250.Ensures guard program world fun _ _ => True :=
  fun _ _ _ _ => trivial

include reliable

/-- A read of bytes returns them. -/
private theorem readBuf_returns {len : Nat} :
    lan9250.Ensures guard (readBuf len).run world fun result _ => ∃ bytes, result = .ok bytes := by
  refine .ask fun choice response finish allowed answered => ?_
  simp only [answer, World.readBuf, reliable _ _ _ allowed, World.conclude, Option.some.injEq,
    Prod.mk.injEq] at answered
  exact ⟨_, answered.1.symm⟩

/-- A read of a register returns it. -/
private theorem readSysReg_returns {address : Address} :
    lan9250.Ensures guard (readSysReg address).run world
      fun result _ => ∃ value, result = .ok value := by
  refine .ask fun choice response finish allowed answered => ?_
  simp only [answer, World.readSysReg, reliable _ _ _ allowed, World.conclude, Option.some.injEq,
    Prod.mk.injEq] at answered
  exact ⟨_, answered.1.symm⟩

/-- The discarding loop reads nothing, round after round. -/
private theorem discardFrame_stuck (rounds pktLen : Nat) :
    lan9250.Ensures guard (discardFrame 0 rounds (pktLen + 1)) world fun _ _ => False := by
  induction rounds generalizing world with
  | zero =>
      refine .bind (.ask ?_)
      intro choice response finish allowed answered
      cases answered
  | succ rounds inductionHypothesis =>
      refine .bind ((readBuf_returns reliable).weaken ?_)
      rintro _ after ⟨bytes, rfl⟩
      exact inductionHypothesis

/-- The filling loop does too, or runs out of buffers. -/
private theorem fillFrags_stuck (rounds pktLen : Nat) (frags : List (List Byte)) :
    lan9250.Ensures guard (fillFrags 0 rounds (pktLen + 1) frags).run world fun _ _ => False := by
  induction rounds generalizing frags world with
  | zero =>
      refine .run_bind (.run_lift (.ask ?_))
      intro choice response finish allowed answered
      cases answered
  | succ rounds inductionHypothesis =>
      cases frags with
      | nil =>
          refine .run_bind (.run_lift (.ask ?_))
          intro choice response finish allowed answered
          cases answered
      | cons data frags =>
          refine .run_bind ((readBuf_returns reliable).weaken ?_)
          rintro _ after ⟨bytes, rfl⟩
          refine .run_bind ((inductionHypothesis frags).weaken ?_)
          exact fun _ _ => False.elim

/-- With buffers of size 0 the call does not return. -/
private theorem takePacket_stuck (pktLen : Nat) :
    lan9250.Ensures guard (takePacket 0 (pktLen + 1)).run world fun _ _ => False := by
  refine .run_bind (.run_lift (anything.weaken fun allocated _ _ => ?_))
  cases allocated with
  | none =>
      refine .run_lift (.bind (anything.weaken fun _ _ _ => ?_))
      refine .bind (anything.weaken fun _ _ _ => .bind (anything.weaken fun _ _ _ => ?_))
      refine .bind (anything.weaken fun _ _ _ => .bind (anything.weaken fun _ _ _ => ?_))
      refine .bind (anything.weaken fun _ _ _ => ?_)
      exact .bind ((discardFrame_stuck reliable _ _).weaken fun _ _ => False.elim)
  | some pkt =>
      exact .run_bind ((fillFrags_stuck reliable _ _ _).weaken fun _ _ => False.elim)

private theorem takeFrame_stuck {pktLen : Nat} (some : pktLen ≠ 0) :
    lan9250.Ensures guard (takeFrame 0 pktLen).run world fun _ _ => False := by
  obtain ⟨pktLen, rfl⟩ := Nat.exists_eq_succ_of_ne_zero some
  refine .run_bind ((readSysReg_returns reliable).weaken ?_)
  rintro _ after ⟨offset, rfl⟩
  simp only
  split
  · refine .run_bind (.run_lift (anything.weaken fun _ _ _ => ?_))
    exact .run_bind (.run_lift (anything.weaken fun _ _ _ => takePacket_stuck reliable _))
  · exact takePacket_stuck reliable _

end Stuck

/-- An arrival is a step of the system. -/
private theorem run_of_arrival (bufDataSize bufSize : Nat) (world : World) (frame : Frame) :
    (rxFrames bufDataSize bufSize).Run (rxFrames bufDataSize bufSize).unguarded world
      [.arrive frame] [] (world.arrive frame) :=
  System.Run.single trivial ⟨rfl, rfl⟩

/-- With buffers of 65536 bytes `buf_rx_size` is 0. A frame of one byte has been received; the
next call never returns. -/
theorem truncated_size_hangs : ∃ steps events finish,
    (rxFrames 65536 65536).Initial .idle ∧
    (rxFrames 65536 65536).Run (rxFrames 65536 65536).unguarded .idle steps events finish ∧
    finish.chip.rxStatus.items = [0x00010000] ∧
    ¬∃ choices result after, lan9250.Returns (roomy 65536) (lan9250Rx 65536).run finish choices
      result after := by
  have balanced : Books.Balanced ⟨[], [], []⟩ (World.idle.arrive (shortFrame 7)) :=
    Books.Balanced.arrive ⟨[], rfl, rfl, rfl, rfl⟩ _
  refine ⟨[.arrive (shortFrame 7)], [], World.idle.arrive (shortFrame 7), ⟨rfl, rfl, rfl, rfl⟩,
    run_of_arrival 65536 65536 _ _, rfl, ?_⟩
  rintro ⟨choices, result, after, returns⟩
  have stuck : lan9250.Ensures (roomy 65536) (lan9250Rx 65536).run (World.idle.arrive (shortFrame 7))
      fun _ _ => False := by
    rw [lan9250Rx_eq]
    refine .run_bind ((readCount_books reliable_roomy balanced).weaken ?_)
    rintro _ counted ⟨info, rfl, count, more, balanced⟩
    have nonempty : counted.chip.rxStatus.items ≠ [] := by
      intro empty
      rw [empty, List.prefix_nil] at more
      cases more
    refine .run_bind ((readStatus_books reliable_roomy (fun _ _ _ => countHolds_roomy)
      balanced).weaken ?_)
    rintro _ popped (⟨empty, _⟩ | ⟨_, oldest, rfl, _⟩)
    · exact absurd empty nonempty
    · simp only
      rw [if_neg (not_or.mpr ⟨fun zero => nonempty (count.mp zero), packetLen_status oldest⟩)]
      exact takeFrame_stuck reliable_roomy (packetLen_status oldest)
  exact stuck choices result after returns

/-- The same guard, for scripts. -/
private def allowsRoomy (bufSize : Nat) (_ : World) (request : Request) (choice : Choice) : Bool :=
  choice.outcome = .ok && choice.arrivals = [] &&
    match request, choice.alloc with
    | .rxAlloc len, some (_, count) => len ≤ count * bufSize
    | _, _ => true

/-- What the decidable form admits, the guard admits. -/
private theorem roomy_of_allowsRoomy {bufSize : Nat} {world : World} {request : Request}
    {choice : Choice} (allowed : allowsRoomy bufSize world request choice = true) :
    roomy bufSize world request choice := by
  simp only [allowsRoomy, Bool.and_eq_true, decide_eq_true_eq] at allowed
  obtain ⟨⟨succeeded, still⟩, room⟩ := allowed
  refine ⟨succeeded, still, ?_⟩
  rintro len id count rfl allocated
  simpa [allocated] using room

/-- Calls played under this guard are steps of the system. -/
private theorem run_of_playRoomy {bufDataSize bufSize : Nat} {start finish : World}
    {script : List (Unit × List Choice)} {events : List (lan9250.Finished Unit (Except Errno Unit))}
    (played : lan9250.playCalls (allowsRoomy bufSize) (fun _ _ => true)
      (fun _ => (lan9250Rx bufDataSize).run) start script = some (events, finish)) :
    ∃ steps, (rxFrames bufDataSize bufSize).Run (rxFrames bufDataSize bufSize).unguarded start steps
      events finish := by
  have run := Device.run_of_playCalls (fun _ => True) played
  refine ⟨_, @System.Run.simulate _ (lan9250.calls _ _ _) _ start finish _ events
    (rxFrames bufDataSize bufSize) (rxFrames bufDataSize bufSize).unguarded id
    (fun call => .call call.2) ?_ run⟩
  rintro before call emitted after _ ⟨result, returns, rfl⟩
  exact ⟨trivial, result, returns.weaken fun _ _ _ => roomy_of_allowsRoomy, rfl⟩

/-- A frame of two bytes. -/
private def wideFrame : Frame := ⟨[7, 8], 0x00020000, 0, by decide, by decide⟩

/-- Frames of two bytes and of one are received and taken with buffers of one byte: the first
is delivered in two of them, and for the second no packet can be allocated. -/
theorem two_frames_taken : ∃ steps events finish,
    (rxFrames 1 1).Run (rxFrames 1 1).unguarded .idle steps events finish ∧
    packets finish.history = [.allocated true, .delivered ⟨3, [[7], [8]]⟩, .allocated false] ∧
    ∃ fates : List Fate, fates.length = 2 ∧ packets finish.history = fates.flatMap Fate.events := by
  have played : (lan9250.playCalls (allowsRoomy 1) (fun _ _ => true)
      (fun _ : Unit => (lan9250Rx 1).run) ((World.idle.arrive wideFrame).arrive (shortFrame 9))
      [((), [default, default, default, { Choice.quiet with alloc := some (3, 2) }]), ((), []),
        ((), [])]).map (fun (events, finish) =>
          ((callsForFrames events).length, packets finish.history)) =
      some (2, [.allocated true, .delivered ⟨3, [[7], [8]]⟩, .allocated false]) := by
    decide +kernel
  obtain ⟨⟨events, finish⟩, ran, shape⟩ := Option.map_eq_some_iff.mp played
  simp only [Prod.mk.injEq] at shape
  obtain ⟨frames, delivered⟩ := shape
  obtain ⟨steps, calling⟩ := run_of_playRoomy ran
  have run := ((run_of_arrival 1 1 .idle wideFrame).trans
    (run_of_arrival 1 1 _ (shortFrame 9))).trans calling
  obtain ⟨⟨fates, _, takes, _, _, _, same⟩, _, _⟩ :=
    @frames_taken_whole 1 (by decide) _ _ _ _ ⟨rfl, rfl, rfl, rfl⟩ run
  exact ⟨_, events, finish, run, delivered, fates, takes.length_eq.symm.trans frames, same⟩

end Rp2350Stepper.Lan9250
