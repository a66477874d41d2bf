import Rp2350Stepper.Lan9250.RxExpiry

/-!
# What becomes of the packet of a frame

The packet pool seen from a call of `lan9250_rx`: which references are taken, given back and
passed on to the stack. Registers, the data of a frame and the clock read as the environment
chooses, and every transaction may fail.
-/

namespace Rp2350Stepper.Lan9250

open Rp2350Stepper.Data Rp2350Stepper.Semantics

/-! ### The pool -/

/-- What is recorded of a packet. -/
inductive PoolEvent where
  /-- `net_pkt_rx_alloc_with_buffer` has returned a packet, with a reference to it. -/
  | allocated (pkt : PktId)
  | ref (pkt : PktId)
  | unref (pkt : PktId)
  /-- `net_recv_data` has accepted a packet, and with it the reference. -/
  | accepted (pkt : PktId)
  /-- A read of the frame's data has failed. -/
  | readFailed
deriving DecidableEq, Repr

/-- The tables, and what has been recorded of the packets. -/
structure Pool where
  rxPending : PendingTable
  rxUnclaimed : UnclaimedTable
  ledger : List PoolEvent

/-- What the environment does at a request. -/
structure PoolChoice where
  word : Except Errno Word
  written : Except Errno Unit
  data : Except Errno (Nat → Byte)
  uptime : Int
  /-- The packet an allocation returns, and how many buffers it has. -/
  alloc : Option (PktId × Nat)
  accepted : Bool

instance : Inhabited PoolChoice := ⟨⟨.ok 0, .ok (), .ok fun _ => 0, 0, none, true⟩⟩

namespace Pool

/-- Something is recorded. -/
def record (pool : Pool) (event : PoolEvent) : Pool :=
  { pool with ledger := pool.ledger ++ [event] }

/-- `rx_pending` holds no reference to the packet. -/
def Apart (pool : Pool) (pkt : PktId) : Prop :=
  ∀ slot, ∀ entry ∈ pool.rxPending slot, entry.pkt ≠ pkt

instance (pool : Pool) (pkt : PktId) : Decidable (pool.Apart pkt) :=
  inferInstanceAs (Decidable (∀ slot, ∀ entry ∈ pool.rxPending slot, entry.pkt ≠ pkt))

/-- How the pool answers the driver. -/
def answer (pool : Pool) : (request : Request) → PoolChoice → Option (Response request × Pool)
  | .readSysReg _, choice => some (choice.word, pool)
  | .writeSysReg _ _, choice => some (choice.written, pool)
  | .readBuf len, choice =>
      match choice.data with
      | .ok byteAt => some (.ok ((List.range len).map byteAt), pool)
      | .error error => some (.error error, pool.record .readFailed)
  | .uptimeGet, choice => some (choice.uptime, pool)
  | .loadPending, _ => some (pool.rxPending, pool)
  | .storePending table, _ => some ((), { pool with rxPending := table })
  | .loadUnclaimed, _ => some (pool.rxUnclaimed, pool)
  | .storeUnclaimed table, _ => some ((), { pool with rxUnclaimed := table })
  | .rxAlloc _, choice =>
      match choice.alloc with
      | none => some (none, pool)
      -- A packet someone holds a reference to is not free.
      | some (id, count) =>
          if pool.Apart id then
            some (some ⟨id, List.replicate count []⟩, pool.record (.allocated id))
          else none
  | .pktRef pkt, _ => some ((), pool.record (.ref pkt))
  | .pktUnref pkt, _ => some ((), pool.record (.unref pkt))
  | .recvData pkt, choice =>
      some (choice.accepted, if choice.accepted then pool.record (.accepted pkt.id) else pool)
  | .sleep _, _ | .busyWait _, _ | .mutexLock _, _ | .mutexUnlock _, _ | .setTimestamp _ _, _
  | .addTxTimestamp _, _ | .updateErrorsRx, _ | .semGive, _ | .log _, _
  | .storeRefcount _, _ => some ((), pool)
  | .loadRefcount, _ | .crash, _ | .hang, _ => none

end Pool

/-- The packets with their references; the chip shows anything. -/
abbrev poolDevice : Device driverInterface := ⟨Pool, PoolChoice, Pool.answer⟩

/-- What a call has done with references. -/
def Pool.since (before after : Pool) : List PoolEvent := after.ledger.drop before.ledger.length

/-- The reference which comes with an allocated packet has been passed on or given back, once. -/
def ReferenceSettled (events : List PoolEvent) : Prop :=
  ∀ pkt, .allocated pkt ∈ events → events.count (.accepted pkt) + events.count (.unref pkt) = 1

/-- No read of a frame's data has failed once its packet has been allocated. -/
def Uninterrupted (events : List PoolEvent) : Prop :=
  (∃ pkt, .allocated pkt ∈ events) → .readFailed ∉ events

/-! ### The check -/

/-- Requests which concern neither references nor `rx_pending`. -/
def Request.silent : Request → Prop
  | .readBuf _ | .storePending _ | .rxAlloc _ | .pktRef _ | .pktUnref _ | .recvData _ => False
  | _ => True

/-- A silent request changes neither. -/
theorem Pool.answer_silent {pool next : Pool} {request : Request} {choice : PoolChoice}
    {response : Response request} (silent : request.silent)
    (answered : pool.answer request choice = some (response, next)) :
    next.rxPending = pool.rxPending ∧ next.ledger = pool.ledger := by
  cases request with
  | readBuf | storePending | rxAlloc | pktRef | pktUnref | recvData => exact silent.elim
  | loadRefcount | crash | hang => cases answered
  | _ =>
      obtain ⟨_, rfl⟩ := Prod.mk.inj (Option.some.inj answered)
      exact ⟨rfl, rfl⟩

/-- What may happen while the reference to a packet is kept. -/
def PoolEvent.Spares (pkt : PktId) : PoolEvent → Prop
  | .ref _ => True
  | .unref other => other ≠ pkt
  | _ => False

/-- The reference to a packet has been kept. -/
def Spared (pkt : PktId) (pool next : Pool) : Prop :=
  ∃ events, next.ledger = pool.ledger ++ events ∧ ∀ event ∈ events, event.Spares pkt

/-- It has, and `rx_pending` has not taken another one. -/
structure Kept (pkt : PktId) (pool next : Pool) : Prop where
  apart : next.Apart pkt
  spared : Spared pkt pool next

section Check

variable {guard : poolDevice.Guard} {pkt : PktId} {pool : Pool}

theorem Spared.refl (pkt : PktId) (pool : Pool) : Spared pkt pool pool :=
  ⟨[], (List.append_nil _).symm, by simp⟩

theorem Spared.trans {first second third : Pool} (before : Spared pkt first second)
    (after : Spared pkt second third) : Spared pkt first third := by
  obtain ⟨events, ledger, spares⟩ := before
  obtain ⟨events', ledger', spares'⟩ := after
  refine ⟨events ++ events', by rw [ledger', ledger, List.append_assoc], ?_⟩
  intro event member
  exact (List.mem_append.mp member).elim (spares event) (spares' event)

/-- Kept for some time, and then for more. -/
theorem Kept.trans {first second third : Pool} (before : Kept pkt first second)
    (after : Kept pkt second third) : Kept pkt first third :=
  ⟨after.apart, before.spared.trans after.spared⟩

/-- Where `rx_pending` and the references are the same. -/
theorem Kept.of_same {next : Pool} (apart : pool.Apart pkt)
    (pending : next.rxPending = pool.rxPending) (ledger : next.ledger = pool.ledger) :
    Kept pkt pool next := by
  refine ⟨?_, [], by rw [ledger, List.append_nil], by simp⟩
  intro slot entry held
  rw [pending] at held
  exact apart slot entry held

/-- A program of silent requests. -/
theorem ensures_silent {α : Type} {program : Code α} (only : program.Only Request.silent) :
    poolDevice.Ensures guard program pool fun _ next =>
      next.rxPending = pool.rxPending ∧ next.ledger = pool.ledger := by
  intro choices value finish returns
  exact returns.relates_only (fun pool next : Pool =>
    next.rxPending = pool.rxPending ∧ next.ledger = pool.ledger) only (fun _ => ⟨rfl, rfl⟩)
    (fun first second => ⟨second.1.trans first.1, second.2.trans first.2⟩)
    fun silent _ answered => Pool.answer_silent silent answered

/-- What a program may do to a pool in which `rx_pending` has no reference to the packet. -/
def Keeps {α : Type} (guard : poolDevice.Guard) (pkt : PktId) (program : Code α) : Prop :=
  ∀ pool : Pool, pool.Apart pkt →
    poolDevice.Ensures guard program pool fun _ next => Kept pkt pool next

namespace Keeps

variable {α β : Type}

theorem pure (value : α) : Keeps guard pkt (pure value) := by
  intro pool apart
  exact Device.Ensures.pure (.of_same apart rfl rfl)

theorem bind {program : Code α} {next : α → Code β} (first : Keeps guard pkt program)
    (second : ∀ value, Keeps guard pkt (next value)) : Keeps guard pkt (program >>= next) := by
  intro pool apart
  apply Device.Ensures.bind
  refine (first pool apart).weaken ?_
  intro value middle kept
  refine (second value middle kept.apart).weaken ?_
  intro _ finish later
  exact kept.trans later

/-- Code which asks only for what concerns no packet. -/
theorem of_silent {program : Code α} (only : program.Only Request.silent) :
    Keeps guard pkt program := by
  intro pool apart
  refine (ensures_silent only).weaken ?_
  rintro _ next ⟨pending, ledger⟩
  exact .of_same apart pending ledger

/-- A request which concerns no packet. -/
theorem call {request : Request} (silent : request.silent) :
    Keeps guard pkt (Lan9250.call request) :=
  of_silent (only_call silent)

/-- The same for each of several items. -/
theorem forM {program : α → Code Unit} (each : ∀ item, Keeps guard pkt (program item))
    (items : List α) : Keeps guard pkt (items.forM program) := by
  induction items with
  | nil => exact pure ()
  | cons item items inductionHypothesis => exact (each item).bind fun _ => inductionHypothesis

end Keeps

/-- Giving back the reference of an entry, and freeing its slot. -/
theorem Kept.release (apart : pool.Apart pkt) {slot : Fin rxPendingMax} {entry : RxPending}
    (held : pool.rxPending slot = some entry) :
    Kept pkt pool { pool.record (.unref entry.pkt) with
      rxPending := pool.rxPending.release slot } := by
  refine ⟨?_, [.unref entry.pkt], rfl, ?_⟩
  · intro slot' entry' kept
    exact apart slot' entry' (SlotTable.release_eq_some.mp kept).2
  · intro event member
    obtain rfl := List.mem_singleton.mp member
    exact apart slot entry held

/-- A request with one answer, then the rest. -/
theorem ensures_answered {α : Type} {request : Request} {response : Response request}
    {middle : Pool} {next : Response request → Code α} {post : α → Pool → Prop}
    (answered : ∀ choice, pool.answer request choice = some (response, middle))
    (rest : poolDevice.Ensures guard (next response) middle post) :
    poolDevice.Ensures guard (call request >>= next) pool post := by
  apply Device.Ensures.bind
  apply Device.Ensures.ask
  intro choice response' middle' _ answered'
  obtain ⟨rfl, rfl⟩ := Prod.mk.inj (Option.some.inj ((answered choice).symm.trans answered'))
  exact rest

/-- The same at the end. -/
theorem ensures_last {request : Request} {response : Response request} {finish : Pool}
    {post : Response request → Pool → Prop}
    (answered : ∀ choice, pool.answer request choice = some (response, finish))
    (holds : post response finish) : poolDevice.Ensures guard (call request) pool post := by
  apply Device.Ensures.ask
  intro choice response' finish' _ answered'
  obtain ⟨rfl, rfl⟩ := Prod.mk.inj (Option.some.inj ((answered choice).symm.trans answered'))
  exact holds

/-- The expiry of a held frame. -/
theorem expirePending_keeps (now : Int) (slot : Fin rxPendingMax) :
    Keeps guard pkt (expirePending now slot) := by
  intro pool apart
  unfold expirePending
  refine ensures_answered (fun _ => rfl) ?_
  cases held : pool.rxPending slot with
  | none => exact Device.Ensures.pure (.of_same apart rfl rfl)
  | some entry =>
      simp only
      split
      · refine ensures_answered (fun _ => rfl) ?_
        refine ensures_answered (fun _ => rfl) ?_
        exact ensures_last (fun _ => rfl) (.release apart held)
      · exact Device.Ensures.pure (.of_same apart rfl rfl)

section Silent

open Program

/-- The expiry of a stashed event concerns no packet. -/
theorem expireUnclaimed_silent (now : Int) (slot : Fin rxPendingMax) :
    (expireUnclaimed now slot).Only Request.silent := by
  refine Only.bind (only_call trivial) fun unclaimed => ?_
  split
  · exact only_pure
  · refine only_ite ?_ only_pure
    exact Only.bind (only_call trivial) fun _ => only_call trivial

/-- The search among them takes and drops no reference. -/
theorem attachUnclaimed_silent (pkt : PktId) (key : MsgKey) :
    (attachUnclaimed pkt key).Only Request.silent := by
  refine Only.bind (only_call trivial) fun unclaimed => ?_
  split
  · exact only_pure
  · refine Only.bind (only_call trivial) fun _ => Only.bind (only_call trivial) fun _ => ?_
    exact Only.bind (only_call trivial) fun _ => only_pure

theorem stashUnclaimed_silent (hwKey : MsgKey) (time : PtpTime) (key : MsgKey) :
    (stashUnclaimed hwKey time key).Only Request.silent := by
  refine Only.bind (only_call trivial) fun unclaimed => Only.bind ?_ fun slot => ?_
  · unfold unclaimedSlot
    split
    · exact only_pure
    · simp only
      split
      · exact Only.bind (only_call trivial) fun _ => only_pure
      · exact only_pure
  · refine Only.bind (only_call trivial) fun _ => Only.bind (only_call trivial) fun _ => ?_
    exact only_call trivial

private theorem readIngress_silent : readIngress.run.Only Request.silent := by
  refine Only.run_bind (@only_call _ (.readSysReg _) trivial) fun _ => ?_
  refine Only.run_bind (@only_call _ (.readSysReg _) trivial) fun _ => ?_
  exact Only.run_bind (@only_call _ (.readSysReg _) trivial) fun _ => only_pure

end Silent

/-- A whole sweep. -/
theorem rxPendingExpire_keeps (now : Int) : Keeps guard pkt (rxPendingExpire now) := by
  apply Keeps.bind
  · exact .forM (expirePending_keeps now) _
  · intro _
    exact .forM (fun slot => .of_silent (expireUnclaimed_silent now slot)) _

/-- The search among the held frames. -/
theorem attachPending_keeps (hwKey : MsgKey) (time : PtpTime) :
    Keeps guard pkt (attachPending hwKey time) := by
  intro pool apart
  unfold attachPending
  refine ensures_answered (fun _ => rfl) ?_
  cases found : pool.rxPending.find? fun entry => entry.key == hwKey with
  | none => exact Device.Ensures.pure (.of_same apart rfl rfl)
  | some hit =>
      obtain ⟨held, _⟩ := SlotTable.find?_eq_some found
      refine ensures_answered (fun _ => rfl) ?_
      refine ensures_answered (fun _ => rfl) ?_
      refine ensures_answered (fun _ => rfl) ?_
      refine ensures_answered (fun _ => rfl) ?_
      exact Device.Ensures.pure (.release apart held)

/-- What becomes of an event. -/
theorem settleIngress_keeps (id : PktId) (key hwKey : MsgKey) (time : PtpTime) :
    Keeps guard pkt (settleIngress id key hwKey time) := by
  unfold settleIngress
  split
  · exact .of_silent (Program.Only.bind (only_call trivial) fun _ =>
      Program.Only.bind (only_call trivial) fun _ => Program.only_pure)
  · apply (attachPending_keeps hwKey time).bind
    intro matched
    cases matched with
    | true => exact .pure false
    | false =>
        apply Keeps.bind (.of_silent (stashUnclaimed_silent hwKey time key))
        exact fun _ => .pure false

/-- The draining of an event. -/
theorem drainIngress_keeps (id : PktId) (key : MsgKey) :
    Keeps guard pkt (drainIngress id key) := by
  have logged {message : Message} :
      Keeps guard pkt (call (.log message) >>= fun _ => pure false : Code Bool) :=
    (@Keeps.call _ _ (.log message) trivial).bind fun _ => .pure false
  apply Keeps.bind (@Keeps.call _ _ (.writeSysReg _ _) trivial)
  rintro (error | _)
  · exact logged
  apply Keeps.bind (@Keeps.call _ _ (.readSysReg _) trivial)
  rintro (error | info)
  · exact logged
  simp only
  split
  · exact .pure false
  apply Keeps.bind (@Keeps.call _ _ (.writeSysReg _ _) trivial)
  rintro (error | _)
  · exact .pure false
  apply Keeps.bind (.of_silent readIngress_silent)
  rintro (error | value)
  · exact .pure false
  apply Keeps.bind (@Keeps.call _ _ (.writeSysReg _ _) trivial)
  intro _
  exact settleIngress_keeps id key value.1 value.2

/-- What follows the search among the stashed events. -/
theorem attachEvent_keeps (id : PktId) (key : MsgKey) : Keeps guard pkt (attachEvent id key) := by
  apply Keeps.bind (.of_silent (attachUnclaimed_silent id key))
  intro attached
  cases attached with
  | true => exact .pure true
  | false => exact drainIngress_keeps id key

/-- A slot is found without giving up the reference to the packet. -/
theorem pendingSlot_spares (apart : pool.Apart pkt) :
    poolDevice.Ensures guard (pendingSlot pool.rxPending) pool
      fun _ next => Spared pkt pool next := by
  unfold pendingSlot
  split
  · exact Device.Ensures.pure (.refl pkt pool)
  · simp only
    split
    case h_1 evicted held =>
        refine ensures_answered (fun _ => rfl) ?_
        refine ensures_answered (fun _ => rfl) ?_
        refine Device.Ensures.pure ⟨[.unref evicted.pkt], rfl, ?_⟩
        intro event member
        obtain rfl := List.mem_singleton.mp member
        exact apart _ evicted held
    case h_2 => exact Device.Ensures.pure (.refl pkt pool)

/-- The silent requests, and those which take a reference and put it into a slot. -/
def Request.parking : Request → Prop
  | .storePending _ | .pktRef _ => True
  | request => request.silent

/-- A request of the queueing spares a packet which is apart. -/
theorem Pool.answer_parking {next : Pool} {request : Request} {choice : PoolChoice}
    {response : Response request} (parking : request.parking)
    (answered : pool.answer request choice = some (response, next)) : Spared pkt pool next := by
  cases request with
  | readBuf | rxAlloc | pktUnref | recvData => exact parking.elim
  | storePending =>
      obtain ⟨_, rfl⟩ := Prod.mk.inj (Option.some.inj answered)
      exact .refl pkt pool
  | pktRef other =>
      obtain ⟨_, rfl⟩ := Prod.mk.inj (Option.some.inj answered)
      exact ⟨[.ref other], rfl, by simp [PoolEvent.Spares]⟩
  | _ =>
      have ledger := (Pool.answer_silent (by exact parking) answered).2
      exact ⟨[], by rw [ledger, List.append_nil], by simp⟩

/-- Code of such requests does too. -/
theorem spared_of_only {α : Type} {program : Code α} (only : program.Only Request.parking) :
    poolDevice.Ensures guard program pool fun _ next => Spared pkt pool next := by
  intro choices value finish returns
  exact returns.relates_only (Spared pkt) only (Spared.refl pkt) Spared.trans
    fun parking _ answered => Pool.answer_parking parking answered

/-- The queueing of another frame does. -/
theorem queuePending_spares (apart : pool.Apart pkt) (id : PktId) (key : MsgKey) :
    poolDevice.Ensures guard (queuePending id key) pool fun _ next => Spared pkt pool next := by
  unfold queuePending
  refine ensures_answered (fun _ => rfl) ?_
  apply Device.Ensures.bind
  refine (pendingSlot_spares apart).weaken ?_
  intro slot middle spared
  have parks : (do
      call (.pktRef id)
      let now ← call .uptimeGet
      call (.storePending (pool.rxPending.fill slot ⟨id, key, now + rxPendingTimeoutMs⟩))
      call (.log (.rxAddedToPending key)) : Code Unit).Only Request.parking := by
    refine Program.Only.bind (only_call trivial) fun _ => ?_
    refine Program.Only.bind (only_call trivial) fun _ => ?_
    exact Program.Only.bind (only_call trivial) fun _ => only_call trivial
  intro choices value finish returns
  exact spared.trans (spared_of_only parks choices value finish returns)

/-- `rxTimestampMatch` up to the label `queue`. -/
def findEvent (pkt : PktId) (key : MsgKey) : Code Bool := do
  call (.mutexLock .bankLock)
  let now ← call .uptimeGet
  rxPendingExpire now
  attachEvent pkt key

/-- The search for an event. -/
theorem findEvent_keeps (id : PktId) (key : MsgKey) : Keeps guard pkt (findEvent id key) := by
  apply Keeps.bind (@Keeps.call _ _ (.mutexLock _) trivial)
  intro _
  apply Keeps.bind (@Keeps.call _ _ .uptimeGet trivial)
  intro now
  apply Keeps.bind (rxPendingExpire_keeps now)
  intro _
  exact attachEvent_keeps id key

/-- The matching is the search and the queueing. -/
theorem rxTimestampMatch_eq (id : PktId) (key : MsgKey) : rxTimestampMatch id key = (do
    let attached ← findEvent id key
    if !attached && msgTypeIsTimestamped key.msgType then queuePending id key
    call (.mutexUnlock .bankLock)) := by
  simp only [rxTimestampMatch, findEvent, bind_assoc]

/-- The matching of another frame spares a packet which is apart. -/
theorem rxTimestampMatch_spares (apart : pool.Apart pkt) (id : PktId) (key : MsgKey) :
    poolDevice.Ensures guard (rxTimestampMatch id key) pool fun _ next => Spared pkt pool next := by
  have unlocks {middle : Pool} (spared : Spared pkt pool middle) :
      poolDevice.Ensures guard (call (.mutexUnlock .bankLock)) middle
        fun _ next => Spared pkt pool next :=
    ensures_last (fun _ => rfl) spared
  rw [rxTimestampMatch_eq]
  apply Device.Ensures.bind
  refine (findEvent_keeps id key pool apart).weaken ?_
  intro attached middle kept
  simp only
  split
  · apply Device.Ensures.bind
    refine (queuePending_spares kept.apart id key).weaken ?_
    intro _ next later
    exact unlocks (kept.spared.trans later)
  · exact unlocks kept.spared

/-- The check keeps the reference to its packet. -/
theorem rxTimestampCheck_spares (checked : NetPkt) (pktLen : Nat) (apart : pool.Apart pkt) :
    poolDevice.Ensures guard (rxTimestampCheck checked pktLen) pool
      fun _ next => Spared pkt pool next := by
  unfold rxTimestampCheck
  simp only
  split
  · exact spared_of_only (Program.Only.bind (only_call trivial) fun _ => Program.only_pure)
  · split
    · exact Device.Ensures.pure (.refl pkt pool)
    · exact rxTimestampMatch_spares apart checked.id _

end Check

/-! ### Reading a frame -/

section Reading

variable {guard : poolDevice.Guard} {pool : Pool}

/-- What reading data does: it records that it has failed. -/
structure Read {α : Type} (pool next : Pool) (result : Except Errno α) : Prop where
  pending : next.rxPending = pool.rxPending
  ledger : next.ledger = pool.ledger ++
    match result with
    | .ok _ => []
    | .error _ => [.readFailed]

/-- A part which is read, and another one. -/
theorem Read.then {α β : Type} {middle next : Pool} {value : α} {result : Except Errno β}
    (first : Read pool middle (.ok value : Except Errno α)) (second : Read middle next result) :
    Read pool next result := by
  refine ⟨second.pending.trans first.pending, ?_⟩
  rw [second.ledger, first.ledger, List.append_nil]

/-- An error is passed on. -/
theorem Read.fails {α β : Type} {next : Pool} {error : Errno}
    (read : Read pool next (.error error : Except Errno α)) :
    Read pool next (.error error : Except Errno β) :=
  ⟨read.pending, read.ledger⟩

/-- Nothing is left to read. -/
theorem Read.done {α : Type} {value : α} : Read pool pool (.ok value : Except Errno α) :=
  ⟨rfl, (List.append_nil _).symm⟩

/-- A read of bytes. -/
theorem readBuf_ensures (len : Nat) :
    poolDevice.Ensures guard (readBuf len).run pool fun result next => Read pool next result := by
  apply Device.Ensures.ask
  intro choice result next _ answered
  simp only [Pool.answer] at answered
  split at answered
  · obtain ⟨rfl, rfl⟩ := Prod.mk.inj (Option.some.inj answered)
    exact .done
  · obtain ⟨rfl, rfl⟩ := Prod.mk.inj (Option.some.inj answered)
    exact ⟨rfl, rfl⟩

/-- The reading into the buffers. -/
theorem fillFrags_ensures (bufRxSize rounds pktLen : Nat) (frags : List (List Byte)) :
    poolDevice.Ensures guard (fillFrags bufRxSize rounds pktLen frags).run pool
      fun result next => Read pool next result := by
  induction rounds generalizing pktLen frags pool with
  | zero =>
      apply Device.Ensures.run_bind
      apply Device.Ensures.run_lift
      apply Device.Ensures.ask
      intro _ stuck
      exact nomatch stuck
  | succ rounds inductionHypothesis =>
      cases frags with
      | nil =>
          apply Device.Ensures.run_bind
          apply Device.Ensures.run_lift
          apply Device.Ensures.ask
          intro _ stuck
          exact nomatch stuck
      | cons data frags =>
          apply Device.Ensures.run_bind
          refine (readBuf_ensures _).weaken ?_
          rintro (error | bytes) middle read
          · exact read.fails
          simp only
          split
          · apply Device.Ensures.run_bind
            refine (inductionHypothesis _ frags).weaken ?_
            rintro (error | rest) next later
            · exact read.then later.fails
            · exact Device.Ensures.pure (read.then ⟨later.pending, later.ledger⟩)
          · exact Device.Ensures.pure ⟨read.pending, read.ledger⟩

/-- Filling a packet keeps its address. -/
theorem fillPacket_ensures (bufRxSize frameLen : Nat) (pkt : NetPkt) :
    poolDevice.Ensures guard (fillPacket bufRxSize frameLen pkt).run pool fun result next =>
      Read pool next result ∧ ∀ filled, result = .ok filled → filled.id = pkt.id := by
  have ends {middle : Pool} {frags : List (List Byte)}
      (read : Read pool middle (.ok frags : Except Errno (List (List Byte)))) :
      Read pool middle (.ok { pkt with frags := frags } : Except Errno NetPkt) ∧
        ∀ filled, (.ok { pkt with frags := frags } : Except Errno NetPkt) = .ok filled →
          filled.id = pkt.id := by
    refine ⟨⟨read.pending, read.ledger⟩, ?_⟩
    intro filled same
    rw [← Except.ok.inj same]
  apply Device.Ensures.run_bind
  refine (fillFrags_ensures _ _ _ _).weaken ?_
  rintro (error | frags) middle read
  · exact ⟨read.fails, by simp⟩
  simp only
  split
  · apply Device.Ensures.run_bind
    refine (readBuf_ensures _).weaken ?_
    rintro (error | bytes) next later
    · exact ⟨read.then later.fails, by simp⟩
    · exact Device.Ensures.pure (ends (read.then ⟨later.pending, later.ledger⟩))
  · exact Device.Ensures.pure (ends read)

/-- What has been recorded when a frame has been read, or could not be. -/
def ReadSoFar (pool next : Pool) : Except Errno (Option NetPkt) → Prop
  | .ok none => next.ledger = pool.ledger
  | .ok (some filled) =>
      next.Apart filled.id ∧ next.ledger = pool.ledger ++ [.allocated filled.id]
  | .error _ => next.ledger = pool.ledger ∨
      ∃ pkt, next.ledger = pool.ledger ++ [.allocated pkt, .readFailed]

/-- The allocation and the reading. -/
theorem allocate_ensures (bufRxSize frameLen : Nat) :
    poolDevice.Ensures guard (do
      match ← call (.rxAlloc frameLen) with
      | none => return none
      | some pkt => return some (← fillPacket bufRxSize frameLen pkt) :
        Driver (Option NetPkt)).run pool fun result next => ReadSoFar pool next result := by
  apply Device.Ensures.run_bind
  apply Device.Ensures.run_lift
  apply Device.Ensures.ask
  intro choice allocated middle _ answered
  simp only [Pool.answer] at answered
  split at answered
  · obtain ⟨rfl, rfl⟩ := Prod.mk.inj (Option.some.inj answered)
    exact Device.Ensures.pure rfl
  · split at answered
    case isFalse => cases answered
    case isTrue id count _ apart =>
        obtain ⟨rfl, rfl⟩ := Prod.mk.inj (Option.some.inj answered)
        apply Device.Ensures.run_bind
        refine (fillPacket_ensures _ _ _).weaken ?_
        rintro (error | filled) next ⟨read, same⟩
        · exact .inr ⟨id, read.ledger.trans (List.append_assoc _ _ _)⟩
        · apply Device.Ensures.pure
          have here : filled.id = id := same filled rfl
          refine ⟨?_, ?_⟩
          · intro slot entry held
            rw [read.pending] at held
            rw [here]
            exact apart slot entry held
          · rw [read.ledger, List.append_nil, here]
            rfl

/-- A frame is read, or its packet kept at an error. -/
theorem readFrame_ensures (bufRxSize frameLen : Nat) :
    poolDevice.Ensures guard (readFrame bufRxSize frameLen).run pool
      fun result next => ReadSoFar pool next result := by
  -- What comes before the allocation records nothing.
  have allocates {middle : Pool} (ledger : middle.ledger = pool.ledger) :
      poolDevice.Ensures guard (do
        match ← call (.rxAlloc frameLen) with
        | none => return none
        | some pkt => return some (← fillPacket bufRxSize frameLen pkt) :
          Driver (Option NetPkt)).run middle fun result next => ReadSoFar pool next result := by
    refine (allocate_ensures bufRxSize frameLen).weaken ?_
    rintro result next sofar
    unfold ReadSoFar at sofar ⊢
    rwa [← ledger]
  apply Device.Ensures.run_bind
  refine (ensures_silent (@only_call _ (.readSysReg _) trivial)).weaken ?_
  rintro (error | header) middle ⟨_, ledger⟩
  · exact .inl ledger
  simp only
  split
  · apply Device.Ensures.run_bind
    apply Device.Ensures.run_lift
    refine (ensures_silent (@only_call _ (.log _) trivial)).weaken ?_
    rintro _ logged ⟨_, ledger'⟩
    apply Device.Ensures.run_bind
    apply Device.Ensures.run_lift
    refine (ensures_silent (@only_call _ .updateErrorsRx trivial)).weaken ?_
    rintro _ counted ⟨_, ledger''⟩
    exact allocates (ledger''.trans (ledger'.trans ledger))
  · exact allocates ledger

end Reading

/-! ### Whole calls -/

/-- What a call records. -/
inductive CallLedger : List PoolEvent → Prop where
  | unallocated {events} (none : ∀ pkt, .allocated pkt ∉ events) : CallLedger events
  | interrupted (pkt : PktId) : CallLedger [.allocated pkt, .readFailed]
  | handed (pkt : PktId) (checking : List PoolEvent) (last : PoolEvent)
      (spares : ∀ event ∈ checking, event.Spares pkt)
      (ended : last = .accepted pkt ∨ last = .unref pkt) :
      CallLedger (.allocated pkt :: checking ++ [last])

/-- It settles the reference to its packet exactly if it has not been interrupted. -/
theorem CallLedger.settled_iff {events : List PoolEvent} (ledger : CallLedger events) :
    ReferenceSettled events ↔ Uninterrupted events := by
  cases ledger with
  | unallocated none =>
      apply iff_of_true
      · exact fun pkt allocated => absurd allocated (none pkt)
      · rintro ⟨pkt, allocated⟩
        exact absurd allocated (none pkt)
  | interrupted pkt =>
      apply iff_of_false
      · intro settled
        have once := settled pkt List.mem_cons_self
        simp at once
      · intro uninterrupted
        exact uninterrupted ⟨pkt, List.mem_cons_self⟩ (by simp)
  | handed pkt checking last spares ended =>
      have noAccepted : .accepted pkt ∉ checking := fun member => spares _ member
      have noUnref : .unref pkt ∉ checking := fun member => spares _ member rfl
      have noFailure : .readFailed ∉ checking := fun member => spares _ member
      have noAllocated : ∀ other, .allocated other ∉ checking := fun _ member => spares _ member
      apply iff_of_true
      · intro other allocated
        obtain rfl : other = pkt := by
          rcases ended with rfl | rfl <;> simpa [noAllocated] using allocated
        rcases ended with rfl | rfl
        · simp [List.count_eq_zero.mpr noAccepted, List.count_eq_zero.mpr noUnref]
        · simp [List.count_eq_zero.mpr noAccepted, List.count_eq_zero.mpr noUnref]
      · rintro _
        rcases ended with rfl | rfl <;> simp [noFailure]

section Calls

variable {guard : poolDevice.Guard} {pool : Pool}

/-- Requests other than an allocation. -/
def Request.unallocating : Request → Prop
  | .rxAlloc _ => False
  | _ => True

/-- References have been used without an allocation. -/
def Unallocated (pool next : Pool) : Prop :=
  ∃ events, next.ledger = pool.ledger ++ events ∧ ∀ pkt, .allocated pkt ∉ events

omit guard in
/-- A request which allocates nothing. -/
theorem Pool.answer_unallocating {next : Pool} {request : Request} {choice : PoolChoice}
    {response : Response request} (unallocating : request.unallocating)
    (answered : pool.answer request choice = some (response, next)) : Unallocated pool next := by
  have none : Unallocated pool pool := ⟨[], (List.append_nil _).symm, by simp⟩
  cases request with
  | rxAlloc => exact unallocating.elim
  | loadRefcount | crash | hang => cases answered
  | readBuf len =>
      simp only [Pool.answer] at answered
      split at answered
      · obtain ⟨_, rfl⟩ := Prod.mk.inj (Option.some.inj answered)
        exact none
      · obtain ⟨_, rfl⟩ := Prod.mk.inj (Option.some.inj answered)
        exact ⟨[.readFailed], rfl, by simp⟩
  | recvData pkt =>
      obtain ⟨_, rfl⟩ := Prod.mk.inj (Option.some.inj answered)
      split
      · exact ⟨[.accepted pkt.id], rfl, by simp⟩
      · exact none
  | pktRef pkt =>
      obtain ⟨_, rfl⟩ := Prod.mk.inj (Option.some.inj answered)
      exact ⟨[.ref pkt], rfl, by simp⟩
  | pktUnref pkt =>
      obtain ⟨_, rfl⟩ := Prod.mk.inj (Option.some.inj answered)
      exact ⟨[.unref pkt], rfl, by simp⟩
  | _ =>
      obtain ⟨_, rfl⟩ := Prod.mk.inj (Option.some.inj answered)
      exact none

/-- Code of such requests. -/
theorem ensures_unallocating {α : Type} {program : Code α}
    (only : program.Only Request.unallocating) :
    poolDevice.Ensures guard program pool fun _ next => Unallocated pool next := by
  intro choices value finish returns
  refine returns.relates_only Unallocated only (fun pool => ⟨[], (List.append_nil _).symm, by simp⟩)
    ?_ fun unallocating _ answered => Pool.answer_unallocating unallocating answered
  rintro first second third ⟨events, ledger, none⟩ ⟨events', ledger', none'⟩
  refine ⟨events ++ events', by rw [ledger', ledger, List.append_assoc], ?_⟩
  intro pkt member
  exact (List.mem_append.mp member).elim (none pkt) (none' pkt)

/-- The dropping of a frame allocates nothing. -/
theorem dropFrame_unallocating (bufRxSize frameLen : Nat) :
    (dropFrame bufRxSize frameLen).Only Request.unallocating := by
  apply dropFrame_only
  · intro request timestamping
    cases request <;> trivial
  · intro request draining
    cases request <;> trivial
  · trivial

/-- What a check and a hand-over have recorded. -/
structure Handed (pkt : PktId) (pool next : Pool) (checking : List PoolEvent) (last : PoolEvent) :
    Prop where
  ledger : next.ledger = pool.ledger ++ (checking ++ [last])
  spares : ∀ event ∈ checking, event.Spares pkt
  ended : last = .accepted pkt ∨ last = .unref pkt

/-- Handing a packet over passes the reference to it on, or gives it back. -/
theorem handOver_ensures (filled : NetPkt) (frameLen : Nat) (apart : pool.Apart filled.id) :
    poolDevice.Ensures guard (handOver filled frameLen).run pool fun _ next =>
      ∃ checking last, Handed filled.id pool next checking last := by
  have gives {middle : Pool}
      (handed : ∃ checking last, Handed filled.id pool middle checking last) :
      poolDevice.Ensures guard (liftM (call .semGive) : Driver Unit).run middle fun _ next =>
        ∃ checking last, Handed filled.id pool next checking last := by
    apply Device.Ensures.run_lift
    exact ensures_last (fun _ => rfl) handed
  apply Device.Ensures.run_bind
  apply Device.Ensures.run_lift
  refine (rxTimestampCheck_spares filled frameLen apart).weaken ?_
  rintro _ checked ⟨checking, ledger, spares⟩
  apply Device.Ensures.run_bind
  apply Device.Ensures.run_lift
  apply Device.Ensures.ask
  intro choice accepted handed _ answered
  obtain ⟨rfl, rfl⟩ := Prod.mk.inj (Option.some.inj answered)
  cases choice.accepted with
  | true =>
      apply gives
      refine ⟨checking, .accepted filled.id, ?_, spares, .inl rfl⟩
      change checked.ledger ++ _ = _
      rw [ledger, List.append_assoc]
  | false =>
      apply Device.Ensures.run_bind
      apply Device.Ensures.run_lift
      refine ensures_last (fun _ => rfl) (gives ?_)
      refine ⟨checking, .unref filled.id, ?_, spares, .inr rfl⟩
      change checked.ledger ++ _ = _
      rw [ledger, List.append_assoc]

/-- What a whole call records of its packet. -/
theorem lan9250Rx_ensures (bufDataSize : Nat) :
    poolDevice.Ensures guard (lan9250Rx bufDataSize).run pool fun _ next =>
      ∃ events, next.ledger = pool.ledger ++ events ∧ CallLedger events := by
  have nothing {next : Pool} (ledger : next.ledger = pool.ledger) :
      ∃ events, next.ledger = pool.ledger ++ events ∧ CallLedger events :=
    ⟨[], ledger.trans (List.append_nil _).symm, .unallocated (by simp)⟩
  have finding : nextFrame.run.Only Request.silent := by
    refine Program.Only.run_bind (@only_call _ (.readSysReg _) trivial) fun info => ?_
    refine Program.Only.run_bind (@only_call _ (.readSysReg _) trivial) fun status => ?_
    exact Program.only_ite Program.only_pure Program.only_pure
  rw [lan9250Rx_parts]
  apply Device.Ensures.run_bind
  refine (ensures_silent finding).weaken ?_
  rintro (error | found) ready ⟨_, ledger⟩
  · exact nothing ledger
  cases found with
  | none => exact Device.Ensures.pure (nothing ledger)
  | some frameLen =>
      apply Device.Ensures.run_bind
      refine (readFrame_ensures _ frameLen).weaken ?_
      rintro (error | read) taken sofar
      · rcases sofar with same | ⟨pkt, lost⟩
        · exact nothing (same.trans ledger)
        · exact ⟨_, lost.trans (by rw [ledger]), .interrupted pkt⟩
      cases read with
      | none =>
          apply Device.Ensures.run_lift
          refine (ensures_unallocating (dropFrame_unallocating _ _)).weaken ?_
          rintro _ next ⟨events, dropped, none⟩
          exact ⟨events, by rw [dropped, sofar, ledger], .unallocated none⟩
      | some filled =>
          obtain ⟨apart, allocated⟩ := sofar
          refine (handOver_ensures filled frameLen apart).weaken ?_
          rintro _ next ⟨checking, last, handed⟩
          refine ⟨_, ?_, .handed filled.id checking last handed.spares handed.ended⟩
          rw [handed.ledger, allocated, ledger, List.append_assoc]
          rfl

/-- A call settles the reference to the packet it has allocated exactly if no read of the frame's
data fails after the allocation. -/
theorem reference_settled {bufDataSize : Nat} {before after : Pool} {choices : List PoolChoice}
    {result : Except Errno Unit}
    (returns : poolDevice.Returns poolDevice.unguarded (lan9250Rx bufDataSize).run before choices
      result after) :
    ReferenceSettled (before.since after) ↔ Uninterrupted (before.since after) := by
  obtain ⟨events, ledger, call⟩ := lan9250Rx_ensures bufDataSize choices result after returns
  rw [Pool.since, ledger, List.drop_left]
  exact call.settled_iff

end Calls

/-! ### A frame of 46 bytes -/

/-- No frame waits for its event. -/
def Pool.idle : Pool := ⟨SlotTable.empty, SlotTable.empty, []⟩

/-- The frame is found, and a packet of one buffer allocated; then its data is read, or not. -/
private def frameOf46 (data : Except Errno (Nat → Byte)) : List PoolChoice :=
  [{ (default : PoolChoice) with word := .ok 0x00010000 },
    { (default : PoolChoice) with word := .ok 0x002E0000 }, default,
    { (default : PoolChoice) with alloc := some (7, 1) },
    { (default : PoolChoice) with data := data }]

/-- The reference is passed on if everything succeeds. -/
theorem frame_settled : ∃ choices result after,
    poolDevice.Returns poolDevice.unguarded (lan9250Rx 128).run .idle choices result after ∧
      .allocated 7 ∈ Pool.idle.since after ∧ ReferenceSettled (Pool.idle.since after) := by
  have played : (poolDevice.play (fun _ _ _ => true) (lan9250Rx 128).run .idle
      (frameOf46 (.ok fun _ => 0))).any (fun played =>
        decide (Pool.idle.since played.2.2 = [.allocated 7, .accepted 7])) = true := by
    decide +kernel
  obtain ⟨⟨choices, result, after⟩, ran, recorded⟩ := (Option.any_eq_true _ _).mp played
  have returns : poolDevice.Returns poolDevice.unguarded (lan9250Rx 128).run .idle choices result
      after := (Device.Returns.of_play ran).weaken fun _ _ _ _ => trivial
  have recorded : Pool.idle.since after = [.allocated 7, .accepted 7] := of_decide_eq_true recorded
  refine ⟨choices, result, after, returns, by simp [recorded], (reference_settled returns).mpr ?_⟩
  rintro _
  simp [recorded]

/-- It leaks if the data cannot be read. -/
theorem unread_frame_leaks : ∃ choices result after,
    poolDevice.Returns poolDevice.unguarded (lan9250Rx 128).run .idle choices result after ∧
      ¬ReferenceSettled (Pool.idle.since after) := by
  have played : (poolDevice.play (fun _ _ _ => true) (lan9250Rx 128).run .idle
      (frameOf46 (.error .eio))).any (fun played =>
        decide (Pool.idle.since played.2.2 = [.allocated 7, .readFailed])) = true := by
    decide +kernel
  obtain ⟨⟨choices, result, after⟩, ran, recorded⟩ := (Option.any_eq_true _ _).mp played
  have returns : poolDevice.Returns poolDevice.unguarded (lan9250Rx 128).run .idle choices result
      after := (Device.Returns.of_play ran).weaken fun _ _ _ _ => trivial
  have recorded : Pool.idle.since after = [.allocated 7, .readFailed] := of_decide_eq_true recorded
  refine ⟨choices, result, after, returns, ?_⟩
  intro settled
  have once := settled 7 (by simp [recorded])
  simp [recorded] at once

end Rp2350Stepper.Lan9250
