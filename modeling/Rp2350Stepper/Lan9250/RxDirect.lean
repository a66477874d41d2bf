import Rp2350Stepper.Lan9250.ReceiveRequests
import Rp2350Stepper.Lan9250.Reliable
import Rp2350Stepper.Lan9250.RxRuns

/-!
# Which frames get their timestamp at once

A check looks at `rx_unclaimed` and at the oldest event of the hardware queue. When
the frame's own event is at either place the frame leaves the check with its timestamp
and is not queued; `lan9250_rx` hands it to the stack only after that.
-/

namespace Rp2350Stepper.Lan9250

open Rp2350Stepper.Data Rp2350Stepper.Semantics

/-! ### Calls which queue nothing -/

/-- No reference has been taken, and no slot of `rx_pending` filled. -/
structure Unqueued (world next : World) : Prop where
  referenced : ∃ later, next.history = world.history ++ later ∧ ∀ pkt, .ref pkt ∉ later
  pending : ∀ slot entry, next.rxPending slot = some entry → world.rxPending slot = some entry

namespace Unqueued

theorem refl (world : World) : Unqueued world world := ⟨⟨[], by simp, by simp⟩, fun _ _ => id⟩

theorem trans {first second third : World} (before : Unqueued first second)
    (after : Unqueued second third) : Unqueued first third := by
  obtain ⟨⟨later, history, fresh⟩, pending⟩ := before
  obtain ⟨⟨later', history', fresh'⟩, pending'⟩ := after
  refine ⟨⟨later ++ later', by rw [history', history, List.append_assoc], ?_⟩,
    fun slot entry held => pending slot entry (pending' slot entry held)⟩
  intro pkt member
  exact (List.mem_append.mp member).elim (fresh pkt) (fresh' pkt)

/-- What is quiet queues nothing. -/
theorem of_quiet {world next : World} (same : Quiet world next) : Unqueued world next := by
  obtain ⟨pending, _, _, later, _, history, _, quiet, _⟩ := same
  refine ⟨⟨later, history, ?_⟩, fun slot entry held => pending ▸ held⟩
  intro pkt member
  exact absurd (quiet _ member) (by simp [Event.quiet])

/-- Something other than a reference is recorded. -/
theorem record (world : World) {event : Event} (other : ∀ pkt, .ref pkt ≠ event) :
    Unqueued world (world.record event) :=
  ⟨⟨[event], rfl, by simpa using other⟩, fun _ _ => id⟩

/-- A slot is released. -/
theorem release {world next : World} (unqueued : Unqueued world next) (slot : Fin rxPendingMax) :
    Unqueued world { next with rxPending := world.rxPending.release slot } :=
  ⟨unqueued.referenced, fun _ _ kept => (SlotTable.release_eq_some.mp kept).2⟩

/-- A sweep queues nothing. -/
theorem sweep {world next : World} (swept : Sweep world next) : Unqueued world next := by
  cases swept with
  | quiet same => exact of_quiet same
  | expirePending slot entry held due =>
      exact ((record world (by simp)).trans (record _ (by simp))).release slot
  | expireUnclaimed slot entry held due =>
      have logged : Unqueued world (world.record (.logged (.rxUnclaimedExpired entry.key))) :=
        record world (by simp)
      exact ⟨logged.referenced, logged.pending⟩

/-- Every move but queueing. -/
theorem move {pkt : PktId} {key : MsgKey} {world next : World} {stage stage' : Stage}
    (move : Move pkt key (world, stage) (next, stage')) (unqueued : stage' ≠ .queued) :
    Unqueued world next := by
  cases move with
  | sweep swept => exact sweep swept
  | claim slot entry held own =>
      have stamped : Unqueued world (world.record (.stamped pkt entry.time)) := record world (by simp)
      have logged : Unqueued (world.record (.stamped pkt entry.time))
          ((world.record (.stamped pkt entry.time)).record
            (.logged (.rxMatchedUnclaimed entry.key entry.time))) := record _ (by simp)
      exact ⟨(stamped.trans logged).referenced, (stamped.trans logged).pending⟩
  | acknowledge capture rest chip head popped =>
      have noted : Unqueued world (world.record (.acknowledged capture)) := record world (by simp)
      exact ⟨noted.referenced, noted.pending⟩
  | direct capture own => exact record world (by simp)
  | matchPending capture slot entry held own other =>
      exact (((record world (by simp)).trans (record _ (by simp))).trans
        (record _ (by simp))).release slot
  | stash capture slot unmatched other room => exact ⟨⟨[], by simp, by simp⟩, fun _ _ => id⟩
  | park => exact absurd rfl unqueued

/-- Once a frame is queued it stays so. -/
theorem moves {pkt : PktId} {key : MsgKey} {world : World} {stage : Stage}
    {finish : World × Stage} (moves : Moves pkt key (world, stage) finish)
    (unqueued : finish.2 ≠ .queued) : Unqueued world finish.1 := by
  induction moves with
  | refl => exact refl world
  | @tail middle finish _ last inductionHypothesis =>
      have before : middle.2 ≠ .queued := by
        intro queued
        obtain ⟨world, stage⟩ := middle
        obtain rfl : stage = .queued := queued
        cases last with
        | sweep => exact unqueued rfl
      exact (inductionHypothesis before).trans (move last unqueued)

end Unqueued

/-! ### Looking for the event -/

section Calls

variable {guard : lan9250.Guard} (live : Live guard) (reliable : Reliable guard) {world : World}

include live reliable

/-- A bank is selected without an error. -/
theorem bankSelect_ok (bank : Word) :
    lan9250.Completes guard (ieee1588BankSelect bank).run world fun result _ => result = .ok () := by
  rw [ieee1588BankSelect, completes_writeSysReg_ok live reliable]
  exact fun _ _ => rfl

/-- `CAP_INFO` shows that an ingress event is queued. -/
theorem readCapInfo_ok {capture : Capture} {rest : List Capture}
    (general : world.chip.bank = bankSelPortGeneral)
    (head : world.chip.rxCaptures.items = capture :: rest) :
    lan9250.Completes guard (readSysReg capInfo).run world fun result _ =>
      ∃ info, result = .ok info ∧ info &&& capInfoRxTsCntMask ≠ 0 := by
  rw [completes_readSysReg_ok live reliable]
  intro choice _
  obtain ⟨rest, here⟩ := (Quiet.advance world choice).head head
  refine ⟨_, rfl, ?_⟩
  rw [ne_eq, Chip.capInfo_rx_eq_zero ((advance_bank world choice).trans general), here]
  simp

/-- An event is read without an error. -/
theorem readIngress_ok :
    lan9250.Completes guard readIngress.run world fun result _ => ∃ value, result = .ok value := by
  unfold readIngress
  rw [Device.completes_run_bind, completes_readSysReg_ok live reliable]
  intro _ _
  simp only
  rw [Device.completes_run_bind, completes_readSysReg_ok live reliable]
  intro _ _
  simp only
  rw [Device.completes_run_bind, completes_readSysReg_ok live reliable]
  exact fun _ _ => ⟨_, rfl⟩

/-- An event of the frame at the head of the queue is attached. -/
theorem drainIngress_attaches (pkt : PktId) {capture : Capture} {rest : List Capture}
    (head : world.chip.rxCaptures.items = capture :: rest) :
    lan9250.Completes guard (drainIngress pkt capture.key) world fun attached next =>
      attached = true ∧ .stamped pkt capture.time ∈ newEvents world next := by
  unfold drainIngress
  rw [Device.completes_bind]
  refine ((bankSelect_ok live reliable bankSelPortGeneral).and
    (bankSelect_spec live bankSelPortGeneral)).weaken ?_
  rintro _ general ⟨rfl, same, selected⟩
  obtain ⟨rest, here⟩ := same.head head
  simp only
  rw [Device.completes_bind]
  refine ((readCapInfo_ok live reliable (selected () rfl) here).and
    (readCapInfo_spec live (selected () rfl))).weaken ?_
  rintro _ counted ⟨⟨info, rfl, ready⟩, same', _⟩
  obtain ⟨rest, here⟩ := same'.head here
  simp only
  rw [if_neg ready, Device.completes_bind]
  refine ((bankSelect_ok live reliable bankSelPortRx).and
    (bankSelect_spec live bankSelPortRx)).weaken ?_
  rintro _ rx ⟨rfl, sameRx, selected'⟩
  obtain ⟨rest, here⟩ := sameRx.head here
  simp only
  rw [Device.completes_bind]
  refine ((readIngress_ok live reliable).and
    (readIngress_spec live (selected' () rfl) here)).weaken ?_
  rintro _ shown ⟨⟨value, rfl⟩, sameRead, _, read⟩
  rw [read value rfl]
  have all := Onward.of_quiet (((same.trans same').trans sameRx).trans sameRead)
  simp only
  rw [Device.completes_bind]
  apply (completes_writeSysReg_ok live reliable).mpr
  intro choice _
  unfold settleIngress
  rw [if_pos rfl, Device.completes_bind, completes_setTimestamp live, Device.completes_bind,
    completes_log live, Device.completes_pure]
  have noted : Onward world ((shown.advance choice).noteWrite ieee1588IntSts intStsRxTsInt) :=
    (all.trans (.of_quiet (Quiet.advance shown choice))).trans (Onward.noteWrite _ _ _)
  refine ⟨rfl, noted.newEvents_subset ?_⟩
  simp [newEvents, World.record]

/-- An event of the frame in `rx_unclaimed` or at the head of the queue is attached. -/
theorem attachEvent_attaches (pkt : PktId) {key : MsgKey} {time : PtpTime}
    (unique : ∀ slot entry, world.rxUnclaimed slot = some entry → entry.key = key →
      entry.time = time)
    (available : (∃ slot entry, world.rxUnclaimed slot = some entry ∧ entry.key = key) ∨
      ∃ capture rest, world.chip.rxCaptures.items = capture :: rest ∧ capture.key = key ∧
        capture.time = time) :
    lan9250.Completes guard (attachEvent pkt key) world fun attached next =>
      attached = true ∧ .stamped pkt time ∈ newEvents world next := by
  unfold attachEvent attachUnclaimed
  rw [Device.completes_bind, Device.completes_bind, completes_loadUnclaimed live]
  cases found : world.rxUnclaimed.find? fun entry => entry.key == key with
  | some hit =>
      obtain ⟨slot, entry⟩ := hit
      obtain ⟨held, own⟩ := SlotTable.find?_eq_some found
      simp only
      rw [Device.completes_bind, completes_setTimestamp live, Device.completes_bind,
        completes_log live, Device.completes_bind, completes_storeUnclaimed live,
        Device.completes_pure, if_pos rfl, Device.completes_pure]
      refine ⟨rfl, ?_⟩
      rw [unique slot entry held (by simpa using own)]
      simp [newEvents, World.record]
  | none =>
      have absent := SlotTable.find?_eq_none.mp found
      rcases available with ⟨slot, entry, held, own⟩ | ⟨capture, rest, head, rfl, rfl⟩
      · simpa [own] using absent slot entry held
      · simp only
        rw [Device.completes_pure, if_neg (by simp)]
        exact drainIngress_attaches live reliable pkt head

/-- What follows the reading of the clock, when the frame's event is available. -/
theorem sweepAndAttach_attaches (pkt : PktId) {key : MsgKey} {time : PtpTime} {now : Int}
    (past : now ≤ world.uptime)
    (unique : ∀ slot entry, world.rxUnclaimed slot = some entry → entry.key = key →
      entry.time = time)
    (available : (∃ slot entry, world.rxUnclaimed slot = some entry ∧ entry.key = key ∧
        now < entry.deadline) ∨
      ∃ capture rest, world.chip.rxCaptures.items = capture :: rest ∧ capture.key = key ∧
        capture.time = time) :
    lan9250.Completes guard (do
        rxPendingExpire now
        let attached ← attachEvent pkt key
        if !attached && msgTypeIsTimestamped key.msgType then queuePending pkt key
        call (.mutexUnlock .bankLock)) world fun _ next =>
      .stamped pkt time ∈ newEvents world next ∧ Unqueued world next := by
  rw [Device.completes_bind]
  apply (rxPendingExpire_sweeps live past).weaken
  rintro _ swept ⟨sweeping, _, chip, _, unclaimed⟩
  have before : Moves pkt key (world, .searching) (swept, .searching) := .of_sweeps sweeping
  have still : (∃ slot entry, swept.rxUnclaimed slot = some entry ∧ entry.key = key) ∨
      ∃ capture rest, swept.chip.rxCaptures.items = capture :: rest ∧ capture.key = key ∧
        capture.time = time := by
    rw [chip]
    apply available.imp_left
    rintro ⟨slot, entry, held, own, early⟩
    exact ⟨slot, entry, by simp [unclaimed, held, Option.filter, early], own⟩
  have sole : ∀ slot entry, swept.rxUnclaimed slot = some entry → entry.key = key →
      entry.time = time := by
    intro slot entry held
    rw [unclaimed, Option.filter_eq_some_iff] at held
    exact unique slot entry held.1
  rw [Device.completes_bind]
  refine ((attachEvent_attaches live reliable pkt sole still).and
    (attachEvent_moves live pkt key)).weaken ?_
  rintro attached next ⟨⟨rfl, stamped⟩, search, _⟩
  simp only [Bool.not_true, Bool.false_and, Bool.false_eq_true, if_false]
  rw [completes_mutexUnlock live]
  have searched : Moves pkt key (swept, .searching) (next, .attached) := search.moves
  exact ⟨(Moves.onward before).newEvents_subset stamped,
    (Unqueued.moves before (by simp)).trans (Unqueued.moves searched (by simp))⟩

end Calls
/-! ### Runs -/

/-- The uptime a check sweeps at: it takes the mutex and reads the clock first. -/
def sweepTime (before : World) (choices : List Choice) : Int :=
  before.uptime + ((choices.take 2).map Choice.elapsed).sum

/-- The event of a message, with its timestamp, is at hand for a check: stashed and not yet
due at the sweep, or the oldest in the hardware queue; and no other event of the message is
stashed. -/
structure AtHand (before : World) (choices : List Choice) (key : MsgKey) (time : PtpTime) :
    Prop where
  available : (∃ slot entry, before.rxUnclaimed slot = some entry ∧ entry.key = key ∧
      sweepTime before choices < entry.deadline) ∨
    ∃ capture rest, before.chip.rxCaptures.items = capture :: rest ∧ capture.key = key ∧
      capture.time = time
  unique : ∀ slot entry, before.rxUnclaimed slot = some entry → entry.key = key → entry.time = time

/-- Time passes before a request. -/
theorem advance_uptime (world : World) (choice : Choice) :
    (world.advance choice).uptime = world.uptime + choice.elapsed := rfl

/-- A check attaches an event which is at hand, and queues nothing. -/
theorem rxTimestampMatch_attaches {pkt : PktId} {key : MsgKey} {time : PtpTime}
    {before after : World} {choices : List Choice}
    (returns : lan9250.Returns noFailure (rxTimestampMatch pkt key) before choices () after)
    (atHand : AtHand before choices key time) :
    .stamped pkt time ∈ newEvents before after ∧ Unqueued before after := by
  obtain ⟨_, _, locked, rest, rfl, lock, unlocked⟩ := returns.of_bind
  obtain ⟨first, rfl, _, answered⟩ := lock.of_ask
  obtain ⟨_, now, current, later, rfl, clock, continued⟩ := unlocked.of_bind
  obtain ⟨second, rfl, _, answered'⟩ := clock.of_ask
  simp only [answer, Option.some.injEq, Prod.mk.injEq] at answered answered'
  obtain ⟨_, rfl⟩ := answered
  obtain ⟨rfl, rfl⟩ := answered'
  have same := (Quiet.advance before first).trans (Quiet.advance _ second)
  have swept : sweepTime before ([first] ++ ([second] ++ later)) =
      ((before.advance first).advance second).uptime := by
    simp only [sweepTime, advance_uptime, List.singleton_append, List.take_succ_cons, List.take_zero,
      List.map_cons, List.map_nil, List.sum_cons, List.sum_nil]
    omega
  obtain ⟨available, unique⟩ := atHand
  rw [swept, ← same.rxUnclaimed] at available
  rw [← same.rxUnclaimed] at unique
  have still : (∃ slot entry, ((before.advance first).advance second).rxUnclaimed slot = some entry ∧
        entry.key = key ∧ ((before.advance first).advance second).uptime < entry.deadline) ∨
      ∃ capture rest, ((before.advance first).advance second).chip.rxCaptures.items =
        capture :: rest ∧ capture.key = key ∧ capture.time = time := by
    apply available.imp_right
    rintro ⟨capture, rest, head, own⟩
    obtain ⟨rest, here⟩ := same.head head
    exact ⟨capture, rest, here, own⟩
  have attaches := continued.of_completes (sweepAndAttach_attaches live_noFailure
    reliable_noFailure pkt (le_refl _) unique still)
  exact ⟨(Onward.of_quiet same).newEvents_subset attaches.1, (Unqueued.of_quiet same).trans attaches.2⟩

/-- The frame a call of the check recognizes. -/
theorem rxTimestampCheck_attaches {pkt : NetPkt} {pktLen : Nat} {key : MsgKey} {time : PtpTime}
    {before after : World} {choices : List Choice} (recognized : checkedKey pkt pktLen = some key)
    (returns : lan9250.Returns noFailure (rxTimestampCheck pkt pktLen) before choices () after)
    (atHand : AtHand before choices key time) :
    .stamped pkt.id time ∈ newEvents before after ∧ Unqueued before after := by
  unfold checkedKey at recognized
  unfold rxTimestampCheck at returns
  by_cases short : pkt.data.length < min pktLen headerBufSize
  · simp [short] at recognized
  · simp only [short, if_false] at recognized returns
    rw [recognized] at returns
    exact rxTimestampMatch_attaches returns atHand

/-! ### Before the hand-over -/

/-- Requests which concern no packet. -/
def Request.unpacked : Request → Prop
  | .rxAlloc _ | .recvData _ => False
  | _ => True

/-- Time stamping delivers no packet. -/
theorem Request.unpacked_of_timestamping {request : Request} (known : request.timestamping) :
    request.unpacked := by
  cases request <;> simp_all [Request.timestamping, Request.unpacked]

theorem Request.unpacked_of_draining {request : Request} (known : request.draining) :
    request.unpacked := by
  cases request <;> simp_all [Request.draining, Request.unpacked]

/-- Code which makes only such requests. -/
theorem unpacked_of_only {α : Type} {guard : lan9250.Guard} {program : Code α} {before after : World}
    {choices : List Choice} {value : α} (only : program.Only Request.unpacked)
    (returns : lan9250.Returns guard program before choices value after) : Unpacked before after := by
  apply returns.relates_only Unpacked only Unpacked.refl Unpacked.trans
  intro state request choice response middle known _ answered
  refine Unpacked.answer ?_ ?_ answered
  · rintro len rfl
    exact known
  · rintro pkt rfl
    exact known

/-- What follows the hand-over concerns the packet no more. -/
private theorem finish_only (accepted : Bool) (pkt : PktId) :
    (ExceptT.run (do
      if !accepted then call (.pktUnref pkt)
      call .semGive : Driver Unit)).Only Request.unpacked := by
  have released : (call (.pktUnref pkt)).Only Request.unpacked :=
    only_call trivial
  have given : (call .semGive).Only Request.unpacked := only_call trivial
  cases accepted with
  | true => exact given.bind fun _ => Program.only_pure
  | false =>
      exact (released.bind fun _ => Program.only_pure).run_bind fun _ =>
        given.bind fun _ => Program.only_pure

/-- Time and history only go on in a call. -/
theorem onward_of_returns {α : Type} {guard : lan9250.Guard} {program : Code α}
    {before after : World} {choices : List Choice} {value : α}
    (returns : lan9250.Returns guard program before choices value after) : Onward before after :=
  returns.relates Onward Onward.refl Onward.trans fun _ answered => Onward.answer answered

/-- The end of `lan9250_rx`: the check, and then the hand-over. -/
theorem handOver_checks {guard : lan9250.Guard} {frameLen : Nat} {pkt : NetPkt}
    {ready after : World} {choices : List Choice} {result : Except Errno Unit}
    (returns : lan9250.Returns guard (handOver pkt frameLen).run ready choices result after) :
    ∃ checking checked, lan9250.Returns guard (rxTimestampCheck pkt frameLen) ready checking ()
        checked ∧ Onward checked after ∧
      packets after.history = packets checked.history ++ [.delivered pkt] := by
  obtain ⟨checking, _, checked, rest, rfl, check, handing⟩ := returns.of_run_bind
  obtain ⟨_, rfl, checks⟩ := check.of_run_lift
  obtain ⟨_, _, handing⟩ | ⟨_, failed, _⟩ := handing
  · refine ⟨checking, checked, checks, ?_⟩
    have onward := onward_of_returns handing
    obtain ⟨_, _, handed, later, rfl, delivering, finishing⟩ := handing.of_run_bind
    obtain ⟨accepted, rfl, taken⟩ := delivering.of_run_lift
    obtain ⟨choice, rfl, _, answered⟩ := taken.of_ask
    simp only [answer, Option.some.injEq, Prod.mk.injEq] at answered
    obtain ⟨_, rfl⟩ := answered
    obtain ⟨value, _, finishing⟩ | ⟨_, failed, _⟩ := finishing
    · refine ⟨onward, ?_⟩
      rw [(unpacked_of_only (finish_only value pkt.id) finishing).packets,
        ← (Unpacked.advance checked choice).packets]
      simp [World.record, packets, Event.packet]
    · simp at failed
  · simp at failed

/-- A packet which is handed to the stack has been through the check, and was not handed
over before it. -/
structure CheckedFirst (guard : lan9250.Guard) (before after : World) (filled : NetPkt)
    (frameLen : Nat) (ready : World) (checking : List Choice) (checked : World) : Prop where
  reached : Onward before ready
  returns : lan9250.Returns guard (rxTimestampCheck filled frameLen) ready checking () checked
  unpacked : packets checked.history = packets ready.history
  left : Onward checked after
  delivered : packets after.history = packets checked.history ++ [.delivered filled]

/-- A delivered frame has been checked. -/
theorem deliverFrame_checks {guard : lan9250.Guard} {bufRxSize frameLen : Nat} {pkt : NetPkt}
    {before after : World} {choices : List Choice} {result : Except Errno Unit}
    (returns : lan9250.Returns guard (deliverFrame bufRxSize frameLen pkt).run before choices
      result after) :
    packets after.history = packets before.history ∨
    ∃ filled ready checking checked,
      CheckedFirst guard before after filled frameLen ready checking checked ∧
        packets ready.history = packets before.history := by
  have draining {α : Type} {program : Code α} (only : program.Only Request.draining) :
      program.Only Request.unpacked :=
    only.weaken fun _ => Request.unpacked_of_draining
  have timestamping {α : Type} {program : Code α} (only : program.Only Request.timestamping) :
      program.Only Request.unpacked :=
    only.weaken fun _ => Request.unpacked_of_timestamping
  rw [deliverFrame_eq] at returns
  obtain ⟨filling, frags, filled, rest, rfl, fill, checking⟩ := returns.of_run_bind
  have unfilled := unpacked_of_only (draining (fillFrags_only bufRxSize frameLen frameLen pkt.frags)) fill
  obtain ⟨frags, rfl, checking⟩ | ⟨_, _, _, rfl⟩ := checking
  · have finished {ready : World} {choices : List Choice}
        (reached : Onward before ready) (same : packets ready.history = packets before.history)
        (handing : lan9250.Returns guard (handOver { pkt with frags := frags } frameLen).run ready
          choices result after) :
        ∃ filled ready checking checked,
          CheckedFirst guard before after filled frameLen ready checking checked ∧
            packets ready.history = packets before.history := by
      obtain ⟨checking, checked, checks, onward, delivered⟩ := handOver_checks handing
      have quiet := unpacked_of_only (timestamping (rxTimestampCheck_only _ _)) checks
      exact ⟨_, ready, checking, checked, ⟨reached, checks, quiet.packets, onward, delivered⟩, same⟩
    by_cases padded : 0 < endPad frameLen
    · simp only [if_pos padded] at checking
      obtain ⟨_, outcome, drained, rest, rfl, pad, handing⟩ := checking.of_run_bind
      have undrained :=
        unpacked_of_only (draining (@only_call _ (.readBuf (endPad frameLen)) trivial)) pad
      have onward := (onward_of_returns fill).trans (onward_of_returns pad)
      have same := undrained.packets.trans unfilled.packets
      obtain ⟨_, _, handing⟩ | ⟨_, _, _, rfl⟩ := handing
      · exact .inr (finished onward same handing)
      · exact .inl same
    · simp only [if_neg padded] at checking
      exact .inr (finished (onward_of_returns fill) unfilled.packets checking)
  · exact .inl unfilled.packets

/-- The allocation, and what follows it. -/
theorem takePacket_packets {guard : lan9250.Guard} {bufRxSize pktLen : Nat} {before ready after : World}
    {choices : List Choice} {result : Except Errno Unit}
    (reached : Onward before ready) (same : packets ready.history = packets before.history)
    (returns : lan9250.Returns guard (takePacket bufRxSize pktLen).run ready choices result after) :
    packets after.history = packets before.history ++ [.allocated false] ∨
    ∃ frameLen pkt allocated delivering, Onward before allocated ∧
      packets allocated.history = packets before.history ++ [.allocated true] ∧
      lan9250.Returns guard (deliverFrame bufRxSize frameLen pkt).run allocated delivering
        result after := by
  unfold takePacket at returns
  obtain ⟨_, _, allocated, _, rfl, allocating, continuing⟩ := returns.of_run_bind
  obtain ⟨pkt, rfl, asked⟩ := allocating.of_run_lift
  have onward := reached.trans (onward_of_returns asked)
  obtain ⟨choice, rfl, _, answered⟩ := asked.of_ask
  simp only [answer, Option.some.injEq, World.rxAlloc] at answered
  have advanced := (Unpacked.advance ready choice).packets.trans same
  have recorded (succeeded : Bool) : packets ((ready.advance choice).record
      (.allocated succeeded)).history = packets before.history ++ [.allocated succeeded] := by
    rw [← advanced]
    simp [World.record, packets, Event.packet]
  obtain ⟨_, shape, handed⟩ | ⟨_, failed, _⟩ := continuing
  · cases shape
    split at answered
    · obtain ⟨rfl, rfl⟩ := Prod.mk.inj answered
      obtain ⟨_, _, dropped⟩ := handed.of_run_lift
      left
      rw [(unpacked_of_only (dropFrame_only (fun _ => Request.unpacked_of_timestamping)
        (fun _ => Request.unpacked_of_draining) trivial) dropped).packets, recorded]
    · obtain ⟨rfl, rfl⟩ := Prod.mk.inj answered
      exact .inr ⟨_, _, _, _, onward, recorded true, handed⟩
  · simp at failed

/-- A read of a register concerns no packet. -/
private theorem readSysReg_packets {guard : lan9250.Guard} {address : Address} {world next : World}
    {choices : List Choice} {result : Except Errno Word}
    (returns : lan9250.Returns guard (readSysReg address).run world choices result next) :
    Onward world next ∧ packets next.history = packets world.history :=
  ⟨onward_of_returns returns,
    (unpacked_of_only (@only_call _ (.readSysReg address) trivial) returns).packets⟩

/-- The dummy read, and what follows it. -/
private theorem takeFrame_packets {guard : lan9250.Guard} {bufRxSize pktLen : Nat}
    {before ready after : World} {choices : List Choice} {result : Except Errno Unit}
    (reached : Onward before ready) (same : packets ready.history = packets before.history)
    (returns : lan9250.Returns guard (takeFrame bufRxSize pktLen).run ready choices result after) :
    packets after.history = packets before.history ∨
    packets after.history = packets before.history ++ [.allocated false] ∨
    ∃ frameLen pkt allocated delivering, Onward before allocated ∧
      packets allocated.history = packets before.history ++ [.allocated true] ∧
      lan9250.Returns guard (deliverFrame bufRxSize frameLen pkt).run allocated delivering
        result after := by
  unfold takeFrame at returns
  obtain ⟨_, _, drained, rest, rfl, drain, allocating⟩ := returns.of_run_bind
  obtain ⟨onward, quiet⟩ := readSysReg_packets drain
  replace onward := reached.trans onward
  replace same := quiet.trans same
  obtain ⟨header, _, allocating⟩ | ⟨_, _, _, rfl⟩ := allocating
  swap
  · exact .inl same
  -- A frame which is too long is logged, and read all the same.
  by_cases tooLong : netEthMaxFrameSize < pktLen
  · simp only [if_pos tooLong] at allocating
    obtain ⟨_, _, logged, _, rfl, logs, counting⟩ := allocating.of_run_bind
    obtain ⟨_, rfl, log⟩ := logs.of_run_lift
    obtain ⟨_, _, counting⟩ | ⟨_, failed, _⟩ := counting
    · obtain ⟨_, _, errors, rest, rfl, updates, allocating⟩ := counting.of_run_bind
      obtain ⟨_, rfl, update⟩ := updates.of_run_lift
      obtain ⟨_, _, allocating⟩ | ⟨_, failed, _⟩ := allocating
      · have silent :=
          (unpacked_of_only (@only_call _ (.log .maximumFrameLengthExceeded) trivial) log).trans
            (unpacked_of_only (@only_call _ .updateErrorsRx trivial) update)
        exact .inr (takePacket_packets ((onward.trans (onward_of_returns log)).trans
          (onward_of_returns update)) (silent.packets.trans same) allocating)
      · simp at failed
    · simp at failed
  · simp only [if_neg tooLong] at allocating
    exact .inr (takePacket_packets onward same allocating)

/-- What a call of `lan9250_rx` does with packets: it allocates at most one, and what follows
a successful allocation is `deliverFrame`. -/
theorem lan9250Rx_packets {guard : lan9250.Guard} {bufDataSize : Nat} {before after : World}
    {choices : List Choice} {result : Except Errno Unit}
    (returns : lan9250.Returns guard (lan9250Rx bufDataSize).run before choices result after) :
    packets after.history = packets before.history ∨
    packets after.history = packets before.history ++ [.allocated false] ∨
    ∃ frameLen pkt allocated delivering, Onward before allocated ∧
      packets allocated.history = packets before.history ++ [.allocated true] ∧
      lan9250.Returns guard (deliverFrame (bufDataSize % 2 ^ 16) frameLen pkt).run allocated
        delivering result after := by
  rw [lan9250Rx_eq] at returns
  obtain ⟨_, _, counted, _, rfl, count, popping⟩ := returns.of_run_bind
  obtain ⟨onward, same⟩ := readSysReg_packets count
  obtain ⟨info, _, popping⟩ | ⟨_, _, _, rfl⟩ := popping
  swap
  · exact .inl same
  obtain ⟨_, _, popped, _, rfl, pop, testing⟩ := popping.of_run_bind
  obtain ⟨onward', same'⟩ := readSysReg_packets pop
  obtain ⟨status, _, testing⟩ | ⟨_, _, _, rfl⟩ := testing
  swap
  · exact .inl (same'.trans same)
  split at testing
  · cases testing
    exact .inl (same'.trans same)
  · exact takeFrame_packets (onward.trans onward') (same'.trans same) testing

/-- No packet is handed over before it has been through the check. -/
theorem lan9250Rx_checks {guard : lan9250.Guard} {bufDataSize : Nat} {before after : World}
    {choices : List Choice} {result : Except Errno Unit} {delivered : NetPkt}
    (returns : lan9250.Returns guard (lan9250Rx bufDataSize).run before choices result after)
    (handed : .delivered delivered ∈ newEvents before after) :
    ∃ frameLen ready checking checked,
      CheckedFirst guard before after delivered frameLen ready checking checked ∧
        .delivered delivered ∉ newEvents before checked := by
  have concerned {world : World} (onward : Onward before world) :
      .delivered delivered ∈ newEvents before world ↔
        .delivered delivered ∈ packets (newEvents before world) := by
    simp [packets, Event.packet]
  have grown {world : World} (onward : Onward before world) {packets' : List Event}
      (shape : packets world.history = packets before.history ++ packets') :
      packets (newEvents before world) = packets' :=
    List.append_cancel_left ((packets_newEvents onward).symm.trans shape)
  have onward := onward_of_returns returns
  rw [concerned onward] at handed
  rcases lan9250Rx_packets returns with
    same | dropped | ⟨frameLen, pkt, allocated, delivering, reached, shape, delivers⟩
  · rw [grown onward (same.trans (List.append_nil _).symm)] at handed
    simp at handed
  · rw [grown onward dropped] at handed
    simp at handed
  · rcases deliverFrame_checks delivers with same | ⟨filled, ready, checking, checked, first, same⟩
    · rw [grown onward (same.trans shape)] at handed
      simp at handed
    · have shapeChecked := first.unpacked.trans (same.trans shape)
      have shapeAfter := first.delivered.trans (congrArg (· ++ [_]) shapeChecked)
      rw [List.append_assoc] at shapeAfter
      rw [grown onward shapeAfter] at handed
      obtain rfl : delivered = filled := by simpa using handed
      have onwardChecked := (reached.trans first.reached).trans (onward_of_returns first.returns)
      refine ⟨frameLen, ready, checking, checked,
        ⟨reached.trans first.reached, first.returns, first.unpacked, first.left, first.delivered⟩, ?_⟩
      rw [concerned onwardChecked, grown onwardChecked shapeChecked]
      simp

/-- Whatever earlier calls have left behind, a check attaches the event of its frame if it is
at hand, and does not park the frame; and `lan9250_rx` hands a packet over only after its
check. -/
theorem available_event_attached :
    (∀ {pkt : NetPkt} {pktLen : Nat} {key : MsgKey} {time : PtpTime} {before after : World}
      {choices : List Choice}, checkedKey pkt pktLen = some key → AtHand before choices key time →
      lan9250.Returns noFailure (rxTimestampCheck pkt pktLen) before choices () after →
      .stamped pkt.id time ∈ newEvents before after ∧ Unqueued before after) ∧
    ∀ {bufDataSize : Nat} {before after : World} {choices : List Choice}
      {result : Except Errno Unit} {delivered : NetPkt},
      lan9250.Returns noFailure (lan9250Rx bufDataSize).run before choices result after →
      .delivered delivered ∈ newEvents before after →
      ∃ frameLen ready checking checked,
        CheckedFirst noFailure before after delivered frameLen ready checking checked ∧
          .delivered delivered ∉ newEvents before checked :=
  ⟨fun recognized atHand returns => rxTimestampCheck_attaches recognized returns atHand,
    lan9250Rx_checks⟩

/-! ### Sync 5 and Sync 6 -/

/-- A sweep at the start of which some events are captured. -/
private def sweepAt (elapsed : Nat) (events : List Capture) : RxCall × List Choice :=
  (.expire, [{ Choice.quiet with elapsed := elapsed, rxCaptures := events }])

/-- A Sync message. -/
private def syncCall (pkt : PktId) (seqId : BitVec 16) : RxCall × List Choice :=
  (.check ⟨pkt, [rawFrame ⟨0, seqId⟩]⟩ 46, [])

/-- Whether a check has left its frame in `rx_pending` without a timestamp. -/
private def parkedIn (event : lan9250.Finished RxCall Unit) (pkt : PktId) : Bool :=
  (newEvents event.before event.after).contains (.ref pkt) &&
    (newEvents event.before event.after).all fun happened => match happened with
      | .stamped _ _ => false
      | _ => true

/-- A frame parked in a played run without failures is parked in a run. -/
private theorem parked_of_played {script : List (RxCall × List Choice)} {pkt : PktId}
    {test : lan9250.Finished RxCall Unit → Bool}
    (played : (lan9250.playCalls allowsSuccess (fun _ _ => true) RxCall.body .idle script).map
      (fun ended => ended.1.any fun event => test event && parkedIn event pkt) = some true) :
    ∃ calls events finish, (lan9250.calls noFailure (fun _ => True) RxCall.body).Run
      (System.unguarded _) .idle calls events finish ∧ ∃ event ∈ events, test event = true ∧
        .ref pkt ∈ newEvents event.before event.after ∧
        ∀ stamped time, .stamped stamped time ∉ newEvents event.before event.after := by
  obtain ⟨⟨events, finish⟩, ran, found⟩ := Option.map_eq_some_iff.mp played
  obtain ⟨calls, run⟩ := run_of_playSuccess ran
  obtain ⟨event, member, missed⟩ := List.any_eq_true.mp found
  simp only [parkedIn, Bool.and_eq_true, List.contains_iff_mem, List.all_eq_true] at missed
  obtain ⟨tested, referenced, none⟩ := missed
  exact ⟨calls, events, finish, run, event, member, tested, referenced,
    fun stamped time here => Bool.false_ne_true (none _ here)⟩

/-- The event of Sync 6 is queued behind that of Sync 5: the check of Sync 6 drains the
first, and parks its frame. So does a check which finds the event of its frame in
`rx_unclaimed` at its deadline. -/
theorem queued_event_missed :
    (∃ calls events finish, (lan9250.calls noFailure (fun _ => True) RxCall.body).Run
      (System.unguarded _) .idle calls events finish ∧ ∃ event ∈ events,
        event.call = .check ⟨8, [rawFrame ⟨0, 6⟩]⟩ 46 ∧
        event.before.chip.rxCaptures.items = [⟨5, 100, 1⟩, ⟨6, 100, 2⟩] ∧
        .ref 8 ∈ newEvents event.before event.after ∧
        ∀ pkt time, .stamped pkt time ∉ newEvents event.before event.after) ∧
    ∃ calls events finish, (lan9250.calls noFailure (fun _ => True) RxCall.body).Run
      (System.unguarded _) .idle calls events finish ∧ ∃ event ∈ events,
        event.call = .check ⟨8, [rawFrame ⟨0, 6⟩]⟩ 46 ∧
        event.before.rxUnclaimed 0 = some ⟨⟨0, 6⟩, ⟨100, 2⟩, 2000⟩ ∧
        .ref 8 ∈ newEvents event.before event.after ∧
        ∀ pkt time, .stamped pkt time ∉ newEvents event.before event.after := by
  constructor
  · obtain ⟨calls, events, finish, run, event, member, tested, missed⟩ :=
      @parked_of_played [sweepAt 0 [⟨5, 100, 1⟩, ⟨6, 100, 2⟩], syncCall 8 6] 8
        (fun event => event.call = .check ⟨8, [rawFrame ⟨0, 6⟩]⟩ 46 &&
          event.before.chip.rxCaptures.items = [⟨5, 100, 1⟩, ⟨6, 100, 2⟩]) (by decide +kernel)
    simp only [Bool.and_eq_true, decide_eq_true_eq] at tested
    exact ⟨calls, events, finish, run, event, member, tested.1, tested.2, missed⟩
  · obtain ⟨calls, events, finish, run, event, member, tested, missed⟩ :=
      @parked_of_played [sweepAt 0 [⟨6, 100, 2⟩], syncCall 7 5, sweepAt 1999 [],
          (.check ⟨8, [rawFrame ⟨0, 6⟩]⟩ 46, [{ Choice.quiet with elapsed := 1 }])] 8
        (fun event => event.call = .check ⟨8, [rawFrame ⟨0, 6⟩]⟩ 46 &&
          event.before.rxUnclaimed 0 = some ⟨⟨0, 6⟩, ⟨100, 2⟩, 2000⟩) (by decide +kernel)
    simp only [Bool.and_eq_true, decide_eq_true_eq] at tested
    exact ⟨calls, events, finish, run, event, member, tested.1, tested.2, missed⟩

/-- A Sync 6 frame as it is received. -/
def syncFrame : Frame := ⟨rawFrame ⟨0, 6⟩, 0x002E0000, 0, by decide, by decide⟩

/-- Sync 6, with its event at the head of the queue, gets its timestamp; and a Sync 6 which
`lan9250_rx` hands over has been checked. -/
theorem head_event_attached :
    (∃ choices after, lan9250.Returns noFailure (rxTimestampCheck ⟨8, [rawFrame ⟨0, 6⟩]⟩ 46)
      (World.idle.capture ⟨6, 100, 2⟩) choices () after ∧
        .stamped 8 ⟨100, 2⟩ ∈ newEvents (World.idle.capture ⟨6, 100, 2⟩) after) ∧
    ∃ choices result after, lan9250.Returns noFailure (lan9250Rx 128).run .idle choices result after ∧
      ∃ frameLen ready checking checked, CheckedFirst noFailure .idle after
        ⟨8, [rawFrame ⟨0, 6⟩]⟩ frameLen ready checking checked := by
  constructor
  · have played : (lan9250.play allowsSuccess (rxTimestampCheck ⟨8, [rawFrame ⟨0, 6⟩]⟩ 46)
        (World.idle.capture ⟨6, 100, 2⟩) []).isSome = true := by
      decide +kernel
    obtain ⟨⟨choices, _, after⟩, ran⟩ := Option.isSome_iff_exists.mp played
    have returns := returns_of_playSuccess ran
    refine ⟨choices, after, returns, ?_⟩
    have recognized : checkedKey ⟨8, [rawFrame ⟨0, 6⟩]⟩ 46 = some ⟨0, 6⟩ := by decide
    refine (available_event_attached.1 recognized ⟨.inr ⟨_, [], rfl, by decide, rfl⟩, ?_⟩ returns).1
    intro slot entry held
    cases held
  · have played : (lan9250.play allowsSuccess (lan9250Rx 128).run .idle
        [{ Choice.quiet with arrivals := [syncFrame] }, default, default,
          { Choice.quiet with alloc := some (8, 1) }]).map (fun (_, _, after) =>
          decide (.delivered ⟨8, [rawFrame ⟨0, 6⟩]⟩ ∈ newEvents .idle after)) = some true := by
      decide +kernel
    obtain ⟨⟨choices, result, after⟩, ran, handed⟩ := Option.map_eq_some_iff.mp played
    have returns := returns_of_playSuccess ran
    obtain ⟨frameLen, ready, checking, checked, first, _⟩ :=
      available_event_attached.2 returns (of_decide_eq_true handed)
    exact ⟨choices, result, after, returns, frameLen, ready, checking, checked, first⟩

end Rp2350Stepper.Lan9250
