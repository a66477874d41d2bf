import Rp2350Stepper.Lan9250.RxMoves
import Rp2350Stepper.Lan9250.RxTimestamp

/-!
# The RX timestamp check makes only these moves

Each part of `lan9250_1588_rx_timestamp_check`, in the order of the source, with
what it does to the two tables.
-/

namespace Rp2350Stepper.Lan9250

open Rp2350Stepper.Data Rp2350Stepper.Semantics

/-- The stage after the search for the event of a frame. -/
def Stage.after (attached : Bool) : Stage := if attached then .attached else .searching

/-- What the search for the event of a frame does. -/
structure Drained (pkt : PktId) (key : MsgKey) (world next : World) (attached : Bool) : Prop where
  moves : Moves pkt key (world, .searching) (next, Stage.after attached)
  pending : next.rxPending = world.rxPending ∨ ∃ slot entry time,
    world.rxPending slot = some entry ∧ next.rxPending = world.rxPending.release slot ∧
      .stamped entry.pkt time ∈ newEvents world next
  unclaimed : ∀ slot entry, world.rxUnclaimed slot = some entry →
    next.rxUnclaimed slot = some entry ∨ .stamped pkt entry.time ∈ newEvents world next ∨
      world.rxUnclaimed.Evictable (·.deadline) entry
  stashed : ∀ slot entry, next.rxUnclaimed slot = some entry →
    world.rxUnclaimed slot = some entry ∨
      entry.key ≠ key ∧ entry.inserted ∈ Set.Icc world.uptime next.uptime

/-! ### Turnover -/

/-- How a frame can have left `rx_pending` in a call which swept at a time: its time
was up, it got its timestamp, or it was the oldest in a full table. -/
def PendingLeft (before after : World) (now : Int) (entry : RxPending) : Prop :=
  entry.deadline ≤ now ∨ (∃ time, .stamped entry.pkt time ∈ newEvents before after) ∨
    before.rxPending.Evictable (·.deadline) entry ∧
      ∀ slot held, before.rxPending slot = some held → now < held.deadline

/-- How an event can have left `rx_unclaimed`. -/
def UnclaimedLeft (before after : World) (now : Int) (entry : RxUnclaimed) : Prop :=
  entry.deadline ≤ now ∨ (∃ pkt, .stamped pkt entry.time ∈ newEvents before after) ∨
    before.rxUnclaimed.Evictable (·.deadline) entry ∧
      ∀ slot held, before.rxUnclaimed slot = some held → now < held.deadline

/-- What a call which sweeps at a time does to the tables. -/
structure Turnover (before after : World) (now : Int) : Prop where
  during : now ∈ Set.Icc before.uptime after.uptime
  pendingLeft : ∀ slot entry, before.rxPending slot = some entry →
    after.rxPending slot = some entry ∨ PendingLeft before after now entry
  unclaimedLeft : ∀ slot entry, before.rxUnclaimed slot = some entry →
    after.rxUnclaimed slot = some entry ∨ UnclaimedLeft before after now entry
  pendingHeld : ∀ slot entry, after.rxPending slot = some entry → now < entry.deadline ∧
    (before.rxPending slot = some entry ∨ entry.inserted ∈ Set.Icc before.uptime after.uptime)
  unclaimedHeld : ∀ slot entry, after.rxUnclaimed slot = some entry → now < entry.deadline ∧
    (before.rxUnclaimed slot = some entry ∨ entry.inserted ∈ Set.Icc before.uptime after.uptime)

/-- A loop over all slots comes to each slot once. -/
private theorem unvisited_of_split {size : Nat} {done rest : List (Fin size)} {slot : Fin size}
    (split : List.finRange size = done ++ slot :: rest) : slot ∉ done := by
  have distinct := List.nodup_finRange size
  rw [split, List.nodup_append] at distinct
  exact fun member => distinct.2.2 slot member slot (by simp) rfl

section Calls

variable {guard : lan9250.Guard} (live : Live guard) {world : World}

include live

/-- What one round of the sweep of `rx_pending` does. -/
theorem expirePending_sweeps {now : Int} (slot : Fin rxPendingMax)
    (past : now ≤ world.uptime) :
    lan9250.Completes guard (expirePending now slot) world fun _ next =>
      Sweeps world next ∧ next.uptime = world.uptime ∧
      next.rxUnclaimed = world.rxUnclaimed ∧ next.chip = world.chip ∧
      (∀ other, other ≠ slot → next.rxPending other = world.rxPending other) ∧
      next.rxPending slot = (world.rxPending slot).filter fun entry => now < entry.deadline := by
  unfold expirePending
  rw [Device.completes_bind, completes_loadPending live]
  cases held : world.rxPending slot with
  | none => exact ⟨.refl, rfl, rfl, rfl, fun _ _ => rfl, held⟩
  | some entry =>
      simp only
      by_cases due : entry.deadline ≤ now
      · rw [if_pos due, Device.completes_bind, completes_log live, Device.completes_bind,
          completes_pktUnref live, completes_storePending live]
        refine ⟨.single (.expirePending slot entry held (due.trans past)), rfl, rfl, rfl, ?_, ?_⟩
        · intro other different
          exact world.rxPending.release_of_ne different
        · have late : ¬now < entry.deadline := not_lt.mpr due
          simp [Option.filter, late]
      · rw [if_neg due]
        refine ⟨.refl, rfl, rfl, rfl, fun _ _ => rfl, ?_⟩
        have early : now < entry.deadline := not_le.mp due
        simp [Option.filter, early, held]

/-- What one round of the sweep of `rx_unclaimed` does. -/
theorem expireUnclaimed_sweeps {now : Int} (slot : Fin rxPendingMax)
    (past : now ≤ world.uptime) :
    lan9250.Completes guard (expireUnclaimed now slot) world fun _ next =>
      Sweeps world next ∧ next.uptime = world.uptime ∧
      next.rxPending = world.rxPending ∧ next.chip = world.chip ∧
      (∀ other, other ≠ slot → next.rxUnclaimed other = world.rxUnclaimed other) ∧
      next.rxUnclaimed slot =
        (world.rxUnclaimed slot).filter fun entry => now < entry.deadline := by
  unfold expireUnclaimed
  rw [Device.completes_bind, completes_loadUnclaimed live]
  cases held : world.rxUnclaimed slot with
  | none => exact ⟨.refl, rfl, rfl, rfl, fun _ _ => rfl, held⟩
  | some entry =>
      simp only
      by_cases due : entry.deadline ≤ now
      · rw [if_pos due, Device.completes_bind, completes_log live, completes_storeUnclaimed live]
        refine ⟨.single (.expireUnclaimed slot entry held (due.trans past)), rfl, rfl, rfl, ?_, ?_⟩
        · intro other different
          exact world.rxUnclaimed.release_of_ne different
        · have late : ¬now < entry.deadline := not_lt.mpr due
          simp [Option.filter, late]
      · rw [if_neg due]
        refine ⟨.refl, rfl, rfl, rfl, fun _ _ => rfl, ?_⟩
        have early : now < entry.deadline := not_le.mp due
        simp [Option.filter, early, held]

/-- The sweep removes exactly the entries whose deadline has passed. -/
theorem rxPendingExpire_sweeps {now : Int} (past : now ≤ world.uptime) :
    lan9250.Completes guard (rxPendingExpire now) world fun _ next =>
      Sweeps world next ∧ next.uptime = world.uptime ∧
      next.chip = world.chip ∧
      (∀ slot, next.rxPending slot =
        (world.rxPending slot).filter fun entry => now < entry.deadline) ∧
      ∀ slot, next.rxUnclaimed slot =
        (world.rxUnclaimed slot).filter fun entry => now < entry.deadline := by
  unfold rxPendingExpire
  rw [Device.completes_bind]
  -- After some rounds the slots gone through are swept and the others as before.
  refine (Device.Completes.forM (fun done (next : World) => Sweeps world next ∧
    next.uptime = world.uptime ∧ next.rxUnclaimed = world.rxUnclaimed ∧
    next.chip = world.chip ∧ ∀ slot, next.rxPending slot =
      if slot ∈ done then (world.rxPending slot).filter fun entry => now < entry.deadline
      else world.rxPending slot) ⟨.refl, rfl, rfl, rfl, by simp⟩ ?_).weaken ?_
  · rintro done slot rest current split ⟨sweeps, uptime, unclaimed, chip, swept⟩
    have unvisited := unvisited_of_split split
    apply (expirePending_sweeps live slot (uptime ▸ past)).weaken
    rintro _ next ⟨more, uptime', unclaimed', chip', others, here⟩
    refine ⟨sweeps.trans more, uptime'.trans uptime, unclaimed'.trans unclaimed,
      chip'.trans chip, ?_⟩
    intro other
    by_cases same : other = slot
    · subst same
      simp [here, swept, unvisited]
    · simp [others other same, swept, same]
  rintro _ middle ⟨sweeps, uptime, unclaimed, chip, swept⟩
  refine (Device.Completes.forM (fun done (next : World) => Sweeps world next ∧
    next.uptime = world.uptime ∧ next.rxPending = middle.rxPending ∧
    next.chip = world.chip ∧ ∀ slot, next.rxUnclaimed slot =
      if slot ∈ done then (world.rxUnclaimed slot).filter fun entry => now < entry.deadline
      else world.rxUnclaimed slot) ⟨sweeps, uptime, rfl, chip, by simp [unclaimed]⟩ ?_).weaken ?_
  · rintro done slot rest current split ⟨sweeps, uptime, pending, chip, swept⟩
    have unvisited := unvisited_of_split split
    apply (expireUnclaimed_sweeps live slot (uptime ▸ past)).weaken
    rintro _ next ⟨more, uptime', pending', chip', others, here⟩
    refine ⟨sweeps.trans more, uptime'.trans uptime, pending'.trans pending,
      chip'.trans chip, ?_⟩
    intro other
    by_cases same : other = slot
    · subst same
      simp [here, swept, unvisited]
    · simp [others other same, swept, same]
  rintro _ next ⟨sweeps, uptime, pending, chip, sweptUnclaimed⟩
  refine ⟨sweeps, uptime, chip, ?_, ?_⟩
  · intro slot
    rw [pending, swept, if_pos (List.mem_finRange slot)]
  · intro slot
    rw [sweptUnclaimed, if_pos (List.mem_finRange slot)]

/-- A call begins with the sweep, under the lock and at a time the clock has reached. -/
theorem completes_lockedSweep {Result : Type} {rest : Int → Code Result}
    {post : Result → World → Prop}
    (continues : ∀ now swept, world.uptime ≤ now → now ≤ swept.uptime → Sweeps world swept →
      (∀ slot, swept.rxPending slot =
        (world.rxPending slot).filter fun entry => now < entry.deadline) →
      (∀ slot, swept.rxUnclaimed slot =
        (world.rxUnclaimed slot).filter fun entry => now < entry.deadline) →
      lan9250.Completes guard (rest now) swept post) :
    lan9250.Completes guard (do
        call (.mutexLock .bankLock)
        let now ← call .uptimeGet
        rxPendingExpire now
        rest now) world post := by
  rw [Device.completes_bind, completes_mutexLock live]
  intro locked _
  rw [Device.completes_bind, completes_uptimeGet live]
  intro timed _
  have same := (Quiet.advance world locked).trans (Quiet.advance _ timed)
  generalize ((world.advance locked).advance timed) = current at same ⊢
  rw [Device.completes_bind]
  apply (rxPendingExpire_sweeps live (le_refl current.uptime)).weaken
  rintro _ swept ⟨sweeps, uptime, _, pending, unclaimed⟩
  rw [same.rxPending] at pending
  rw [same.rxUnclaimed] at unclaimed
  exact continues current.uptime swept same.uptime uptime.ge (.head (.quiet same) sweeps) pending
    unclaimed

/-! ### Attaching -/

variable (pkt : PktId) (key : MsgKey)

/-- The search of `rx_unclaimed` attaches an event of this frame, or there is none. -/
theorem attachUnclaimed_moves :
    lan9250.Completes guard (attachUnclaimed pkt key) world fun attached next =>
      Moves pkt key (world, .searching) (next, Stage.after attached) ∧
      next.rxPending = world.rxPending ∧
      (∀ slot entry, next.rxUnclaimed slot = some entry → world.rxUnclaimed slot = some entry) ∧
      (∀ slot entry, world.rxUnclaimed slot = some entry →
        next.rxUnclaimed slot = some entry ∨ .stamped pkt entry.time ∈ newEvents world next) ∧
      (attached = false → next = world ∧
        ∀ slot entry, world.rxUnclaimed slot = some entry → entry.key ≠ key) := by
  unfold attachUnclaimed
  rw [Device.completes_bind, completes_loadUnclaimed live]
  cases found : world.rxUnclaimed.find? fun entry => entry.key == key with
  | none =>
      refine ⟨.refl, rfl, fun _ _ => id, fun _ _ => .inl, fun _ => ⟨rfl, ?_⟩⟩
      intro slot entry held
      simpa using SlotTable.find?_eq_none.mp found slot entry held
  | some hit =>
      obtain ⟨slot, entry⟩ := hit
      obtain ⟨held, matching⟩ := SlotTable.find?_eq_some found
      have own : entry.key = key := by simpa using matching
      simp only
      rw [Device.completes_bind, completes_setTimestamp live, Device.completes_bind,
        completes_log live, Device.completes_bind, completes_storeUnclaimed live,
        Device.completes_pure]
      refine ⟨.single (.claim slot entry held own), rfl, ?_, ?_, by simp⟩
      · intro slot' entry' kept
        exact (SlotTable.release_eq_some.mp kept).2
      · intro slot' entry' here
        by_cases same : slot' = slot
        · subst same
          rw [held, Option.some.injEq] at here
          subst here
          exact .inr (by simp [newEvents, World.record])
        · exact .inl (SlotTable.release_eq_some.mpr ⟨same, here⟩)

/-- The search of `rx_pending` settles the event in hand, or no frame waits for it. -/
theorem attachPending_moves {capture : Capture} (other : capture.key ≠ key) :
    lan9250.Completes guard (attachPending capture.key capture.time) world fun matched next =>
      (matched = true → Moves pkt key (world, .holding capture) (next, .searching) ∧
        next.rxUnclaimed = world.rxUnclaimed ∧
        ∃ slot entry, world.rxPending slot = some entry ∧
          next.rxPending = world.rxPending.release slot ∧
          .stamped entry.pkt capture.time ∈ newEvents world next) ∧
      (matched = false → next = world ∧
        ∀ slot entry, world.rxPending slot = some entry → entry.key ≠ capture.key) := by
  unfold attachPending
  rw [Device.completes_bind, completes_loadPending live]
  cases found : world.rxPending.find? fun entry => entry.key == capture.key with
  | none =>
      refine ⟨by simp, fun _ => ⟨rfl, fun slot entry held => ?_⟩⟩
      simpa using SlotTable.find?_eq_none.mp found slot entry held
  | some hit =>
      obtain ⟨slot, entry⟩ := hit
      obtain ⟨held, matching⟩ := SlotTable.find?_eq_some found
      simp only
      rw [Device.completes_bind, completes_setTimestamp live, Device.completes_bind,
        completes_log live, Device.completes_bind, completes_pktUnref live,
        Device.completes_bind, completes_storePending live, Device.completes_pure]
      refine ⟨fun _ => ⟨.single ?_, rfl, slot, entry, held, rfl, ?_⟩, by simp⟩
      · exact .matchPending capture slot entry held (by simpa using matching) other
      · simp [newEvents, World.record]

/-- A slot for an event is free, or held the oldest one of a full table. -/
theorem unclaimedSlot_spec :
    lan9250.Completes guard (unclaimedSlot world.rxUnclaimed) world fun slot next =>
      Quiet world next ∧ ∀ evicted, world.rxUnclaimed slot = some evicted →
        .logged (.rxUnclaimedEvicted evicted.key) ∈ next.history ∧
        world.rxUnclaimed.Evictable (·.deadline) evicted := by
  unfold unclaimedSlot
  cases free : world.rxUnclaimed.free? with
  | some slot =>
      refine ⟨.refl world, ?_⟩
      intro evicted held
      simp [SlotTable.free?_eq_some free] at held
  | none =>
      obtain ⟨oldest, held, evictable⟩ :=
        SlotTable.oldest_spec (·.deadline) (SlotTable.free?_eq_none.mp free)
      simp only [held]
      rw [Device.completes_bind, completes_log live, Device.completes_pure]
      refine ⟨Quiet.record world rfl, ?_⟩
      intro evicted here
      rw [held, Option.some.injEq] at here
      subst here
      exact ⟨by simp [World.record], evictable⟩

/-- Stashing settles the event in hand. -/
theorem stashUnclaimed_moves {capture : Capture} (other : capture.key ≠ key)
    (unmatched : ∀ slot entry, world.rxPending slot = some entry → entry.key ≠ capture.key) :
    lan9250.Completes guard (stashUnclaimed capture.key capture.time key) world fun _ next =>
      Moves pkt key (world, .holding capture) (next, .searching) ∧
      next.rxPending = world.rxPending ∧
      (∀ slot entry, world.rxUnclaimed slot = some entry → next.rxUnclaimed slot = some entry ∨
        world.rxUnclaimed.Evictable (·.deadline) entry) ∧
      ∀ slot entry, next.rxUnclaimed slot = some entry → world.rxUnclaimed slot = some entry ∨
        entry.key ≠ key ∧ entry.inserted ∈ Set.Icc world.uptime next.uptime := by
  unfold stashUnclaimed
  rw [Device.completes_bind, completes_loadUnclaimed live, Device.completes_bind]
  apply (unclaimedSlot_spec live).weaken
  rintro slot chosen ⟨same, room⟩
  rw [Device.completes_bind, completes_uptimeGet live]
  intro choice _
  rw [Device.completes_bind, completes_storeUnclaimed live, completes_log live]
  have timed := Quiet.advance chosen choice
  have all := same.trans timed
  obtain ⟨later, _, history, _⟩ := timed.grows
  refine ⟨?_, all.rxPending, ?_, ?_⟩
  · rw [← all.rxUnclaimed]
    refine ((Moves.quiet all).tail (.stash capture slot ?_ other ?_)).tail
      (.sweep (.quiet (Quiet.record _ rfl)))
    · rw [all.rxPending]
      exact unmatched
    · rw [all.rxUnclaimed]
      intro evicted held
      rw [history]
      exact List.mem_append_left _ (room evicted held).1
  · exact fun _ _ => SlotTable.fill_or fun entry held => (room entry held).2
  · intro slot' entry held
    rcases SlotTable.fill_eq_some.mp held with ⟨_, rfl⟩ | ⟨_, kept⟩
    · rw [RxUnclaimed.inserted, Int.add_sub_cancel]
      exact .inr ⟨other, all.uptime, le_refl _⟩
    · exact .inl kept

/-! ### The hardware queue -/

/-- What is read of the event at the head is its key and its timestamp. -/
theorem readIngress_spec {capture : Capture} {rest : List Capture}
    (selected : world.chip.bank = bankSelPortRx)
    (head : world.chip.rxCaptures.items = capture :: rest) :
    lan9250.Completes guard readIngress.run world fun result next =>
      Quiet world next ∧ (∃ rest, next.chip.rxCaptures.items = capture :: rest) ∧
      ∀ value, result = .ok value → value = (capture.key, capture.time) := by
  unfold readIngress
  rw [Device.completes_run_bind]
  apply (readBanked_spec live (fun _ _ => Chip.read_rxMsgHeader) selected head).weaken
  rintro (error | msgHeader) first ⟨same, bank, ⟨rest, here⟩, shown⟩
  · exact ⟨same, ⟨rest, here⟩, by simp⟩
  simp only
  rw [Device.completes_run_bind]
  apply (readBanked_spec live (fun _ _ => Chip.read_rxIngressSec) bank here).weaken
  rintro (error | sec) second ⟨same', bank', ⟨rest', here'⟩, shown'⟩
  · exact ⟨same.trans same', ⟨rest', here'⟩, by simp⟩
  simp only
  rw [Device.completes_run_bind]
  apply (readBanked_spec live (fun _ _ => Chip.read_rxIngressNs) bank' here').weaken
  rintro (error | ns) third ⟨sameRx, _, hereNs, shownNs⟩
  · exact ⟨(same.trans same').trans sameRx, hereNs, by simp⟩
  refine ⟨(same.trans same').trans sameRx, hereNs, ?_⟩
  intro value returned
  have whole : value = (msgHeaderKey msgHeader, ⟨sec, ns⟩) := by simpa using returned.symm
  rw [whole, shown msgHeader rfl, shown' sec rfl, shownNs ns rfl]
  rfl

/-- Acknowledging takes the event at the head in hand. -/
theorem acknowledge_moves {capture : Capture} {rest : List Capture}
    (head : world.chip.rxCaptures.items = capture :: rest) :
    lan9250.Completes guard (writeSysReg ieee1588IntSts intStsRxTsInt).run world fun _ next =>
      Moves pkt key (world, .searching) (next, .holding capture) ∧
      next.rxPending = world.rxPending ∧ next.rxUnclaimed = world.rxUnclaimed := by
  rw [completes_writeSysReg live]
  intro choice _
  have timed := Quiet.advance world choice
  obtain ⟨rest, here⟩ := timed.head head
  have noted : (world.advance choice).noteWrite ieee1588IntSts intStsRxTsInt =
      (world.advance choice).record (.acknowledged capture) := by
    simp [World.noteWrite, here, intStsRxTsInt]
  have popped : (((world.advance choice).record (.acknowledged capture)).chip.write
      ieee1588IntSts intStsRxTsInt).rxCaptures.items = rest := by
    simp [Chip.write, Chip.dropOldest_items, World.record, here, ieee1588IntSts,
      bankPortGpioSel, intStsRxTsInt]
  have step (chip : Chip)
      (queue : chip.rxCaptures.items = rest ∨ chip.rxCaptures.items = capture :: rest) :
      Moves pkt key (world, .searching)
        ({ (world.advance choice).record (.acknowledged capture) with chip := chip },
          .holding capture) :=
    (Moves.quiet timed).tail (.acknowledge capture rest chip here queue)
  unfold World.writeSysReg
  rw [noted]
  cases choice.outcome with
  | ok => exact ⟨step _ (.inl popped), timed.rxPending, timed.rxUnclaimed⟩
  | failed applied error =>
      cases applied with
      | true => exact ⟨step _ (.inl popped), timed.rxPending, timed.rxUnclaimed⟩
      | false => exact ⟨step _ (.inr here), timed.rxPending, timed.rxUnclaimed⟩

omit live in
/-- Nothing is drained while all is quiet. -/
theorem Drained.of_quiet {next : World} (same : Quiet world next) :
    Drained pkt key world next false where
  moves := .quiet same
  pending := .inl same.rxPending
  unclaimed _ _ held := .inl (same.rxUnclaimed ▸ held)
  stashed _ _ held := .inl (same.rxUnclaimed ▸ held)

omit live in
/-- What is quiet may come before. -/
theorem Drained.after_quiet {middle next : World} {attached : Bool} (same : Quiet world middle)
    (drained : Drained pkt key middle next attached) : Drained pkt key world next attached where
  moves := (Moves.quiet same).trans drained.moves
  pending := by
    rcases drained.pending with kept | ⟨slot, entry, time, held, released, stamped⟩
    · exact .inl (kept.trans same.rxPending)
    · rw [same.rxPending] at held released
      exact .inr ⟨slot, entry, time, held, released, (Onward.of_quiet same).newEvents_subset stamped⟩
  unclaimed slot entry held := by
    rw [← same.rxUnclaimed] at held
    rcases drained.unclaimed slot entry held with kept | stamped | evictable
    · exact .inl kept
    · exact .inr (.inl ((Onward.of_quiet same).newEvents_subset stamped))
    · exact .inr (.inr (same.rxUnclaimed ▸ evictable))
  stashed slot entry held := by
    rcases drained.stashed slot entry held with kept | ⟨other, inserted⟩
    · exact .inl (same.rxUnclaimed ▸ kept)
    · exact .inr ⟨other, same.uptime.trans inserted.1, inserted.2⟩

/-- The event in hand goes to this frame, to a pending one, or is stashed. -/
theorem settleIngress_moves (capture : Capture) {taken : World}
    (moves : Moves pkt key (world, .searching) (taken, .holding capture))
    (pending : taken.rxPending = world.rxPending)
    (unclaimed : taken.rxUnclaimed = world.rxUnclaimed) :
    lan9250.Completes guard (settleIngress pkt key capture.key capture.time) taken
      fun attached next => Drained pkt key world next attached := by
  unfold settleIngress
  by_cases own : capture.key = key
  · rw [if_pos own, Device.completes_bind, completes_setTimestamp live, Device.completes_bind,
      completes_log live, Device.completes_pure]
    exact ⟨(moves.tail (.direct capture own)).tail (.sweep (.quiet (Quiet.record _ rfl))),
      .inl pending,
      fun _ _ held => .inl (unclaimed ▸ held), fun _ _ held => .inl (unclaimed ▸ held)⟩
  rw [if_neg own, Device.completes_bind]
  apply (attachPending_moves live pkt key own).weaken
  rintro matched settled ⟨found, unmatched⟩
  cases matched with
  | true =>
      simp only [Bool.not_true, Bool.false_eq_true, if_false]
      rw [Device.completes_pure]
      obtain ⟨more, same, slot, entry, held, released, stamped⟩ := found rfl
      rw [pending] at held released
      refine ⟨moves.trans more, .inr ⟨slot, entry, capture.time, held, released,
        moves.onward.newEvents_subset stamped⟩, ?_, ?_⟩
      · intro slot entry here
        exact .inl (by rw [same, unclaimed, here])
      · intro slot entry here
        exact .inl (by rw [← unclaimed, ← same, here])
  | false =>
      obtain ⟨rfl, waiting⟩ := unmatched rfl
      simp only [Bool.not_false, if_true]
      rw [Device.completes_bind]
      apply (stashUnclaimed_moves live pkt key own waiting).weaken
      rintro _ next ⟨more, same, kept, stashed⟩
      rw [unclaimed] at kept stashed
      refine ⟨moves.trans more, .inl (same.trans pending), ?_, ?_⟩
      · exact fun slot entry here => (kept slot entry here).imp id .inr
      intro slot entry here
      rcases stashed slot entry here with old | ⟨other, inserted⟩
      · exact .inl old
      · exact .inr ⟨other, moves.onward.uptime.trans inserted.1, inserted.2⟩

/-- Draining one event. -/
theorem drainIngress_moves :
    lan9250.Completes guard (drainIngress pkt key) world fun attached next =>
      Drained pkt key world next attached := by
  unfold drainIngress
  rw [Device.completes_bind]
  apply (bankSelect_spec live bankSelPortGeneral).weaken
  rintro (error | done) general ⟨same, selected⟩
  · simp only
    rw [Device.completes_bind, completes_log live, Device.completes_pure]
    exact .of_quiet pkt key (same.trans (Quiet.record _ rfl))
  simp only
  rw [Device.completes_bind]
  apply (readCapInfo_spec live (selected done rfl)).weaken
  rintro (error | info) counted ⟨same', queued⟩
  · simp only
    rw [Device.completes_bind, completes_log live, Device.completes_pure]
    exact .of_quiet pkt key ((same.trans same').trans (Quiet.record _ rfl))
  simp only
  by_cases ready : info &&& capInfoRxTsCntMask = 0
  · rw [if_pos ready]
    exact .of_quiet pkt key (same.trans same')
  rw [if_neg ready]
  obtain ⟨capture, rest, head⟩ := queued info rfl ready
  rw [Device.completes_bind]
  apply (bankSelect_spec live bankSelPortRx).weaken
  rintro (error | done') rx ⟨sameRx, selected'⟩
  · exact .of_quiet pkt key ((same.trans same').trans sameRx)
  obtain ⟨rest', head'⟩ := sameRx.head head
  simp only
  rw [Device.completes_bind]
  apply (readIngress_spec live (selected' done' rfl) head').weaken
  rintro (error | value) shown ⟨sameRead, ⟨restRead, headRead⟩, read⟩
  · exact .of_quiet pkt key (((same.trans same').trans sameRx).trans sameRead)
  have all := ((same.trans same').trans sameRx).trans sameRead
  rw [read value rfl]
  simp only
  rw [Device.completes_bind]
  apply (acknowledge_moves live pkt key headRead).weaken
  rintro result taken ⟨moves, pending, unclaimed⟩
  exact (settleIngress_moves live pkt key capture moves pending unclaimed).weaken
    fun _ _ drained => drained.after_quiet pkt key all

/-- Everything up to the label `queue`. -/
theorem attachEvent_moves :
    lan9250.Completes guard (attachEvent pkt key) world fun attached next =>
      Drained pkt key world next attached ∧ (attached = false →
        ∀ slot entry, next.rxUnclaimed slot = some entry → entry.key ≠ key) := by
  unfold attachEvent
  rw [Device.completes_bind]
  apply (attachUnclaimed_moves live pkt key).weaken
  rintro attached middle ⟨moves, pending, kept, left, unattached⟩
  cases attached with
  | true =>
      simp only [if_true]
      rw [Device.completes_pure]
      exact ⟨⟨moves, .inl pending, fun slot entry held => (left slot entry held).imp id .inl,
        fun slot entry held => .inl (kept slot entry held)⟩, by simp⟩
  | false =>
      obtain ⟨rfl, unclaimed⟩ := unattached rfl
      simp only [Bool.false_eq_true, if_false]
      apply (drainIngress_moves live pkt key).weaken
      intro attached next drained
      refine ⟨drained, ?_⟩
      intro _ slot entry held
      rcases drained.stashed slot entry held with old | ⟨other, _⟩
      · exact unclaimed slot entry old
      · exact other

/-! ### Queueing -/

/-- A slot for a frame is free, or held the oldest one of a full table, whose reference
is given up. -/
theorem pendingSlot_spec :
    lan9250.Completes guard (pendingSlot world.rxPending) world fun slot next =>
      ∃ logged, Quiet world logged ∧
        next = (world.rxPending slot).elim logged (fun entry => logged.record (.unref entry.pkt)) ∧
        ∀ evicted, world.rxPending slot = some evicted →
          .logged (.rxPendingEvicted evicted.key) ∈ logged.history ∧
          world.rxPending.Evictable (·.deadline) evicted := by
  unfold pendingSlot
  cases free : world.rxPending.free? with
  | some slot =>
      have empty := SlotTable.free?_eq_some free
      refine ⟨world, .refl world, by rw [empty, Option.elim_none], ?_⟩
      intro evicted held
      simp [empty] at held
  | none =>
      obtain ⟨oldest, held, evictable⟩ :=
        SlotTable.oldest_spec (·.deadline) (SlotTable.free?_eq_none.mp free)
      simp only [held]
      rw [Device.completes_bind, completes_log live, Device.completes_bind,
        completes_pktUnref live, Device.completes_pure]
      refine ⟨_, Quiet.record world rfl, by rw [held, Option.elim_some], ?_⟩
      intro evicted here
      rw [held, Option.some.injEq] at here
      subst here
      exact ⟨by simp [World.record], evictable⟩

/-- Queueing parks the frame. -/
theorem queuePending_moves (eligible : msgTypeIsTimestamped key.msgType = true)
    (fresh : ∀ slot entry, world.rxPending slot = some entry → entry.pkt ≠ pkt)
    (unclaimed : ∀ slot entry, world.rxUnclaimed slot = some entry → entry.key ≠ key) :
    lan9250.Completes guard (queuePending pkt key) world fun _ next =>
      Moves pkt key (world, .searching) (next, .queued) ∧
      next.rxUnclaimed = world.rxUnclaimed ∧
      (∀ slot entry, world.rxPending slot = some entry → next.rxPending slot = some entry ∨
        world.rxPending.Evictable (·.deadline) entry) ∧
      ∀ slot entry, next.rxPending slot = some entry → world.rxPending slot = some entry ∨
        entry.inserted ∈ Set.Icc world.uptime next.uptime := by
  unfold queuePending
  rw [Device.completes_bind, completes_loadPending live, Device.completes_bind]
  apply (pendingSlot_spec live).weaken
  rintro slot _ ⟨logged, same, rfl, room⟩
  rw [Device.completes_bind, completes_pktRef live, Device.completes_bind,
    completes_uptimeGet live]
  intro choice _
  rw [Device.completes_bind, completes_storePending live, completes_log live]
  -- Giving up the reference of an evicted frame changes no table.
  have freed : ∀ here : Option RxPending, Onward logged
      (here.elim logged fun entry => logged.record (.unref entry.pkt)) ∧
      (here.elim logged fun entry => logged.record (.unref entry.pkt)).rxPending =
        logged.rxPending ∧
      (here.elim logged fun entry => logged.record (.unref entry.pkt)).rxUnclaimed =
        logged.rxUnclaimed := by
    rintro (_ | entry)
    · exact ⟨.refl logged, rfl, rfl⟩
    · exact ⟨.record logged _, rfl, rfl⟩
  obtain ⟨onward, pending, unclaimed'⟩ := freed (world.rxPending slot)
  have timed := Quiet.advance (((world.rxPending slot).elim logged fun entry =>
    logged.record (.unref entry.pkt)).record (.ref pkt)) choice
  generalize (((world.rxPending slot).elim logged fun entry =>
    logged.record (.unref entry.pkt)).record (.ref pkt)).advance choice = current at timed ⊢
  have later := (((Onward.of_quiet same).trans onward).trans (.record _ (.ref pkt))).trans
    (.of_quiet timed)
  have table := timed.rxPending.trans (pending.trans same.rxPending)
  have stashed := timed.rxUnclaimed.trans (unclaimed'.trans same.rxUnclaimed)
  refine ⟨?_, stashed, ?_, ?_⟩
  · rw [← table]
    refine ((Moves.quiet same).tail (.park slot (world.rxPending slot) (by rw [same.rxPending])
      (fun entry held => (room entry held).1) eligible ?_ ?_ timed)).tail
      (.sweep (.quiet (Quiet.record _ rfl)))
    · rw [same.rxPending]
      exact fresh
    · rw [same.rxUnclaimed]
      exact unclaimed
  · exact fun _ _ => SlotTable.fill_or fun entry held => (room entry held).2
  · intro slot' entry held
    rcases SlotTable.fill_eq_some.mp held with ⟨_, rfl⟩ | ⟨_, kept⟩
    · rw [RxPending.inserted, Int.add_sub_cancel]
      exact .inr ⟨later.uptime, le_refl _⟩
    · exact .inl kept

/-! ### Whole calls -/

omit live in
/-- A sweep is a turnover. -/
theorem turnover_of_sweep {now : Int} {swept : World} (past : world.uptime ≤ now)
    (ended : now ≤ swept.uptime)
    (pending : ∀ slot, swept.rxPending slot =
      (world.rxPending slot).filter fun entry => now < entry.deadline)
    (unclaimed : ∀ slot, swept.rxUnclaimed slot =
      (world.rxUnclaimed slot).filter fun entry => now < entry.deadline) :
    Turnover world swept now := by
  refine ⟨⟨past, ended⟩, ?_, ?_, ?_, ?_⟩
  · intro slot entry held
    rw [pending, held]
    by_cases due : entry.deadline ≤ now
    · exact .inr (.inl due)
    · exact .inl (by simp [Option.filter, not_le.mp due])
  · intro slot entry held
    rw [unclaimed, held]
    by_cases due : entry.deadline ≤ now
    · exact .inr (.inl due)
    · exact .inl (by simp [Option.filter, not_le.mp due])
  · intro slot entry held
    rw [pending, Option.filter_eq_some_iff] at held
    exact ⟨by simpa using held.2, .inl held.1⟩
  · intro slot entry held
    rw [unclaimed, Option.filter_eq_some_iff] at held
    exact ⟨by simpa using held.2, .inl held.1⟩

omit live in
/-- A sweep, the search for an event and a possible queueing add up to a turnover. -/
theorem turnover_of_parts (next : World) {now : Int} {swept drained : World} {attached : Bool}
    (past : world.uptime ≤ now) (ended : now ≤ swept.uptime) (sweeping : Onward world swept)
    (pending : ∀ slot, swept.rxPending slot =
      (world.rxPending slot).filter fun entry => now < entry.deadline)
    (unclaimed : ∀ slot, swept.rxUnclaimed slot =
      (world.rxUnclaimed slot).filter fun entry => now < entry.deadline)
    (search : Drained pkt key swept drained attached) (queueing : Onward drained next)
    (untouched : next.rxUnclaimed = drained.rxUnclaimed)
    (kept : ∀ slot entry, drained.rxPending slot = some entry → next.rxPending slot = some entry ∨
      drained.rxPending.Evictable (·.deadline) entry)
    (held : ∀ slot entry, next.rxPending slot = some entry →
      drained.rxPending slot = some entry ∨ entry.inserted ∈ Set.Icc drained.uptime next.uptime) :
    Turnover world next now := by
  have searching := search.moves.onward
  have whole := (sweeping.trans searching).trans queueing
  have new : newEvents swept drained ⊆ newEvents world next := fun event member =>
    (sweeping.trans searching).subset_newEvents queueing (sweeping.newEvents_subset member)
  have finished := ended.trans searching.uptime
  refine ⟨⟨past, finished.trans queueing.uptime⟩, ?_, ?_, ?_, ?_⟩
  · intro slot entry here
    by_cases due : entry.deadline ≤ now
    · exact .inr (.inl due)
    have survives : swept.rxPending slot = some entry := by
      rw [pending, here]
      simp [Option.filter, not_le.mp due]
    rcases search.pending with same | ⟨slot', match', time, matched, released, stamped⟩
    · rw [same] at kept
      rcases kept slot entry survives with still | evictable
      · exact .inl still
      · have full := evictable.of_filter pending
        exact .inr (.inr (.inr ⟨full.1, fun slot held here => by simpa using full.2 slot held here⟩))
    · by_cases this : slot = slot'
      · subst this
        rw [survives, Option.some.injEq] at matched
        subst matched
        exact .inr (.inr (.inl ⟨time, new stamped⟩))
      · rcases kept slot entry (by rw [released]; exact SlotTable.release_eq_some.mpr ⟨this, survives⟩)
          with still | evictable
        · exact .inl still
        · obtain ⟨free, taken⟩ := evictable.1 slot'
          simp [released] at taken
  · intro slot entry here
    by_cases due : entry.deadline ≤ now
    · exact .inr (.inl due)
    have survives : swept.rxUnclaimed slot = some entry := by
      rw [unclaimed, here]
      simp [Option.filter, not_le.mp due]
    rw [untouched]
    rcases search.unclaimed slot entry survives with still | stamped | evictable
    · exact .inl still
    · exact .inr (.inr (.inl ⟨pkt, new stamped⟩))
    · have full := evictable.of_filter unclaimed
      exact .inr (.inr (.inr ⟨full.1, fun slot held here => by simpa using full.2 slot held here⟩))
  · intro slot entry here
    rcases held slot entry here with old | inserted
    · have survived : swept.rxPending slot = some entry := by
        rcases search.pending with same | ⟨slot', match', time, _, released, _⟩
        · rw [← same, old]
        · rw [released] at old
          exact (SlotTable.release_eq_some.mp old).2
      rw [pending, Option.filter_eq_some_iff] at survived
      exact ⟨by simpa using survived.2, .inl survived.1⟩
    · have started := finished.trans inserted.1
      have young : now < entry.deadline := by
        rw [RxPending.inserted, rxPendingTimeoutMs] at started
        omega
      exact ⟨young, .inr ⟨past.trans started, inserted.2⟩⟩
  · intro slot entry here
    rw [untouched] at here
    rcases search.stashed slot entry here with old | ⟨_, inserted⟩
    · rw [unclaimed, Option.filter_eq_some_iff] at old
      exact ⟨by simpa using old.2, .inl old.1⟩
    · have started := ended.trans inserted.1
      have young : now < entry.deadline := by
        rw [RxUnclaimed.inserted, rxPendingTimeoutMs] at started
        omega
      exact ⟨young, .inr ⟨past.trans started, inserted.2.trans queueing.uptime⟩⟩

/-- A call on a frame the driver recognizes: the sweep, then the moves which find the tables
swept. -/
theorem rxTimestampMatch_parts
    (fresh : ∀ slot entry, world.rxPending slot = some entry → entry.pkt ≠ pkt) :
    lan9250.Completes guard (rxTimestampMatch pkt key) world fun _ next =>
      ∃ swept now stage, Sweeps world swept ∧
        (∀ slot, swept.rxPending slot =
          (world.rxPending slot).filter fun entry => now < entry.deadline) ∧
        (∀ slot, swept.rxUnclaimed slot =
          (world.rxUnclaimed slot).filter fun entry => now < entry.deadline) ∧
        Moves pkt key (swept, .searching) (next, stage) ∧
        (stage = .searching ∧ msgTypeIsTimestamped key.msgType = false ∨ stage = .attached ∨
          stage = .queued) ∧
        Turnover world next now := by
  unfold rxTimestampMatch
  apply completes_lockedSweep live
  intro now swept past ended sweeps pending unclaimed
  have before : Moves pkt key (world, .searching) (swept, .searching) := Moves.of_sweeps sweeps
  rw [Device.completes_bind]
  apply (attachEvent_moves live pkt key).weaken
  rintro attached drained ⟨search, unmatched⟩
  have parts := fun next => turnover_of_parts pkt key next past ended
    (Moves.onward before) pending unclaimed search
  by_cases queueing : attached = false ∧ msgTypeIsTimestamped key.msgType = true
  · obtain ⟨rfl, eligible⟩ := queueing
    simp only [eligible, Bool.not_false, Bool.and_self, if_true]
    rw [Device.completes_bind]
    refine (queuePending_moves live pkt key eligible ?_ (unmatched rfl)).weaken ?_
    · intro slot entry held
      apply fresh slot entry
      have survived : swept.rxPending slot = some entry := by
        rcases search.pending with kept | ⟨slot', _, _, _, released, _⟩
        · rw [← kept, held]
        · rw [released] at held
          exact (SlotTable.release_eq_some.mp held).2
      rw [pending, Option.filter_eq_some_iff] at survived
      exact survived.1
    · rintro _ next ⟨parking, untouched, kept, held⟩
      rw [completes_mutexUnlock live]
      exact ⟨swept, now, .queued, sweeps, pending, unclaimed, search.moves.trans parking,
        .inr (.inr rfl), parts next (Moves.onward parking) untouched kept held⟩
  · have skipped : (!attached && msgTypeIsTimestamped key.msgType) = false := by
      simpa using queueing
    simp only [skipped, Bool.false_eq_true, if_false]
    rw [completes_mutexUnlock live]
    refine ⟨swept, now, Stage.after attached, sweeps, pending, unclaimed, search.moves, ?_,
      parts drained (.refl drained) rfl (fun _ _ => .inl) (fun _ _ => .inl)⟩
    cases attached with
    | true => exact .inr (.inl rfl)
    | false => exact .inl ⟨rfl, by simpa using queueing⟩

/-- The whole call consists of moves, and turns the tables over. -/
theorem rxTimestampMatch_moves
    (fresh : ∀ slot entry, world.rxPending slot = some entry → entry.pkt ≠ pkt) :
    lan9250.Completes guard (rxTimestampMatch pkt key) world fun _ next =>
      (∃ stage, Moves pkt key (world, .searching) (next, stage) ∧
        (stage = .searching ∧ msgTypeIsTimestamped key.msgType = false ∨ stage = .attached ∨
          stage = .queued)) ∧
      ∃ now, Turnover world next now := by
  apply (rxTimestampMatch_parts live pkt key fresh).weaken
  rintro _ next ⟨swept, now, stage, sweeps, _, _, moves, ended, turnover⟩
  exact ⟨⟨stage, (Moves.of_sweeps sweeps).trans moves, ended⟩, now, turnover⟩

end Calls
end Rp2350Stepper.Lan9250
