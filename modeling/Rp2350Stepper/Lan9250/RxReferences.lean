import Rp2350Stepper.Data.Holdings
import Rp2350Stepper.Lan9250.RxRuns

/-!
# The references of the RX timestamp check

Every move keeps the references in step with the slots of `rx_pending` and the keys
of the two tables apart, and so does every run; a call makes room in a table only
when it is full, and drops its oldest entry.
-/

namespace Rp2350Stepper.Lan9250

open Rp2350Stepper.Data Rp2350Stepper.Semantics

/-- What an event does to the references the driver holds. -/
def Event.use : Event → Option (Use PktId)
  | .ref pkt => some (.taken pkt)
  | .unref pkt => some (.givenBack pkt)
  | _ => none

/-- The invariant of the two tables. -/
structure Tables (world : World) : Prop where
  holdings : Holdings Event.use RxPending.pkt world.rxPending world.history
  apart : ∀ slot slot' pending unclaimed, world.rxPending slot = some pending →
    world.rxUnclaimed slot' = some unclaimed → pending.key ≠ unclaimed.key

/-- A quiet event touches no reference. -/
theorem Event.use_of_quiet {event : Event} (quiet : event.quiet = true) : event.use = none := by
  cases event <;> simp_all [Event.quiet, Event.use]

namespace Tables

variable {world next : World}

/-- What is quiet leaves the tables. -/
theorem quiet (tables : Tables world) (same : Quiet world next) : Tables next := by
  obtain ⟨pending, unclaimed, _, later, _, history, _, quiet, _⟩ := same
  constructor
  · rw [pending, history]
    exact tables.holdings.others fun event member => Event.use_of_quiet (quiet event member)
  · rw [pending, unclaimed]
    exact tables.apart

/-- A sweep keeps them in order. -/
theorem sweep (tables : Tables world) (swept : Sweep world next) : Tables next := by
  cases swept with
  | quiet same => exact tables.quiet same
  | expirePending slot entry held due =>
      refine ⟨(tables.holdings.other rfl).release held rfl, ?_⟩
      intro slot' other pending unclaimed kept
      exact tables.apart slot' other pending unclaimed (SlotTable.release_eq_some.mp kept).2
  | expireUnclaimed slot entry held due =>
      refine ⟨tables.holdings.other rfl, ?_⟩
      intro slot' other pending unclaimed here kept
      exact tables.apart slot' other pending unclaimed here (SlotTable.release_eq_some.mp kept).2

theorem sweeps (tables : Tables world) (swept : Sweeps world next) : Tables next := by
  induction swept with
  | refl => exact tables
  | tail _ swept inductionHypothesis => exact inductionHypothesis.sweep swept

variable {pkt : PktId} {key : MsgKey} {stage stage' : Stage}

/-- Every move keeps the tables in order. -/
theorem move (tables : Tables world) (move : Move pkt key (world, stage) (next, stage')) :
    Tables next := by
  cases move with
  | sweep swept => exact tables.sweep swept
  | claim slot entry held matching =>
      refine ⟨(tables.holdings.other rfl).other rfl, ?_⟩
      intro slot' other pending unclaimed here kept
      exact tables.apart slot' other pending unclaimed here (SlotTable.release_eq_some.mp kept).2
  | acknowledge capture rest chip head popped => exact ⟨tables.holdings.other rfl, tables.apart⟩
  | direct capture matching => exact ⟨tables.holdings.other rfl, tables.apart⟩
  | matchPending capture slot entry held matching other =>
      refine ⟨((tables.holdings.other rfl).other rfl).release held rfl, ?_⟩
      intro slot' other pending unclaimed kept
      exact tables.apart slot' other pending unclaimed (SlotTable.release_eq_some.mp kept).2
  | stash capture slot unmatched other room =>
      refine ⟨tables.holdings, ?_⟩
      intro slot' other pending unclaimed here kept
      rcases SlotTable.fill_eq_some.mp kept with ⟨_, rfl⟩ | ⟨_, old⟩
      · exact unmatched slot' pending here
      · exact tables.apart slot' other pending unclaimed here old
  | @park _ parked slot evicted here room eligible fresh unclaimed same =>
      -- The slot is free once the reference of an evicted frame has been given up.
      have freed : ∃ before, Holdings Event.use RxPending.pkt (world.rxPending.release slot)
            before ∧ (evicted.elim world fun entry => world.record (.unref entry.pkt)).history =
            before ∧ (evicted.elim world fun entry => world.record (.unref entry.pkt)).rxPending =
            world.rxPending ∧
          (evicted.elim world fun entry => world.record (.unref entry.pkt)).rxUnclaimed =
            world.rxUnclaimed := by
        cases evicted with
        | none =>
            rw [SlotTable.release_of_none here]
            exact ⟨_, tables.holdings, rfl, rfl, rfl⟩
        | some entry => exact ⟨_, tables.holdings.release here rfl, rfl, rfl, rfl⟩
      obtain ⟨before, released, history, pending, stashed⟩ := freed
      obtain ⟨samePending, sameUnclaimed, _, later, _, grown, _, quiet, _⟩ := same
      let entry : RxPending := ⟨pkt, key, parked.uptime + rxPendingTimeoutMs⟩
      have taken := released.fill (.ref pkt) slot entry (SlotTable.release_self _ _)
        (fun slot' held kept => fresh slot' held (SlotTable.release_eq_some.mp kept).2) rfl
      have settled := taken.others fun event member =>
        Event.use_of_quiet (quiet event member)
      have filled : parked.rxPending = world.rxPending := samePending.trans pending
      constructor
      · rw [SlotTable.fill_release] at settled
        have whole : parked.history = before ++ [.ref pkt] ++ later := by
          rw [grown, ← history]
          rfl
        change Holdings Event.use RxPending.pkt (parked.rxPending.fill slot entry) parked.history
        rw [filled, whole]
        exact settled
      · intro first second waiting unclaimed' inPending inUnclaimed
        have old : world.rxUnclaimed second = some unclaimed' := by
          rw [← stashed]
          exact sameUnclaimed ▸ inUnclaimed
        rcases SlotTable.fill_eq_some.mp inPending with ⟨_, rfl⟩ | ⟨_, kept⟩
        · exact (unclaimed second unclaimed' old).symm
        · exact tables.apart first second waiting unclaimed' (filled ▸ kept) old

/-- Every call keeps them in order. -/
theorem effect (tables : Tables world) {rxCall : RxCall} (effect : rxCall.Effect world next) :
    Tables next := by
  cases rxCall with
  | check pkt pktLen =>
      simp only [RxCall.Effect] at effect
      cases recognized : checkedKey pkt pktLen with
      | none =>
          rw [recognized] at effect
          exact tables.quiet effect
      | some key =>
          rw [recognized] at effect
          obtain ⟨stage, moves, _⟩ := effect.moves
          suffices general : ∀ current, Moves pkt.id key (world, .searching) current →
              Tables current.1 from general _ moves
          intro current moves
          induction moves with
          | refl => exact tables
          | tail _ move inductionHypothesis => exact inductionHypothesis.move move
  | expire => exact tables.sweeps effect.1

end Tables

/-- A call leaves the tables alone or turns their entries over. -/
theorem RxCall.Effect.turnover {rxCall : RxCall} {before after : World}
    (effect : rxCall.Effect before after) :
    (after.rxPending = before.rxPending ∧ after.rxUnclaimed = before.rxUnclaimed) ∨
      ∃ now, Turnover before after now := by
  cases rxCall with
  | check pkt pktLen =>
      simp only [RxCall.Effect] at effect
      cases recognized : checkedKey pkt pktLen with
      | none =>
          rw [recognized] at effect
          exact .inl ⟨effect.rxPending, effect.rxUnclaimed⟩
      | some key =>
          rw [recognized] at effect
          exact .inr effect.turnover
  | expire => exact .inr effect.2

/-- In every run the references are exactly one for each occupied slot of `rx_pending`,
each is taken once and given back once, no key waits in both tables, and an entry makes
room only as the oldest of a full table. -/
theorem references_held {start finish : World} {calls : List (RxCall × List Choice)}
    {events : List (lan9250.Finished RxCall Unit)} (initial : rxCalls.Initial start)
    (run : rxCalls.Run checksFresh start calls events finish) :
    Recorded (Disciplined Event.use) finish.history ∧
    (∀ slot entry, finish.rxPending slot = some entry →
      references Event.use finish.history entry.pkt = 1) ∧
    (∀ pkt, Unparked finish pkt → references Event.use finish.history pkt = 0) ∧
    (∀ slot slot' entry entry', finish.rxPending slot = some entry →
      finish.rxPending slot' = some entry' → entry.pkt = entry'.pkt → slot = slot') ∧
    (∀ pkts : Finset PktId, (∀ pkt ∈ pkts, references Event.use finish.history pkt ≠ 0) →
      pkts.card ≤ rxPendingMax) ∧
    (∀ slot slot' pending unclaimed, finish.rxPending slot = some pending →
      finish.rxUnclaimed slot' = some unclaimed → pending.key ≠ unclaimed.key) ∧
    ∀ event ∈ events, (event.after.rxPending = event.before.rxPending ∧
      event.after.rxUnclaimed = event.before.rxUnclaimed) ∨
        ∃ now, Turnover event.before event.after now := by
  have kept := run.invariant (fun world events => Tables world ∧ ∀ event ∈ events,
    (event.after.rxPending = event.before.rxPending ∧
      event.after.rxUnclaimed = event.before.rxUnclaimed) ∨
        ∃ now, Turnover event.before event.after now) ?_ ?_
  · obtain ⟨⟨holdings, apart⟩, turnovers⟩ := kept
    exact ⟨holdings.disciplined, holdings.held, holdings.unheld, holdings.distinct,
      holdings.card_le, apart, turnovers⟩
  · obtain ⟨pending, unclaimed, history⟩ := initial
    refine ⟨⟨?_, ?_⟩, by simp⟩
    · rw [pending, history]
      exact .empty
    · simp [pending, SlotTable.empty]
  · rintro before earlier choice emitted next ⟨tables, turnovers⟩ fresh step
    obtain ⟨rfl, effect⟩ := rxCalls_step fresh step
    refine ⟨tables.effect effect, ?_⟩
    intro event member
    rcases List.mem_append.mp member with old | new
    · exact turnovers event old
    · rw [List.mem_singleton] at new
      subst new
      exact effect.turnover

/-- A Sync frame nobody times is parked, and its reference is gone after two seconds. -/
theorem parked_frame_expires : ∃ calls events finish,
    rxCalls.Run checksFresh .idle calls events finish ∧ .ref 7 ∈ finish.history ∧
      .logged (.rxPendingExpired ⟨0, 5⟩) ∈ finish.history ∧
      references Event.use finish.history 7 = 0 := by
  let script : List (RxCall × List Choice) :=
    [(.check ⟨7, [rawFrame ⟨0, 5⟩]⟩ 46, []), (.expire, [{ Choice.quiet with elapsed := 2000 }])]
  have played : ((lan9250.playCalls (fun _ _ _ => true) (fun world rxCall => rxCall.Fresh world)
      RxCall.body .idle script).map fun (_, finish) => (decide (Unparked finish 7),
        decide (.ref 7 ∈ finish.history),
        decide (.logged (.rxPendingExpired ⟨0, 5⟩) ∈ finish.history))) =
      some (true, true, true) := by
    decide +kernel
  obtain ⟨⟨events, finish⟩, result, facts⟩ := Option.map_eq_some_iff.mp played
  simp only [Prod.mk.injEq, decide_eq_true_eq] at facts
  obtain ⟨unparked, referenced, expired⟩ := facts
  obtain ⟨calls, run⟩ := rxCalls_of_play result
  exact ⟨calls, events, finish, run, referenced, expired,
    (references_held ⟨rfl, rfl, rfl⟩ run).2.2.1 7 unparked⟩

end Rp2350Stepper.Lan9250
