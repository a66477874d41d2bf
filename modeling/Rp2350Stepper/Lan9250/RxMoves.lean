import Mathlib
import Rp2350Stepper.Lan9250.Captures
import Rp2350Stepper.Lan9250.Ptp

/-!
# What a call of the RX timestamp check can do

`Move` lists the atomic changes `lan9250_1588_rx_timestamp_check` makes to its
tables, its references and the hardware queue, each with the circumstances it
happens in; everything else it does is quiet. What holds of all runs is proved of
the moves.
-/

namespace Rp2350Stepper.Lan9250

open Rp2350Stepper.Data Rp2350Stepper.Semantics

/-- How far a check has come with its frame. -/
inductive Stage where
  /-- Neither attached nor queued, and no event in hand. -/
  | searching
  /-- An event has been acknowledged and is not settled yet. -/
  | holding (capture : Capture)
  | attached
  | queued

/-- What a sweep does, and what may happen at any time. -/
inductive Sweep : World → World → Prop where
  | quiet {world next : World} (same : Quiet world next) : Sweep world next
  | expirePending {world : World} (slot : Fin rxPendingMax) (entry : RxPending)
      (held : world.rxPending slot = some entry) (due : entry.deadline ≤ world.uptime) :
      Sweep world
        { (world.record (.logged (.rxPendingExpired entry.key))).record (.unref entry.pkt) with
          rxPending := world.rxPending.release slot }
  | expireUnclaimed {world : World} (slot : Fin rxPendingMax) (entry : RxUnclaimed)
      (held : world.rxUnclaimed slot = some entry) (due : entry.deadline ≤ world.uptime) :
      Sweep world
        { world.record (.logged (.rxUnclaimedExpired entry.key)) with
          rxUnclaimed := world.rxUnclaimed.release slot }

/-- Any number of them. -/
abbrev Sweeps : World → World → Prop := Relation.ReflTransGen Sweep

/-- The atomic changes a check of one frame makes. -/
inductive Move (pkt : PktId) (key : MsgKey) : World × Stage → World × Stage → Prop where
  | sweep {world next : World} {stage : Stage} (swept : Sweep world next) :
      Move pkt key (world, stage) (next, stage)
  | claim {world : World} (slot : Fin rxPendingMax) (entry : RxUnclaimed)
      (held : world.rxUnclaimed slot = some entry) (matching : entry.key = key) :
      Move pkt key (world, .searching)
        ({ (world.record (.stamped pkt entry.time)).record
            (.logged (.rxMatchedUnclaimed entry.key entry.time)) with
          rxUnclaimed := world.rxUnclaimed.release slot }, .attached)
  | acknowledge {world : World} (capture : Capture) (rest : List Capture) (chip : Chip)
      (head : world.chip.rxCaptures.items = capture :: rest)
      (popped : chip.rxCaptures.items = rest ∨ chip.rxCaptures.items = capture :: rest) :
      Move pkt key (world, .searching)
        ({ world.record (.acknowledged capture) with chip := chip }, .holding capture)
  | direct {world : World} (capture : Capture) (matching : capture.key = key) :
      Move pkt key (world, .holding capture)
        (world.record (.stamped pkt capture.time), .attached)
  | matchPending {world : World} (capture : Capture) (slot : Fin rxPendingMax)
      (entry : RxPending) (held : world.rxPending slot = some entry)
      (matching : entry.key = capture.key) (other : capture.key ≠ key) :
      Move pkt key (world, .holding capture)
        ({ ((world.record (.stamped entry.pkt capture.time)).record
            (.logged (.rxMatchedPending capture.key capture.time))).record (.unref entry.pkt) with
          rxPending := world.rxPending.release slot }, .searching)
  | stash {world : World} (capture : Capture) (slot : Fin rxPendingMax)
      (unmatched : ∀ slot entry, world.rxPending slot = some entry → entry.key ≠ capture.key)
      (other : capture.key ≠ key)
      (room : ∀ evicted, world.rxUnclaimed slot = some evicted →
        .logged (.rxUnclaimedEvicted evicted.key) ∈ world.history) :
      Move pkt key (world, .holding capture)
        ({ world with
          rxUnclaimed := world.rxUnclaimed.fill slot
            ⟨capture.key, capture.time, world.uptime + rxPendingTimeoutMs⟩ }, .searching)
  | park {world next : World} (slot : Fin rxPendingMax) (evicted : Option RxPending)
      (here : world.rxPending slot = evicted)
      (room : ∀ entry, evicted = some entry →
        .logged (.rxPendingEvicted entry.key) ∈ world.history)
      (eligible : msgTypeIsTimestamped key.msgType = true)
      (fresh : ∀ slot entry, world.rxPending slot = some entry → entry.pkt ≠ pkt)
      (unclaimed : ∀ slot entry, world.rxUnclaimed slot = some entry → entry.key ≠ key)
      (same : Quiet ((evicted.elim world fun entry => world.record (.unref entry.pkt)).record
        (.ref pkt)) next) :
      Move pkt key (world, .searching)
        ({ next with
          rxPending := next.rxPending.fill slot
            ⟨pkt, key, next.uptime + rxPendingTimeoutMs⟩ }, .queued)

/-- When an entry has been put into its slot. -/
def RxPending.inserted (entry : RxPending) : Int := entry.deadline - rxPendingTimeoutMs

/-- When a stashed event has been stashed. -/
def RxUnclaimed.inserted (entry : RxUnclaimed) : Int := entry.deadline - rxPendingTimeoutMs

/-- Any number of moves. -/
abbrev Moves (pkt : PktId) (key : MsgKey) : World × Stage → World × Stage → Prop :=
  Relation.ReflTransGen (Move pkt key)

namespace Onward

/-- What has been recorded since the middle has been recorded since the start. -/
theorem newEvents_subset {first second third : World} (before : Onward first second) :
    newEvents second third ⊆ newEvents first third := by
  obtain ⟨later, history⟩ := before.history
  intro event member
  rw [newEvents, ← history, List.length_append, ← List.drop_drop] at member
  exact List.mem_of_mem_drop member

/-- Nor is it lost later. -/
theorem subset_newEvents {first second third : World} (before : Onward first second)
    (after : Onward second third) : newEvents first second ⊆ newEvents first third := by
  obtain ⟨later, history⟩ := before.history
  obtain ⟨later', history'⟩ := after.history
  simp only [newEvents, ← history', ← history, List.append_assoc, List.drop_left]
  exact List.subset_append_left _ _

end Onward

/-- A sweep goes on. -/
theorem Sweep.onward {world next : World} (sweep : Sweep world next) : Onward world next := by
  cases sweep with
  | quiet same => exact .of_quiet same
  | expirePending =>
      exact (Onward.record world _).trans ⟨le_refl _, List.prefix_append _ _⟩
  | expireUnclaimed => exact ⟨le_refl _, List.prefix_append _ _⟩

/-- Every move goes onward. -/
theorem Move.onward {pkt : PktId} {key : MsgKey} {world next : World} {stage stage' : Stage}
    (move : Move pkt key (world, stage) (next, stage')) : Onward world next := by
  cases move with
  | sweep swept => exact swept.onward
  | claim => exact (Onward.record world _).trans ⟨le_refl _, List.prefix_append _ _⟩
  | acknowledge => exact ⟨le_refl _, List.prefix_append _ _⟩
  | direct => exact Onward.record world _
  | matchPending =>
      exact ((Onward.record world _).trans (Onward.record _ _)).trans
        ⟨le_refl _, List.prefix_append _ _⟩
  | stash => exact ⟨le_refl _, List.prefix_rfl⟩
  | park slot evicted here room eligible fresh unclaimed same =>
      have freed : Onward world (evicted.elim world fun entry => world.record (.unref entry.pkt)) := by
        cases evicted with
        | none => exact Onward.refl world
        | some entry => exact Onward.record world _
      have parked := (freed.trans (Onward.record _ (.ref pkt))).trans (.of_quiet same)
      exact ⟨parked.uptime, parked.history⟩

namespace Moves

variable {pkt : PktId} {key : MsgKey} {stage : Stage}

/-- What is quiet is a move. -/
theorem quiet {world next : World} (same : Quiet world next) :
    Moves pkt key (world, stage) (next, stage) :=
  .single (.sweep (.quiet same))

theorem of_sweeps {world next : World} (sweeps : Sweeps world next) :
    Moves pkt key (world, stage) (next, stage) := by
  induction sweeps with
  | refl => exact .refl
  | tail _ sweep inductionHypothesis => exact inductionHypothesis.tail (.sweep sweep)

/-- Moves go on. -/
theorem onward {current finish : World × Stage} (moves : Moves pkt key current finish) :
    Onward current.1 finish.1 := by
  induction moves with
  | refl => exact Onward.refl _
  | tail _ move inductionHypothesis => exact inductionHypothesis.trans move.onward

end Moves

end Rp2350Stepper.Lan9250
