import Rp2350Stepper.Lan9250.RxRuns

/-!
# Every frame gets the timestamp of its own event

Frames are checked and events drained in any order. While no entry of either table
expires or is evicted, an acknowledged event is in hand, in `rx_unclaimed`, or on the
packet of its frame, and a checked frame is stamped with its own event or waits in
`rx_pending` for one that has not been acknowledged.
-/

namespace Rp2350Stepper.Lan9250

open Rp2350Stepper.Data Rp2350Stepper.Semantics

/-- A recognized frame: its packet and its message. -/
abbrev PtpFrame := PktId × MsgKey

/-- A frame of a type whose times the hardware records. -/
def Timed (frame : PtpFrame) : Prop := msgTypeIsTimestamped frame.2.msgType = true

instance : DecidablePred Timed := fun _ => inferInstanceAs (Decidable (_ = true))

/-- The frame a call checks. -/
def RxCall.frame? : RxCall → Option PtpFrame
  | .check pkt pktLen => (checkedKey pkt pktLen).map fun key => (pkt.id, key)
  | .expire => none

/-- The frames checked by some calls, in order. -/
def checkedFrames (calls : List (RxCall × List Choice)) : List PtpFrame :=
  calls.filterMap fun choice => choice.1.frame?

/-- An event the hardware has queued since the start of a run, or before it. -/
def Visible (start world : World) (capture : Capture) : Prop :=
  capture ∈ start.chip.rxCaptures.items ∨ .captured capture ∈ world.history

/-- The removal of an entry which was still waiting. -/
def Event.removal : Event → Bool
  | .logged (.rxPendingExpired _) | .logged (.rxUnclaimedExpired _)
  | .logged (.rxPendingEvicted _) | .logged (.rxUnclaimedEvicted _) => true
  | _ => false

/-- No entry has expired or been evicted. -/
def Undisturbed (world : World) : Prop := ∀ event ∈ world.history, event.removal = false

/-- Each packet carries one frame, and each timed message belongs to one frame. -/
structure Distinct (frames : List PtpFrame) : Prop where
  packets : ∀ frame ∈ frames, ∀ other ∈ frames, frame.1 = other.1 → frame = other
  messages : ∀ frame ∈ frames, ∀ other ∈ frames, Timed frame → frame.2 = other.2 → frame = other

/-- The matching of frames and events: `done` are the frames already checked, `hand` the
event acknowledged and not settled. -/
structure Matching (start : World) (frames done : List PtpFrame) (hand : Option Capture)
    (world : World) : Prop where
  visible : ∀ capture, capture ∈ world.chip.rxCaptures.items ∨
    .acknowledged capture ∈ world.history → Visible start world capture
  held : ∀ capture, hand = some capture → .acknowledged capture ∈ world.history
  pending : ∀ slot entry, world.rxPending slot = some entry →
    (entry.pkt, entry.key) ∈ frames ∧ Timed (entry.pkt, entry.key)
  once : ∀ slot slot' entry entry', world.rxPending slot = some entry →
    world.rxPending slot' = some entry' → entry.key = entry'.key → slot = slot'
  unsettled : ∀ slot entry capture, world.rxPending slot = some entry →
    .acknowledged capture ∈ world.history → capture.key = entry.key → hand = some capture
  unclaimed : ∀ slot entry, world.rxUnclaimed slot = some entry →
    ∃ capture, .acknowledged capture ∈ world.history ∧ capture.key = entry.key ∧
      capture.time = entry.time
  acknowledged : ∀ capture, .acknowledged capture ∈ world.history → hand = some capture ∨
    (∃ slot entry, world.rxUnclaimed slot = some entry ∧ entry.key = capture.key ∧
      entry.time = capture.time) ∨
    ∃ pkt, (pkt, capture.key) ∈ frames ∧ .stamped pkt capture.time ∈ world.history
  stamped : ∀ pkt time, .stamped pkt time ∈ world.history →
    ∃ capture, (pkt, capture.key) ∈ frames ∧ .acknowledged capture ∈ world.history ∧
      capture.time = time
  settled : ∀ frame ∈ done, Timed frame → (∃ time, .stamped frame.1 time ∈ world.history) ∨
    ∃ slot entry, world.rxPending slot = some entry ∧ (entry.pkt, entry.key) = frame

/-- Nothing has happened to a frame yet. -/
structure Untouched (frame : PtpFrame) (world : World) : Prop where
  unparked : Unparked world frame.1
  unstamped : ∀ time, .stamped frame.1 time ∉ world.history

/-! ### Quiet steps -/

/-- A quiet step records nothing else. -/
theorem Quiet.mem_history {world next : World} (same : Quiet world next) {event : Event}
    (loud : event.quiet = false) : event ∈ next.history ↔ event ∈ world.history := by
  obtain ⟨later, _, history, _, quiet, _⟩ := same.grows
  rw [history, List.mem_append, or_iff_left_iff_imp]
  intro member
  rw [quiet event member] at loud
  contradiction

/-- What is quiet does not touch a frame. -/
theorem Untouched.quiet {frame : PtpFrame} {world next : World} (untouched : Untouched frame world)
    (same : Quiet world next) : Untouched frame next where
  unparked := by
    unfold Unparked
    rw [same.rxPending]
    exact untouched.unparked
  unstamped time := by
    rw [same.mem_history rfl]
    exact untouched.unstamped time

namespace Matching

variable {start world next : World} {frames done : List PtpFrame} {hand : Option Capture}

/-- What is quiet changes no match. -/
theorem quiet (matching : Matching start frames done hand world) (same : Quiet world next) :
    Matching start frames done hand next := by
  have acknowledged (capture : Capture) : .acknowledged capture ∈ next.history ↔
      .acknowledged capture ∈ world.history := same.mem_history rfl
  have stamped (pkt : PktId) (time : PtpTime) : .stamped pkt time ∈ next.history ↔
      .stamped pkt time ∈ world.history := same.mem_history rfl
  obtain ⟨pending, unclaimed, _, later, captures, history, queue, _, known⟩ := same
  have remembered (capture : Capture) (before : Visible start world capture) :
      Visible start next capture := by
    refine before.imp_right fun member => ?_
    rw [history]
    exact List.mem_append_left _ member
  constructor
  case visible =>
    intro capture seen
    rw [queue, acknowledged, List.mem_append] at seen
    rcases seen with (old | new) | old
    · exact remembered capture (matching.visible capture (.inl old))
    · refine .inr ?_
      rw [history]
      exact List.mem_append_right _ (known capture new)
    · exact remembered capture (matching.visible capture (.inr old))
  all_goals simp only [pending, unclaimed, acknowledged, stamped]
  · exact matching.held
  · exact matching.pending
  · exact matching.once
  · exact matching.unsettled
  · exact matching.unclaimed
  · exact matching.acknowledged
  · exact matching.stamped
  · exact matching.settled

/-! ### Moves -/

variable {pkt : PktId} {key : MsgKey}

/-- An event waiting in `rx_unclaimed` goes to the frame. -/
theorem claim (matching : Matching start frames done none world) (current : (pkt, key) ∈ frames)
    {slot : Fin rxPendingMax} {entry : RxUnclaimed}
    (here : world.rxUnclaimed slot = some entry) (own : entry.key = key) :
    Matching start frames done none
      { (world.record (.stamped pkt entry.time)).record
          (.logged (.rxMatchedUnclaimed entry.key entry.time)) with
        rxUnclaimed := world.rxUnclaimed.release slot } := by
  constructor
  all_goals simp only [World.record, Visible, List.append_assoc, List.singleton_append,
    List.mem_append, List.mem_cons, List.not_mem_nil, reduceCtorEq, or_false, false_or,
    Event.stamped.injEq]
  case visible => exact matching.visible
  case held => exact fun _ impossible => impossible.elim
  case pending => exact matching.pending
  case once => exact matching.once
  case unsettled =>
    intro slot' waiting capture parked member same
    exact Option.some_ne_none _ (matching.unsettled slot' waiting capture parked member same).symm
  case unclaimed =>
    intro slot' other kept
    exact matching.unclaimed slot' other (SlotTable.release_eq_some.mp kept).2
  case acknowledged =>
    intro capture member
    rcases matching.acknowledged capture member with impossible | ⟨slot', other, stashed, same,
      time⟩ | ⟨pkt', framed, stamped⟩
    · simp at impossible
    · by_cases this : slot' = slot
      · -- The event of the released slot is now on the frame's packet.
        subst this
        rw [here, Option.some.injEq] at stashed
        subst stashed
        exact .inr ⟨pkt, by rwa [← same, own], .inr ⟨rfl, time.symm⟩⟩
      · exact .inl ⟨slot', other, SlotTable.release_eq_some.mpr ⟨this, stashed⟩, same, time⟩
    · exact .inr ⟨pkt', framed, .inl stamped⟩
  case stamped =>
    rintro pkt' time (old | ⟨rfl, rfl⟩)
    · exact matching.stamped pkt' time old
    · obtain ⟨capture, member, same, time⟩ := matching.unclaimed slot entry here
      exact ⟨capture, by rwa [same, own], member, time⟩
  case settled =>
    intro frame member timed
    rcases matching.settled frame member timed with ⟨time, stamped⟩ | parked
    · exact .inl ⟨time, .inl stamped⟩
    · exact .inr parked

/-- The oldest event is taken in hand. -/
theorem acknowledge (matching : Matching start frames done none world) {capture : Capture}
    {rest : List Capture} {chip : Chip} (head : world.chip.rxCaptures.items = capture :: rest)
    (popped : chip.rxCaptures.items = rest ∨ chip.rxCaptures.items = capture :: rest) :
    Matching start frames done (some capture)
      { world.record (.acknowledged capture) with chip := chip } := by
  have shown : Visible start world capture := matching.visible capture (.inl (by simp [head]))
  constructor
  all_goals simp only [World.record, Visible, List.mem_append, List.mem_singleton, reduceCtorEq,
    or_false, Event.acknowledged.injEq]
  case visible =>
    rintro other (queued | old | rfl)
    · have before : other ∈ world.chip.rxCaptures.items := by
        rw [head]
        rcases popped with same | same <;> rw [same] at queued <;> simp [queued]
      exact matching.visible other (.inl before)
    · exact matching.visible other (.inr old)
    · exact shown
  case held => exact fun other same => .inr (Option.some.inj same).symm
  case pending => exact matching.pending
  case once => exact matching.once
  case unsettled =>
    rintro slot waiting other parked (old | rfl) same
    · exact absurd (matching.unsettled slot waiting other parked old same) (by simp)
    · rfl
  case unclaimed =>
    intro slot entry stashed
    obtain ⟨other, member, same⟩ := matching.unclaimed slot entry stashed
    exact ⟨other, .inl member, same⟩
  case acknowledged =>
    rintro other (old | rfl)
    · refine .inr ((matching.acknowledged other old).resolve_left (by simp))
    · exact .inl rfl
  case stamped =>
    intro pkt' time old
    obtain ⟨other, framed, member, same⟩ := matching.stamped pkt' time old
    exact ⟨other, framed, .inl member, same⟩
  case settled => exact matching.settled

/-- The event in hand goes to the frame. -/
theorem direct {capture : Capture} (matching : Matching start frames done (some capture) world)
    (distinct : Distinct frames) (current : (pkt, key) ∈ frames) (unparked : Unparked world pkt)
    (own : capture.key = key) :
    Matching start frames done none (world.record (.stamped pkt capture.time)) := by
  constructor
  all_goals simp only [World.record, Visible, List.mem_append, List.mem_singleton, reduceCtorEq,
    or_false, false_or, Event.stamped.injEq]
  case visible => exact matching.visible
  case held => exact fun _ impossible => impossible.elim
  case pending => exact matching.pending
  case once => exact matching.once
  case unsettled =>
    intro slot waiting other parked member same
    have inHand := matching.unsettled slot waiting other parked member same
    rw [Option.some.injEq] at inHand
    subst inHand
    -- A frame waiting for this event would be this frame, which is not parked.
    obtain ⟨framed, timed⟩ := matching.pending slot waiting parked
    have frame := distinct.messages _ framed _ current timed (same.symm.trans own)
    exact unparked slot waiting parked (congrArg Prod.fst frame)
  case unclaimed => exact matching.unclaimed
  case acknowledged =>
    intro other member
    rcases matching.acknowledged other member with inHand | stashed | ⟨pkt', framed, stamped⟩
    · rw [Option.some.injEq] at inHand
      subst inHand
      exact .inr ⟨pkt, by rwa [own], .inr ⟨rfl, rfl⟩⟩
    · exact .inl stashed
    · exact .inr ⟨pkt', framed, .inl stamped⟩
  case stamped =>
    rintro pkt' time (old | ⟨rfl, rfl⟩)
    · exact matching.stamped pkt' time old
    · exact ⟨capture, by rwa [own], matching.held capture rfl, rfl⟩
  case settled =>
    intro frame member timed
    rcases matching.settled frame member timed with ⟨time, stamped⟩ | parked
    · exact .inl ⟨time, .inl stamped⟩
    · exact .inr parked

/-- The event in hand goes to a waiting frame. -/
theorem matchPending {capture : Capture} (matching : Matching start frames done (some capture) world)
    {slot : Fin rxPendingMax} {entry : RxPending} (here : world.rxPending slot = some entry)
    (own : entry.key = capture.key) :
    Matching start frames done none
      { ((world.record (.stamped entry.pkt capture.time)).record
          (.logged (.rxMatchedPending capture.key capture.time))).record (.unref entry.pkt) with
        rxPending := world.rxPending.release slot } := by
  obtain ⟨framed, timed⟩ := matching.pending slot entry here
  constructor
  all_goals simp only [World.record, Visible, List.append_assoc, List.singleton_append,
    List.mem_append, List.mem_cons, List.not_mem_nil, reduceCtorEq, or_false, false_or,
    Event.stamped.injEq]
  case visible => exact matching.visible
  case held => exact fun _ impossible => impossible.elim
  case pending =>
    intro slot' other kept
    exact matching.pending slot' other (SlotTable.release_eq_some.mp kept).2
  case once =>
    intro first second one other kept kept'
    exact matching.once first second one other (SlotTable.release_eq_some.mp kept).2
      (SlotTable.release_eq_some.mp kept').2
  case unsettled =>
    intro slot' waiting other kept member same
    obtain ⟨different, parked⟩ := SlotTable.release_eq_some.mp kept
    have inHand := matching.unsettled slot' waiting other parked member same
    rw [Option.some.injEq] at inHand
    subst inHand
    exact different (matching.once slot' slot waiting entry parked here (same.symm.trans own.symm))
  case unclaimed => exact matching.unclaimed
  case acknowledged =>
    intro other member
    rcases matching.acknowledged other member with inHand | stashed | ⟨pkt', framed', stamped⟩
    · rw [Option.some.injEq] at inHand
      subst inHand
      exact .inr ⟨entry.pkt, by rwa [← own], .inr ⟨rfl, rfl⟩⟩
    · exact .inl stashed
    · exact .inr ⟨pkt', framed', .inl stamped⟩
  case stamped =>
    rintro pkt' time (old | ⟨rfl, rfl⟩)
    · exact matching.stamped pkt' time old
    · exact ⟨capture, by rwa [← own], matching.held capture rfl, rfl⟩
  case settled =>
    intro frame member timed'
    rcases matching.settled frame member timed' with ⟨time, stamped⟩ | ⟨slot', waiting, parked, same⟩
    · exact .inl ⟨time, .inl stamped⟩
    · by_cases this : slot' = slot
      · subst this
        rw [here, Option.some.injEq] at parked
        subst parked
        exact .inl ⟨capture.time, .inr ⟨by rw [← same], rfl⟩⟩
      · exact .inr ⟨slot', waiting, SlotTable.release_eq_some.mpr ⟨this, parked⟩, same⟩

/-- The event in hand is stashed in a free slot. -/
theorem stash {capture : Capture} (matching : Matching start frames done (some capture) world)
    {slot : Fin rxPendingMax} {deadline : Int} (free : world.rxUnclaimed slot = none)
    (unmatched : ∀ slot entry, world.rxPending slot = some entry → entry.key ≠ capture.key) :
    Matching start frames done none
      { world with
        rxUnclaimed := world.rxUnclaimed.fill slot ⟨capture.key, capture.time, deadline⟩ } := by
  constructor
  case visible => exact matching.visible
  case held => simp
  case pending => exact matching.pending
  case once => exact matching.once
  case unsettled =>
    intro slot' waiting other parked member same
    have inHand := matching.unsettled slot' waiting other parked member same
    rw [Option.some.injEq] at inHand
    subst inHand
    exact absurd same.symm (unmatched slot' waiting parked)
  case unclaimed =>
    intro slot' entry stashed
    rcases SlotTable.fill_eq_some.mp stashed with ⟨_, rfl⟩ | ⟨_, old⟩
    · exact ⟨capture, matching.held capture rfl, rfl, rfl⟩
    · exact matching.unclaimed slot' entry old
  case acknowledged =>
    intro other member
    rcases matching.acknowledged other member with inHand | ⟨slot', entry, stashed, same⟩ | stamped
    · rw [Option.some.injEq] at inHand
      subst inHand
      exact .inr (.inl ⟨slot, _, SlotTable.fill_self _ slot _, rfl, rfl⟩)
    · refine .inr (.inl ⟨slot', entry, SlotTable.fill_eq_some.mpr (.inr ⟨?_, stashed⟩), same⟩)
      rintro rfl
      simp [free] at stashed
    · exact .inr (.inr stamped)
  case stamped => exact matching.stamped
  case settled => exact matching.settled

/-- A reference changes none. -/
theorem ref (matching : Matching start frames done hand world) :
    Matching start frames done hand (world.record (.ref pkt)) := by
  constructor
  all_goals simp only [World.record, Visible, List.mem_append, List.mem_singleton, reduceCtorEq,
    or_false]
  · exact matching.visible
  · exact matching.held
  · exact matching.pending
  · exact matching.once
  · exact matching.unsettled
  · exact matching.unclaimed
  · exact matching.acknowledged
  · exact matching.stamped
  · exact matching.settled

/-- The frame waits in a free slot. -/
theorem park (matching : Matching start frames done none world) (distinct : Distinct frames)
    (current : (pkt, key) ∈ frames) (timed : Timed (pkt, key)) (untouched : Untouched (pkt, key) world)
    {slot : Fin rxPendingMax} {deadline : Int} (free : world.rxPending slot = none)
    (unclaimed : ∀ slot entry, world.rxUnclaimed slot = some entry → entry.key ≠ key) :
    Matching start frames (done ++ [(pkt, key)]) none
      { world with rxPending := world.rxPending.fill slot ⟨pkt, key, deadline⟩ } := by
  have others {slot : Fin rxPendingMax} {entry : RxPending} (parked : world.rxPending slot = some entry) :
      entry.key ≠ key := by
    intro same
    obtain ⟨framed, timed'⟩ := matching.pending slot entry parked
    have frame := distinct.messages _ framed _ current timed' same
    exact untouched.unparked slot entry parked (congrArg Prod.fst frame)
  constructor
  case visible => exact matching.visible
  case held => exact matching.held
  case pending =>
    intro slot' entry parked
    rcases SlotTable.fill_eq_some.mp parked with ⟨_, rfl⟩ | ⟨_, old⟩
    · exact ⟨current, timed⟩
    · exact matching.pending slot' entry old
  case once =>
    intro first second entry entry' parked parked' same
    rcases SlotTable.fill_eq_some.mp parked with ⟨rfl, rfl⟩ | ⟨_, old⟩ <;>
      rcases SlotTable.fill_eq_some.mp parked' with ⟨rfl, rfl⟩ | ⟨_, old'⟩
    · rfl
    · exact absurd same.symm (others old')
    · exact absurd same (others old)
    · exact matching.once first second entry entry' old old' same
  case unsettled =>
    intro slot' entry capture parked member same
    rcases SlotTable.fill_eq_some.mp parked with ⟨_, rfl⟩ | ⟨_, old⟩
    · -- An event of this frame would be stashed, or on the packet of this frame.
      rcases matching.acknowledged capture member with inHand | ⟨other, stashed, held, same', _⟩ |
        ⟨pkt', framed, stamped⟩
      · exact inHand
      · exact absurd (same'.trans same) (unclaimed other stashed held)
      · have frame := distinct.messages _ current _ framed timed same.symm
        have owner : pkt' = pkt := (congrArg Prod.fst frame).symm
        exact absurd (owner ▸ stamped) (untouched.unstamped capture.time)
    · exact matching.unsettled slot' entry capture old member same
  case unclaimed => exact matching.unclaimed
  case acknowledged => exact matching.acknowledged
  case stamped => exact matching.stamped
  case settled =>
    intro frame member timed'
    rcases List.mem_append.mp member with earlier | last
    · rcases matching.settled frame earlier timed' with stamped | ⟨slot', entry, parked, same⟩
      · exact .inl stamped
      · refine .inr ⟨slot', entry, SlotTable.fill_eq_some.mpr (.inr ⟨?_, parked⟩), same⟩
        rintro rfl
        simp [free] at parked
    · rw [List.mem_singleton] at last
      exact .inr ⟨slot, _, SlotTable.fill_self _ slot _, last.symm⟩

/-- A frame with a timestamp is settled. -/
theorem done_of_stamped (matching : Matching start frames done hand world) (time : PtpTime)
    (stamped : .stamped pkt time ∈ world.history) :
    Matching start frames (done ++ [(pkt, key)]) hand world := by
  refine { matching with settled := ?_ }
  intro frame member timed
  rcases List.mem_append.mp member with earlier | last
  · exact matching.settled frame earlier timed
  · rw [List.mem_singleton] at last
    exact .inl ⟨time, last ▸ stamped⟩

/-- The frames of a list may be more. -/
theorem more (matching : Matching start frames done hand world) {all : List PtpFrame}
    (subset : frames ⊆ all) : Matching start all done hand world := by
  refine { matching with pending := ?_, acknowledged := ?_, stamped := ?_ }
  · exact fun slot entry parked => (matching.pending slot entry parked).imp_left (@subset _)
  · intro capture member
    rcases matching.acknowledged capture member with inHand | stashed | ⟨pkt', framed, stamped⟩
    · exact .inl inHand
    · exact .inr (.inl stashed)
    · exact .inr (.inr ⟨pkt', subset framed, stamped⟩)
  · intro pkt' time member
    obtain ⟨capture, framed, rest⟩ := matching.stamped pkt' time member
    exact ⟨capture, subset framed, rest⟩

end Matching

/-! ### Calls -/

/-- The invariant within a check of a frame, after the checks of earlier ones. -/
def Underway (start : World) (earlier : List PtpFrame) (frame : PtpFrame) : World × Stage → Prop
  | (world, .searching) =>
      Matching start (earlier ++ [frame]) earlier none world ∧ Untouched frame world
  | (world, .holding capture) =>
      Matching start (earlier ++ [frame]) earlier (some capture) world ∧ Untouched frame world
  | (world, .attached) => Matching start (earlier ++ [frame]) (earlier ++ [frame]) none world
  | (world, .queued) => Matching start (earlier ++ [frame]) (earlier ++ [frame]) none world

/-- What is undisturbed has been so before. -/
theorem Undisturbed.earlier {world next : World} (undisturbed : Undisturbed next)
    (onward : Onward world next) : Undisturbed world :=
  fun event member => undisturbed event (onward.history.subset member)

/-- When nothing expires a sweep is quiet. -/
theorem Sweep.quiet_of_undisturbed {world next : World} (sweep : Sweep world next)
    (undisturbed : Undisturbed next) : Quiet world next := by
  cases sweep with
  | quiet same => exact same
  | expirePending slot entry =>
      have removed := undisturbed (.logged (.rxPendingExpired entry.key)) (by simp [World.record])
      simp [Event.removal] at removed
  | expireUnclaimed slot entry =>
      have removed := undisturbed (.logged (.rxUnclaimedExpired entry.key)) (by simp [World.record])
      simp [Event.removal] at removed

/-- What is quiet does not bring a check on. -/
theorem Underway.quiet {start world next : World} {earlier : List PtpFrame} {frame : PtpFrame}
    {stage : Stage} (underway : Underway start earlier frame (world, stage))
    (same : Quiet world next) : Underway start earlier frame (next, stage) := by
  cases stage with
  | searching => exact ⟨underway.1.quiet same, underway.2.quiet same⟩
  | holding => exact ⟨underway.1.quiet same, underway.2.quiet same⟩
  | attached => exact Matching.quiet underway same
  | queued => exact Matching.quiet underway same

/-- Every move of an undisturbed check keeps frames and events matched. -/
theorem Underway.move {start world next : World} {earlier : List PtpFrame} {pkt : PktId}
    {key : MsgKey} {stage stage' : Stage} (distinct : Distinct (earlier ++ [(pkt, key)]))
    (underway : Underway start earlier (pkt, key) (world, stage))
    (move : Move pkt key (world, stage) (next, stage')) (undisturbed : Undisturbed next) :
    Underway start earlier (pkt, key) (next, stage') := by
  have current : (pkt, key) ∈ earlier ++ [(pkt, key)] := by simp
  cases move with
  | sweep swept => exact underway.quiet (swept.quiet_of_undisturbed undisturbed)
  | claim slot entry here own =>
      exact (underway.1.claim current here own).done_of_stamped entry.time (by simp [World.record])
  | acknowledge capture rest chip head popped =>
      obtain ⟨matching, untouched⟩ := underway
      refine ⟨matching.acknowledge head popped, untouched.unparked, ?_⟩
      simpa [World.record] using untouched.unstamped
  | direct capture own =>
      obtain ⟨matching, untouched⟩ := underway
      exact (matching.direct distinct current untouched.unparked own).done_of_stamped
        capture.time (by simp [World.record])
  | matchPending capture slot entry here own other =>
      obtain ⟨matching, untouched⟩ := underway
      refine ⟨matching.matchPending here own, ?_, ?_⟩
      · intro slot' waiting kept
        exact untouched.unparked slot' waiting (SlotTable.release_eq_some.mp kept).2
      · have stranger := untouched.unparked slot entry here
        simpa [World.record, stranger.symm] using untouched.unstamped
  | stash capture slot unmatched other room =>
      obtain ⟨matching, untouched⟩ := underway
      refine ⟨matching.stash ?_ unmatched, untouched.unparked, untouched.unstamped⟩
      cases free : world.rxUnclaimed slot with
      | none => rfl
      | some evicted =>
          have removed := undisturbed _ (room evicted free)
          simp [Event.removal] at removed
  | @park _ parked slot evicted here room eligible fresh unclaimed same =>
      obtain ⟨matching, untouched⟩ := underway
      cases evicted with
      | some entry =>
          have kept : world.history <+: parked.history :=
            ((Onward.record world _).trans ((Onward.record _ _).trans (.of_quiet same))).history
          have removed := undisturbed _ (kept.subset (room entry rfl))
          simp [Event.removal] at removed
      | none =>
          have before : Quiet (world.record (.ref pkt)) parked := same
          have referenced : Untouched (pkt, key) (world.record (.ref pkt)) :=
            ⟨untouched.unparked, by simpa [World.record] using untouched.unstamped⟩
          refine (matching.ref.quiet before).park distinct current eligible
            (referenced.quiet before) ?_ ?_
          · rw [before.rxPending]
            exact here
          · rw [before.rxUnclaimed]
            exact unclaimed

/-- So does a whole undisturbed check. -/
theorem Underway.moves {start world : World} {earlier : List PtpFrame} {pkt : PktId}
    {key : MsgKey} {stage : Stage} {finish : World × Stage}
    (distinct : Distinct (earlier ++ [(pkt, key)]))
    (underway : Underway start earlier (pkt, key) (world, stage))
    (moves : Moves pkt key (world, stage) finish) (undisturbed : Undisturbed finish.1) :
    Underway start earlier (pkt, key) finish := by
  induction moves with
  | refl => exact underway
  | tail _ move inductionHypothesis =>
      have before := inductionHypothesis (undisturbed.earlier move.onward)
      exact before.move distinct move undisturbed

/-- Between calls no event is in hand and every checked frame is settled. -/
abbrev Settled (start : World) (frames : List PtpFrame) (world : World) : Prop :=
  Matching start frames frames none world

/-- Every undisturbed call leaves the frames checked so far settled. -/
theorem Settled.effect {start world next : World} {frames : List PtpFrame} {rxCall : RxCall}
    (settled : Settled start frames world)
    (distinct : Distinct (frames ++ rxCall.frame?.toList))
    (new : ∀ frame ∈ rxCall.frame?, frame.1 ∉ frames.map Prod.fst)
    (effect : rxCall.Effect world next) (undisturbed : Undisturbed next) :
    Settled start (frames ++ rxCall.frame?.toList) next := by
  cases rxCall with
  | expire =>
      suffices general : ∀ finish, Sweeps world finish → Undisturbed finish →
          Settled start frames finish by
        simpa [RxCall.frame?] using general next effect.1 undisturbed
      intro finish sweeps undisturbed
      induction sweeps with
      | refl => exact settled
      | tail _ sweep inductionHypothesis =>
          have before := inductionHypothesis (undisturbed.earlier sweep.onward)
          exact before.quiet (sweep.quiet_of_undisturbed undisturbed)
  | check pkt pktLen =>
      simp only [RxCall.Effect, RxCall.frame?] at effect distinct new ⊢
      cases recognized : checkedKey pkt pktLen with
      | none =>
          simp only [recognized] at effect
          simpa using settled.quiet effect
      | some key =>
          simp only [recognized, Option.map_some, Option.toList_some] at effect distinct new ⊢
          obtain ⟨stage, moves, ended⟩ := effect.moves
          have unseen : pkt.id ∉ frames.map Prod.fst := new (pkt.id, key) rfl
          have untouched : Untouched (pkt.id, key) world := by
            constructor
            · rintro slot entry parked same
              obtain ⟨framed, _⟩ := settled.pending slot entry parked
              have owner : entry.pkt = pkt.id := same
              exact unseen (owner ▸ List.mem_map_of_mem framed)
            · intro time stamped
              obtain ⟨capture, framed, _⟩ := settled.stamped pkt.id time stamped
              exact unseen (List.mem_map_of_mem framed)
          have begun : Underway start frames (pkt.id, key) (world, .searching) :=
            ⟨settled.more (List.subset_append_left _ _), untouched⟩
          have reached := begun.moves distinct moves undisturbed
          rcases ended with ⟨rfl, untimed⟩ | rfl | rfl
          · refine { reached.1 with settled := ?_ }
            intro frame member timed
            rcases List.mem_append.mp member with old | last
            · exact reached.1.settled frame old timed
            · rw [List.mem_singleton] at last
              subst last
              rw [Timed, untimed] at timed
              contradiction
          · exact reached
          · exact reached

/-! ### Runs -/

/-- A run in which each packet carries one frame, each message belongs to at most one
timed frame and at most one event, and no entry expires or is evicted. -/
structure OrderlyRun (start : World) (calls : List (RxCall × List Choice)) (finish : World) :
    Prop where
  initial : rxCalls.Initial start
  run : ∃ events, rxCalls.Run rxCalls.unguarded start calls events finish
  packets : ((checkedFrames calls).map Prod.fst).Nodup
  messages : ∀ frame ∈ checkedFrames calls, ∀ other ∈ checkedFrames calls, Timed frame →
    frame.2 = other.2 → frame = other
  captures : ∀ capture other, Visible start finish capture → Visible start finish other →
    capture.key = other.key → capture = other
  undisturbed : Undisturbed finish

/-- One more call checks at most one more frame. -/
theorem checkedFrames_append (calls : List (RxCall × List Choice)) (choice : RxCall × List Choice) :
    checkedFrames (calls ++ [choice]) = checkedFrames calls ++ choice.1.frame?.toList := by
  simp only [checkedFrames, List.filterMap_append, List.filterMap_cons, List.filterMap_nil]
  cases choice.1.frame? <;> rfl

/-- An orderly run leaves every frame settled. -/
theorem OrderlyRun.settled {start finish : World} {calls : List (RxCall × List Choice)}
    (orderly : OrderlyRun start calls finish) : Settled start (checkedFrames calls) finish := by
  obtain ⟨⟨pending, unclaimed, history⟩, ⟨events, run⟩, packets, messages, _, undisturbed⟩ := orderly
  refine run.along (fun choices _ (world : World) => ((checkedFrames choices).map Prod.fst).Nodup →
    (∀ frame ∈ checkedFrames choices, ∀ other ∈ checkedFrames choices, Timed frame →
      frame.2 = other.2 → frame = other) → Undisturbed world →
    Settled start (checkedFrames choices) world) ?_ ?_ packets messages undisturbed
  · intro _ _ _
    have none : checkedFrames [] = [] := rfl
    constructor <;> simp [pending, unclaimed, history, SlotTable.empty, none, Visible]
  · intro choices _ choice emitted before next inductionHypothesis _ step packets messages undisturbed
    rw [checkedFrames_append] at packets messages ⊢
    obtain ⟨_, returns, _⟩ := id step
    have onward : Onward before next := returns.relates Onward Onward.refl Onward.trans
      fun _ => Onward.answer
    have distinct : Distinct (checkedFrames choices ++ choice.1.frame?.toList) :=
      ⟨fun _ member _ member' => List.inj_on_of_nodup_map packets member member', messages⟩
    rw [List.map_append, List.nodup_append] at packets
    obtain ⟨earlier, _, apart⟩ := packets
    have settled := inductionHypothesis earlier
      (fun frame member other member' => messages frame (by simp [member]) other (by simp [member']))
      (undisturbed.earlier onward)
    have new : ∀ frame ∈ choice.1.frame?, frame.1 ∉ (checkedFrames choices).map Prod.fst := by
      intro frame checked seen
      exact apart _ seen frame.1 (List.mem_map_of_mem (by simpa using checked)) rfl
    have fresh : checksFresh before choice := by
      obtain ⟨pkt | _, _⟩ := choice
      · intro recognized slot entry parked owner
        obtain ⟨key, known⟩ := Option.ne_none_iff_exists'.mp recognized
        obtain ⟨framed, _⟩ := settled.pending slot entry parked
        have seen : entry.pkt ∈ (checkedFrames choices).map Prod.fst := List.mem_map_of_mem framed
        exact new (pkt.id, key) (by simp [RxCall.frame?, known]) (owner ▸ seen)
      · trivial
    obtain ⟨_, effect⟩ := rxCalls_step fresh step
    exact settled.effect distinct new effect undisturbed

namespace OrderlyRun

variable {start finish : World} {calls : List (RxCall × List Choice)}
  (orderly : OrderlyRun start calls finish)

include orderly

/-- Acknowledged events of one message are one event. -/
theorem acknowledged_unique {capture other : Capture}
    (member : .acknowledged capture ∈ finish.history)
    (member' : .acknowledged other ∈ finish.history) (same : capture.key = other.key) :
    capture = other :=
  orderly.captures capture other (orderly.settled.visible capture (.inr member))
    (orderly.settled.visible other (.inr member')) same

/-- A packet gets no other timestamp than that of the event of its frame. -/
theorem stamped_own {pkt : PktId} {time : PtpTime} (stamped : .stamped pkt time ∈ finish.history) :
    ∃ capture, (pkt, capture.key) ∈ checkedFrames calls ∧
      .acknowledged capture ∈ finish.history ∧ capture.time = time :=
  orderly.settled.stamped pkt time stamped

/-- A packet gets one timestamp. -/
theorem stamped_once {pkt : PktId} {time time' : PtpTime}
    (stamped : .stamped pkt time ∈ finish.history)
    (stamped' : .stamped pkt time' ∈ finish.history) : time = time' := by
  obtain ⟨capture, framed, member, rfl⟩ := orderly.stamped_own stamped
  obtain ⟨other, framed', member', rfl⟩ := orderly.stamped_own stamped'
  have frame := List.inj_on_of_nodup_map orderly.packets framed framed' rfl
  rw [orderly.acknowledged_unique member member' (congrArg Prod.snd frame)]

/-- A timed frame has its timestamp exactly when its event has been acknowledged. -/
theorem stamped_iff {frame : PtpFrame} (checked : frame ∈ checkedFrames calls) (timed : Timed frame)
    (time : PtpTime) :
    .stamped frame.1 time ∈ finish.history ↔ ∃ capture,
      .acknowledged capture ∈ finish.history ∧ capture.key = frame.2 ∧ capture.time = time := by
  constructor
  · intro stamped
    obtain ⟨capture, framed, member, same⟩ := orderly.stamped_own stamped
    have own := List.inj_on_of_nodup_map orderly.packets framed checked rfl
    exact ⟨capture, member, congrArg Prod.snd own, same⟩
  · rintro ⟨capture, member, own, rfl⟩
    rcases orderly.settled.settled frame checked timed with ⟨time, stamped⟩ | ⟨slot, entry, parked, rfl⟩
    · obtain ⟨other, framed, member', rfl⟩ := orderly.stamped_own stamped
      have frame := List.inj_on_of_nodup_map orderly.packets framed checked rfl
      have same := (congrArg Prod.snd frame).trans own.symm
      rwa [← orderly.acknowledged_unique member' member same]
    · -- A frame does not wait for an event which has been acknowledged.
      have inHand := orderly.settled.unsettled slot entry capture parked member own
      simp at inHand

end OrderlyRun

/-- Wherever the frames and events come in, a timed frame is stamped exactly with the time
of its own event once that has been acknowledged, and no packet with the time of an event
of another frame; so two orderly runs over the same frames and the same acknowledged events
give every frame the same timestamp. -/
theorem timestamps_matched {start finish : World} {calls : List (RxCall × List Choice)}
    (orderly : OrderlyRun start calls finish) :
    (∀ frame ∈ checkedFrames calls, Timed frame → ∀ time,
      .stamped frame.1 time ∈ finish.history ↔ ∃ capture,
        .acknowledged capture ∈ finish.history ∧ capture.key = frame.2 ∧ capture.time = time) ∧
    (∀ pkt time, .stamped pkt time ∈ finish.history → ∃ capture,
      (pkt, capture.key) ∈ checkedFrames calls ∧ .acknowledged capture ∈ finish.history ∧
        capture.time = time) ∧
    (∀ pkt time time', .stamped pkt time ∈ finish.history →
      .stamped pkt time' ∈ finish.history → time = time') ∧
    ∀ {start' finish' : World} {calls' : List (RxCall × List Choice)},
      OrderlyRun start' calls' finish' →
      (∀ frame, Timed frame → (frame ∈ checkedFrames calls' ↔ frame ∈ checkedFrames calls)) →
      (∀ capture, .acknowledged capture ∈ finish'.history ↔
        .acknowledged capture ∈ finish.history) →
      ∀ frame ∈ checkedFrames calls, Timed frame → ∀ time,
        .stamped frame.1 time ∈ finish'.history ↔ .stamped frame.1 time ∈ finish.history := by
  refine ⟨fun frame checked timed => orderly.stamped_iff checked timed,
    fun pkt time => orderly.stamped_own, fun pkt time time' => orderly.stamped_once, ?_⟩
  intro start' finish' calls' orderly' frames events frame checked timed time
  rw [orderly.stamped_iff checked timed time,
    orderly'.stamped_iff ((frames frame timed).mpr checked) timed time]
  simp only [events]

/-! ### Two frames in two orders -/

/-- The events of a history which have been acknowledged. -/
def acknowledgements (history : List Event) : List Capture :=
  history.filterMap fun event => match event with
    | .acknowledged capture => some capture
    | _ => none

/-- An event has been acknowledged. -/
theorem mem_acknowledgements {history : List Event} {capture : Capture} :
    capture ∈ acknowledgements history ↔ .acknowledged capture ∈ history := by
  simp only [acknowledgements, List.mem_filterMap]
  constructor
  · rintro ⟨event, member, same⟩
    cases event <;> simp at same
    exact same ▸ member
  · exact fun member => ⟨_, member, rfl⟩

/-- The events of a history which have been captured. -/
private def captures (history : List Event) : List Capture :=
  history.filterMap fun event => match event with
    | .captured capture => some capture
    | _ => none

/-- An event has been captured. -/
private theorem mem_captures {history : List Event} {capture : Capture} :
    capture ∈ captures history ↔ .captured capture ∈ history := by
  simp only [captures, List.mem_filterMap]
  constructor
  · rintro ⟨event, member, same⟩
    cases event <;> simp at same
    exact same ▸ member
  · exact fun member => ⟨_, member, rfl⟩

/-- The frames checked, the events captured and acknowledged, and whether no entry has
been removed. -/
private def summary (run : List (lan9250.Finished RxCall Unit) × World) :
    List PtpFrame × List Capture × List Capture × Bool :=
  (checkedFrames (run.1.map fun event => (event.call, event.choices)), captures run.2.history,
    acknowledgements run.2.history, run.2.history.all fun event => !event.removal)

/-- Played calls are an orderly run when their frames and events are distinct. -/
private theorem orderlyRun_of_play {script : List (RxCall × List Choice)} {frames : List PtpFrame}
    {queued acknowledged : List Capture}
    (played : (lan9250.playCalls (fun _ _ _ => true) (fun world rxCall => rxCall.Fresh world)
      RxCall.body .idle script).map summary = some (frames, queued, acknowledged, true))
    (packets : (frames.map Prod.fst).Nodup)
    (messages : ∀ frame ∈ frames, ∀ other ∈ frames, Timed frame → frame.2 = other.2 → frame = other)
    (unique : ∀ capture ∈ queued, ∀ other ∈ queued, capture.key = other.key → capture = other) :
    ∃ calls finish, OrderlyRun .idle calls finish ∧ checkedFrames calls = frames ∧
      ∀ capture, .acknowledged capture ∈ finish.history ↔ capture ∈ acknowledged := by
  obtain ⟨⟨events, finish⟩, ran, facts⟩ := Option.map_eq_some_iff.mp played
  simp only [summary, Prod.mk.injEq, List.all_eq_true, Bool.not_eq_true'] at facts
  obtain ⟨checked, queue, known, undisturbed⟩ := facts
  have run := Device.run_of_playCalls (fun _ => True) ran
  refine ⟨_, finish, ⟨⟨rfl, rfl, rfl⟩,
    ⟨events, Device.calls_weaken run (fun _ _ _ _ => trivial) fun _ _ _ => trivial⟩,
    checked ▸ packets, checked ▸ messages, ?_, undisturbed⟩, checked, ?_⟩
  · intro capture other seen seen'
    have inQueue {capture : Capture} (seen : Visible .idle finish capture) : capture ∈ queued := by
      rw [← queue, mem_captures]
      exact seen.resolve_left (by simp [World.idle, Chip.idle])
    exact unique capture (inQueue seen) other (inQueue seen')
  · intro capture
    rw [← known, mem_acknowledgements]

/-- A check at the beginning of which some events are captured. -/
def checkAt (pkt : PktId) (key : MsgKey) (events : List Capture) : RxCall × List Choice :=
  (.check ⟨pkt, [rawFrame key]⟩ 46, [{ Choice.quiet with rxCaptures := events }])

/-- Sync 5 and Sync 6 are matched with their events although a Follow_Up drains an event
first, and although the frames and events come in the opposite order. -/
theorem reordered_events_matched : ∃ calls finish calls' finish',
    OrderlyRun .idle calls finish ∧ OrderlyRun .idle calls' finish' ∧
      .stamped 7 ⟨100, 1⟩ ∈ finish.history ∧
      ∀ time, .stamped 7 time ∈ finish'.history ↔ .stamped 7 time ∈ finish.history := by
  have played : (lan9250.playCalls (fun _ _ _ => true) (fun world rxCall => rxCall.Fresh world)
      RxCall.body .idle [checkAt 7 ⟨0, 5⟩ [], checkAt 8 ⟨0, 6⟩ [⟨5, 100, 1⟩],
        checkAt 9 ⟨8, 6⟩ [⟨6, 100, 2⟩]]).map summary =
      some ([(7, ⟨0, 5⟩), (8, ⟨0, 6⟩), (9, ⟨8, 6⟩)],
        [⟨5, 100, 1⟩, ⟨6, 100, 2⟩], [⟨5, 100, 1⟩, ⟨6, 100, 2⟩], true) := by
    decide +kernel
  have played' : (lan9250.playCalls (fun _ _ _ => true) (fun world rxCall => rxCall.Fresh world)
      RxCall.body .idle [checkAt 9 ⟨8, 6⟩ [⟨6, 100, 2⟩], checkAt 8 ⟨0, 6⟩ [],
        checkAt 7 ⟨0, 5⟩ [⟨5, 100, 1⟩]]).map summary =
      some ([(9, ⟨8, 6⟩), (8, ⟨0, 6⟩), (7, ⟨0, 5⟩)],
        [⟨6, 100, 2⟩, ⟨5, 100, 1⟩], [⟨6, 100, 2⟩, ⟨5, 100, 1⟩], true) := by
    decide +kernel
  obtain ⟨calls, finish, orderly, frames, events⟩ :=
    orderlyRun_of_play played (by decide) (by decide) (by decide)
  obtain ⟨calls', finish', orderly', frames', events'⟩ :=
    orderlyRun_of_play played' (by decide) (by decide) (by decide)
  obtain ⟨stamped, _, _, agree⟩ := timestamps_matched orderly
  have checked : (7, ⟨0, 5⟩) ∈ checkedFrames calls := by simp [frames]
  have timed : Timed (7, ⟨0, 5⟩) := by decide
  refine ⟨calls, finish, calls', finish', orderly, orderly', ?_, ?_⟩
  · have drained : .acknowledged ⟨5, 100, 1⟩ ∈ finish.history := (events _).mpr (by simp)
    exact (stamped _ checked timed ⟨100, 1⟩).mpr ⟨_, drained, by decide, rfl⟩
  · refine agree orderly' ?_ ?_ _ checked timed
    · intro frame _
      rw [frames, frames']
      exact List.Perm.mem_iff (by decide)
    · intro capture
      rw [events, events']
      exact List.Perm.mem_iff (by decide)

end Rp2350Stepper.Lan9250
