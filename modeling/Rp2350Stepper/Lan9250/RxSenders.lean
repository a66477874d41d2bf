import Rp2350Stepper.Lan9250.RxMatching

/-!
# Messages of several senders

A frame and an event are matched by `messageType` and `sequenceId`; the source's CRC in
`MSG_HEADER` is not compared. Senders number their messages independently, so two frames may
bear one key.

What a packet is stamped with has been read from the hardware under the key of its frame, and
frame and event have met while neither had waited longer than its table keeps it. So a frame
gets its own time unless an event of another frame with its key is read in that time.
-/

namespace Rp2350Stepper.Lan9250

open Rp2350Stepper.Data Rp2350Stepper.Semantics

/-- A finished call of the RX timestamp check. -/
abbrev RxCalled := lan9250.Finished RxCall Unit

/-- A call has read an event from the hardware. -/
def Reads (reading : RxCalled) (capture : Capture) : Prop :=
  .acknowledged capture ∈ newEvents reading.before reading.after

/-- The last of some calls to check a frame of this packet, which has been this frame. -/
def CheckedLast (calls : List RxCalled) (frame : PtpFrame) (checking : RxCalled) : Prop :=
  checking.call.frame? = some frame ∧ ∃ earlier later, calls = earlier ++ checking :: later ∧
    ∀ called ∈ later, ∀ key, called.call.frame? ≠ some (frame.1, key)

/-- The check of a frame and the reading of an event are closer than an entry waits. -/
def Near (checking reading : RxCalled) : Prop :=
  checking.before.uptime < reading.after.uptime + rxPendingTimeoutMs ∧
    reading.before.uptime < checking.after.uptime + rxPendingTimeoutMs

/-- The time of an event with the message of the packet's frame, read near its check. -/
def Sourced (calls : List RxCalled) (pkt : PktId) (time : PtpTime) : Prop :=
  ∃ checking reading capture, CheckedLast calls (pkt, capture.key) checking ∧ reading ∈ calls ∧
    Reads reading capture ∧ Near checking reading ∧ capture.time = time

/-- Whenever a packet is stamped, a property holds of the calls so far and the timestamp. -/
def StampsAre (property : List RxCalled → PktId → PtpTime → Prop) (calls : List RxCalled) : Prop :=
  Recorded (fun earlier stamping => ∀ pkt time,
    .stamped pkt time ∈ newEvents stamping.before stamping.after →
      property (earlier ++ [stamping]) pkt time) calls

/-- The time of the event captured for the packet's frame. -/
def OwnTime (own : RxCalled → Capture) (calls : List RxCalled) (pkt : PktId) (time : PtpTime) :
    Prop :=
  ∃ key checking, CheckedLast calls (pkt, key) checking ∧ (own checking).time = time

/-- Each event which bears a frame's key and is read near its check is its own. -/
def Uncontested (own : RxCalled → Capture) (calls : List RxCalled) : Prop :=
  ∀ checking ∈ calls, ∀ pkt key, checking.call.frame? = some (pkt, key) → ∀ reading ∈ calls,
    ∀ capture, Reads reading capture → capture.key = key → Near checking reading →
      capture = own checking

/-! ### What a sweep leaves -/

/-- Events which match frames with captures. -/
def Event.matching : Event → Bool
  | .stamped _ _ | .acknowledged _ => true
  | _ => false

/-- Entries may go and nothing is matched. -/
structure Shrinks (world next : World) : Prop where
  pending : ∀ slot entry, next.rxPending slot = some entry → world.rxPending slot = some entry
  unclaimed : ∀ slot entry, next.rxUnclaimed slot = some entry → world.rxUnclaimed slot = some entry
  uptime : world.uptime ≤ next.uptime
  unmatched : ∃ later, next.history = world.history ++ later ∧
    ∀ event ∈ later, event.matching = false

namespace Shrinks

variable {world next : World}

theorem refl (world : World) : Shrinks world world :=
  ⟨fun _ _ => id, fun _ _ => id, le_refl _, [], by simp, by simp⟩

theorem trans {third : World} (first : Shrinks world next) (second : Shrinks next third) :
    Shrinks world third := by
  obtain ⟨later, history, unmatched⟩ := first.unmatched
  obtain ⟨later', history', unmatched'⟩ := second.unmatched
  refine ⟨fun slot entry held => first.pending slot entry (second.pending slot entry held),
    fun slot entry held => first.unclaimed slot entry (second.unclaimed slot entry held),
    first.uptime.trans second.uptime, later ++ later', ?_, ?_⟩
  · rw [history', history, List.append_assoc]
  · intro event member
    exact (List.mem_append.mp member).elim (unmatched event) (unmatched' event)

/-- What only shrinks goes on. -/
theorem onward (shrinks : Shrinks world next) : Onward world next := by
  obtain ⟨_, _, uptime, later, history, _⟩ := shrinks
  exact ⟨uptime, history ▸ List.prefix_append _ _⟩

/-- What is matched since the start is matched since the sweep. -/
theorem matched_since {finish : World} (shrinks : Shrinks world next) (after : Onward next finish)
    {event : Event} (matching : event.matching = true) (member : event ∈ newEvents world finish) :
    event ∈ newEvents next finish := by
  obtain ⟨_, _, _, later, history, unmatched⟩ := shrinks
  obtain ⟨since, grown⟩ := after.history
  simp only [newEvents, ← grown, history, List.append_assoc, List.drop_left,
    List.mem_append] at member
  rw [newEvents, ← grown, List.drop_left]
  apply member.resolve_left
  intro early
  rw [unmatched event early] at matching
  contradiction

/-- What is quiet adds nothing. -/
theorem of_quiet (same : Quiet world next) : Shrinks world next := by
  obtain ⟨pending, unclaimed, uptime, later, _, history, _, quiet, _⟩ := same
  refine ⟨fun _ _ held => pending ▸ held, fun _ _ held => unclaimed ▸ held, uptime, later,
    history, ?_⟩
  intro event member
  have unheard := quiet event member
  cases event <;> first | rfl | cases unheard

theorem of_sweep (sweep : Sweep world next) : Shrinks world next := by
  cases sweep with
  | quiet same => exact of_quiet same
  | expirePending slot entry held due =>
      refine ⟨fun _ _ kept => (SlotTable.release_eq_some.mp kept).2, fun _ _ => id, le_refl _,
        [.logged (.rxPendingExpired entry.key), .unref entry.pkt], by simp [World.record], ?_⟩
      simp [Event.matching]
  | expireUnclaimed slot entry held due =>
      refine ⟨fun _ _ => id, fun _ _ kept => (SlotTable.release_eq_some.mp kept).2, le_refl _,
        [.logged (.rxUnclaimedExpired entry.key)], rfl, ?_⟩
      simp [Event.matching]

theorem of_sweeps (sweeps : Sweeps world next) : Shrinks world next := by
  induction sweeps with
  | refl => exact refl world
  | tail _ sweep inductionHypothesis => exact inductionHypothesis.trans (of_sweep sweep)

end Shrinks

/-! ### Inside a call -/

section Inside

/-- An event of this message and time has been read. -/
def ReadSince (swept world : World) (key : MsgKey) (time : PtpTime) : Prop :=
  ∃ capture, .acknowledged capture ∈ newEvents swept world ∧ capture.key = key ∧
    capture.time = time

/-- The packet waits for an event of this message: it is being checked, or it was waiting. -/
def Waiting (frame : PtpFrame) (swept : World) (other : PtpFrame) : Prop :=
  other = frame ∨ ∃ entry, swept.rxPending.Holds entry ∧ (entry.pkt, entry.key) = other

/-- A check stamps a waiting packet with an event it has read, or its own with one stashed
before. -/
def Stampable (frame : PtpFrame) (swept world : World) (pkt : PktId) (time : PtpTime) : Prop :=
  (∃ key, Waiting frame swept (pkt, key) ∧ ReadSince swept world key time) ∨
    pkt = frame.1 ∧ ∃ entry, swept.rxUnclaimed.Holds entry ∧ entry.key = frame.2 ∧
      entry.time = time

/-- What the tables and the stamps of a check come from, since its sweep. -/
structure Drawn (frame : PtpFrame) (swept : World) (current : World × Stage) : Prop where
  onward : Onward swept current.1
  pending : ∀ slot entry, current.1.rxPending slot = some entry →
    swept.rxPending.Holds entry ∨
      (entry.pkt, entry.key) = frame ∧ entry.inserted ≤ current.1.uptime
  unclaimed : ∀ slot entry, current.1.rxUnclaimed slot = some entry →
    swept.rxUnclaimed.Holds entry ∨
      ReadSince swept current.1 entry.key entry.time ∧ entry.inserted ≤ current.1.uptime
  holding : ∀ capture, current.2 = .holding capture →
    .acknowledged capture ∈ newEvents swept current.1
  stamped : ∀ pkt time, .stamped pkt time ∈ newEvents swept current.1 →
    Stampable frame swept current.1 pkt time

variable {frame : PtpFrame} {swept world next : World} {stage stage' : Stage}

/-- What has been read since then has been read later on. -/
theorem ReadSince.later {key : MsgKey} {time : PtpTime} (readSince : ReadSince swept world key time)
    (before : Onward swept world) (after : Onward world next) : ReadSince swept next key time := by
  obtain ⟨capture, read, own⟩ := readSince
  exact ⟨capture, before.subset_newEvents after read, own⟩

/-- What may be stamped may be stamped later on. -/
theorem Stampable.later {pkt : PktId} {time : PtpTime}
    (stampable : Stampable frame swept world pkt time) (before : Onward swept world)
    (after : Onward world next) : Stampable frame swept next pkt time := by
  apply stampable.imp_left
  rintro ⟨key, waiting, readSince⟩
  exact ⟨key, waiting, readSince.later before after⟩

/-- What is new since the sweep was new before or has just been recorded. -/
theorem mem_newEvents_append {later : List Event} (onward : Onward swept world)
    (history : next.history = world.history ++ later) {event : Event} :
    event ∈ newEvents swept next ↔ event ∈ newEvents swept world ∨ event ∈ later := by
  obtain ⟨since, grown⟩ := onward.history
  simp only [newEvents, history, ← grown, List.append_assoc, List.drop_left, List.mem_append]

namespace Drawn

/-- One more change. -/
theorem extend (drawn : Drawn frame swept (world, stage)) (after : Onward world next)
    (later : List Event) (history : next.history = world.history ++ later)
    (pending : ∀ slot entry, next.rxPending slot = some entry →
      world.rxPending.Holds entry ∨ (entry.pkt, entry.key) = frame ∧ entry.inserted ≤ next.uptime)
    (unclaimed : ∀ slot entry, next.rxUnclaimed slot = some entry →
      world.rxUnclaimed.Holds entry ∨
        ReadSince swept next entry.key entry.time ∧ entry.inserted ≤ next.uptime)
    (holding : ∀ capture, stage' = .holding capture →
      stage = .holding capture ∨ .acknowledged capture ∈ later)
    (stamped : ∀ pkt time, .stamped pkt time ∈ later → Stampable frame swept next pkt time) :
    Drawn frame swept (next, stage') where
  onward := drawn.onward.trans after
  pending := by
    intro slot entry held
    rcases pending slot entry held with ⟨slot', old⟩ | new
    · apply (drawn.pending slot' entry old).imp_right
      exact fun ⟨own, inserted⟩ => ⟨own, inserted.trans after.uptime⟩
    · exact .inr new
  unclaimed := by
    intro slot entry held
    rcases unclaimed slot entry held with ⟨slot', old⟩ | new
    · apply (drawn.unclaimed slot' entry old).imp_right
      exact fun ⟨readSince, inserted⟩ =>
        ⟨readSince.later drawn.onward after, inserted.trans after.uptime⟩
    · exact .inr new
  holding := by
    intro capture inHand
    rw [mem_newEvents_append drawn.onward history]
    exact (holding capture inHand).imp_left (drawn.holding capture)
  stamped := by
    intro pkt time member
    rcases (mem_newEvents_append drawn.onward history).mp member with old | new
    · exact (drawn.stamped pkt time old).later drawn.onward after
    · exact stamped pkt time new

variable {pkt : PktId} {key : MsgKey}

/-- A sweep brings nothing new. -/
theorem shrink (drawn : Drawn frame swept (world, stage)) (shrinks : Shrinks world next) :
    Drawn frame swept (next, stage) := by
  obtain ⟨pending, unclaimed, uptime, later, history, unmatched⟩ := shrinks
  refine drawn.extend ⟨uptime, history ▸ List.prefix_append _ _⟩ later history
    (fun slot entry held => .inl ⟨slot, pending slot entry held⟩)
    (fun slot entry held => .inl ⟨slot, unclaimed slot entry held⟩) (fun _ => .inl) ?_
  intro pkt time member
  cases unmatched _ member

/-- A waiting packet is stamped with the event in hand. -/
theorem stampable_of_holding {capture : Capture}
    (drawn : Drawn frame swept (world, .holding capture)) (after : Onward world next)
    (waiting : Waiting frame swept (pkt, capture.key)) :
    Stampable frame swept next pkt capture.time :=
  .inl ⟨capture.key, waiting, capture,
    drawn.onward.subset_newEvents after (drawn.holding capture rfl), rfl, rfl⟩

/-- Parking a frame brings its entry. -/
private theorem park (drawn : Drawn (pkt, key) swept (world, .searching)) {parked : World}
    {slot : Fin rxPendingMax} {evicted : Option RxPending}
    (same : Quiet ((evicted.elim world fun entry => world.record (.unref entry.pkt)).record
      (.ref pkt)) parked) :
    Drawn (pkt, key) swept
      ({ parked with
        rxPending := parked.rxPending.fill slot ⟨pkt, key, parked.uptime + rxPendingTimeoutMs⟩ },
        .queued) := by
  have freed : Shrinks world ((evicted.elim world fun entry =>
      world.record (.unref entry.pkt)).record (.ref pkt)) := by
    cases evicted with
    | none => exact ⟨fun _ _ => id, fun _ _ => id, le_refl _, [.ref pkt], rfl, by simp [Event.matching]⟩
    | some entry =>
        exact ⟨fun _ _ => id, fun _ _ => id, le_refl _, [.unref entry.pkt, .ref pkt],
          by simp [World.record], by simp [Event.matching]⟩
  obtain ⟨pending, unclaimed, uptime, later, history, unmatched⟩ :=
    freed.trans (Shrinks.of_quiet same)
  refine drawn.extend ⟨uptime, history ▸ List.prefix_append _ _⟩ later history ?_
    (fun slot entry held => .inl ⟨slot, unclaimed slot entry held⟩) (by simp) ?_
  · intro slot' entry held
    rcases SlotTable.fill_eq_some.mp held with ⟨_, rfl⟩ | ⟨_, old⟩
    · exact .inr ⟨rfl, by simp [RxPending.inserted]⟩
    · exact .inl ⟨slot', pending slot' entry old⟩
  · intro _ time member
    cases unmatched _ member

/-- Every move. -/
theorem move (drawn : Drawn (pkt, key) swept (world, stage))
    (move : Move pkt key (world, stage) (next, stage')) :
    Drawn (pkt, key) swept (next, stage') := by
  have after := move.onward
  cases move with
  | sweep sweep => exact drawn.shrink (.of_sweep sweep)
  | claim slot entry held matching =>
      refine drawn.extend after [.stamped pkt entry.time,
        .logged (.rxMatchedUnclaimed entry.key entry.time)] (by simp [World.record])
        (fun slot entry held => .inl ⟨slot, held⟩)
        (fun slot' _ kept => .inl ⟨slot', (SlotTable.release_eq_some.mp kept).2⟩) (by simp) ?_
      intro stampedPkt time member
      obtain ⟨rfl, rfl⟩ : stampedPkt = pkt ∧ time = entry.time := by simpa using member
      rcases drawn.unclaimed slot entry held with old | ⟨readSince, _⟩
      · exact .inr ⟨rfl, entry, old, matching, rfl⟩
      · exact .inl ⟨entry.key, .inl (by rw [matching]), readSince.later drawn.onward after⟩
  | acknowledge capture rest chip head popped =>
      refine drawn.extend after [.acknowledged capture] rfl
        (fun slot entry held => .inl ⟨slot, held⟩) (fun slot entry held => .inl ⟨slot, held⟩) ?_
        (by simp)
      rintro other ⟨rfl⟩
      exact .inr (by simp)
  | direct capture matching =>
      refine drawn.extend after [.stamped pkt capture.time] rfl
        (fun slot entry held => .inl ⟨slot, held⟩) (fun slot entry held => .inl ⟨slot, held⟩)
        (by simp) ?_
      intro stampedPkt time member
      obtain ⟨rfl, rfl⟩ : stampedPkt = pkt ∧ time = capture.time := by simpa using member
      exact drawn.stampable_of_holding after (.inl (by rw [matching]))
  | matchPending capture slot entry held matching other =>
      refine drawn.extend after [.stamped entry.pkt capture.time,
        .logged (.rxMatchedPending capture.key capture.time), .unref entry.pkt]
        (by simp [World.record]) (fun slot' _ kept => .inl ⟨slot', (SlotTable.release_eq_some.mp kept).2⟩)
        (fun slot entry held => .inl ⟨slot, held⟩) (by simp) ?_
      intro stampedPkt time member
      obtain ⟨rfl, rfl⟩ : stampedPkt = entry.pkt ∧ time = capture.time := by simpa using member
      apply drawn.stampable_of_holding after
      rcases drawn.pending slot entry held with old | ⟨own, _⟩
      · exact .inr ⟨entry, old, by rw [matching]⟩
      · exact .inl (by rw [← matching, own])
  | stash capture slot unmatched other room =>
      refine drawn.extend after [] (by simp) (fun slot entry held => .inl ⟨slot, held⟩) ?_
        (by simp) (by simp)
      intro slot' entry held
      rcases SlotTable.fill_eq_some.mp held with ⟨_, rfl⟩ | ⟨_, old⟩
      · refine .inr ⟨⟨capture, ?_, rfl, rfl⟩, by simp [RxUnclaimed.inserted]⟩
        exact drawn.onward.subset_newEvents after (drawn.holding capture rfl)
      · exact .inl ⟨slot', old⟩
  | park slot evicted here room eligible fresh unclaimed same => exact drawn.park same

/-- From a swept state on, whatever moves are made. -/
theorem moves {current : World × Stage} (moves : Moves pkt key (swept, .searching) current) :
    Drawn (pkt, key) swept current := by
  induction moves with
  | refl =>
      constructor
      case onward => exact .refl swept
      case pending => exact fun slot entry held => .inl ⟨slot, held⟩
      case unclaimed => exact fun slot entry held => .inl ⟨slot, held⟩
      case holding => exact nofun
      case stamped => simp [newEvents]
  | tail _ move inductionHypothesis => exact inductionHypothesis.move move

end Drawn

end Inside

/-! ### Calls -/

/-- A call on no frame at most sweeps; a check sweeps at a time and then makes its moves. -/
def Parts (frame? : Option PtpFrame) (before after : World) : Prop :=
  match frame? with
  | none => Shrinks before after
  | some frame => ∃ swept now, Shrinks before swept ∧ before.uptime ≤ now ∧
      (∀ entry, swept.rxPending.Holds entry → before.rxPending.Holds entry ∧ now < entry.deadline) ∧
      (∀ entry, swept.rxUnclaimed.Holds entry →
        before.rxUnclaimed.Holds entry ∧ now < entry.deadline) ∧
      ∃ stage, Drawn frame swept (after, stage)

/-- What is left of a table was in it. -/
theorem holds_of_filter {Entry : Type} {table swept : SlotTable Entry rxPendingMax} {test : Entry → Bool}
    (filtered : ∀ slot, swept slot = (table slot).filter test) {entry : Entry}
    (holds : swept.Holds entry) : table.Holds entry ∧ test entry = true := by
  obtain ⟨slot, held⟩ := holds
  rw [filtered, Option.filter_eq_some_iff] at held
  exact ⟨⟨slot, held.1⟩, held.2⟩

/-- Every call of the check has these parts. -/
theorem rxCall_parts {world : World} (rxCall : RxCall) (fresh : rxCall.Fresh world) :
    lan9250.Completes lan9250.unguarded rxCall.body world fun _ next =>
      Parts rxCall.frame? world next := by
  cases rxCall with
  | expire =>
      apply (expire_swept live_unguarded).weaken
      rintro _ next ⟨sweeps, _⟩
      exact .of_sweeps sweeps
  | check pkt pktLen =>
      apply rxTimestampCheck_cases live_unguarded
      · intro unknown next same
        simp only [Parts, RxCall.frame?, unknown, Option.map_none]
        exact .of_quiet same
      · intro key known
        apply (rxTimestampMatch_parts live_unguarded pkt.id key (fresh (by simp [known]))).weaken
        rintro _ next ⟨swept, now, stage, sweeps, pending, unclaimed, moves, _, turnover⟩
        simp only [Parts, RxCall.frame?, known, Option.map_some]
        refine ⟨swept, now, .of_sweeps sweeps, turnover.during.1, ?_, ?_, stage, Drawn.moves moves⟩
        · intro entry holds
          simpa using holds_of_filter pending holds
        · intro entry holds
          simpa using holds_of_filter unclaimed holds

/-! ### Runs -/

/-- What the entries of the tables come from. -/
structure Traced (calls : List RxCalled) (world : World) : Prop where
  pending : ∀ entry, world.rxPending.Holds entry → ∃ checking,
    CheckedLast calls (entry.pkt, entry.key) checking ∧ entry.inserted ≤ checking.after.uptime
  unclaimed : ∀ entry, world.rxUnclaimed.Holds entry → ∃ reading capture, reading ∈ calls ∧
    Reads reading capture ∧ capture.key = entry.key ∧ capture.time = entry.time ∧
      entry.inserted ≤ reading.after.uptime
  past : ∀ called ∈ calls, called.before.uptime ≤ world.uptime

namespace CheckedLast

variable {calls : List RxCalled} {frame : PtpFrame} {checking called : RxCalled}

/-- The last check of a frame is one of the calls. -/
theorem member (last : CheckedLast calls frame checking) : checking ∈ calls := by
  obtain ⟨_, earlier, later, rfl, _⟩ := last
  simp

/-- The check itself. -/
theorem self (own : called.call.frame? = some frame) :
    CheckedLast (calls ++ [called]) frame called :=
  ⟨own, calls, [], rfl, by simp⟩

/-- A call which checks another packet or none. -/
theorem append (last : CheckedLast calls frame checking)
    (other : ∀ key, called.call.frame? ≠ some (frame.1, key)) :
    CheckedLast (calls ++ [called]) frame checking := by
  obtain ⟨own, earlier, later, rfl, since⟩ := last
  refine ⟨own, earlier, later ++ [called], by simp, ?_⟩
  intro each member key
  rcases List.mem_append.mp member with old | new
  · exact since each old key
  · exact List.mem_singleton.mp new ▸ other key

end CheckedLast

/-- A frame which is checked afresh is not held. -/
theorem unparked_of_fresh {world : World} {rxCall : RxCall} {frame : PtpFrame}
    (fresh : rxCall.Fresh world) (checks : rxCall.frame? = some frame) : Unparked world frame.1 := by
  cases rxCall with
  | expire => cases checks
  | check pkt pktLen =>
      obtain ⟨key, known, rfl⟩ := Option.map_eq_some_iff.mp checks
      exact fresh (by simp [known])

namespace Traced

variable {calls : List RxCalled} {called : RxCalled}

/-- A call which checks no frame. -/
theorem idle (traced : Traced calls called.before) (unchecked : called.call.frame? = none)
    (shrinks : Shrinks called.before called.after) : Traced (calls ++ [called]) called.after where
  pending := by
    rintro entry ⟨slot, held⟩
    obtain ⟨checking, last, inserted⟩ :=
      traced.pending entry ⟨slot, shrinks.pending slot entry held⟩
    exact ⟨checking, last.append (by simp [unchecked]), inserted⟩
  unclaimed := by
    rintro entry ⟨slot, held⟩
    obtain ⟨reading, capture, member, rest⟩ :=
      traced.unclaimed entry ⟨slot, shrinks.unclaimed slot entry held⟩
    exact ⟨reading, capture, by simp [member], rest⟩
  past := by
    intro each member
    rcases List.mem_append.mp member with old | new
    · exact (traced.past each old).trans shrinks.uptime
    · exact List.mem_singleton.mp new ▸ shrinks.uptime

section Check

variable {frame : PtpFrame} {swept : World} {now : Int} {stage : Stage}
  (traced : Traced calls called.before) (unparked : Unparked called.before frame.1)
  (checks : called.call.frame? = some frame) (shrinks : Shrinks called.before swept)
  (past : called.before.uptime ≤ now)
  (pending : ∀ entry, swept.rxPending.Holds entry →
    called.before.rxPending.Holds entry ∧ now < entry.deadline)
  (unclaimed : ∀ entry, swept.rxUnclaimed.Holds entry →
    called.before.rxUnclaimed.Holds entry ∧ now < entry.deadline)
  (drawn : Drawn frame swept (called.after, stage))

include traced unparked checks pending

/-- What was waiting has been checked last by an earlier call. -/
theorem waiting {entry : RxPending} (holds : swept.rxPending.Holds entry) :
    ∃ checking ∈ calls, CheckedLast (calls ++ [called]) (entry.pkt, entry.key) checking ∧
      entry.inserted ≤ checking.after.uptime := by
  obtain ⟨⟨slot, held⟩, _⟩ := pending entry holds
  obtain ⟨checking, last, inserted⟩ := traced.pending entry ⟨slot, held⟩
  refine ⟨checking, last.member, last.append ?_, inserted⟩
  intro key same
  rw [checks, Option.some.injEq] at same
  exact unparked slot entry held (congrArg Prod.fst same).symm

include shrinks unclaimed drawn

/-- A call which checks a frame. -/
theorem check : Traced (calls ++ [called]) called.after where
  pending := by
    rintro entry ⟨slot, held⟩
    rcases drawn.pending slot entry held with old | ⟨own, inserted⟩
    · obtain ⟨checking, _, last, inserted⟩ := traced.waiting unparked checks pending old
      exact ⟨checking, last, inserted⟩
    · exact ⟨called, .self (checks.trans (congrArg some own.symm)), inserted⟩
  unclaimed := by
    rintro entry ⟨slot, held⟩
    rcases drawn.unclaimed slot entry held with old | ⟨⟨capture, read, own⟩, inserted⟩
    · obtain ⟨reading, capture, member, rest⟩ := traced.unclaimed entry (unclaimed entry old).1
      exact ⟨reading, capture, by simp [member], rest⟩
    · exact ⟨called, capture, by simp, shrinks.onward.newEvents_subset read, own.1, own.2, inserted⟩
  past := by
    intro each member
    have goes := shrinks.uptime.trans drawn.onward.uptime
    rcases List.mem_append.mp member with old | new
    · exact (traced.past each old).trans goes
    · exact List.mem_singleton.mp new ▸ goes

include past

/-- What it stamps. -/
theorem stamped {pkt : PktId} {time : PtpTime}
    (stamped : .stamped pkt time ∈ newEvents called.before called.after) :
    Sourced (calls ++ [called]) pkt time := by
  have goes : called.before.uptime ≤ called.after.uptime :=
    shrinks.uptime.trans drawn.onward.uptime
  have timeout : 0 < rxPendingTimeoutMs := by decide
  rcases drawn.stamped pkt time (shrinks.matched_since drawn.onward rfl stamped) with
    ⟨key, waits, capture, read, rfl, rfl⟩ | ⟨rfl, entry, holds, own, rfl⟩
  · have reads : Reads called capture := shrinks.onward.newEvents_subset read
    rcases waits with own | ⟨entry, holds, own⟩
    · exact ⟨called, called, capture, .self (checks.trans (congrArg some own.symm)), by simp, reads,
        ⟨by omega, by omega⟩, rfl⟩
    · obtain ⟨checking, member, last, inserted⟩ := traced.waiting unparked checks pending holds
      have young := (pending entry holds).2
      have earlier := traced.past checking member
      rw [RxPending.inserted] at inserted
      exact ⟨checking, called, capture, own ▸ last, by simp, reads, ⟨by omega, by omega⟩, rfl⟩
  · obtain ⟨reading, capture, member, reads, same, time, inserted⟩ :=
      traced.unclaimed entry (unclaimed entry holds).1
    have young := (unclaimed entry holds).2
    have earlier := traced.past reading member
    rw [RxUnclaimed.inserted] at inserted
    refine ⟨called, reading, capture, .self ?_, by simp [member], reads, ⟨by omega, by omega⟩, time⟩
    rw [checks, same, own]

end Check
end Traced

/-- Every call of a run traces what it leaves and what it stamps. -/
theorem Traced.step {calls : List RxCalled} {before after : World} {choice : RxCall × List Choice}
    {events : List RxCalled} (traced : Traced calls before) (fresh : checksFresh before choice)
    (step : rxCalls.Step before choice events after) :
    ∃ called, events = [called] ∧ Traced (calls ++ [called]) after ∧ ∀ pkt time,
      .stamped pkt time ∈ newEvents called.before called.after →
        Sourced (calls ++ [called]) pkt time := by
  obtain ⟨result, returns, rfl⟩ := step
  refine ⟨_, rfl, ?_⟩
  have parts := returns.of_completes (rxCall_parts choice.1 fresh)
  cases checks : choice.1.frame? with
  | none =>
      rw [checks] at parts
      refine ⟨traced.idle checks parts, fun pkt time stamped => ?_⟩
      have none := parts.matched_since (.refl after) rfl stamped
      simp [newEvents] at none
  | some frame =>
      rw [checks] at parts
      obtain ⟨swept, now, shrinks, past, pending, unclaimed, stage, drawn⟩ := parts
      have unparked := unparked_of_fresh fresh checks
      exact ⟨traced.check unparked checks shrinks pending unclaimed drawn, fun pkt time =>
        traced.stamped unparked checks shrinks past pending unclaimed drawn⟩

section Senders

variable {start finish : World} {choices : List (RxCall × List Choice)} {calls : List RxCalled}

/-- Every packet is stamped with the time of an event which bears the message of its frame and
was read near its check. -/
theorem stamps_sourced (initially : rxCalls.Initial start)
    (run : rxCalls.Run checksFresh start choices calls finish) : StampsAre Sourced calls := by
  obtain ⟨pending, unclaimed, _⟩ := initially
  refine (run.invariant (fun world calls => Traced calls world ∧ StampsAre Sourced calls)
    ⟨?_, Recorded.nil⟩ ?_).2
  · constructor <;> simp [pending, unclaimed, SlotTable.Holds, SlotTable.empty]
  · rintro world calls choice emitted next ⟨traced, earlier⟩ fresh step
    obtain ⟨called, rfl, traced', stamps⟩ := traced.step fresh step
    exact ⟨traced', earlier.append_singleton stamps⟩

/-- Whatever the senders' numbers: a timestamp is that of an event with the frame's
`messageType` and `sequenceId` which was read near the frame's check; and where every such event
is the frame's own, it is the frame's own time. -/
theorem stamped_from_window (initially : rxCalls.Initial start)
    (run : rxCalls.Run checksFresh start choices calls finish) :
    StampsAre Sourced calls ∧ ∀ own, Uncontested own calls → StampsAre (OwnTime own) calls := by
  have sourced := stamps_sourced initially run
  refine ⟨sourced, fun own uncontested => ?_⟩
  intro earlier stamping later split pkt time stamped
  obtain ⟨checking, reading, capture, last, member, reads, near, rfl⟩ :=
    sourced earlier stamping later split pkt time stamped
  have within {called : RxCalled} (member : called ∈ earlier ++ [stamping]) : called ∈ calls := by
    rw [split, List.append_cons]
    exact List.mem_append_left _ member
  have same := uncontested checking (within last.member) pkt capture.key last.1 reading
    (within member) capture reads rfl near
  exact ⟨capture.key, checking, last, congrArg Capture.time same.symm⟩

end Senders

/-! ### Two senders -/

/-- The frame a call checks, and the events it captures, reads and attaches. -/
def RxCalled.shown (called : RxCalled) : Option PtpFrame × List Event :=
  (called.call.frame?, (newEvents called.before called.after).filter fun event =>
    event matches .captured _ | .acknowledged _ | .stamped _ _)

/-- Two checks, one after the other. -/
def twoChecks (first second : RxCall × List Choice) :
    Option (List (Option PtpFrame × List Event)) :=
  (lan9250.playCalls (fun _ _ _ => true) (fun world rxCall => rxCall.Fresh world) RxCall.body .idle
    [first, second]).map fun (calls, _) => calls.map RxCalled.shown

/-- They are a run. -/
theorem run_of_twoChecks {first second : RxCall × List Choice}
    {one other : Option PtpFrame × List Event} (played : twoChecks first second = some [one, other]) :
    ∃ choices finish, ∃ called called' : RxCalled,
      rxCalls.Run checksFresh .idle choices [called, called'] finish ∧
        called.shown = one ∧ called'.shown = other := by
  obtain ⟨⟨calls, finish⟩, ran, facts⟩ := Option.map_eq_some_iff.mp played
  obtain ⟨choices, run⟩ := rxCalls_of_play ran
  obtain ⟨called, rest, rfl, same, facts⟩ := List.map_eq_cons_iff.mp facts
  obtain ⟨called', rest, rfl, same', facts⟩ := List.map_eq_cons_iff.mp facts
  obtain rfl := List.map_eq_nil_iff.mp facts
  exact ⟨choices, finish, called, called', run, same, same'⟩

/-- Events a call shows have been recorded during it. -/
theorem RxCalled.mem_of_shown {called : RxCalled} {frame? : Option PtpFrame} {events : List Event}
    (shows : called.shown = (frame?, events)) {event : Event} (member : event ∈ events) :
    event ∈ newEvents called.before called.after := by
  have same : (called.shown).2 = events := congrArg Prod.snd shows
  rw [← same] at member
  exact List.mem_of_mem_filter member

/-- And every event a call has read is shown. -/
theorem RxCalled.shown_of_reads {called : RxCalled} {frame? : Option PtpFrame} {events : List Event}
    (shows : called.shown = (frame?, events)) {capture : Capture} (reads : Reads called capture) :
    .acknowledged capture ∈ events := by
  have same : (called.shown).2 = events := congrArg Prod.snd shows
  rw [← same]
  exact List.mem_filter.mpr ⟨reads, rfl⟩

/-- Delay_Req 5 and Delay_Req 6. -/
def delayReq5 : MsgKey := ⟨1, 5⟩
def delayReq6 : MsgKey := ⟨1, 6⟩

/-- Two senders' Delay_Req 5 come one after the other, and so do their events; the second packet
is stamped with the time of the first frame. -/
theorem second_sender_misstamped : ∃ choices finish, ∃ called called' : RxCalled, ∃ own,
    rxCalls.Initial .idle ∧ rxCalls.Run checksFresh .idle choices [called, called'] finish ∧
    called.shown = (some (7, delayReq5), []) ∧
    called'.shown = (some (8, delayReq5), [.captured (own called), .captured (own called'),
      .acknowledged (own called), .stamped 8 (own called).time]) ∧
    (own called).key = delayReq5 ∧ (own called').key = delayReq5 ∧
    ¬StampsAre (OwnTime own) [called, called'] := by
  let first5 : Capture := ⟨0x00010005, 100, 1⟩
  let second5 : Capture := ⟨0x00010005, 200, 2⟩
  have played : twoChecks (checkAt 7 delayReq5 []) (checkAt 8 delayReq5 [first5, second5]) =
      some [(some (7, delayReq5), []), (some (8, delayReq5), [.captured first5, .captured second5,
        .acknowledged first5, .stamped 8 first5.time])] := by
    decide +kernel
  obtain ⟨choices, finish, called, called', run, shows, shows'⟩ := run_of_twoChecks played
  have checks : called.call.frame? = some (7, delayReq5) := congrArg Prod.fst shows
  have checks' : called'.call.frame? = some (8, delayReq5) := congrArg Prod.fst shows'
  let own (each : RxCalled) : Capture :=
    if each.call.frame? = some (7, delayReq5) then first5 else second5
  have owns : own called = first5 := if_pos checks
  have owns' : own called' = second5 := if_neg (by rw [checks']; decide)
  refine ⟨choices, finish, called, called', own, ⟨rfl, rfl, rfl⟩, run, shows, ?_, ?_, ?_, ?_⟩
  · rw [owns, owns']
    exact shows'
  · rw [owns]
    decide
  · rw [owns']
    decide
  · intro stamps
    obtain ⟨key, checking, ⟨checked, earlier, later, split, since⟩, time⟩ :=
      stamps [called] called' [] rfl 8 first5.time (RxCalled.mem_of_shown shows' (by simp))
    -- The second packet's frame is checked by the second call only.
    have member : checking ∈ [called, called'] := by
      rw [show [called, called'] = earlier ++ checking :: later from split]
      simp
    rcases List.mem_pair.mp member with rfl | rfl
    · rw [checks] at checked
      exact absurd (congrArg (Option.map Prod.fst) checked) (by simp)
    · rw [owns'] at time
      exact absurd time (by decide)

/-- One sender's Delay_Req 5 waits and another's Delay_Req 6 is stamped with its own time, which
was read before. -/
theorem other_number_stamped : ∃ choices finish, ∃ called called' : RxCalled, ∃ own,
    rxCalls.Run checksFresh .idle choices [called, called'] finish ∧
    StampsAre Sourced [called, called'] ∧ StampsAre (OwnTime own) [called, called'] ∧
    called.call.frame? = some (7, delayReq5) ∧ called'.call.frame? = some (8, delayReq6) ∧
    (own called').key = delayReq6 ∧
    .stamped 8 (own called').time ∈ newEvents called'.before called'.after := by
  let own6 : Capture := ⟨0x00010006, 200, 2⟩
  let own5 : Capture := ⟨0x00010005, 100, 1⟩
  have played : twoChecks (checkAt 7 delayReq5 [own6, own5]) (checkAt 8 delayReq6 []) =
      some [(some (7, delayReq5), [.captured own6, .captured own5, .acknowledged own6]),
        (some (8, delayReq6), [.stamped 8 own6.time])] := by
    decide +kernel
  obtain ⟨choices, finish, called, called', run, shows, shows'⟩ := run_of_twoChecks played
  have checks : called.call.frame? = some (7, delayReq5) := congrArg Prod.fst shows
  have checks' : called'.call.frame? = some (8, delayReq6) := congrArg Prod.fst shows'
  let own (each : RxCalled) : Capture :=
    if each.call.frame? = some (7, delayReq5) then own5 else own6
  have owns' : own called' = own6 := if_neg (by rw [checks']; decide)
  obtain ⟨sourced, owned⟩ := stamped_from_window ⟨rfl, rfl, rfl⟩ run
  have uncontested : Uncontested own [called, called'] := by
    intro checking member pkt key checked reading member' capture reads rfl _
    rcases List.mem_pair.mp member' with rfl | rfl
    · obtain rfl : capture = own6 := by simpa using RxCalled.shown_of_reads shows reads
      rcases List.mem_pair.mp member with rfl | rfl
      · rw [checks] at checked
        exact absurd (Prod.mk.inj (Option.some.inj checked)).2 (by decide)
      · exact owns'.symm
    · have none := RxCalled.shown_of_reads shows' reads
      simp at none
  refine ⟨choices, finish, called, called', own, run, sourced, owned own uncontested, checks, checks',
    ?_, ?_⟩
  · rw [owns']
    decide
  · rw [owns']
    exact RxCalled.mem_of_shown shows' (by simp)

end Rp2350Stepper.Lan9250
