import Rp2350Stepper.Lan9250.LinkThread

/-!
# The carrier follows the link

As long as `INTERRUPT_SOURCE` is not read with both flags latched while the link is down,
the carrier is where the link is whenever no flag is left to service; and the thread waits
for an interrupt only then. Such a read leaves the carrier on while the link is down.
-/

namespace Rp2350Stepper.Lan9250

open Rp2350Stepper.Semantics

/-! ### Latched flags -/

/-- `LINK_UP` is latched. -/
def SawUp (source : BitVec 16) : Prop := source &&& sourceLinkUp ≠ 0

/-- `LINK_DOWN` is latched. -/
def SawDown (source : BitVec 16) : Prop := source &&& sourceLinkDown ≠ 0

instance (source : BitVec 16) : Decidable (SawUp source) := inferInstanceAs (Decidable (_ ≠ _))

instance (source : BitVec 16) : Decidable (SawDown source) := inferInstanceAs (Decidable (_ ≠ _))

section Flags

variable {source flag : BitVec 16}

/-- Latching flags. -/
theorem latch_iff (flags : BitVec 16) :
    (source ||| flags) &&& flag ≠ 0 ↔ source &&& flag ≠ 0 ∨ flags &&& flag ≠ 0 := by
  have both : source &&& flag ||| flags &&& flag = 0#16 ↔ source &&& flag = 0#16 ∧ flags &&& flag = 0#16 :=
    BitVec.or_eq_zero_iff
  rw [BitVec.and_or_distrib_right, ← not_and_or]
  exact not_congr both

/-- Latching flags apart from one. -/
theorem latch_apart_iff {flags : BitVec 16} (apart : flags &&& flag = 0) :
    (source ||| flags) &&& flag ≠ 0 ↔ source &&& flag ≠ 0 := by
  rw [latch_iff, apart]
  exact or_iff_left (not_not.mpr rfl)

/-- The up flag is seen. -/
@[simp] theorem sawUp_linkUp : SawUp (source ||| sourceLinkUp) :=
  (latch_iff _).mpr (.inr (by decide))

/-- The down flag does not hide it. -/
@[simp] theorem sawUp_linkDown : SawUp (source ||| sourceLinkDown) ↔ SawUp source :=
  latch_apart_iff (by decide)

/-- The down flag is seen. -/
@[simp] theorem sawDown_linkDown : SawDown (source ||| sourceLinkDown) :=
  (latch_iff _).mpr (.inr (by decide))

/-- The up flag does not hide it. -/
@[simp] theorem sawDown_linkUp : SawDown (source ||| sourceLinkUp) ↔ SawDown source :=
  latch_apart_iff (by decide)

/-- Other flags. -/
@[simp] theorem sawUp_other (flags : BitVec 16) :
    SawUp (source ||| flags &&& ~~~linkFlags) ↔ SawUp source := by
  apply latch_apart_iff
  have other : ~~~linkFlags &&& sourceLinkUp = 0#16 := by decide
  rw [BitVec.and_assoc, other]
  exact BitVec.and_zero

@[simp] theorem sawDown_other (flags : BitVec 16) :
    SawDown (source ||| flags &&& ~~~linkFlags) ↔ SawDown source := by
  apply latch_apart_iff
  have other : ~~~linkFlags &&& sourceLinkDown = 0#16 := by decide
  rw [BitVec.and_assoc, other]
  exact BitVec.and_zero

/-- Without flags nothing has come up. -/
@[simp] theorem not_sawUp_zero : ¬SawUp 0 := by decide

@[simp] theorem not_sawDown_zero : ¬SawDown 0 := by decide

/-- Nothing of the link is latched. -/
theorem unlatched_iff : source &&& linkFlags = 0 ↔ ¬SawUp source ∧ ¬SawDown source := by
  have both : source &&& sourceLinkUp ||| source &&& sourceLinkDown = 0#16 ↔
      source &&& sourceLinkUp = 0#16 ∧ source &&& sourceLinkDown = 0#16 := BitVec.or_eq_zero_iff
  rw [linkFlags, BitVec.and_or_distrib_left, SawUp, SawDown, not_not, not_not]
  exact both

end Flags

/-! ### What the flags tell -/

/-- Where the link is, as far as the flags tell, when it was there at their last reading. -/
structure Tracks (reference : Bool) (link : Link) : Prop where
  unmoved : ¬SawUp link.source → ¬SawDown link.source → link.up = reference
  risen : SawUp link.source → ¬SawDown link.source → link.up = true
  fallen : ¬SawUp link.source → SawDown link.source → link.up = false

/-- An active line has woken the thread. -/
def Armed (link : Link) : Prop := link.line = true → 0 < link.intSem

namespace Link

variable {link next : Link} {reference : Bool}

/-- Settling changes no link. -/
@[simp] theorem settle_up : (link.settle next).up = next.up := by unfold settle; split <;> rfl

/-- Settling changes no flag. -/
@[simp] theorem settle_source : (link.settle next).source = next.source := by
  unfold settle; split <;> rfl

/-- Settling takes no frame. -/
@[simp] theorem settle_rsfl : (link.settle next).rsfl = next.rsfl := by unfold settle; split <;> rfl

/-- Settling enables no interrupt. -/
@[simp] theorem settle_intEn : (link.settle next).intEn = next.intEn := by
  unfold settle; split <;> rfl

/-- Settling changes no carrier. -/
@[simp] theorem settle_carrier : (link.settle next).carrier = next.carrier := by
  unfold settle; split <;> rfl

/-- Settling does not move the interrupt line. -/
@[simp] theorem settle_line : (link.settle next).line = next.line := by unfold settle; split <;> rfl

/-- Settling changes nothing that is tracked. -/
theorem tracks_settle (tracks : Tracks reference next) : Tracks reference (link.settle next) := by
  obtain ⟨unmoved, risen, fallen⟩ := tracks
  constructor <;> simpa

/-- A rising line wakes the thread. -/
theorem armed_settle (armed : Armed link) (kept : next.intSem = link.intSem) :
    Armed (link.settle next) := by
  intro active
  rw [settle_line] at active
  unfold settle
  split
  · exact Nat.succ_pos _
  · rename_i still
    rw [active, Bool.and_true, Bool.not_eq_true', Bool.not_eq_false] at still
    rw [kept]
    exact armed still

/-- An event keeps what is tracked. -/
theorem tracks_apply (tracks : Tracks reference link) (event : LinkEvent) :
    Tracks reference (link.apply event) := by
  obtain ⟨unmoved, risen, fallen⟩ := tracks
  cases event with
  | transition =>
      cases up : link.up with
      | true => constructor <;> simp [apply, up]
      | false => constructor <;> simp [apply, up]
  | flags flags => constructor <;> simpa [apply]
  | frame => exact ⟨unmoved, risen, fallen⟩

/-- Events of the link leave the driver's side alone. -/
theorem apply_kept (event : LinkEvent) : (link.apply event).carrier = link.carrier ∧
    (link.apply event).intEn = link.intEn ∧ (link.apply event).intSem = link.intSem := by
  cases event <;> exact ⟨rfl, rfl, rfl⟩

/-- What events keep. -/
theorem advance_kept (link : Link) (events : List LinkEvent) :
    (link.advance events).carrier = link.carrier ∧ (link.advance events).intEn = link.intEn ∧
      (Tracks reference link → Tracks reference (link.advance events)) ∧
      (Armed link → Armed (link.advance events)) := by
  induction events generalizing link with
  | nil => exact ⟨rfl, rfl, id, id⟩
  | cons event events inductionHypothesis =>
      obtain ⟨carrier, intEn, tracks, armed⟩ := inductionHypothesis (link.settle (link.apply event))
      obtain ⟨carrier', intEn', intSem'⟩ : (link.apply event).carrier = link.carrier ∧
          (link.apply event).intEn = link.intEn ∧ (link.apply event).intSem = link.intSem :=
        apply_kept event
      exact ⟨carrier.trans (settle_carrier.trans carrier'), intEn.trans (settle_intEn.trans intEn'),
        fun before => tracks (tracks_settle (tracks_apply before event)),
        fun before => armed (armed_settle before intSem')⟩

/-- The flags show while their interrupt is enabled. -/
theorem line_of_latched (enabled : link.intEn = enabledInterrupts)
    (latched : link.source &&& linkFlags ≠ 0) : link.line = true := by
  unfold line status
  rw [enabled, if_pos latched]
  cases link.rsfl <;> decide

end Link

/-! ### One round -/

/-- Both flags are latched, and the link is down. -/
def Link.Ambiguous (link : Link) : Prop :=
  SawUp link.source ∧ SawDown link.source ∧ link.up = false

instance (link : Link) : Decidable link.Ambiguous := inferInstanceAs (Decidable (_ ∧ _))

/-- `INTERRUPT_SOURCE` is not read while both flags are latched and the link is down. -/
def Unambiguous (link : Link) (request : LinkRequest) (choice : LinkChoice) : Prop :=
  match request with
  | .readPhyReg address =>
      address = phyInterruptSource → ¬(link.advance choice.events).Ambiguous
  | _ => True

/-- What holds of the link inside a round, when the carrier is settled. -/
structure LinkSettled (link : Link) : Prop where
  tracks : Tracks link.carrier link
  masked : link.intEn = 0

/-- What holds of it between rounds. -/
structure Resting (link : Link) : Prop where
  tracks : Tracks link.carrier link
  enabled : link.intEn = enabledInterrupts
  armed : Armed link

/-- Once settled, events keep it so. -/
theorem LinkSettled.advance {link : Link} (settled : LinkSettled link) (events : List LinkEvent) :
    LinkSettled (link.advance events) := by
  obtain ⟨carrier, intEn, tracks, _⟩ := link.advance_kept events
  exact ⟨carrier ▸ tracks settled.tracks, intEn.trans settled.masked⟩

theorem Resting.advance {link : Link} (resting : Resting link) (events : List LinkEvent) :
    Resting (link.advance events) := by
  obtain ⟨carrier, intEn, tracks, armed⟩ := link.advance_kept events
  exact ⟨carrier ▸ tracks resting.tracks, intEn.trans resting.enabled, armed resting.armed⟩

/-- At first the link is at rest. -/
theorem Link.resting_initial : Resting Link.initial := by
  refine ⟨⟨?_, ?_, ?_⟩, rfl, ?_⟩
  · exact fun _ _ => rfl
  · exact fun up _ => absurd up not_sawUp_zero
  · exact fun _ down => absurd down not_sawDown_zero
  · unfold Armed
    decide

section Rounds

variable {link : Link}

/-- The last write to the carrier in a round. -/
private theorem carrier_ensures {request : LinkRequest} {up : Bool} {answered : LinkResponse request}
    (sets : ∀ choice, linkAnswer link request choice =
      some (answered, { link.advance choice.events with carrier := up }))
    (tracks : Tracks up link) (masked : link.intEn = 0) :
    linkDevice.Ensures Unambiguous (linkCall request) link fun _ after => LinkSettled after := by
  apply Device.Ensures.ask
  intro choice response after _ answered
  change linkAnswer link request choice = some (response, after) at answered
  rw [sets choice, Option.some.injEq, Prod.mk.injEq] at answered
  obtain ⟨_, rfl⟩ := answered
  obtain ⟨_, intEn, kept, _⟩ := link.advance_kept choice.events
  obtain ⟨unmoved, risen, fallen⟩ := kept tracks
  exact ⟨⟨unmoved, risen, fallen⟩, intEn.trans masked⟩

/-- Reading another PHY register. -/
private theorem readPhyReg_ensures {address : BitVec 8} (other : address ≠ phyInterruptSource)
    {reference : Bool} (tracks : Tracks reference link) (masked : link.intEn = 0) :
    linkDevice.Ensures Unambiguous (linkCall (.readPhyReg address)) link fun _ after =>
      Tracks reference after ∧ after.intEn = 0 := by
  apply Device.Ensures.ask
  intro choice response after _ answered
  simp only [linkAnswer, if_neg other, Option.some.injEq, Prod.mk.injEq] at answered
  obtain ⟨_, rfl⟩ := answered
  obtain ⟨_, intEn, kept, _⟩ := link.advance_kept choice.events
  exact ⟨kept tracks, intEn.trans masked⟩

/-- Once the source is read, the link is where the flags say. -/
private theorem readSource_ensures (settled : LinkSettled link) :
    linkDevice.Ensures Unambiguous (linkCall (.readPhyReg phyInterruptSource)) link fun tmp after =>
      Tracks (if SawUp tmp then true else if SawDown tmp then false else after.carrier) after ∧
        after.intEn = 0 := by
  apply Device.Ensures.ask
  intro choice tmp after allowed answered
  simp only [linkAnswer, if_true, Option.some.injEq, Prod.mk.injEq] at answered
  obtain ⟨rfl, rfl⟩ := answered
  have unambiguous : ¬(link.advance choice.events).Ambiguous := allowed rfl
  obtain ⟨⟨unmoved, risen, fallen⟩, masked⟩ := settled.advance choice.events
  refine ⟨⟨fun _ _ => ?_, fun up => absurd up not_sawUp_zero,
    fun _ down => absurd down not_sawDown_zero⟩, masked⟩
  by_cases up : SawUp (link.advance choice.events).source
  · rw [if_pos up]
    by_cases down : SawDown (link.advance choice.events).source
    · cases here : (link.advance choice.events).up with
      | true => rfl
      | false => exact absurd ⟨up, down, here⟩ unambiguous
    · exact risen up down
  · rw [if_neg up]
    by_cases down : SawDown (link.advance choice.events).source
    · rw [if_pos down]
      exact fallen up down
    · rw [if_neg down]
      exact unmoved up down

/-- Servicing the PHY settles the carrier. -/
theorem servicePhy_ensures (settled : LinkSettled link) :
    linkDevice.Ensures Unambiguous servicePhy link fun _ after => LinkSettled after := by
  apply Device.Ensures.bind
  refine (readSource_ensures settled).weaken ?_
  rintro tmp read ⟨tracks, masked⟩
  by_cases up : SawUp tmp
  · have rises : tmp &&& sourceLinkUp ≠ 0 := up
    rw [if_pos up] at tracks
    rw [if_pos rises]
    apply Device.Ensures.bind
    refine (readPhyReg_ensures (by decide) tracks masked).weaken ?_
    rintro _ middle ⟨tracks, masked⟩
    apply Device.Ensures.bind
    refine (readPhyReg_ensures (by decide) tracks masked).weaken ?_
    rintro _ last ⟨tracks, masked⟩
    exact carrier_ensures (fun _ => rfl) tracks masked
  · have stays : ¬tmp &&& sourceLinkUp ≠ 0 := up
    rw [if_neg up] at tracks
    rw [if_neg stays]
    by_cases down : SawDown tmp
    · have falls : tmp &&& sourceLinkDown ≠ 0 := down
      rw [if_pos down] at tracks
      rw [if_pos falls]
      exact carrier_ensures (fun _ => rfl) tracks masked
    · have rests : ¬tmp &&& sourceLinkDown ≠ 0 := down
      rw [if_neg down] at tracks
      rw [if_neg rests]
      exact Device.Ensures.pure ⟨tracks, masked⟩

/-- The requests of a round which leave the carrier alone while interrupts are masked. -/
def LinkRequest.aside : LinkRequest → Prop
  | .readSysReg _ | .rx => True
  | .writeSysReg address _ => address ≠ intEn
  | _ => False

/-- A request of another kind leaves the link settled. -/
theorem settled_of_answer {after : Link} {request : LinkRequest} {choice : LinkChoice}
    {response : LinkResponse request} (aside : request.aside) (settled : LinkSettled link)
    (answered : linkAnswer link request choice = some (response, after)) : LinkSettled after := by
  have advanced := settled.advance choice.events
  cases request with
  | readSysReg | rx => exact (Prod.mk.inj (Option.some.inj answered)).2 ▸ advanced
  | writeSysReg address value =>
      have other : address ≠ intEn := aside
      rw [← (Prod.mk.inj (Option.some.inj answered)).2, if_neg other]
      obtain ⟨⟨unmoved, risen, fallen⟩, masked⟩ := advanced
      split <;> exact ⟨⟨by simpa, by simpa, by simpa⟩, by simpa⟩
  | _ => exact aside.elim

/-- Programs of such requests. -/
theorem settled_of_only {α : Type} {program : Program linkInterface α}
    (only : program.Only LinkRequest.aside) (settled : LinkSettled link) :
    linkDevice.Ensures Unambiguous program link fun _ after => LinkSettled after :=
  Device.Ensures.of_only only settled fun _ _ _ _ _ aside settled _ answered =>
    settled_of_answer aside settled answered

/-- Enabling the interrupts again. -/
private theorem enable_ensures (settled : LinkSettled link) :
    linkDevice.Ensures Unambiguous (linkCall (.writeSysReg intEn enabledInterrupts)) link
      fun _ after => Resting after := by
  apply Device.Ensures.ask
  intro choice _ after _ answered
  simp only [linkAnswer, if_true, Option.some.injEq, Prod.mk.injEq, true_and] at answered
  subst answered
  obtain ⟨⟨unmoved, risen, fallen⟩, masked⟩ := settled.advance choice.events
  refine ⟨⟨by simpa, by simpa, by simpa⟩, Link.settle_intEn, ?_⟩
  have unarmed : Armed (link.advance choice.events) := by
    intro active
    rw [Link.line, masked] at active
    simp at active
  exact Link.armed_settle unarmed rfl

/-- The rest of a round after the PHY has been serviced. -/
private theorem serviceRest_ensures (settled : LinkSettled link) (status : Word) :
    linkDevice.Ensures Unambiguous (do
      if status &&& intStsRsfl ≠ 0 then serviceRx
      linkCall (.writeSysReg intEn enabledInterrupts) : Program linkInterface Unit) link
        fun _ after => Resting after := by
  split
  · have receives : serviceRx.Only LinkRequest.aside :=
      ⟨(by decide : intSts ≠ intEn), fun _ => Program.only_ask.mpr trivial⟩
    apply Device.Ensures.bind
    refine (settled_of_only receives settled).weaken ?_
    intro _ middle settled
    exact enable_ensures settled
  · exact enable_ensures settled

/-- A round once it has been woken. -/
theorem serviceInterrupts_ensures (tracks : Tracks link.carrier link)
    (enabled : link.intEn = enabledInterrupts) :
    linkDevice.Ensures Unambiguous serviceInterrupts link fun _ after => Resting after := by
  apply Device.Ensures.bind
  apply Device.Ensures.ask
  intro choice ier saved _ answered
  simp only [linkAnswer, if_true, Option.some.injEq, Prod.mk.injEq] at answered
  obtain ⟨rfl, rfl⟩ := answered
  obtain ⟨carrier, intEn', kept, _⟩ := link.advance_kept choice.events
  rw [intEn', enabled]
  have tracks := carrier ▸ kept tracks
  generalize link.advance choice.events = saved at tracks
  apply Device.Ensures.bind
  apply Device.Ensures.ask
  intro choice _ masked _ answered
  simp only [linkAnswer, if_true, Option.some.injEq, Prod.mk.injEq, true_and] at answered
  have settled : LinkSettled masked := by
    rw [← answered]
    obtain ⟨carrier, _, kept, _⟩ := saved.advance_kept choice.events
    obtain ⟨unmoved, risen, fallen⟩ := carrier ▸ kept tracks
    exact ⟨⟨by simpa, by simpa, by simpa⟩, Link.settle_intEn⟩
  apply Device.Ensures.bind
  have reads : (linkCall (.readSysReg intSts)).Only LinkRequest.aside := Program.only_ask.mpr trivial
  refine (settled_of_only reads settled).weaken ?_
  intro status informed settled
  by_cases phy : status &&& intStsPhyInt ≠ 0
  · simp only [if_pos phy]
    apply Device.Ensures.bind
    refine (servicePhy_ensures settled).weaken ?_
    intro _ serviced settled
    exact serviceRest_ensures settled status
  · simp only [if_neg phy]
    exact serviceRest_ensures settled status

/-- A whole round. -/
theorem threadRound_ensures (resting : Resting link) :
    linkDevice.Ensures Unambiguous threadRound link fun _ after => Resting after := by
  apply Device.Ensures.bind
  apply Device.Ensures.ask
  intro choice _ woken _ answered
  obtain ⟨⟨unmoved, risen, fallen⟩, enabled, _⟩ := resting.advance choice.events
  simp only [linkAnswer] at answered
  split at answered
  · cases answered
  · rw [← (Prod.mk.inj (Option.some.inj answered)).2]
    exact serviceInterrupts_ensures ⟨unmoved, risen, fallen⟩ enabled

end Rounds

/-! ### Runs -/

/-- Between rounds the thread rests. -/
theorem resting_of_run {rounds : List (Unit × List LinkChoice)}
    {events : List (linkDevice.Finished Unit Unit)} {link : Link}
    (run : (threadRounds Unambiguous).Run (threadRounds Unambiguous).unguarded .initial rounds events
      link) : Resting link := by
  apply run.invariant (fun (link : Link) _ => Resting link) Link.resting_initial
  rintro before _ round _ after resting _ ⟨_, returns, _⟩
  exact threadRound_ensures resting _ _ _ returns

/-! ### A misleading read -/

/-- The carrier is on, the link is down, and nothing is left to service. -/
structure Misled (link : Link) : Prop where
  source : link.source = 0
  down : link.up = false
  carrier : link.carrier = true

section Misleading

variable {link : Link}

/-- Nothing more happens. -/
def Uneventful (_ : Link) (_ : LinkRequest) (choice : LinkChoice) : Prop := choice = default

/-- Without events nothing happens. -/
@[simp] theorem advance_default (link : Link) :
    link.advance (default : LinkChoice).events = link := rfl

/-- One request while nothing happens. -/
private theorem completes_linkCall {request : LinkRequest} {response : LinkResponse request}
    {after : Link} {post : LinkResponse request → Link → Prop}
    (answers : linkAnswer link request default = some (response, after)) (reached : post response after) :
    linkDevice.Completes Uneventful (linkCall request) link post := by
  refine ⟨⟨default, response, after, rfl, answers⟩, ?_⟩
  rintro choice response' after' rfl answered
  obtain ⟨rfl, rfl⟩ := Prod.mk.inj (Option.some.inj (answers.symm.trans answered))
  exact reached

/-- A wrong carrier stays wrong. -/
private theorem Misled.settle {next : Link} (misled : Misled next) : Misled (link.settle next) :=
  ⟨Link.settle_source.trans misled.source, Link.settle_up.trans misled.down,
    Link.settle_carrier.trans misled.carrier⟩

/-- An ambiguous read sets the carrier wrong. -/
private theorem servicePhy_misled (ambiguous : link.Ambiguous) :
    linkDevice.Completes Uneventful servicePhy link fun _ after => Misled after := by
  obtain ⟨rises, _, down⟩ := ambiguous
  unfold servicePhy
  rw [Device.completes_bind]
  apply completes_linkCall rfl
  have rises' : (link.advance (default : LinkChoice).events).source &&& sourceLinkUp ≠ 0 := rises
  rw [if_pos rises', Device.completes_bind]
  apply completes_linkCall rfl
  rw [Device.completes_bind]
  apply completes_linkCall rfl
  exact completes_linkCall rfl ⟨rfl, down, rfl⟩

/-- The rest of a round does not mend it. -/
private theorem serviceRest_misled (misled : Misled link) (status ier : Word) :
    linkDevice.Completes Uneventful (do
      if status &&& intStsRsfl ≠ 0 then serviceRx
      linkCall (.writeSysReg intEn ier) : Program linkInterface Unit) link
        fun _ after => Misled after := by
  have enables {link : Link} (misled : Misled link) : linkDevice.Completes Uneventful
      (linkCall (.writeSysReg intEn ier)) link fun _ after => Misled after :=
    completes_linkCall rfl (Misled.settle ⟨misled.source, misled.down, misled.carrier⟩)
  split
  · unfold serviceRx
    rw [Device.completes_bind, Device.completes_bind]
    apply completes_linkCall rfl
    apply completes_linkCall rfl
    exact enables (Misled.settle ⟨misled.source, misled.down, misled.carrier⟩)
  · exact enables misled

/-- A round which begins so ends with the carrier on. -/
theorem serviceInterrupts_misled (ambiguous : link.Ambiguous) :
    linkDevice.Completes Uneventful serviceInterrupts link fun _ after => Misled after := by
  unfold serviceInterrupts
  rw [Device.completes_bind]
  apply completes_linkCall rfl
  rw [Device.completes_bind]
  apply completes_linkCall rfl
  generalize masked : Link.settle _ _ = next
  have ambiguous' : next.Ambiguous := by
    rw [← masked]
    simpa only [Link.Ambiguous, advance_default, Link.settle_source, Link.settle_up, if_true]
      using ambiguous
  rw [Device.completes_bind]
  apply completes_linkCall rfl
  have phy : (next.advance (default : LinkChoice).events).status &&& intStsPhyInt ≠ 0 := by
    have latched : next.source &&& linkFlags ≠ 0 := fun none =>
      (unlatched_iff.mp none).1 ambiguous'.1
    rw [advance_default, Link.status, if_pos latched]
    cases next.rsfl <;> decide
  have other : ¬intSts = intEn := by decide
  simp only [if_neg other, if_true, if_pos phy]
  rw [Device.completes_bind]
  apply (servicePhy_misled ambiguous').weaken
  intro _ after misled
  exact serviceRest_misled misled _ _

end Misleading

/-- In every run of the thread in which `INTERRUPT_SOURCE` is never read with both flags latched
while the link is down: whenever no flag is latched the carrier is where the link is, and a
thread which waits for an interrupt has left none. If both flags are latched while the link is
down, a round in which nothing more happens leaves the carrier on. -/
theorem carrier_follows_link {rounds : List (Unit × List LinkChoice)}
    {events : List (linkDevice.Finished Unit Unit)} {link : Link}
    (run : (threadRounds Unambiguous).Run (threadRounds Unambiguous).unguarded .initial rounds events
      link) (later : List LinkEvent) :
    ((link.advance later).source &&& linkFlags = 0 →
      (link.advance later).carrier = (link.advance later).up) ∧
    ((link.advance later).intSem = 0 → (link.advance later).source &&& linkFlags = 0) ∧
    ((link.advance later).Ambiguous → ∃ choices after,
      linkDevice.Returns linkDevice.unguarded threadRound link choices () after ∧ Misled after) := by
  obtain ⟨tracks, enabled, armed⟩ := (resting_of_run run).advance later
  refine ⟨fun unlatched => ?_, fun waiting => ?_, fun ambiguous => ?_⟩
  · obtain ⟨up, down⟩ := unlatched_iff.mp unlatched
    exact (tracks.unmoved up down).symm
  · by_contra latched
    have woken := armed (Link.line_of_latched enabled latched)
    omega
  · have latched : (link.advance later).source &&& linkFlags ≠ 0 := fun none =>
      (unlatched_iff.mp none).1 ambiguous.1
    have woken := armed (Link.line_of_latched enabled latched)
    have taken : linkAnswer link .semTake ⟨later, 0⟩ =
        some ((), { link.advance later with intSem := (link.advance later).intSem - 1 }) :=
      if_neg (Nat.ne_of_gt woken)
    have onward : linkDevice.Completes Uneventful serviceInterrupts
        { link.advance later with intSem := (link.advance later).intSem - 1 } fun _ after =>
          Misled after := serviceInterrupts_misled ambiguous
    obtain ⟨choices, _, after, returns⟩ := onward.returns
    have woke : linkDevice.Returns linkDevice.unguarded (linkCall .semTake) link [⟨later, 0⟩] () _ :=
      .ask trivial taken .done
    exact ⟨_, after, woke.bind (returns.weaken fun _ _ _ _ => trivial),
      returns.of_completes onward⟩

/-- Decidable form of `Unambiguous`. -/
def isUnambiguous (link : Link) (request : LinkRequest) (choice : LinkChoice) : Bool :=
  match request with
  | .readPhyReg address =>
      address ≠ phyInterruptSource || !decide (link.advance choice.events).Ambiguous
  | _ => true

/-- What the decidable form admits, the guard admits. -/
theorem unambiguous_of_isUnambiguous {link : Link} {request : LinkRequest} {choice : LinkChoice}
    (decided : isUnambiguous link request choice = true) : Unambiguous link request choice := by
  cases request with
  | readPhyReg address =>
      intro source
      simpa [isUnambiguous, source] using decided
  | _ => trivial

/-- The link comes up, and goes down when the thread has read the source but not set the carrier
yet; then it comes up, goes down and comes up again before the next reading. -/
theorem three_transitions_followed : ∃ rounds events link,
    (threadRounds Unambiguous).Run (threadRounds Unambiguous).unguarded .initial rounds events link ∧
      link.intSem = 0 ∧ link.carrier = true ∧ link.up = true := by
  have played : (linkDevice.playCalls isUnambiguous (fun _ _ => true) (fun _ => threadRound) .initial
      [((), [⟨[.transition], 0⟩, default, default, default, default, ⟨[.transition], 0⟩]),
        ((), []), ((), [⟨[.transition, .transition, .transition], 0⟩])]).map
          (fun result => (result.2.intSem, result.2.carrier)) = some (0, true) := by
    decide +kernel
  obtain ⟨⟨events, link⟩, ran, facts⟩ := Option.map_eq_some_iff.mp played
  obtain ⟨waiting, carrier⟩ := Prod.mk.inj facts
  have run : (threadRounds Unambiguous).Run (threadRounds Unambiguous).unguarded .initial _ events
      link := Device.calls_weaken (Device.run_of_playCalls (fun _ => True) ran)
        (fun _ _ _ => unambiguous_of_isUnambiguous) fun _ _ _ => trivial
  obtain ⟨follows, serviced, _⟩ := carrier_follows_link run []
  exact ⟨_, events, link, run, waiting, carrier, (follows (serviced waiting)).symm.trans carrier⟩

/-- The link comes up and goes down again before the source is read: the carrier is on, the link
is down, and the thread waits for an interrupt. -/
theorem flap_leaves_carrier : ∃ rounds events link,
    (threadRounds linkDevice.unguarded).Run (threadRounds linkDevice.unguarded).unguarded .initial
      rounds events link ∧
    link.source = 0 ∧ link.intSem = 0 ∧ link.carrier = true ∧ link.up = false := by
  have played : (linkDevice.playCalls (fun _ _ _ => true) (fun _ _ => true) (fun _ => threadRound)
      .initial [((), [⟨[.transition, .transition], 0⟩])]).map
        (fun result => (result.2.source, result.2.intSem, result.2.carrier, result.2.up)) =
          some (0, 0, true, false) := by
    decide +kernel
  obtain ⟨⟨events, link⟩, ran, facts⟩ := Option.map_eq_some_iff.mp played
  simp only [Prod.mk.injEq] at facts
  exact ⟨_, events, link, Device.calls_weaken (Device.run_of_playCalls (fun _ => True) ran)
    (fun _ _ _ _ => trivial) fun _ _ _ => trivial, facts⟩

end Rp2350Stepper.Lan9250
