import Rp2350Stepper.Lan9250.Carrier
import Rp2350Stepper.Lan9250.RxFrames
import Rp2350Stepper.Semantics.Components

/-!
# No frame is left in the chip

`lan9250_thread` calls `lan9250_rx` once a round, and a call takes one frame. The interrupt does the
rest: `RSFL` stays set while a frame is queued, so that an interrupt comes as soon as the thread
enables interrupts again. Frames arrive and the PHY latches flags before any request, those of
`lan9250_rx` included.
-/

namespace Rp2350Stepper.Lan9250

open Rp2350Stepper.Semantics

/-! ### The thread on the chip -/

/-- The requests of `lan9250_thread`, and those of the receive path. -/
abbrev nicInterface : Interface := linkInterface.sum driverInterface

/-- The thread calls `lan9250_rx` and ignores what it returns; the rest it asks itself. -/
def receiving (bufDataSize : Nat) :
    (request : LinkRequest) → Program nicInterface (LinkResponse request)
  | .rx => (lan9250Rx bufDataSize).run.onSecond >>= fun _ => pure ()
  | request => .ask (.inl request) .done

/-- One round of `lan9250_thread`, with what its call of `lan9250_rx` does. -/
def attend (bufDataSize : Nat) : Program nicInterface Unit :=
  threadRound.translate (receiving bufDataSize)

/-! ### The chip and the kernel -/

/-- The world of `lan9250_rx` beside the thread's own. -/
structure Nic where
  link : Link
  world : World

/-- What happens before a request, and how a request of the receive path ends. -/
structure NicChoice where
  events : List LinkEvent
  chip : Choice
  /-- What a register without a meaning here reads as. -/
  value : Word

instance : Inhabited NicChoice := ⟨⟨[], default, 0⟩⟩

namespace Nic

/-- The receive path moves on. The level the driver gives `FIFO_INT` is 0: `RSFL` is set whenever a
status word is queued. -/
def put (nic : Nic) (world : World) : Nic where
  link := nic.link.settle { nic.link with
    rsfl := nic.link.rsfl || !world.chip.rxStatus.items.isEmpty ||
      decide (arrivedFrames world.history ≠ arrivedFrames nic.world.history) }
  world := world

/-- What happens before a request. -/
def latch (nic : Nic) (events : List LinkEvent) : Nic :=
  { nic with link := nic.link.advance events }

/-- How the chip and the kernel answer. Writing `RSFL` clears it only if no status word is left. -/
def answer (nic : Nic) (request : nicInterface.Request) (choice : NicChoice) :
    Option (nicInterface.Response request × Nic) :=
  let current := nic.latch choice.events
  match request with
  | .inl request =>
      let current := current.put (nic.world.advance choice.chip)
      (linkAnswer current.link request ⟨[], choice.value⟩).map fun (response, link) =>
        (response, put { current with link := link } current.world)
  | .inr request =>
      (Lan9250.answer nic.world request choice.chip).map fun (response, world) =>
        (response, current.put world)

end Nic

/-- The chip with the thread's flags and semaphore. -/
abbrev nicDevice : Device nicInterface := ⟨Nic, NicChoice, Nic.answer⟩

/-- No transaction of the receive path fails, no frame comes between a count of 0 and the status
word, and an allocated packet has enough buffers of this size. -/
def attentive (bufSize : Nat) : lan9250.Guard := fun world request choice =>
  choice.outcome = .ok ∧ countHolds world request choice ∧
    ∀ len id count, request = .rxAlloc len → choice.alloc = some (id, count) →
      len ≤ count * bufSize

/-- The same, of the whole chip. -/
def Undistracted (bufSize : Nat) : nicDevice.Guard := fun nic request choice =>
  match request with
  | .inl _ => True
  | .inr request => attentive bufSize nic.world request choice.chip

/-- The rounds of the thread, after `lan9250_configure` and before the first frame. -/
abbrev attendances (bufDataSize : Nat) : System (nicDevice.Finished Unit Unit) :=
  nicDevice.calls (Undistracted (bufDataSize % 2 ^ 16))
    (fun nic => nic.link = .initial ∧ arrivedFrames nic.world.history = [] ∧
      packets nic.world.history = [] ∧ nic.world.chip.rxStatus.items = [] ∧
      nic.world.chip.rxData = [])
    fun _ => attend bufDataSize

/-! ### Standing conditions -/

/-- What holds throughout: `INT_EN` is as given, `RSFL` shows that a frame is queued, the frames
taken so far have these fates, nothing recorded since is taken back, and a frame is queued if one is
due. -/
structure Standing (enabled : Word) (fates : List Fate) (since : World) (due : Prop) (nic : Nic) :
    Prop where
  enabled : nic.link.intEn = enabled
  shown : nic.world.chip.rxStatus.items ≠ [] → nic.link.rsfl = true
  balanced : Books.Balanced ⟨fates.map Fate.frame, [], fates.flatMap Fate.events⟩ nic.world
  onward : Onward since nic.world
  queued : due → nic.world.chip.rxStatus.items ≠ []

section Standing

variable {enabled : Word} {fates : List Fate} {since : World} {due : Prop} {nic : Nic}

/-- The world is what has been put. -/
@[simp] theorem Nic.put_world (nic : Nic) (world : World) : (nic.put world).world = world := rfl

/-- The enabled interrupts stay. -/
@[simp] theorem Nic.put_intEn (nic : Nic) (world : World) :
    (nic.put world).link.intEn = nic.link.intEn := Link.settle_intEn

theorem Nic.put_armed (nic : Nic) (world : World) (armed : Armed nic.link) :
    Armed (nic.put world).link := Link.armed_settle armed rfl

/-- A queued frame is shown in `INT_STS`. -/
theorem Nic.put_shown (nic : Nic) (world : World)
    (queued : (nic.put world).world.chip.rxStatus.items ≠ []) :
    (nic.put world).link.rsfl = true := by
  have nonempty : world.chip.rxStatus.items.isEmpty = false := by
    simpa [List.isEmpty_eq_false_iff] using queued
  rw [Nic.put, Link.settle_rsfl, nonempty]
  simp

/-- What happens before a request of the thread. -/
theorem Standing.before (standing : Standing enabled fates since due nic) (choice : NicChoice) :
    Standing enabled fates since due
      ((nic.latch choice.events).put (nic.world.advance choice.chip)) := by
  obtain ⟨_, intEn, _, _⟩ := @Link.advance_kept true nic.link choice.events
  obtain ⟨later, _, status, _⟩ := Supplied.advance nic.world choice.chip
  refine ⟨?_, Nic.put_shown _ _, standing.balanced.advance _,
    standing.onward.trans (.of_quiet (Quiet.advance _ _)), fun awaited => ?_⟩
  · exact (Nic.put_intEn _ _).trans (intEn.trans standing.enabled)
  · rw [Nic.put_world, status]
    exact List.append_ne_nil_of_left_ne_nil (standing.queued awaited) _

/-- The thread's answer leaves the receive path alone. -/
theorem Standing.put (standing : Standing enabled fates since due nic) {link : Link} {enabled' : Word}
    (intEn : link.intEn = enabled') :
    Standing enabled' fates since due (Nic.put { nic with link := link } nic.world) :=
  ⟨(Nic.put_intEn _ _).trans intEn, Nic.put_shown _ _, standing.balanced, standing.onward,
    standing.queued⟩

/-- The requests with which a round services the PHY and acknowledges `RSFL`. -/
def LinkRequest.serves : LinkRequest → Prop
  | .readPhyReg _ | .carrierOn | .carrierOff => True
  | .writeSysReg address _ => address ≠ intEn
  | _ => False

/-- They are requests of the thread. -/
def Nic.serves : nicInterface.Request → Prop
  | .inl request => request.serves
  | .inr _ => False

/-- The thread's requests are answered and leave the interrupts enabled. -/
theorem linkAnswer_serves (link : Link) {request : LinkRequest} (serves : request.serves)
    (value : Word) : ∃ response next, linkAnswer link request ⟨[], value⟩ = some (response, next) ∧
      next.intEn = link.intEn := by
  cases request with
  | readPhyReg address =>
      by_cases source : address = phyInterruptSource
      · have read : linkAnswer link (.readPhyReg address) ⟨[], value⟩ =
            some (link.source, { link with source := 0 }) := by
          simp [linkAnswer, source, Link.advance]
        exact ⟨_, _, read, rfl⟩
      · have read : linkAnswer link (.readPhyReg address) ⟨[], value⟩ =
            some (value.setWidth 16, link) := by
          simp [linkAnswer, source, Link.advance]
        exact ⟨_, _, read, rfl⟩
  | carrierOn | carrierOff => exact ⟨_, _, rfl, rfl⟩
  | writeSysReg address written =>
      refine ⟨_, _, rfl, ?_⟩
      have other : address ≠ intEn := serves
      rw [Link.settle_intEn, if_neg other]
      split <;> rfl
  | _ => exact serves.elim

/-- Such a request of the thread. -/
theorem standing_of_serves {request : LinkRequest} (serves : request.serves)
    (standing : Standing enabled fates since due nic) (choice : NicChoice) :
    ∃ response next, nic.answer (.inl request) choice = some (response, next) ∧
      Standing enabled fates since due next := by
  have current := standing.before choice
  obtain ⟨response, link, answered, intEn⟩ := linkAnswer_serves
    ((nic.latch choice.events).put (nic.world.advance choice.chip)).link serves choice.value
  refine ⟨response, _, ?_, current.put (intEn.trans current.enabled)⟩
  simp only [Nic.answer, answered, Option.map_some]

end Standing

/-! ### A round -/

section Rounds

variable {fates : List Fate} {since : World} {due : Prop} {nic : Nic} {bufDataSize : Nat}

/-- Code of such requests. -/
theorem serves_completes {enabled : Word} {program : Program linkInterface Unit}
    (only : program.Only LinkRequest.serves) (standing : Standing enabled fates since due nic) :
    nicDevice.Completes (Undistracted (bufDataSize % 2 ^ 16))
      (program.translate (receiving bufDataSize)) nic
      fun _ after => Standing enabled fates since due after := by
  have bodies (request : LinkRequest) (serves : request.serves) :
      (receiving bufDataSize request).Only Nic.serves := by
    cases request with
    | rx => exact serves.elim
    | _ => exact ⟨serves, fun _ => trivial⟩
  refine Device.Completes.of_only (only.translate bodies) standing ?_ ?_
  · rintro nic (request | request) serves standing
    · obtain ⟨response, next, answered, _⟩ := standing_of_serves serves standing default
      exact ⟨default, response, next, trivial, answered⟩
    · exact serves.elim
  · rintro nic (request | request) choice response next serves standing _ answered
    · obtain ⟨response', next', answered', standing⟩ := standing_of_serves serves standing choice
      obtain ⟨_, rfl⟩ := Prod.ext_iff.mp (Option.some.inj (answered'.symm.trans answered))
      exact standing
    · exact serves.elim

/-- The guard allows some answer to each request. -/
theorem live_attentive (bufSize : Nat) : Live (attentive bufSize) :=
  fun _ _ => ⟨.quiet, rfl, fun _ _ => rfl, fun _ _ _ _ allocated => by cases allocated⟩

/-- The chip answers the receive path as it does without the thread. -/
theorem answersAs_nic (bufSize : Nat) (enabled : Word) :
    Device.AnswersAs (Undistracted bufSize) (attentive bufSize) Nic.world fun nic =>
      nic.link.intEn = enabled ∧ (nic.world.chip.rxStatus.items ≠ [] → nic.link.rsfl = true) := by
  constructor
  · rintro nic request choice response next ⟨intEn, _⟩ allowed answered
    obtain ⟨⟨response', world⟩, chip, same⟩ := Option.map_eq_some_iff.mp answered
    obtain ⟨rfl, rfl⟩ := Prod.ext_iff.mp same
    obtain ⟨_, latched, _, _⟩ := @Link.advance_kept true nic.link choice.events
    refine ⟨⟨(Nic.put_intEn _ _).trans (latched.trans intEn), Nic.put_shown _ _⟩, choice.chip,
      allowed, chip⟩
  · intro nic request choice response next _ allowed answered
    have chip : Lan9250.answer nic.world request choice = some (response, next) := answered
    refine ⟨⟨[], choice, 0⟩, response, (nic.latch []).put next, allowed, ?_⟩
    simp only [Nic.answer, chip, Option.map_some]

/-- A call of `lan9250_rx` takes a frame if one is queued. -/
theorem receive_completes {enabled : Word} (positive : 0 < bufDataSize % 2 ^ 16)
    (standing : Standing enabled fates since due nic) :
    nicDevice.Completes (Undistracted (bufDataSize % 2 ^ 16)) (receiving bufDataSize .rx) nic
      fun _ after => ∃ more, (due → more ≠ []) ∧
        Standing enabled (fates ++ more) since False after := by
  have ends : lan9250.Completes (attentive (bufDataSize % 2 ^ 16)) (lan9250Rx bufDataSize).run
      nic.world fun _ _ => True :=
    call_completes (live_attentive _) positive
      (fun _ _ _ _ _ allowed allocated => allowed.2.2 _ _ _ rfl allocated) rfl
  have takes : lan9250.Ensures (attentive (bufDataSize % 2 ^ 16)) (lan9250Rx bufDataSize).run
      nic.world fun _ after => ∃ more : List Fate, (due → more ≠ []) ∧
        Books.Balanced ⟨(fates ++ more).map Fate.frame, [], (fates ++ more).flatMap Fate.events⟩
          after ∧ Onward since after := by
    intro choices result after returns
    obtain ⟨_, fate?, settled, balanced⟩ := lan9250Rx_settles
      (fun _ _ _ allowed => allowed.1) (fun _ _ _ allowed => allowed.2.1) standing.balanced _ _ _
      returns
    refine ⟨fate?.toList, fun awaited => ?_, by simpa using balanced, standing.onward.trans
      (returns.relates Onward .refl .trans fun _ answered => .answer answered)⟩
    obtain ⟨fate, rfl⟩ := Option.ne_none_iff_exists'.mp (settled (standing.queued awaited))
    exact List.cons_ne_nil _ _
  unfold receiving
  rw [Device.completes_bind]
  refine ((answersAs_nic _ enabled).completes ⟨standing.enabled, standing.shown⟩
    (takes.completes ends)).weaken ?_
  rintro _ after ⟨⟨more, taken, balanced, onward⟩, intEn, shown⟩
  exact ⟨more, taken, intEn, shown, balanced, onward, False.elim⟩

/-- A unit of `int_sem` is taken. -/
theorem linkAnswer_semTake {link : Link} (woken : 0 < link.intSem) (value : Word) :
    linkAnswer link .semTake ⟨[], value⟩ = some ((), { link with intSem := link.intSem - 1 }) := by
  simp [linkAnswer, Link.advance, Nat.ne_of_gt woken]

/-- `INT_EN` is read. -/
theorem linkAnswer_intEn (link : Link) (value : Word) :
    linkAnswer link (.readSysReg intEn) ⟨[], value⟩ = some (link.intEn, link) := by
  simp [linkAnswer, Link.advance]

/-- `INT_STS` is read. -/
theorem linkAnswer_intSts (link : Link) (value : Word) :
    linkAnswer link (.readSysReg intSts) ⟨[], value⟩ = some (link.status, link) := by
  simp [linkAnswer, Link.advance, show ¬intSts = intEn by decide]

/-- A filled FIFO shows in `INT_STS`. -/
theorem Link.status_rsfl {link : Link} (latched : link.rsfl = true) :
    link.status &&& intStsRsfl ≠ 0 := by
  unfold status
  rw [latched]
  split <;> decide

/-- It raises the interrupt line. -/
theorem Link.line_of_rsfl {link : Link} (enabled : link.intEn = enabledInterrupts)
    (latched : link.rsfl = true) : link.line = true := by
  unfold line status
  rw [enabled, latched]
  split <;> decide

/-- What the thread finds when it asks. -/
abbrev Nic.found (nic : Nic) (choice : NicChoice) : Nic :=
  (nic.latch choice.events).put (nic.world.advance choice.chip)

/-- A request of the thread which is always answered. -/
theorem thread_completes {guard : nicDevice.Guard} {request : LinkRequest}
    {post : LinkResponse request → Nic → Prop} (admits : ∃ choice, guard nic (.inl request) choice)
    (answers : ∀ choice, ∃ response link,
      linkAnswer (nic.found choice).link request ⟨[], choice.value⟩ = some (response, link) ∧
      post response (Nic.put { nic.found choice with link := link } (nic.found choice).world)) :
    nicDevice.Completes guard (.ask (.inl request) .done) nic post := by
  refine .ask admits fun choice _ => ?_
  obtain ⟨response, link, answered, holds⟩ := answers choice
  refine ⟨response, _, ?_, holds⟩
  simp only [Nic.answer, answered, Option.map_some]

/-- `INT_EN` is saved. -/
theorem saves_completes (standing : Standing enabledInterrupts fates since due nic) :
    nicDevice.Completes (Undistracted (bufDataSize % 2 ^ 16)) (.ask (.inl (.readSysReg intEn)) .done)
      nic fun ier after =>
        ier = enabledInterrupts ∧ Standing enabledInterrupts fates since due after := by
  refine thread_completes ⟨default, trivial⟩ fun choice => ?_
  have current := standing.before choice
  exact ⟨_, _, linkAnswer_intEn _ _, current.enabled, current.put current.enabled⟩

/-- It is written: the interrupts are disabled, or enabled again. -/
theorem writes_completes {enabled : Word} (standing : Standing enabled fates since due nic)
    (value : Word) :
    nicDevice.Completes (Undistracted (bufDataSize % 2 ^ 16))
      (.ask (.inl (.writeSysReg intEn value)) .done) nic fun _ after =>
        Standing value fates since due after ∧ (enabled = 0 → Armed after.link) := by
  refine thread_completes ⟨default, trivial⟩ fun choice => ?_
  have current := standing.before choice
  refine ⟨_, _, rfl, current.put ?_, fun masked => Nic.put_armed _ _ ?_⟩
  · rw [Link.settle_intEn, if_pos rfl]
  · have unarmed : Armed (nic.found choice).link := by
      intro active
      rw [Link.line, current.enabled, masked] at active
      simp at active
    exact Link.armed_settle unarmed (by rw [if_pos rfl])

/-- A frame which is due shows in `INT_STS`. -/
theorem status_completes {enabled : Word} (standing : Standing enabled fates since due nic) :
    nicDevice.Completes (Undistracted (bufDataSize % 2 ^ 16)) (.ask (.inl (.readSysReg intSts)) .done)
      nic fun (status : Word) after =>
        (due → status &&& intStsRsfl ≠ 0) ∧ Standing enabled fates since due after := by
  refine thread_completes ⟨default, trivial⟩ fun choice => ?_
  have current := standing.before choice
  refine ⟨_, _, linkAnswer_intSts _ _, fun awaited => ?_, current.put current.enabled⟩
  exact Link.status_rsfl (current.shown (current.queued awaited))

/-- The thread is woken. -/
theorem takes_completes (standing : Standing enabledInterrupts fates since due nic)
    (armed : Armed nic.link) :
    nicDevice.Completes (Undistracted (bufDataSize % 2 ^ 16)) (.ask (.inl .semTake) .done) nic
      fun _ after => Standing enabledInterrupts fates since due after := by
  constructor
  · -- If nothing else does, a frame wakes it.
    obtain ⟨_, _, _, kept⟩ := @Link.advance_kept true nic.link [.frame]
    have woken : Armed (nic.found ⟨[.frame], default, 0⟩).link := Nic.put_armed _ _ (kept armed)
    have latched : (nic.found ⟨[.frame], default, 0⟩).link.rsfl = true := by
      simp [Nic.found, Nic.put, Nic.latch, Link.advance, Link.apply]
    have positive := woken (Link.line_of_rsfl (standing.before _).enabled latched)
    exact ⟨⟨[.frame], default, 0⟩, (), _, trivial,
      congrArg (Option.map _) (linkAnswer_semTake positive 0)⟩
  · intro choice response after _ answered
    have current := standing.before choice
    obtain ⟨⟨_, link⟩, taken, same⟩ := Option.map_eq_some_iff.mp answered
    obtain ⟨rfl, rfl⟩ := Prod.ext_iff.mp same
    obtain ⟨_, taken⟩ := Option.ite_none_left_eq_some.mp taken
    obtain ⟨_, rfl⟩ := Prod.ext_iff.mp (Option.some.inj taken)
    exact current.put current.enabled

/-- Serving the PHY asks for nothing else. -/
theorem servicePhy_serves : servicePhy.Only LinkRequest.serves := by
  refine ⟨trivial, fun tmp => ?_⟩
  apply Program.only_ite
  · exact ⟨trivial, fun _ => ⟨trivial, fun _ => Program.only_ask.mpr trivial⟩⟩
  · exact Program.only_ite (Program.only_ask.mpr trivial) Program.only_pure

/-- What holds between rounds. -/
structure Attended (fates : List Fate) (nic : Nic) : Prop where
  standing : Standing enabledInterrupts fates nic.world (nic.world.chip.rxStatus.items ≠ []) nic
  armed : Armed nic.link

/-- A request of the thread becomes its code. -/
theorem translate_linkCall (request : LinkRequest) :
    (linkCall request).translate (receiving bufDataSize) = receiving bufDataSize request :=
  Program.bind_done _

/-- The end of a round: `RSFL` is serviced and the interrupts are enabled again. -/
theorem rest_completes (positive : 0 < bufDataSize % 2 ^ 16) {status : Word}
    (shows : due → status &&& intStsRsfl ≠ 0) (standing : Standing 0 fates since due nic) :
    nicDevice.Completes (Undistracted (bufDataSize % 2 ^ 16))
      (Program.translate (receiving bufDataSize) (do
        if status &&& intStsRsfl ≠ 0 then serviceRx
        linkCall (.writeSysReg intEn enabledInterrupts))) nic
      fun _ after => ∃ more, (due → more ≠ []) ∧ Onward since after.world ∧
        Attended (fates ++ more) after := by
  have enables {more : List Fate} {awaited : Prop} {nic : Nic} (taken : due → more ≠ [])
      (standing : Standing 0 (fates ++ more) since awaited nic) :
      nicDevice.Completes (Undistracted (bufDataSize % 2 ^ 16))
        ((linkCall (.writeSysReg intEn enabledInterrupts)).translate (receiving bufDataSize)) nic
        fun _ after => ∃ more, (due → more ≠ []) ∧ Onward since after.world ∧
          Attended (fates ++ more) after := by
    rw [translate_linkCall]
    refine (writes_completes standing enabledInterrupts).weaken ?_
    rintro _ after ⟨⟨enabled, shown, balanced, onward, _⟩, armed⟩
    exact ⟨more, taken, onward, ⟨enabled, shown, balanced, .refl _, id⟩, armed rfl⟩
  split
  · have acknowledges : (linkCall (.writeSysReg intSts intStsRsfl)).Only LinkRequest.serves :=
      Program.only_ask.mpr (by decide : intSts ≠ intEn)
    rw [Program.translate_bind, serviceRx, Program.translate_bind, translate_linkCall .rx,
      Device.completes_bind, Device.completes_bind]
    refine (serves_completes acknowledges standing).weaken fun _ _ standing => ?_
    refine (receive_completes positive standing).weaken ?_
    rintro _ after ⟨more, taken, standing⟩
    exact enables taken standing
  · rename_i unset
    have nothing : due → ([] : List Fate) ≠ [] := fun awaited => absurd (shows awaited) unset
    exact enables nothing (by rwa [List.append_nil])

/-- A round ends, and takes a frame if one is queued when it begins. -/
theorem attend_completes (positive : 0 < bufDataSize % 2 ^ 16) (attended : Attended fates nic) :
    nicDevice.Completes (Undistracted (bufDataSize % 2 ^ 16)) (attend bufDataSize) nic
      fun _ after => ∃ more, (nic.world.chip.rxStatus.items ≠ [] → more ≠ []) ∧
        Onward nic.world after.world ∧ Attended (fates ++ more) after := by
  unfold attend threadRound
  rw [Program.translate_bind, translate_linkCall, Device.completes_bind]
  refine (takes_completes attended.standing attended.armed).weaken fun _ _ standing => ?_
  unfold serviceInterrupts
  rw [Program.translate_bind, translate_linkCall, Device.completes_bind]
  refine (saves_completes standing).weaken ?_
  rintro ier saved ⟨rfl, standing⟩
  rw [Program.translate_bind, translate_linkCall, Device.completes_bind]
  refine (writes_completes standing 0).weaken fun _ _ ⟨standing, _⟩ => ?_
  rw [Program.translate_bind, translate_linkCall, Device.completes_bind]
  refine (status_completes standing).weaken fun (status : Word) _ ⟨shows, standing⟩ => ?_
  by_cases phy : status &&& intStsPhyInt ≠ 0
  · simp only [if_pos phy]
    rw [Program.translate_bind, Device.completes_bind]
    exact (serves_completes servicePhy_serves standing).weaken fun _ _ standing =>
      rest_completes positive shows standing
  · simp only [if_neg phy]
    exact rest_completes positive shows standing

end Rounds

/-! ### Runs -/

section Runs

variable {fates : List Fate} {nic : Nic} {bufDataSize : Nat}

/-- What happens before a round spoils nothing. -/
theorem Attended.found (attended : Attended fates nic) (happened : NicChoice) :
    Attended fates (nic.found happened) := by
  obtain ⟨enabled, shown, balanced, _, _⟩ := attended.standing.before happened
  obtain ⟨_, _, _, kept⟩ := @Link.advance_kept true nic.link happened.events
  exact ⟨⟨enabled, shown, balanced, .refl _, id⟩, Nic.put_armed _ _ (kept attended.armed)⟩

/-- A thread which waits has left nothing. -/
theorem Attended.waiting (attended : Attended fates nic) (waits : nic.link.intSem = 0) :
    nic.world.chip.rxStatus.items = [] ∧ nic.link.source &&& linkFlags = 0 := by
  obtain ⟨⟨enabled, shown, _, _, _⟩, armed⟩ := attended
  have inactive : ¬nic.link.line = true := fun active => by
    have woken := armed active
    omega
  constructor
  · by_contra queued
    exact inactive (Link.line_of_rsfl enabled (shown queued))
  · by_contra latched
    exact inactive (Link.line_of_latched enabled latched)

/-- Frames which are queued have been stored after those taken. -/
theorem Attended.queued (attended : Attended fates nic) :
    (arrivedFrames nic.world.history).length =
      fates.length + nic.world.chip.rxStatus.items.length := by
  obtain ⟨queued, stored, status, _, _⟩ := attended.standing.balanced
  rw [stored, status, List.length_append, List.length_map, List.length_map]

/-- What has been stored stays recorded. -/
theorem Onward.stored {world next : World} (onward : Onward world next) :
    arrivedFrames world.history <+: arrivedFrames next.history :=
  onward.history.filterMap _

/-- Each round takes a frame of those which are queued at first, as long as there are any. -/
theorem attended_of_rounds (positive : 0 < bufDataSize % 2 ^ 16) {finish : Nic}
    {rounds : List (Unit × List NicChoice)} {events : List (nicDevice.Finished Unit Unit)}
    (attended : Attended fates nic)
    (run : (attendances bufDataSize).Run (attendances bufDataSize).unguarded nic rounds events
      finish) :
    ∃ more, min events.length nic.world.chip.rxStatus.items.length ≤ more.length ∧
      Onward nic.world finish.world ∧ Attended (fates ++ more) finish := by
  refine run.invariant (fun (finish : Nic) events => ∃ more,
    min events.length nic.world.chip.rxStatus.items.length ≤ more.length ∧
      Onward nic.world finish.world ∧ Attended (fates ++ more) finish)
    ⟨[], by simp, .refl _, by rwa [List.append_nil]⟩ ?_
  rintro middle events _ _ after ⟨more, count, onward, between⟩ _ ⟨_, returns, rfl⟩
  obtain ⟨last, taken, onward', there⟩ := returns.of_completes (attend_completes positive between)
  refine ⟨more ++ last, ?_, onward.trans onward', by rwa [← List.append_assoc]⟩
  rw [List.length_append, List.length_append, List.length_singleton]
  rcases Nat.lt_or_ge more.length nic.world.chip.rxStatus.items.length with left | all
  · -- More frames have been stored than are taken so far, so that one is queued.
    have stored := onward.stored.length_le
    rw [attended.queued, between.queued, List.length_append] at stored
    have some : middle.world.chip.rxStatus.items ≠ [] := List.ne_nil_of_length_pos (by omega)
    have another := List.length_pos_of_ne_nil (taken some)
    omega
  · omega

/-- In every run of rounds, what has been stored is taken or queued. -/
theorem attended_of_run (positive : 0 < bufDataSize % 2 ^ 16) {start : Nic}
    {rounds : List (Unit × List NicChoice)} {events : List (nicDevice.Finished Unit Unit)}
    (initially : (attendances bufDataSize).Initial start)
    (run : (attendances bufDataSize).Run (attendances bufDataSize).unguarded start rounds events
      nic) :
    ∃ fates, Attended fates nic := by
  obtain ⟨link, stored, packets, status, data⟩ := initially
  have initial : Attended [] start :=
    ⟨⟨by rw [link]; rfl, fun queued => absurd status queued, ⟨[], stored, status, data, packets⟩,
      .refl _, id⟩, by rw [link]; unfold Armed; decide⟩
  obtain ⟨fates, _, _, attended⟩ := attended_of_rounds positive initial run
  exact ⟨fates, attended⟩

end Runs

/-- Decidable form of the guard. -/
def isUndistracted (bufSize : Nat) (nic : Nic) (request : nicInterface.Request)
    (choice : NicChoice) : Bool :=
  match request with
  | .inl _ => true
  | .inr request => choice.chip.outcome = .ok && match request, choice.chip.alloc with
    | .readSysReg address, _ => address ≠ rxStatusFifo ||
        !nic.world.chip.rxStatus.items.isEmpty || choice.chip.arrivals = []
    | .rxAlloc len, some (_, count) => len ≤ count * bufSize
    | _, _ => true

/-- What the decidable form admits, the guard admits. -/
theorem undistracted_of_isUndistracted {bufSize : Nat} {nic : Nic} {request : nicInterface.Request}
    {choice : NicChoice} (decided : isUndistracted bufSize nic request choice = true) :
    Undistracted bufSize nic request choice := by
  cases request with
  | inl request => trivial
  | inr request =>
      obtain ⟨succeeded, rest⟩ := Bool.and_eq_true_iff.mp decided
      refine ⟨of_decide_eq_true succeeded, ?_, ?_⟩
      · rintro rfl empty
        simpa [empty] using rest
      · rintro len id count rfl allocated
        simpa [allocated] using rest

end Rp2350Stepper.Lan9250
