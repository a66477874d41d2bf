import Rp2350Stepper.Lan9250.RxCheck

/-!
# Runs of the RX timestamp check

The system whose steps are whole calls of `lan9250_1588_rx_timestamp_check` and of
`lan9250_1588_rx_pending_expire`, from empty tables, under any frames, events,
failures and times. A call is quiet, or it sweeps and consists of moves.
-/

namespace Rp2350Stepper.Lan9250

open Rp2350Stepper.Data Rp2350Stepper.Semantics

/-- The key a check recognizes a frame by. -/
def checkedKey (pkt : NetPkt) (pktLen : Nat) : Option MsgKey :=
  let headerLen := min pktLen headerBufSize
  if pkt.data.length < headerLen then none
  else ptpParseHeader (pkt.data.take headerLen) headerLen

/-- No slot of `rx_pending` holds the packet. -/
def Unparked (world : World) (pkt : PktId) : Prop :=
  ∀ slot entry, world.rxPending slot = some entry → entry.pkt ≠ pkt

instance (world : World) (pkt : PktId) : Decidable (Unparked world pkt) :=
  decidable_of_iff (∀ slot, (world.rxPending slot).map RxPending.pkt ≠ some pkt) <| by
    simp only [Unparked, ne_eq, Option.map_eq_some_iff, not_exists, not_and]

/-- What a check of a frame it recognizes leaves behind. -/
structure Checked (pkt : PktId) (key : MsgKey) (before after : World) : Prop where
  moves : ∃ stage, Moves pkt key (before, .searching) (after, stage) ∧
    (stage = .searching ∧ msgTypeIsTimestamped key.msgType = false ∨ stage = .attached ∨
      stage = .queued)
  turnover : ∃ now, Turnover before after now

/-! ### Calls -/

/-- A frame is checked, or the expired ones are swept out. -/
inductive RxCall where
  | check (pkt : NetPkt) (pktLen : Nat)
  | expire
deriving DecidableEq

/-- What a call does; the sweep is called as in `lan9250_rx`. -/
def RxCall.body : RxCall → Code Unit
  | .check pkt pktLen => rxTimestampCheck pkt pktLen
  | .expire => do
      call (.mutexLock .bankLock)
      let now ← call .uptimeGet
      rxPendingExpire now
      call (.mutexUnlock .bankLock)

/-- What a call does to the world. -/
def RxCall.Effect (rxCall : RxCall) (before after : World) : Prop :=
  match rxCall with
  | .check pkt pktLen =>
      match checkedKey pkt pktLen with
      | none => Quiet before after
      | some key => Checked pkt.id key before after
  | .expire => Sweeps before after ∧ ∃ now, Turnover before after now

/-- A frame the driver recognizes is not in a packet it still holds a reference to. -/
def RxCall.Fresh (world : World) : RxCall → Prop
  | .check pkt pktLen => checkedKey pkt pktLen ≠ none → Unparked world pkt.id
  | .expire => True

instance (world : World) : (rxCall : RxCall) → Decidable (rxCall.Fresh world)
  | .check pkt pktLen =>
      inferInstanceAs (Decidable (checkedKey pkt pktLen ≠ none → Unparked world pkt.id))
  | .expire => inferInstanceAs (Decidable True)

section Calls

variable {guard : lan9250.Guard} (live : Live guard) {world : World}

include live

/-- A check is quiet on a frame it does not recognize, and matches any other. -/
theorem rxTimestampCheck_cases {pkt : NetPkt} {pktLen : Nat} {post : World → Prop}
    (unknown : checkedKey pkt pktLen = none → ∀ next, Quiet world next → post next)
    (known : ∀ key, checkedKey pkt pktLen = some key →
      lan9250.Completes guard (rxTimestampMatch pkt.id key) world fun _ => post) :
    lan9250.Completes guard (rxTimestampCheck pkt pktLen) world fun _ => post := by
  unfold checkedKey at unknown known
  unfold rxTimestampCheck
  by_cases short : pkt.data.length < min pktLen headerBufSize
  · simp only [if_pos short, true_imp_iff] at unknown ⊢
    rw [Device.completes_bind, completes_log live, Device.completes_pure]
    exact unknown _ (Quiet.record world rfl)
  simp only [if_neg short] at unknown known ⊢
  cases parsed : ptpParseHeader (pkt.data.take (min pktLen headerBufSize)) (min pktLen headerBufSize) with
  | none => exact unknown parsed _ (Quiet.refl world)
  | some key => exact known key parsed

/-- A check sweeps and matches a frame it recognizes, and is quiet on any other. -/
theorem rxTimestampCheck_checked (pkt : NetPkt) (pktLen : Nat)
    (fresh : (RxCall.check pkt pktLen).Fresh world) :
    lan9250.Completes guard (rxTimestampCheck pkt pktLen) world fun _ next =>
      (RxCall.check pkt pktLen).Effect world next := by
  unfold RxCall.Fresh at fresh
  unfold RxCall.Effect
  apply rxTimestampCheck_cases live
  · intro unknown next same
    simp only [unknown]
    exact same
  · intro key known
    simp only [known]
    apply (rxTimestampMatch_moves live pkt.id key (fresh (by simp [known]))).weaken
    rintro _ next ⟨moves, turnover⟩
    exact ⟨moves, turnover⟩

/-- A sweep alone. -/
theorem expire_swept :
    lan9250.Completes guard RxCall.expire.body world fun _ next =>
      RxCall.expire.Effect world next := by
  unfold RxCall.body
  apply completes_lockedSweep live
  intro now swept past ended sweeps pending unclaimed
  rw [completes_mutexUnlock live]
  exact ⟨sweeps, now, turnover_of_sweep past ended pending unclaimed⟩

/-- Every call has its effect. -/
theorem rxCall_effect (rxCall : RxCall) (fresh : rxCall.Fresh world) :
    lan9250.Completes guard rxCall.body world fun _ next => rxCall.Effect world next := by
  cases rxCall with
  | check pkt pktLen => exact rxTimestampCheck_checked live pkt pktLen fresh
  | expire => exact expire_swept live

end Calls

/-! ### Runs -/

/-- Runs of calls from empty tables. -/
abbrev rxCalls : System (lan9250.Finished RxCall Unit) :=
  lan9250.calls lan9250.unguarded (fun world => world.rxPending = SlotTable.empty ∧
    world.rxUnclaimed = SlotTable.empty ∧ world.history = []) RxCall.body

/-- Every checked packet is distinct from those held. -/
def checksFresh (world : World) (choice : RxCall × List Choice) : Prop := choice.1.Fresh world

/-- Played calls of fresh packets are a run. -/
theorem rxCalls_of_play {start finish : World} {script : List (RxCall × List Choice)}
    {events : List (lan9250.Finished RxCall Unit)}
    (played : lan9250.playCalls (fun _ _ _ => true) (fun world rxCall => rxCall.Fresh world)
      RxCall.body start script = some (events, finish)) :
    ∃ calls, rxCalls.Run checksFresh start calls events finish := by
  have run := Device.run_of_playCalls (fun _ => True) played
  refine ⟨_, Device.calls_weaken run (fun _ _ _ _ => trivial) ?_⟩
  intro world choice fresh
  have decided : choice.1.Fresh world := of_decide_eq_true fresh
  exact decided

/-- One call of a run. -/
theorem rxCalls_step {before after : World} {choice : RxCall × List Choice}
    {events : List (lan9250.Finished RxCall Unit)} (fresh : checksFresh before choice)
    (step : rxCalls.Step before choice events after) :
    events = [⟨choice.1, choice.2, (), before, after⟩] ∧ choice.1.Effect before after := by
  obtain ⟨_, returns, rfl⟩ := step
  exact ⟨rfl, returns.of_completes (rxCall_effect live_unguarded choice.1 fresh)⟩

end Rp2350Stepper.Lan9250
