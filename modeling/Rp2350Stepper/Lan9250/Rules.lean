import Rp2350Stepper.Lan9250.Environment

/-!
# Rules for the driver's calls

Rules of the total weakest precondition for the requests, under guards which
leave the environment some choice everywhere, so that a request always has an
answer. A request the environment has no part in has one successor; a transaction
has one for each choice.
-/

namespace Rp2350Stepper.Lan9250

open Rp2350Stepper.Data Rp2350Stepper.Semantics

/-- The environment can always choose. -/
def Live (guard : lan9250.Guard) : Prop := ∀ world request, ∃ choice, guard world request choice

theorem live_unguarded : Live lan9250.unguarded := fun _ _ => ⟨.quiet, trivial⟩

section Rules

variable {guard : lan9250.Guard} {world : World}

/-- A request whose answer depends on the choice. -/
theorem completes_call (live : Live guard) (request : Request)
    (respond : Choice → Response request × World)
    (answered : ∀ choice, answer world request choice = some (respond choice))
    {post : Response request → World → Prop} :
    lan9250.Completes guard (call request) world post ↔
      ∀ choice, guard world request choice → post (respond choice).1 (respond choice).2 := by
  constructor
  · rintro ⟨_, continues⟩ choice allowed
    exact continues choice _ _ allowed (answered choice)
  · intro holds
    refine .ask (live world request) ?_
    intro choice allowed
    exact ⟨_, _, answered choice, holds choice allowed⟩

/-- A request whose answer does not. -/
theorem completes_steady (live : Live guard) {request : Request} {response : Response request} {next : World}
    (answered : ∀ choice, answer world request choice = some (response, next))
    {post : Response request → World → Prop} :
    lan9250.Completes guard (call request) world post ↔ post response next := by
  rw [completes_call live request (fun _ => (response, next)) answered]
  constructor
  · intro holds
    obtain ⟨choice, allowed⟩ := live world request
    exact holds choice allowed
  · intro holds _ _
    exact holds

variable (live : Live guard)

include live

/-! ### Transactions, the clock and the stack -/

theorem completes_readSysReg {address : Address} {post : Except Errno Word → World → Prop} :
    lan9250.Completes guard (readSysReg address).run world post ↔
      ∀ choice, guard world (.readSysReg address) choice →
        post (world.readSysReg address choice).1 (world.readSysReg address choice).2 :=
  completes_call live (.readSysReg address) (world.readSysReg address) fun _ => rfl

theorem completes_writeSysReg {address : Address} {value : Word}
    {post : Except Errno Unit → World → Prop} :
    lan9250.Completes guard (writeSysReg address value).run world post ↔
      ∀ choice, guard world (.writeSysReg address value) choice →
        post (world.writeSysReg address value choice).1
          (world.writeSysReg address value choice).2 :=
  completes_call live (.writeSysReg address value) (world.writeSysReg address value) fun _ => rfl

theorem completes_readBuf {len : Nat} {post : Except Errno (List Byte) → World → Prop} :
    lan9250.Completes guard (readBuf len).run world post ↔
      ∀ choice, guard world (.readBuf len) choice →
        post (world.readBuf len choice).1 (world.readBuf len choice).2 :=
  completes_call live (.readBuf len) (world.readBuf len) fun _ => rfl

theorem completes_uptimeGet {post : Int → World → Prop} :
    lan9250.Completes guard (call .uptimeGet) world post ↔
      ∀ choice, guard world .uptimeGet choice →
        post (world.advance choice).uptime (world.advance choice) :=
  completes_call live .uptimeGet (fun choice => ((world.advance choice).uptime, world.advance choice))
    fun _ => rfl

theorem completes_sleep {ms : Nat} {post : Unit → World → Prop} :
    lan9250.Completes guard (call (.sleep ms)) world post ↔
      ∀ choice, guard world (.sleep ms) choice → post () ((world.advance choice).wait ms) :=
  completes_call live (.sleep ms) (fun choice => ((), (world.advance choice).wait ms)) fun _ => rfl

theorem completes_busyWait {usec : Nat} {post : Unit → World → Prop} :
    lan9250.Completes guard (call (.busyWait usec)) world post ↔
      ∀ choice, guard world (.busyWait usec) choice →
        post () ((world.advance choice).wait (usec / 1000)) :=
  completes_call live (.busyWait usec) (fun choice => ((), (world.advance choice).wait (usec / 1000)))
    fun _ => rfl

theorem completes_mutexLock {mutex : Mutex} {post : Unit → World → Prop} :
    lan9250.Completes guard (call (.mutexLock mutex)) world post ↔
      ∀ choice, guard world (.mutexLock mutex) choice → post () (world.advance choice) :=
  completes_call live (.mutexLock mutex) (fun choice => ((), world.advance choice)) fun _ => rfl

theorem completes_rxAlloc {len : Nat} {post : Option NetPkt → World → Prop} :
    lan9250.Completes guard (call (.rxAlloc len)) world post ↔
      ∀ choice, guard world (.rxAlloc len) choice →
        post (world.rxAlloc choice).1 (world.rxAlloc choice).2 :=
  completes_call live (.rxAlloc len) world.rxAlloc fun _ => rfl

/-! ### The driver's own fields -/

theorem completes_mutexUnlock {mutex : Mutex} {post : Unit → World → Prop} :
    lan9250.Completes guard (call (.mutexUnlock mutex)) world post ↔ post () world :=
  completes_steady live fun _ => rfl

theorem completes_loadPending {post : PendingTable → World → Prop} :
    lan9250.Completes guard (call .loadPending) world post ↔ post world.rxPending world :=
  completes_steady live fun _ => rfl

theorem completes_storePending {table : PendingTable} {post : Unit → World → Prop} :
    lan9250.Completes guard (call (.storePending table)) world post ↔
      post () { world with rxPending := table } :=
  completes_steady live fun _ => rfl

theorem completes_loadUnclaimed {post : UnclaimedTable → World → Prop} :
    lan9250.Completes guard (call .loadUnclaimed) world post ↔ post world.rxUnclaimed world :=
  completes_steady live fun _ => rfl

theorem completes_storeUnclaimed {table : UnclaimedTable} {post : Unit → World → Prop} :
    lan9250.Completes guard (call (.storeUnclaimed table)) world post ↔
      post () { world with rxUnclaimed := table } :=
  completes_steady live fun _ => rfl

theorem completes_loadRefcount {post : HashRefcount → World → Prop} :
    lan9250.Completes guard (call .loadRefcount) world post ↔
      post world.mcastHashRefcount world :=
  completes_steady live fun _ => rfl

theorem completes_storeRefcount {counts : HashRefcount} {post : Unit → World → Prop} :
    lan9250.Completes guard (call (.storeRefcount counts)) world post ↔
      post () { world with mcastHashRefcount := counts } :=
  completes_steady live fun _ => rfl

/-! ### What an observer records -/

theorem completes_pktRef {pkt : PktId} {post : Unit → World → Prop} :
    lan9250.Completes guard (call (.pktRef pkt)) world post ↔
      post () (world.record (.ref pkt)) :=
  completes_steady live fun _ => rfl

theorem completes_pktUnref {pkt : PktId} {post : Unit → World → Prop} :
    lan9250.Completes guard (call (.pktUnref pkt)) world post ↔
      post () (world.record (.unref pkt)) :=
  completes_steady live fun _ => rfl

theorem completes_setTimestamp {pkt : PktId} {time : PtpTime} {post : Unit → World → Prop} :
    lan9250.Completes guard (call (.setTimestamp pkt time)) world post ↔
      post () (world.record (.stamped pkt time)) :=
  completes_steady live fun _ => rfl

theorem completes_addTxTimestamp {pkt : PktId} {post : Unit → World → Prop} :
    lan9250.Completes guard (call (.addTxTimestamp pkt)) world post ↔
      post () (world.record (.notified pkt)) :=
  completes_steady live fun _ => rfl

theorem completes_log {message : Message} {post : Unit → World → Prop} :
    lan9250.Completes guard (call (.log message)) world post ↔
      post () (world.record (.logged message)) :=
  completes_steady live fun _ => rfl

end Rules
end Rp2350Stepper.Lan9250
