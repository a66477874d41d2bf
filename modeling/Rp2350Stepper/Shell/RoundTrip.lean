import Rp2350Stepper.Core1.Requests
import Rp2350Stepper.Semantics.Program

/-!
# core0's shells and their round trips

The functions of `stepper_shell.c` which talk to core1, and the system of core0's shell
threads, its mailbox interrupt and core1. Every `Turn` is one access to a FIFO or to the
variables core0's threads share, so the parties interleave word by word.

The mailbox driver is Zephyr's. Its interrupt takes one word, calls `mbox_cb` and then
discards what the FIFO still holds, word by word, while no thread of core0 runs and core1
does. A send which fails has queued nothing.
-/

namespace Rp2350Stepper.Shell

open Rp2350Stepper.Num Rp2350Stepper.Semantics
open Rp2350Stepper.Core1 (Word StepperCmd StatusField Motion Event Request)

/-! ### The shell's functions -/

/-- What a round trip asks of the driver and of the kernel. -/
inductive MboxRequest where
  /-- `mbox_send` of one word. -/
  | send (word : Word)
  /-- `k_sem_take` on `reply_sem`, for a second. -/
  | semTake
  /-- A read of `last_reply`. -/
  | lastReply

/-- A return code, or the word read. -/
@[reducible] def MboxResponse : MboxRequest → Type
  | .send _ => Int
  | .semTake => Int
  | .lastReply => Word

/-- The interface of the round trips. -/
abbrev mboxInterface : Interface := ⟨MboxRequest, MboxResponse⟩

/-- A function which returns 0 with a reply word, or else an error code. -/
abbrev Mbox := ExceptT Int (Program mboxInterface)

/-- Code which only asks. -/
def mboxCall (request : MboxRequest) : Program mboxInterface (MboxResponse request) :=
  .ask request .done

/-- `ETIMEDOUT`. -/
def etimedout : Int := 116

/-- `mbox_send_word`. -/
def mboxSendWord (word : Word) : Program mboxInterface Int := mboxCall (.send word)

/-- `mbox_wait_reply`. -/
def mboxWaitReply : Mbox Word := do
  let ret ← mboxCall .semTake
  if ret ≠ 0 then throw (-etimedout)
  mboxCall .lastReply

/-- `cmd_roundtrip0`. -/
def cmdRoundtrip0 (opcode : Word) : Mbox Word := do
  let ret ← mboxSendWord opcode
  if ret ≠ 0 then throw ret
  mboxWaitReply

/-- `cmd_roundtrip1`. -/
def cmdRoundtrip1 (opcode payload : Word) : Mbox Word := do
  let ret ← mboxSendWord opcode
  if ret ≠ 0 then throw ret
  let ret ← mboxSendWord payload
  if ret ≠ 0 then throw ret
  mboxWaitReply

/-- The round trip of a request: `cmd_roundtrip0` for `CMD_STOP`, `cmd_roundtrip1` for any
other command. -/
def roundtrip (request : Request) : Mbox Word :=
  match request.payload with
  | none => cmdRoundtrip0 request.cmd.toWord
  | some word => cmdRoundtrip1 request.cmd.toWord word

/-! ### The two cores -/

/-- A shell's thread: between round trips, or with the rest of one to run. -/
inductive Thread where
  | idle
  | inside (request : Request) (rest : Program mboxInterface (Except Int Word))

/-- core1 and the FIFOs, and what the shell threads of core0 share. -/
structure Cores (F Client : Type) where
  core1 : Core1.State F
  /-- Whether `reply_sem` is given; its limit is 1. -/
  replySem : Bool
  lastReply : Word
  /-- Whether the mailbox interrupt is past `mbox_cb`. -/
  draining : Bool
  threads : Client → Thread

/-- The party that moves next. -/
inductive Turn (Client : Type) where
  /-- A shell calls a round trip. -/
  | issue (client : Client) (request : Request)
  /-- A thread's next call is answered with this return code. -/
  | thread (client : Client) (ret : Int)
  | core1
  | pull
  | rise
  /-- The mailbox interrupt takes a word and calls `mbox_cb`. -/
  | interrupt
  /-- It discards a word, or finds none and ends. -/
  | drain

/-- What an observer of both cores records. -/
inductive Record (F Client : Type) where
  | issued (client : Client) (request : Request)
  /-- core1 has decoded a command; `M` at that time. -/
  | decoded (motion : Motion F) (cmd : StepperCmd) (payload : Option Word)
  | core1 (event : Event)
  /-- The interrupt has discarded a word. -/
  | discarded (word : Word)
  | returned (client : Client) (request : Request) (result : Except Int Word)

section Semantics

variable {F Client : Type} [SinglePrecision F] [DecidableEq Client]

namespace Cores

/-- A shell's thread goes on. -/
def setThread (s : Cores F Client) (client : Client) (thread : Thread) : Cores F Client :=
  { s with threads := fun other => if other = client then thread else s.threads other }

/-- `mbox_cb`. -/
def mboxCb (s : Cores F Client) (word : Word) : Cores F Client :=
  { s with lastReply := word, replySem := true }

/-- Write a word to the FIFO core1 reads. -/
def queueWord (s : Cores F Client) (word : Word) : Cores F Client :=
  { s with core1 := { s.core1 with inbound := s.core1.inbound ++ [word] } }

/-- A call of the driver or of the kernel, with its return code. A wait ends when the
semaphore is given, or else in a timeout. -/
def mboxAnswer (s : Cores F Client) :
    (request : MboxRequest) → Int → Option (MboxResponse request × Cores F Client)
  | .send word, ret => some (ret, if ret = 0 then s.queueWord word else s)
  | .semTake, ret =>
      if ret = 0 then if s.replySem then some (ret, { s with replySem := false }) else none
      else if s.replySem then none else some (ret, s)
  | .lastReply, _ => some (s.lastReply, s)

/-- A thread goes on with the rest of its round trip, or returns from it. -/
def resume (s : Cores F Client) (client : Client) (request : Request) :
    Program mboxInterface (Except Int Word) → List (Record F Client) × Cores F Client
  | .done result => ([.returned client request result], s.setThread client .idle)
  | rest => ([], s.setThread client (.inside request rest))

/-- What is recorded of core1. -/
def recordOf (motion : Motion F) : Event → Record F Client
  | .decoded cmd payload => .decoded motion cmd payload
  | event => .core1 event

/-- A step of core1 or of its PIO. -/
def core1Turn (s : Cores F Client) (choice : Core1.Choice) :
    Option (List (Record F Client) × Cores F Client) :=
  (Core1.step s.core1 choice).map fun (emitted, next) =>
    (emitted.map (recordOf s.core1.motion), { s with core1 := next })

/-- One step of whichever party moves; core0's threads wait for its interrupt. -/
def step (s : Cores F Client) : Turn Client → Option (List (Record F Client) × Cores F Client)
  | .issue client request =>
      match s.draining, s.threads client with
      | false, .idle =>
          some ([.issued client request],
            s.setThread client (.inside request (roundtrip request).run))
      | _, _ => none
  | .thread client ret =>
      match s.draining, s.threads client with
      | false, .inside request (.ask asked rest) =>
          (s.mboxAnswer asked ret).map fun (response, next) =>
            next.resume client request (rest response)
      | _, _ => none
  | .core1 => s.core1Turn .core1
  | .pull => s.core1Turn .pull
  | .rise => s.core1Turn .rise
  | .interrupt =>
      match s.draining, s.core1.outbound with
      | false, word :: outbound =>
          some ([], { s.mboxCb word with
            core1 := { s.core1 with outbound := outbound }
            draining := true })
      | _, _ => none
  | .drain =>
      match s.draining, s.core1.outbound with
      | true, word :: outbound =>
          some ([.discarded word], { s with core1 := { s.core1 with outbound := outbound } })
      | true, [] => some ([], { s with draining := false })
      | false, _ => none

/-- Both cores after `stepper_mbox_init`. -/
def initial : Cores F Client where
  core1 := Core1.initial
  replySem := false
  lastReply := 0
  draining := false
  threads := fun _ => .idle

end Cores
end Semantics

/-- The shells, the interrupt and core1 as a labelled system. -/
abbrev system (F Client : Type) [SinglePrecision F] [DecidableEq Client] :
    System (Record F Client) :=
  System.ofFunction (fun s : Cores F Client => s = .initial) Cores.step

/-! ### core1 by itself -/

section Projection

variable {F Client : Type}

/-- What core1 has done, of a record. -/
def Record.event? : Record F Client → Option Event
  | .decoded _ cmd payload => some (.decoded cmd payload)
  | .core1 event => some event
  | _ => none

/-- What core1 records is one of its events. -/
theorem event?_recordOf (motion : Motion F) (event : Event) :
    (Cores.recordOf motion event : Record F Client).event? = some event := by
  cases event <;> rfl

variable [SinglePrecision F]

variable [DecidableEq Client]

/-- The records of what core1 has done. -/
def ofCore1 (records : List (Record F Client)) : List (Record F Client) :=
  records.filter fun record => record.event?.isSome

omit [SinglePrecision F] [DecidableEq Client] in
/-- It is core1's. -/
theorem ofCore1_recordOf (motion : Motion F) (emitted : List Event) :
    ofCore1 (emitted.map (Cores.recordOf motion : Event → Record F Client)) =
      emitted.map (Cores.recordOf motion) := by
  refine List.filter_eq_self.mpr fun record member => ?_
  obtain ⟨event, -, rfl⟩ := List.mem_map.mp member
  rw [event?_recordOf]
  rfl

omit [SinglePrecision F] [DecidableEq Client] in
/-- Only core1 records events of its own. -/
theorem events_ofCore1 (records : List (Record F Client)) :
    (ofCore1 records).filterMap Record.event? = records.filterMap Record.event? := by
  rw [ofCore1, List.filterMap_filter]
  congr 1
  funext record
  cases record <;> rfl

/-- A turn leaves core1 alone, or is a step of its system, and of core1 itself only if it is
core1's turn. -/
theorem core1Choice_of_step {s next : Cores F Client} {turn : Turn Client}
    {records : List (Record F Client)} (stepped : s.step turn = some (records, next)) :
    (ofCore1 records = [] ∧ next.core1 = s.core1) ∨
      ∃ choice emitted, Core1.step s.core1 choice = some (emitted, next.core1) ∧
        (choice = .core1 → turn = .core1) ∧
        ofCore1 records = emitted.map (Cores.recordOf s.core1.motion) := by
  have own : ∀ choice, (choice = .core1 → turn = .core1) →
      s.core1Turn choice = some (records, next) →
      ∃ choice emitted, Core1.step s.core1 choice = some (emitted, next.core1) ∧
        (choice = .core1 → turn = .core1) ∧
        ofCore1 records = emitted.map (Cores.recordOf s.core1.motion) := by
    intro choice mine stepped
    simp only [Cores.core1Turn, Option.map_eq_some_iff, Prod.mk.injEq] at stepped
    obtain ⟨⟨emitted, core1⟩, moved, rfl, rfl⟩ := stepped
    exact ⟨choice, emitted, moved, mine, ofCore1_recordOf _ _⟩
  cases turn with
  | core1 => exact .inr (own .core1 (fun _ => rfl) stepped)
  | pull => exact .inr (own .pull (by simp) stepped)
  | rise => exact .inr (own .rise (by simp) stepped)
  | issue client request =>
      simp only [Cores.step] at stepped
      split at stepped
      · simp only [Option.some.injEq, Prod.mk.injEq] at stepped
        obtain ⟨rfl, rfl⟩ := stepped
        exact .inl ⟨rfl, rfl⟩
      · cases stepped
  | thread client ret =>
      simp only [Cores.step] at stepped
      split at stepped
      · rename_i request asked rest still here
        simp only [Option.map_eq_some_iff] at stepped
        obtain ⟨⟨response, middle⟩, answered, resumed⟩ := stepped
        have resumed : ofCore1 records = [] ∧ next.core1 = middle.core1 := by
          cases left : rest response <;> simp only [left, Cores.resume, Prod.mk.injEq] at resumed <;>
            (obtain ⟨rfl, rfl⟩ := resumed; exact ⟨rfl, rfl⟩)
        rw [resumed.1, resumed.2]
        cases asked with
        | send word =>
            simp only [Cores.mboxAnswer, Option.some.injEq, Prod.mk.injEq] at answered
            obtain ⟨rfl, rfl⟩ := answered
            split
            · exact .inr ⟨.arrive word, [], rfl, by simp, rfl⟩
            · exact .inl ⟨rfl, rfl⟩
        | semTake =>
            simp only [Cores.mboxAnswer] at answered
            split at answered <;> split at answered <;>
              simp only [Option.some.injEq, Prod.mk.injEq, reduceCtorEq] at answered
            · obtain ⟨rfl, rfl⟩ := answered
              exact .inl ⟨rfl, rfl⟩
            · obtain ⟨rfl, rfl⟩ := answered
              exact .inl ⟨rfl, rfl⟩
        | lastReply =>
            simp only [Cores.mboxAnswer, Option.some.injEq, Prod.mk.injEq] at answered
            obtain ⟨rfl, rfl⟩ := answered
            exact .inl ⟨rfl, rfl⟩
      · cases stepped
  | interrupt =>
      simp only [Cores.step] at stepped
      split at stepped
      · rename_i word outbound still queued
        simp only [Option.some.injEq, Prod.mk.injEq] at stepped
        obtain ⟨rfl, rfl⟩ := stepped
        exact .inr ⟨.take, [], by simp [Core1.step, queued], by simp, rfl⟩
      · cases stepped
  | drain =>
      simp only [Cores.step] at stepped
      split at stepped
      · rename_i word outbound still queued
        simp only [Option.some.injEq, Prod.mk.injEq] at stepped
        obtain ⟨rfl, rfl⟩ := stepped
        exact .inr ⟨.take, [], by simp [Core1.step, queued], by simp, rfl⟩
      · simp only [Option.some.injEq, Prod.mk.injEq] at stepped
        obtain ⟨rfl, rfl⟩ := stepped
        exact .inl ⟨rfl, rfl⟩
      · cases stepped

/-- A turn leaves core1 alone or is a step of its system, with the events of its records. -/
theorem core1Step_of_step {s next : Cores F Client} {turn : Turn Client}
    {records : List (Record F Client)} (stepped : s.step turn = some (records, next)) :
    (records.filterMap Record.event? = [] ∧ next.core1 = s.core1) ∨
      ∃ choice, Core1.step s.core1 choice = some (records.filterMap Record.event?, next.core1) ∧
        (choice = .core1 → turn = .core1) := by
  rw [← events_ofCore1]
  rcases core1Choice_of_step stepped with ⟨silent, same⟩ | ⟨choice, emitted, moved, mine, told⟩
  · exact .inl ⟨by rw [silent]; rfl, same⟩
  · refine .inr ⟨choice, ?_, mine⟩
    rw [told]
    simp [List.filterMap_map, event?_recordOf, moved]

/-- Whatever the shells do, core1 makes a run of its own system, within any guard which its turns
keep and the others' meet anyway. -/
theorem core1_run_of_run {guard : Cores F Client → Turn Client → Prop}
    {admitted : Core1.State F → Core1.Choice → Prop}
    (admits : ∀ s turn choice, guard s turn → (choice = .core1 → turn = .core1) →
      admitted s.core1 choice)
    {start s : Cores F Client} {turns : List (Turn Client)} {records : List (Record F Client)}
    (run : (system F Client).Run guard start turns records s) :
    ∃ choices, (Core1.system F).Run admitted start.core1 choices
      (records.filterMap Record.event?) s.core1 := by
  refine System.Run.invariant (fun (s : Cores F Client) records => ∃ choices,
    (Core1.system F).Run admitted start.core1 choices (records.filterMap Record.event?) s.core1)
    ⟨[], .refl⟩ ?_ run
  rintro s records turn emitted next ⟨choices, prior⟩ allowed stepped
  rw [List.filterMap_append]
  rcases core1Step_of_step stepped with ⟨silent, same⟩ | ⟨choice, moved, mine⟩
  · exact ⟨choices, by rw [silent, same, List.append_nil]; exact prior⟩
  · exact ⟨_, .step prior (admits s turn choice allowed mine) moved⟩

end Projection
end Rp2350Stepper.Shell
