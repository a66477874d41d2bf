import Rp2350Stepper.Core1.Mailbox
import Rp2350Stepper.Data.Fifo
import Rp2350Stepper.Data.Scripts
import Rp2350Stepper.Semantics.Schedules

/-!
# Launching core1 (`core1_launch.c`)

The handshake loop of `core1_launch`: core0 sends `cmd_sequence` through the inter-core FIFOs and
starts over at each word that is not the echo of its command. core1 is not modelled: it queues
any words at any time, and takes core0's when it likes.
-/

namespace Rp2350Stepper.Core1.Launch

open Rp2350Stepper.Data Rp2350Stepper.Semantics

/-- `cmd_sequence`. -/
def cmdSequence (vectorTable sp entry : Word) : List Word := [0, 0, 1, vectorTable, sp, entry]

/-- Where core0 stands in the loop. -/
inductive Point where
  | condition
  | drain
  | ready
  | valid
  | exited
deriving DecidableEq, Repr

/-- The loop's variables, and the FIFOs from and to core1. -/
structure State (depth : Nat) where
  point : Point
  seq : Nat
  cmd : Word
  inbound : Fifo Word depth
  outbound : Fifo Word depth
deriving DecidableEq, Repr

/-- What core0 does to the FIFOs. -/
inductive Event where
  | drained (word : Word)
  | sent (cmd : Word)
  | answered (cmd resp : Word)
deriving DecidableEq, Repr

/-- core0 moves, core1 queues a word, or core1 takes one. -/
inductive Choice where
  | core0
  | arrive (word : Word)
  | take
deriving DecidableEq, Repr

variable {depth : Nat} {commands : List Word}

/-- One read of a status register by core0, with what it does next. -/
def core0Step (commands : List Word) (s : State depth) : List Event × State depth :=
  match s.point with
  | .condition =>
      match commands[s.seq]? with
      | some cmd => ([], { s with cmd := cmd, point := if cmd = 0 then .drain else .ready })
      | none => ([], { s with point := .exited })
  | .drain =>
      match s.inbound.pop? with
      | some (word, inbound) => ([.drained word], { s with inbound := inbound })
      | none => ([], { s with point := .ready })
  | .ready =>
      match s.outbound.push? s.cmd with
      | some outbound => ([.sent s.cmd], { s with outbound := outbound, point := .valid })
      | none => ([], s)
  | .valid =>
      match s.inbound.pop? with
      | some (resp, inbound) =>
          ([.answered s.cmd resp],
            { s with
              inbound := inbound
              seq := if s.cmd = resp then s.seq + 1 else 0
              point := .condition })
      | none => ([], s)
  | .exited => ([], s)

/-- One step of either core, or of the outside. -/
def step (commands : List Word) (s : State depth) : Choice → Option (List Event × State depth)
  | .core0 => some (core0Step commands s)
  | .arrive word => (s.inbound.push? word).map fun inbound => ([], { s with inbound := inbound })
  | .take => s.outbound.pop?.map fun (_, outbound) => ([], { s with outbound := outbound })

/-- The loop as `core1_launch` enters it, whatever the FIFOs hold. -/
def enter (inbound outbound : Fifo Word depth) : State depth where
  point := .condition
  seq := 0
  cmd := 0
  inbound := inbound
  outbound := outbound

/-- The handshake over a sequence of commands. -/
def handshake (depth : Nat) (commands : List Word) : System Event :=
  .ofFunction (fun s : State depth => ∃ inbound outbound, s = enter inbound outbound)
    (step commands)

/-! ### What one step can do -/

/-- One step, by what it does. -/
inductive Move (commands : List Word) (s : State depth) :
    Choice → List Event → State depth → Prop where
  | next (here : s.point = .condition) (cmd : Word) (next : commands[s.seq]? = some cmd) :
      Move commands s .core0 []
        { s with cmd := cmd, point := if cmd = 0 then .drain else .ready }
  | exits (here : s.point = .condition) (past : commands.length ≤ s.seq) :
      Move commands s .core0 [] { s with point := .exited }
  | drains (here : s.point = .drain) (word : Word) (inbound : Fifo Word depth)
      (queued : s.inbound.items = word :: inbound.items) :
      Move commands s .core0 [.drained word] { s with inbound := inbound }
  | drained (here : s.point = .drain) (empty : s.inbound.items = []) :
      Move commands s .core0 [] { s with point := .ready }
  | sends (here : s.point = .ready) (outbound : Fifo Word depth)
      (queued : outbound.items = s.outbound.items ++ [s.cmd]) :
      Move commands s .core0 [.sent s.cmd] { s with outbound := outbound, point := .valid }
  | full (here : s.point = .ready) (full : s.outbound.isFull = true) :
      Move commands s .core0 [] s
  | answered (here : s.point = .valid) (resp : Word) (inbound : Fifo Word depth)
      (queued : s.inbound.items = resp :: inbound.items) :
      Move commands s .core0 [.answered s.cmd resp]
        { s with
          inbound := inbound
          seq := if s.cmd = resp then s.seq + 1 else 0
          point := .condition }
  | unanswered (here : s.point = .valid) (empty : s.inbound.items = []) :
      Move commands s .core0 [] s
  | returned (here : s.point = .exited) : Move commands s .core0 [] s
  | arrive (word : Word) (inbound : Fifo Word depth)
      (queued : inbound.items = s.inbound.items ++ [word]) :
      Move commands s (.arrive word) [] { s with inbound := inbound }
  | take (cmd : Word) (outbound : Fifo Word depth)
      (queued : s.outbound.items = cmd :: outbound.items) :
      Move commands s .take [] { s with outbound := outbound }

/-- What core0's step does. -/
private theorem move_of_core0 (s : State depth) :
    Move commands s .core0 (core0Step commands s).1 (core0Step commands s).2 := by
  unfold core0Step
  split
  · rename_i here
    split
    · rename_i cmd next
      exact .next here cmd next
    · rename_i past
      exact .exits here (List.getElem?_eq_none_iff.mp past)
  · rename_i here
    split
    · rename_i word inbound popped
      exact .drains here word inbound (Fifo.pop?_eq_some_iff.mp popped)
    · rename_i empty
      exact .drained here (Fifo.pop?_eq_none_iff.mp empty)
  · rename_i here
    split
    · rename_i outbound pushed
      exact .sends here outbound (Fifo.push?_eq_some_iff.mp pushed).2
    · rename_i full
      exact .full here (Fifo.push?_eq_none_iff.mp full)
  · rename_i here
    split
    · rename_i resp inbound popped
      exact .answered here resp inbound (Fifo.pop?_eq_some_iff.mp popped)
    · rename_i empty
      exact .unanswered here (Fifo.pop?_eq_none_iff.mp empty)
  · rename_i here
    exact .returned here

/-- Every step is one of the moves. -/
theorem move_of_step {s next : State depth} {choice : Choice} {emitted : List Event}
    (stepped : (handshake depth commands).Step s choice emitted next) :
    Move commands s choice emitted next := by
  cases choice with
  | core0 =>
      obtain ⟨rfl, rfl⟩ := Prod.mk.inj (Option.some.inj stepped)
      exact move_of_core0 s
  | arrive word =>
      obtain ⟨inbound, pushed, same⟩ := Option.map_eq_some_iff.mp stepped
      obtain ⟨rfl, rfl⟩ := Prod.mk.inj same
      exact .arrive word inbound (Fifo.push?_eq_some_iff.mp pushed).2
  | take =>
      obtain ⟨⟨cmd, outbound⟩, popped, same⟩ := Option.map_eq_some_iff.mp stepped
      obtain ⟨rfl, rfl⟩ := Prod.mk.inj same
      exact .take cmd outbound (Fifo.pop?_eq_some_iff.mp popped)

/-! ### The commands and their answers -/

/-- The commands core0 sent. -/
def sent (events : List Event) : List Word := events.filterMap fun
  | .sent cmd => some cmd
  | _ => none

/-- The commands core1 answered, each with the word core0 read. -/
def exchange (events : List Event) : List (Word × Word) := events.filterMap fun
  | .answered cmd resp => some (cmd, resp)
  | _ => none

/-- What has been sent, in order. -/
@[simp] theorem sent_append (earlier later : List Event) :
    sent (earlier ++ later) = sent earlier ++ sent later := List.filterMap_append ..

/-- What has been sent and answered, in order. -/
@[simp] theorem exchange_append (earlier later : List Event) :
    exchange (earlier ++ later) = exchange earlier ++ exchange later := List.filterMap_append ..

/-- The command core0 has sent and has no answer to. -/
def State.pending (s : State depth) : List Word := if s.point = .valid then [s.cmd] else []

/-- What the loop's variables say about the exchange: `seq` is its streak, `cmd` the command the
script has there, and every command but the pending one was answered. -/
structure Books (commands : List Word) (s : State depth) (events : List Event) : Prop where
  scripted : Scripted commands (exchange events)
  seq : s.seq = streak (exchange events)
  cmd : s.point ≠ .condition → s.point ≠ .exited → commands[s.seq]? = some s.cmd
  sent : sent events = (exchange events).map Prod.fst ++ s.pending
  exited : s.point = .exited → commands.length ≤ s.seq

/-- Before the exchange there is nothing to book. -/
theorem books_enter (inbound outbound : Fifo Word depth) :
    Books commands (enter inbound outbound) [] := by
  refine ⟨Scripted.nil, rfl, fun inside => absurd rfl inside, rfl, ?_⟩
  intro exited
  cases exited

/-- Every step keeps the books. -/
theorem books_move {s next : State depth} {events emitted : List Event} {choice : Choice}
    (books : Books commands s events) (move : Move commands s choice emitted next) :
    Books commands next (events ++ emitted) := by
  obtain ⟨scripted, seq, held, commanded, ended⟩ := books
  cases move with
  | next here cmd next =>
      have inside : (if cmd = 0 then Point.drain else Point.ready) ≠ .valid ∧
          (if cmd = 0 then Point.drain else Point.ready) ≠ .exited := by
        split <;> decide
      rw [List.append_nil]
      refine ⟨scripted, seq, fun _ _ => next, ?_, fun exited => absurd exited inside.2⟩
      rw [commanded, State.pending, State.pending, if_neg inside.1, if_neg (by simp [here])]
  | exits here past =>
      rw [List.append_nil]
      refine ⟨scripted, seq, fun _ inside => absurd rfl inside, ?_, fun _ => past⟩
      rw [commanded]
      simp [State.pending, here]
  | drains here word inbound queued =>
      refine ⟨?_, ?_, held, ?_, ended⟩ <;> simpa [sent, exchange]
  | drained here empty =>
      rw [List.append_nil]
      refine ⟨scripted, seq, fun _ _ => held (by simp [here]) (by simp [here]), ?_, ?_⟩
      · rw [commanded]
        simp [State.pending, here]
      · simp
  | sends here outbound queued =>
      refine ⟨?_, ?_, fun _ _ => held (by simp [here]) (by simp [here]), ?_, ?_⟩
      · simpa [exchange] using scripted
      · simpa [exchange] using seq
      · rw [sent_append, commanded]
        simp [State.pending, here, sent, exchange]
      · simp
  | answered here resp inbound queued =>
      have cmd : commands[streak (exchange events)]? = some s.cmd :=
        seq ▸ held (by simp [here]) (by simp [here])
      have one : exchange (events ++ [.answered s.cmd resp]) =
          exchange events ++ [(s.cmd, resp)] := by
        rw [exchange_append]
        rfl
      refine ⟨?_, ?_, fun inside => absurd rfl inside, ?_, ?_⟩
      · rw [one]
        exact scripted.append_singleton cmd resp
      · rw [one, streak_append_singleton, seq]
      · rw [one, sent_append, commanded]
        simp [State.pending, here, sent]
      · simp
  | full | unanswered | returned | arrive | take =>
      rw [List.append_nil]
      exact ⟨scripted, seq, held, commanded, ended⟩

/-- The books of a whole run. -/
theorem books_of_run {start finish : State depth} {choices : List Choice} {events : List Event}
    (initial : (handshake depth commands).Initial start)
    (run : (handshake depth commands).Run (handshake depth commands).unguarded start choices
      events finish) : Books commands finish events := by
  obtain ⟨inbound, outbound, rfl⟩ := initial
  exact run.invariant (Books commands) (books_enter inbound outbound)
    fun books _ transition => books_move books (move_of_step transition)

namespace Books

variable {s : State depth} {events : List Event} {k : Nat}

/-- With few wrong answers the exchange is short, and shorter by one where a command is pending. -/
theorem exchange_le (books : Books commands s events) (few : mismatches (exchange events) ≤ k) :
    (exchange events).length + s.pending.length ≤ commands.length * (k + 1) := by
  have bound := books.scripted.length_le
  have scaled : commands.length * mismatches (exchange events) ≤ commands.length * k :=
    Nat.mul_le_mul_left _ few
  have least := books.scripted.streak_le
  rw [Nat.mul_succ]
  by_cases valid : s.point = .valid
  · have next := books.cmd (by simp [valid]) (by simp [valid])
    have within : s.seq < commands.length := (List.getElem?_eq_some_iff.mp next).1
    have one : s.pending.length = 1 := by simp [State.pending, valid]
    have seq := books.seq
    omega
  · have none : s.pending.length = 0 := by simp [State.pending, valid]
    omega

/-- With few mismatches little is sent. -/
theorem sent_le (books : Books commands s events) (few : mismatches (exchange events) ≤ k) :
    (Launch.sent events).length ≤ commands.length * (k + 1) := by
  rw [books.sent, List.length_append, List.length_map]
  exact books.exchange_le few

/-- When the loop is over, the last commands it sent are the whole sequence, and each was
answered by itself. -/
theorem of_exited (books : Books commands s events) (exited : s.point = .exited) :
    ∃ earlier, exchange events = earlier ++ commands.map (fun command => (command, command)) ∧
      Launch.sent events = earlier.map Prod.fst ++ commands := by
  have ended := books.exited exited
  have whole : streak (exchange events) = commands.length :=
    Nat.le_antisymm books.scripted.streak_le (books.seq ▸ ended)
  obtain ⟨earlier, split⟩ := books.scripted.ends_with_streak
  rw [whole, List.take_length] at split
  refine ⟨earlier, split, ?_⟩
  have pending : s.pending = [] := by simp [State.pending, exited]
  rw [books.sent, pending, List.append_nil, split, List.map_append, List.map_map]
  exact congrArg _ (List.map_id commands)

end Books

/-! ### Leaving the loop -/

/-- A busy wait holds core0: there are words to drain, no room to send, or no answer yet. -/
def State.Waiting (s : State depth) : Prop :=
  (s.point = .drain ∧ s.inbound.items ≠ []) ∨ (s.point = .ready ∧ s.outbound.isFull = true) ∨
    (s.point = .valid ∧ s.inbound.items = [])

/-- Every busy wait ends: core0 moves again and again where none holds it. -/
def Fair {start : State depth} (schedule : Schedule (handshake depth commands) start) : Prop :=
  ∀ index, ∃ later, index ≤ later ∧ schedule.choiceAt later = .core0 ∧
    ¬(schedule.stateAt later : State depth).Waiting

/-- The points left before the next answer. -/
def Point.left : Point → Nat
  | condition => 3
  | drain => 2
  | ready => 1
  | valid | exited => 0

/-- How far the loop is from its end if no more than `k` answers are wrong. -/
def remaining (commands : List Word) (k : Nat) (s : State depth) (events : List Event) : Nat :=
  4 * (commands.length * (k + 1) - (exchange events).length) + s.point.left

/-- No step leads away from the end, and core0 comes closer wherever no busy wait holds it. -/
theorem remaining_move {s next : State depth} {events emitted : List Event} {choice : Choice}
    {k : Nat} (books : Books commands s events) (few : mismatches (exchange events) ≤ k)
    (unfinished : s.point ≠ .exited) (move : Move commands s choice emitted next) :
    remaining commands k next (events ++ emitted) ≤ remaining commands k s events ∧
      (choice = .core0 ∧ ¬s.Waiting →
        remaining commands k next (events ++ emitted) < remaining commands k s events) := by
  have bound := books.exchange_le few
  unfold remaining
  cases move with
  | next here cmd next =>
      have less : (if cmd = 0 then Point.drain else Point.ready).left < s.point.left := by
        rw [here]
        split <;> decide
      rw [List.append_nil]
      dsimp only
      omega
  | exits here past =>
      rw [List.append_nil, here]
      simp [Point.left]
  | drains here word inbound queued =>
      have waiting : s.Waiting := .inl ⟨here, by simp [queued]⟩
      simp [exchange, waiting]
  | drained here empty =>
      rw [List.append_nil, here]
      simp [Point.left]
  | sends here outbound queued =>
      simp [exchange, here, Point.left]
  | answered here resp inbound queued =>
      have one : s.pending.length = 1 := by simp [State.pending, here]
      have longer : (exchange (events ++ [.answered s.cmd resp])).length =
          (exchange events).length + 1 := by simp [exchange]
      rw [longer, here]
      simp only [Point.left]
      omega
  | full here full =>
      have waiting : s.Waiting := .inr (.inl ⟨here, full⟩)
      simp [waiting]
  | unanswered here empty =>
      have waiting : s.Waiting := .inr (.inr ⟨here, empty⟩)
      simp [waiting]
  | returned here => exact absurd here unfinished
  | arrive | take => simp

/-- If every busy wait ends and few answers are wrong, core0 leaves the loop. -/
theorem exits_of_fair {start : State depth} {k : Nat}
    (initial : (handshake depth commands).Initial start)
    (schedule : Schedule (handshake depth commands) start) (fair : Fair schedule)
    (few : ∀ index, mismatches (exchange (schedule.events 0 index)) ≤ k) :
    ∃ index, (schedule.stateAt index : State depth).point = .exited := by
  have books (index : Nat) :
      Books commands (schedule.stateAt index : State depth) (schedule.events 0 index) := by
    obtain ⟨choices, run⟩ := schedule.run 0 index
    rw [schedule.stateZero, Nat.zero_add] at run
    exact books_of_run initial run
  have closer (index rank : Nat) (here : remaining commands k (schedule.stateAt index : State depth)
      (schedule.events 0 index) = rank) :
      (schedule.stateAt index : State depth).point = .exited ∨ ∃ lower ≤ rank,
        remaining commands k (schedule.stateAt (index + 1) : State depth)
          (schedule.events 0 (index + 1)) = lower ∧
        (schedule.choiceAt index = .core0 ∧ ¬(schedule.stateAt index : State depth).Waiting →
          lower < rank) := by
    by_cases exited : (schedule.stateAt index : State depth).point = .exited
    · exact .inl exited
    · have move := move_of_step (schedule.step index)
      have left := remaining_move (books index) (few index) exited move
      rw [schedule.events_succ, Nat.zero_add, ← here]
      exact .inr ⟨_, left.1, rfl, left.2⟩
  obtain ⟨index, _, exited, _⟩ := Schedule.eventually_first _ _ fair closer
    (rfl : remaining commands k (schedule.stateAt 0 : State depth) _ = _)
  exact ⟨index, exited⟩

/-- A run which has left the loop goes on as a fair schedule, with no more answers. -/
theorem fair_of_exited {start finish : State depth} {choices : List Choice} {events : List Event}
    (run : (handshake depth commands).Run (handshake depth commands).unguarded start choices
      events finish) (exited : finish.point = .exited) :
    ∃ schedule : Schedule (handshake depth commands) start, Fair schedule ∧
      ∀ index, exchange (schedule.events 0 index) <+: exchange events := by
  have rests : (handshake depth commands).Step finish .core0 [] finish := by
    change some (core0Step commands finish) = some ([], finish)
    simp [core0Step, exited]
  obtain ⟨schedule, count, later, within⟩ := Schedule.exists_at_rest run rests
  refine ⟨schedule, fun index => ?_, fun index => (within index).filterMap _⟩
  refine ⟨count + index, Nat.le_add_left index count, (later index).2, ?_⟩
  rw [(later index).1]
  simp [State.Waiting, exited]

/-- The handshake of `core1_launch` from any contents of the FIFOs. In every run: once core0 has
left the loop, the last six commands it sent are `cmd_sequence`, each answered by itself; six
echoes in a row are the last answers it reads; and with at most `k` wrong answers it has sent at
most `6 * (k + 1)` commands. If besides every busy wait ends, it leaves the loop. -/
theorem core1_launch_handshake (vectorTable sp entry : Word) {start : State depth}
    (initial : (handshake depth (cmdSequence vectorTable sp entry)).Initial start) :
    (∀ choices events finish, (handshake depth (cmdSequence vectorTable sp entry)).Run
      (handshake depth (cmdSequence vectorTable sp entry)).unguarded start choices events finish →
      (finish.point = .exited → ∃ earlier, exchange events =
          earlier ++ (cmdSequence vectorTable sp entry).map (fun cmd => (cmd, cmd)) ∧
        sent events = earlier.map Prod.fst ++ cmdSequence vectorTable sp entry) ∧
      (∀ before window after, exchange events = before ++ window ++ after →
        window.length = 6 → (∀ pair ∈ window, pair.1 = pair.2) → after = []) ∧
      ∀ k, mismatches (exchange events) ≤ k → (sent events).length ≤ 6 * (k + 1)) ∧
    ∀ (schedule : Schedule (handshake depth (cmdSequence vectorTable sp entry)) start) (k : Nat),
      Fair schedule → (∀ index, mismatches (exchange (schedule.events 0 index)) ≤ k) →
      ∃ index, (schedule.stateAt index : State depth).point = .exited ∧
        (sent (schedule.events 0 index)).length ≤ 6 * (k + 1) := by
  refine ⟨?_, ?_⟩
  · intro choices events finish run
    have books := books_of_run initial run
    refine ⟨books.of_exited, ?_, fun k few => books.sent_le few⟩
    intro before window after split whole echoed
    exact books.scripted.nothing_after_echoes split whole echoed
  · intro schedule k fair few
    obtain ⟨index, exited⟩ := exits_of_fair initial schedule fair few
    obtain ⟨choices, run⟩ := schedule.run 0 index
    rw [schedule.stateZero, Nat.zero_add] at run
    exact ⟨index, exited, (books_of_run initial run).sent_le (few index)⟩

/-- core1 takes one command and answers with a word. -/
def answer (word : Word) : List Choice := [.core0, .core0, .core0, .take, .arrive word, .core0]

/-- The loop is entered with a stale word for core0. -/
def stale : State 4 := enter ⟨[9], by decide⟩ .empty

/-- Eleven commands are answered, the fifth by another stale word, and the loop is left. -/
def elevenAnswers : List Choice :=
  .core0 :: [0, 0, 1, 0, 5, 0, 0, 1, 0, 1, 0].flatMap answer ++ [.core0]

/-- A launch with a vector table at 0, a stack at 1 and an entry at 0. -/
theorem launch_after_stale_word :
    (∃ earlier events finish, (handshake 4 (cmdSequence 0 1 0)).Run
        (handshake 4 (cmdSequence 0 1 0)).unguarded stale elevenAnswers events finish ∧
      finish.point = .exited ∧ (sent events).length = 11 ∧ (sent events).length ≤ 12 ∧
      exchange events = earlier ++ (cmdSequence 0 1 0).map (fun cmd => (cmd, cmd)) ∧
      sent events = earlier.map Prod.fst ++ cmdSequence 0 1 0) ∧
    ∃ schedule : Schedule (handshake 4 (cmdSequence 0 1 0)) stale,
      Fair schedule ∧ ∃ index, (schedule.stateAt index : State 4).point = .exited ∧
        (sent (schedule.events 0 index)).length ≤ 12 := by
  have executed : ∃ events finish, System.execute (step (cmdSequence 0 1 0)) (fun _ _ => true)
        stale elevenAnswers = some (events, finish) ∧
      (finish : State 4).point = .exited ∧ (sent events).length = 11 ∧
      mismatches (exchange events) ≤ 1 := by
    refine ⟨_, _, rfl, ?_⟩
    decide +kernel
  obtain ⟨events, finish, executed, exited, eleven, few⟩ := executed
  have run : (handshake 4 (cmdSequence 0 1 0)).Run _ _ _ _ _ :=
    System.unguarded_run_of_execute executed
  have initial : (handshake 4 (cmdSequence 0 1 0)).Initial stale := ⟨_, _, rfl⟩
  obtain ⟨runs, schedules⟩ := core1_launch_handshake 0 1 0 initial
  refine ⟨?_, ?_⟩
  · obtain ⟨ends, _, bound⟩ := runs _ events finish run
    obtain ⟨earlier, answers, commands⟩ := ends exited
    exact ⟨earlier, events, finish, run, exited, eleven, bound 1 few, answers, commands⟩
  · obtain ⟨schedule, fair, within⟩ := fair_of_exited run exited
    refine ⟨schedule, fair, schedules schedule 1 fair fun index => ?_⟩
    exact (within index).sublist.countP_le.trans few

end Rp2350Stepper.Core1.Launch
