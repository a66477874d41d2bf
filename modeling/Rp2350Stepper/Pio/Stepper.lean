import Mathlib.Algebra.GroupWithZero.Nat
import Rp2350Stepper.Pio.Machine

/-!
# The STEP program

Every word pushed is one STEP pulse, in order: not counting the cycles which wait for a word,
the pin follows the pulses of the words one after the other, and it is low while the program
waits.
-/

namespace Rp2350Stepper.Pio

open Rp2350Stepper.Data Rp2350Stepper.Semantics

/-- `stepper.pio`. -/
def stepper : Program 6 where
  instructions := #v[
    ⟨.pullBlock, false⟩,
    ⟨.mov .y .osr, false⟩,
    ⟨.mov .x .y, true⟩,
    -- high_loop
    ⟨.jmpXDecrement 3, true⟩,
    ⟨.mov .x .y, false⟩,
    -- low_loop
    ⟨.jmpXDecrement 5, false⟩]
  wrapTarget := 0
  wrap := 5

variable {depth : Nat}

/-- One step of the program, by what it does. -/
inductive Turn (s : State 6 depth) : List Event → State 6 depth → Prop where
  | push (word : Word) (txFifo : Fifo Word depth) (queued : txFifo.items = s.txFifo.items ++ [word]) :
      Turn s [.pushed word] { s with txFifo := txFifo }
  | stall (here : s.pc = 0) (empty : s.txFifo.items = []) : Turn s [.cycle ⟨false, true⟩] s
  | pull (here : s.pc = 0) (word : Word) (txFifo : Fifo Word depth)
      (queued : s.txFifo.items = word :: txFifo.items) :
      Turn s [.cycle ⟨false, false⟩] { s with pc := 1, osr := word, txFifo := txFifo }
  | load (here : s.pc = 1) : Turn s [.cycle ⟨false, false⟩] { s with pc := 2, y := s.osr }
  | rise (here : s.pc = 2) : Turn s [.cycle ⟨true, false⟩] { s with pc := 3, x := s.y }
  | highLoop (here : s.pc = 3) (more : s.x ≠ 0) :
      Turn s [.cycle ⟨true, false⟩] { s with x := s.x - 1 }
  | highEnd (here : s.pc = 3) (last : s.x = 0) :
      Turn s [.cycle ⟨true, false⟩] { s with pc := 4, x := s.x - 1 }
  | fall (here : s.pc = 4) : Turn s [.cycle ⟨false, false⟩] { s with pc := 5, x := s.y }
  | lowLoop (here : s.pc = 5) (more : s.x ≠ 0) :
      Turn s [.cycle ⟨false, false⟩] { s with x := s.x - 1 }
  | lowEnd (here : s.pc = 5) (last : s.x = 0) :
      Turn s [.cycle ⟨false, false⟩] { s with pc := 0, x := s.x - 1 }

/-- A counter which has not run out is one lower. -/
theorem toNat_sub_one {x : Word} (positive : x ≠ 0) : (x - 1).toNat = x.toNat - 1 := by
  have above : x.toNat ≠ 0 := fun zero => positive (BitVec.eq_of_toNat_eq zero)
  have bound := x.isLt
  have one : (1 : Word).toNat = 1 := rfl
  rw [BitVec.toNat_sub, one]
  omega

/-- Where the program can be. -/
theorem pc_cases (pc : Fin 6) : pc = 0 ∨ pc = 1 ∨ pc = 2 ∨ pc = 3 ∨ pc = 4 ∨ pc = 5 := by
  revert pc
  decide

/-- Every cycle is one of these. -/
theorem turn_of_cycle (s : State 6 depth) :
    ∃ emitted next, stepper.step s .cycle = some (emitted, next) ∧ Turn s emitted next := by
  rcases pc_cases s.pc with here | here | here | here | here | here
  · have fetched : stepper.fetch s.pc = ⟨.pullBlock, false⟩ := by rw [here]; rfl
    cases queued : s.txFifo.items with
    | nil =>
        exact ⟨_, _, stepper.step_cycle fetched (stepper.execute_pull_empty queued),
          .stall here queued⟩
    | cons word rest =>
        have bounded := s.txFifo.bounded
        rw [queued, List.length_cons] at bounded
        have popped : s.txFifo.items = word :: (⟨rest, by omega⟩ : Fifo Word depth).items := queued
        have executed := stepper.execute_pull_queued popped
        rw [here] at executed
        exact ⟨_, _, stepper.step_cycle fetched executed, .pull here word _ queued⟩
  · have fetched : stepper.fetch s.pc = ⟨.mov .y .osr, false⟩ := by rw [here]; rfl
    have executed : stepper.execute s (.mov .y .osr) = (false, { s with pc := 2, y := s.osr }) := by
      simp only [Program.execute, here]
      rfl
    exact ⟨_, _, stepper.step_cycle fetched executed, .load here⟩
  · have fetched : stepper.fetch s.pc = ⟨.mov .x .y, true⟩ := by rw [here]; rfl
    have executed : stepper.execute s (.mov .x .y) = (false, { s with pc := 3, x := s.y }) := by
      simp only [Program.execute, here]
      rfl
    exact ⟨_, _, stepper.step_cycle fetched executed, .rise here⟩
  · have fetched : stepper.fetch s.pc = ⟨.jmpXDecrement 3, true⟩ := by rw [here]; rfl
    by_cases last : s.x = 0
    · have executed : stepper.execute s (.jmpXDecrement 3) =
          (false, { s with pc := 4, x := s.x - 1 }) := by
        simp only [Program.execute, if_pos last, here]
        rfl
      exact ⟨_, _, stepper.step_cycle fetched executed, .highEnd here last⟩
    · have executed : stepper.execute s (.jmpXDecrement 3) = (false, { s with x := s.x - 1 }) := by
        simp only [Program.execute, if_neg last, ← here]
      exact ⟨_, _, stepper.step_cycle fetched executed, .highLoop here last⟩
  · have fetched : stepper.fetch s.pc = ⟨.mov .x .y, false⟩ := by rw [here]; rfl
    have executed : stepper.execute s (.mov .x .y) = (false, { s with pc := 5, x := s.y }) := by
      simp only [Program.execute, here]
      rfl
    exact ⟨_, _, stepper.step_cycle fetched executed, .fall here⟩
  · have fetched : stepper.fetch s.pc = ⟨.jmpXDecrement 5, false⟩ := by rw [here]; rfl
    by_cases last : s.x = 0
    · have executed : stepper.execute s (.jmpXDecrement 5) =
          (false, { s with pc := 0, x := s.x - 1 }) := by
        simp only [Program.execute, if_pos last, here]
        rfl
      exact ⟨_, _, stepper.step_cycle fetched executed, .lowEnd here last⟩
    · have executed : stepper.execute s (.jmpXDecrement 5) = (false, { s with x := s.x - 1 }) := by
        simp only [Program.execute, if_neg last, ← here]
      exact ⟨_, _, stepper.step_cycle fetched executed, .lowLoop here last⟩

/-- Every step is one of these. -/
theorem turn_of_step {s next : State 6 depth} {choice : Choice} {emitted : List Event}
    (stepped : stepper.step s choice = some (emitted, next)) : Turn s emitted next := by
  cases choice with
  | push word =>
      simp only [Program.step, Option.map_eq_some_iff, Prod.mk.injEq] at stepped
      obtain ⟨txFifo, pushed, rfl, rfl⟩ := stepped
      exact .push word txFifo (Fifo.push?_eq_some_iff.mp pushed).2
  | cycle =>
      obtain ⟨emitted', next', stepped', turn⟩ := turn_of_cycle s
      obtain ⟨rfl, rfl⟩ : emitted = emitted' ∧ next = next' := by
        simpa only [stepped', Option.some.injEq, Prod.mk.injEq, eq_comm] using stepped
      exact turn

/-! ### The pulses -/

/-- The cycles of one word which do not stall: those of its pulse and of the rest until the
next word. -/
def stepPeriod (word : Word) : Nat := 2 * (word.toNat + 3)

/-- The pin over the cycles of one word. -/
def pulse (word : Word) : List Bool :=
  [false, false] ++ List.replicate (word.toNat + 2) true ++ List.replicate (word.toNat + 2) false

/-- One pulse for each word, in order. -/
def waveform (words : List Word) : List Bool := words.flatMap pulse

/-- The cycles before a word, when none stalls. -/
def offset (words : List Word) : Nat := (words.map stepPeriod).sum

/-- The pulse of a word takes its period. -/
theorem length_pulse (word : Word) : (pulse word).length = stepPeriod word := by
  simp only [pulse, stepPeriod, List.length_append, List.length_replicate, List.length_cons,
    List.length_nil]
  omega

/-- The pulses of some words take their periods. -/
theorem length_waveform (words : List Word) : (waveform words).length = offset words := by
  induction words with
  | nil => rfl
  | cons word rest inductionHypothesis =>
      rw [waveform, List.flatMap_cons, List.length_append, length_pulse, ← waveform,
        inductionHypothesis, offset, offset, List.map_cons, List.sum_cons]

/-- The periods add up. -/
theorem offset_append (words later : List Word) :
    offset (words ++ later) = offset words + offset later := by
  rw [offset, List.map_append, List.sum_append, offset, offset]

/-- More words take longer. -/
theorem offset_le_of_prefix {words longer : List Word} (isPrefix : words <+: longer) :
    offset words ≤ offset longer := by
  obtain ⟨rest, rfl⟩ := isPrefix
  rw [offset_append]
  exact Nat.le_add_right _ _

/-- When a pulse is high. -/
theorem getElem?_pulse {word : Word} {index : Nat} (within : index < stepPeriod word) :
    (pulse word)[index]? = some (decide (2 ≤ index ∧ index < word.toNat + 4)) := by
  rw [stepPeriod] at within
  rw [pulse, List.append_assoc]
  rcases Nat.lt_or_ge index 2 with before | after
  · rw [List.getElem?_append_left before, decide_eq_false (by omega)]
    rcases index with _ | _ | index
    · rfl
    · rfl
    · omega
  · rw [List.getElem?_append_right after, List.length_cons, List.length_singleton]
    rcases Nat.lt_or_ge index (word.toNat + 4) with high | low
    · rw [List.getElem?_append_left (by rw [List.length_replicate]; omega),
        List.getElem?_replicate_of_lt (by omega), decide_eq_true ⟨after, high⟩]
    · rw [List.getElem?_append_right (by rw [List.length_replicate]; omega),
        List.length_replicate, List.getElem?_replicate_of_lt (by omega),
        decide_eq_false (by omega)]

/-- One more cycle of a pulse. -/
theorem take_succ_pulse {word : Word} {index : Nat} (within : index < stepPeriod word) :
    (pulse word).take (index + 1) =
      (pulse word).take index ++ [decide (2 ≤ index ∧ index < word.toNat + 4)] := by
  rw [List.take_add_one, getElem?_pulse within]
  rfl

namespace State

/-- The cycles since the current word has been pulled, its pull included. -/
def elapsed (s : State 6 depth) : Nat :=
  match s.pc with
  | 0 => 0
  | 1 => 1
  | 2 => 2
  | 3 => 3 + (s.osr.toNat - s.x.toNat)
  | 4 => s.osr.toNat + 4
  | 5 => s.osr.toNat + 5 + (s.osr.toNat - s.x.toNat)

/-- The word whose cycles are under way. -/
def current (s : State 6 depth) : List Word := if s.pc = 0 then [] else [s.osr]

/-- The pulses which the current word has begun. -/
def begun (s : State 6 depth) : Nat := if 3 ≤ s.pc then 1 else 0

/-- The level of the pin. -/
def high (s : State 6 depth) : Bool := s.pc = 3 ∨ s.pc = 4

/-- The registers agree with the current word. -/
structure Counting (s : State 6 depth) : Prop where
  loaded : 2 ≤ s.pc → s.y = s.osr
  down : s.pc = 3 ∨ s.pc = 5 → s.x.toNat ≤ s.osr.toNat

/-- Whether the pulse in progress has risen. -/
theorem begun_eq (s : State 6 depth) : s.begun = if 2 < s.elapsed then 1 else 0 := by
  rcases pc_cases s.pc with here | here | here | here | here | here <;>
    simp [begun, elapsed, here] <;> omega

/-- It is not over yet. -/
theorem elapsed_lt {s : State 6 depth} : s.elapsed < stepPeriod s.osr := by
  unfold elapsed stepPeriod
  split <;> omega

end State

/-- The levels of the cycles which did not stall. -/
def busyLevels (samples : List Sample) : List Bool :=
  (samples.filter fun sample => !sample.stalled).map (·.level)

/-- A stall comes only after the pulse of every word pushed so far. -/
def StallsDrained (before : List Event) : Event → Prop
  | .cycle sample => sample.stalled = true → sample.level = false ∧
      (risingEdges (cycles before)).length = (pushedWords before).length
  | .pushed _ => True

/-- What a trace tells, the cycles of some words being over. -/
structure Emitted (finished : List Word) (s : State 6 depth) (events : List Event) : Prop where
  counting : s.Counting
  words : pushedWords events = finished ++ s.current ++ s.txFifo.items
  levels : busyLevels (cycles events) = waveform finished ++ (pulse s.osr).take s.elapsed
  level : levelAfter false (cycles events) = s.high
  count : (risingEdges (cycles events)).length = finished.length + s.begun
  edges : ∀ index edge, (risingEdges (cycles events))[index]? = some edge →
    edge < (cycles events).length ∧
    busyBefore (cycles events) edge = offset ((pushedWords events).take index) + 2
  drained : Recorded StallsDrained events

namespace Emitted

variable {s next : State 6 depth} {events : List Event} {finished finished' : List Word}

/-- The cycles so far are those of the pulses. -/
theorem busy (emitted : Emitted finished s events) :
    busyBefore (cycles events) (cycles events).length = offset finished + s.elapsed := by
  have length := congrArg List.length emitted.levels
  have within := s.elapsed_lt
  rw [busyLevels, List.length_map, ← List.countP_eq_length_filter, List.length_append,
    length_waveform, List.length_take, length_pulse, Nat.min_eq_left within.le] at length
  rw [busyBefore, List.take_length, length]

/-- A cycle which does not stall. -/
theorem advance (emitted : Emitted finished s events) {level : Bool} (counting : next.Counting)
    (words : finished ++ s.current ++ s.txFifo.items =
      finished' ++ next.current ++ next.txFifo.items)
    (levels : waveform finished ++ (pulse s.osr).take s.elapsed ++ [level] =
      waveform finished' ++ (pulse next.osr).take next.elapsed)
    (after : level = next.high)
    (begins : finished'.length + next.begun =
      finished.length + s.begun + if level && !s.high then 1 else 0)
    (first : (level && !s.high) = true → s.pc = 2) :
    Emitted finished' next (events ++ [.cycle ⟨level, false⟩]) := by
  have samples : cycles (events ++ [.cycle ⟨level, false⟩]) = cycles events ++ [⟨level, false⟩] :=
    cycles_append events _
  have pushed : pushedWords (events ++ [.cycle ⟨level, false⟩]) = pushedWords events := by
    rw [pushedWords_append]
    exact List.append_nil _
  have rises := risingEdges_append_singleton (cycles events) ⟨level, false⟩
  rw [emitted.level] at rises
  have earlier : ∀ edge ≤ (cycles events).length,
      busyBefore (cycles events ++ [⟨level, false⟩]) edge = busyBefore (cycles events) edge := by
    intro edge within
    rw [busyBefore, List.take_append_of_le_length within, busyBefore]
  refine ⟨counting, ?_, ?_, ?_, ?_, ?_, emitted.drained.append_singleton (by simp [StallsDrained])⟩
  · rw [pushed, emitted.words, words]
  · rw [samples, ← levels, ← emitted.levels, busyLevels, busyLevels, List.filter_append,
      List.map_append]
    rfl
  · rw [samples, ← after, levelAfter, List.foldl_append]
    rfl
  · rw [samples, rises, begins, List.length_append, emitted.count]
    split <;> simp_all
  · intro index edge there
    rw [samples, pushed, List.length_append, List.length_singleton]
    rw [samples, rises] at there
    rcases Nat.lt_or_ge index (risingEdges (cycles events)).length with old | new
    · rw [List.getElem?_append_left old] at there
      obtain ⟨within, count⟩ := emitted.edges index edge there
      exact ⟨by omega, by rw [earlier edge within.le, count]⟩
    · rw [List.getElem?_append_right new] at there
      split at there
      · rename_i rising
        have here := first rising
        obtain ⟨rfl, same⟩ : index = (risingEdges (cycles events)).length ∧
            edge = (cycles events).length := by
          have zero : index - (risingEdges (cycles events)).length = 0 := by
            by_contra positive
            rw [List.getElem?_eq_none (by simp; omega)] at there
            simp at there
          rw [zero] at there
          exact ⟨by omega, by simpa [eq_comm] using there⟩
        have none_begun : s.begun = 0 := by simp [State.begun, here]
        have two : s.elapsed = 2 := by simp [State.elapsed, here]
        rw [same, earlier _ le_rfl, emitted.busy, two, emitted.count, none_begun,
          Nat.add_zero finished.length, emitted.words, List.append_assoc, List.take_left]
        exact ⟨by omega, rfl⟩
      · simp at there

/-- A cycle within the cycles of a word. -/
theorem within (emitted : Emitted finished s events) {level : Bool} (counting : next.Counting)
    (osr : next.osr = s.osr) (txFifo : next.txFifo = s.txFifo) (started : s.pc ≠ 0)
    (unfinished : next.pc ≠ 0) (elapsed : next.elapsed = s.elapsed + 1)
    (shape : level = decide (2 ≤ s.elapsed ∧ s.elapsed < s.osr.toNat + 4))
    (after : level = next.high)
    (begins : next.begun = s.begun + if level && !s.high then 1 else 0)
    (first : (level && !s.high) = true → s.pc = 2) :
    Emitted finished next (events ++ [.cycle ⟨level, false⟩]) := by
  refine emitted.advance counting ?_ ?_ after (by omega) first
  · simp only [State.current, started, unfinished, if_false, osr, txFifo]
  · rw [osr, elapsed, take_succ_pulse s.elapsed_lt, ← shape, List.append_assoc]

/-- A word is pushed. -/
theorem push (emitted : Emitted finished s events) {word : Word} {txFifo : Fifo Word depth}
    (queued : txFifo.items = s.txFifo.items ++ [word]) :
    Emitted finished { s with txFifo := txFifo } (events ++ [.pushed word]) := by
  have samples : cycles (events ++ [.pushed word]) = cycles events :=
    (cycles_append events _).trans (List.append_nil _)
  have pushed : pushedWords (events ++ [.pushed word]) = pushedWords events ++ [word] :=
    pushedWords_append events _
  have count := emitted.count
  refine ⟨⟨emitted.counting.loaded, emitted.counting.down⟩, ?_, ?_, ?_, ?_, ?_,
    emitted.drained.append_singleton trivial⟩
  · rw [pushed, emitted.words, queued, List.append_assoc]
    rfl
  · rw [samples]
    exact emitted.levels
  · rw [samples]
    exact emitted.level
  · rw [samples]
    exact count
  · intro index edge there
    rw [samples] at there ⊢
    obtain ⟨within, busy⟩ := emitted.edges index edge there
    have bound := (List.getElem?_eq_some_iff.mp there).1
    have enough : index ≤ (pushedWords events).length := by
      rw [emitted.words, List.length_append, List.length_append, State.current]
      rw [State.begun] at count
      by_cases here : s.pc = 0
      · simp only [here] at count ⊢
        simp at count ⊢
        omega
      · simp only [here, if_false, List.length_singleton]
        split at count <;> omega
    exact ⟨within, by rw [busy, pushed, List.take_append_of_le_length enough]⟩

/-- A cycle which waits for a word. -/
theorem stall (emitted : Emitted finished s events) (here : s.pc = 0)
    (empty : s.txFifo.items = []) : Emitted finished s (events ++ [.cycle ⟨false, true⟩]) := by
  have samples : cycles (events ++ [.cycle ⟨false, true⟩]) = cycles events ++ [⟨false, true⟩] :=
    cycles_append events _
  have pushed : pushedWords (events ++ [.cycle ⟨false, true⟩]) = pushedWords events :=
    (pushedWords_append events _).trans (List.append_nil _)
  have rises := risingEdges_append_singleton (cycles events) ⟨false, true⟩
  rw [Bool.false_and, if_neg Bool.false_ne_true, List.append_nil] at rises
  have low : s.high = false := by simp [State.high, here]
  have none : s.current = [] := by simp [State.current, here]
  have settled : s.begun = 0 := by simp [State.begun, here]
  refine ⟨emitted.counting, ?_, ?_, ?_, ?_, ?_,
    emitted.drained.append_singleton fun _ => ⟨rfl, ?_⟩⟩
  · rw [pushed, emitted.words]
  · rw [samples, ← emitted.levels, busyLevels, busyLevels, List.filter_append, List.map_append]
    exact List.append_nil _
  · rw [samples, low, levelAfter, List.foldl_append]
    rfl
  · rw [samples, rises, emitted.count]
  · intro index edge there
    rw [samples, rises] at there
    obtain ⟨within, busy⟩ := emitted.edges index edge there
    rw [samples, pushed, List.length_append]
    refine ⟨by omega, ?_⟩
    rw [busyBefore, List.take_append_of_le_length within.le, ← busyBefore, busy]
  · rw [emitted.count, settled, emitted.words, none, empty, List.append_nil, List.append_nil,
      Nat.add_zero]

/-- Each step of the program keeps to the pulses of the words. -/
theorem turn {emitted : List Event} (before : Emitted finished s events)
    (turn : Turn s emitted next) : ∃ finished', Emitted finished' next (events ++ emitted) := by
  obtain ⟨loaded, counted⟩ := before.counting
  cases turn with
  | push word txFifo queued => exact ⟨finished, before.push queued⟩
  | stall here empty => exact ⟨finished, before.stall here empty⟩
  | pull here word txFifo queued =>
      refine ⟨finished, before.advance ⟨?_, ?_⟩ ?_ ?_ ?_ ?_ ?_⟩
      · intro late
        simp at late
      · intro loops
        simp at loops
      · simp [State.current, here, queued]
      · simp [State.elapsed, here, pulse]
      · simp [State.high]
      · simp [State.begun, here]
      · simp
  | load here =>
      exact ⟨finished, before.within ⟨fun _ => rfl, by simp⟩ rfl rfl (by simp [here]) (by simp)
        (by simp [State.elapsed, here]) (by simp [State.elapsed, here]) (by simp [State.high])
        (by simp [State.begun, here]) (by simp)⟩
  | rise here =>
      have same := loaded (by simp [here])
      exact ⟨finished, before.within ⟨fun _ => same, fun _ => same ▸ le_rfl⟩ rfl rfl (by simp [here])
        (by simp) (by simp [State.elapsed, here, same]) (by simp [State.elapsed, here])
        (by simp [State.high]) (by simp [State.begun, State.high, here]) (fun _ => here)⟩
  | highLoop here more =>
      have same := loaded (by simp [here])
      have bound := counted (.inl here)
      have less := toNat_sub_one more
      have positive : s.x.toNat ≠ 0 := fun zero => more (BitVec.eq_of_toNat_eq zero)
      refine ⟨finished, before.within ⟨fun _ => same, fun _ => ?_⟩ rfl rfl (by simp [here])
        (by simp [here]) ?_ ?_ (by simp [State.high, here])
        (by simp [State.begun, State.high, here]) (by simp [State.high, here])⟩
      · simp only [less]
        omega
      · simp only [State.elapsed, here, less]
        omega
      · simp only [State.elapsed, here, true_eq_decide_iff]
        omega
  | highEnd here last =>
      have same := loaded (by simp [here])
      have zero : s.x.toNat = 0 := by rw [last]; rfl
      refine ⟨finished, before.within ⟨fun _ => same, by simp⟩ rfl rfl (by simp [here]) (by simp)
        ?_ ?_ (by simp [State.high]) (by simp [State.begun, State.high, here])
        (by simp [State.high, here])⟩
      · simp only [State.elapsed, here, zero]
        omega
      · simp only [State.elapsed, here, zero, true_eq_decide_iff]
        omega
  | fall here =>
      have same := loaded (by simp [here])
      refine ⟨finished, before.within ⟨fun _ => same, fun _ => same ▸ le_rfl⟩ rfl rfl (by simp [here])
        (by simp) ?_ ?_ (by simp [State.high]) (by simp [State.begun, here]) (by simp)⟩
      · simp only [State.elapsed, here, same]
        omega
      · simp only [State.elapsed, here, false_eq_decide_iff]
        omega
  | lowLoop here more =>
      have same := loaded (by simp [here])
      have bound := counted (.inr here)
      have less := toNat_sub_one more
      have positive : s.x.toNat ≠ 0 := fun zero => more (BitVec.eq_of_toNat_eq zero)
      refine ⟨finished, before.within ⟨fun _ => same, fun _ => ?_⟩ rfl rfl (by simp [here])
        (by simp [here]) ?_ ?_ (by simp [State.high, here]) (by simp [State.begun, here]) (by simp)⟩
      · simp only [less]
        omega
      · simp only [State.elapsed, here, less]
        omega
      · simp only [State.elapsed, here, false_eq_decide_iff]
        omega
  | lowEnd here last =>
      have zero : s.x.toNat = 0 := by rw [last]; rfl
      have end_ : s.elapsed + 1 = stepPeriod s.osr := by
        simp only [State.elapsed, stepPeriod, here, zero]
        omega
      have low : decide (2 ≤ s.elapsed ∧ s.elapsed < s.osr.toNat + 4) = false := by
        rw [stepPeriod] at end_
        rw [decide_eq_false_iff_not]
        omega
      refine ⟨finished ++ [s.osr], before.advance ⟨by simp, by simp⟩ ?_ ?_ (by simp [State.high]) ?_
        (by simp)⟩
      · simp [State.current, here]
      · rw [List.append_assoc, ← low, ← take_succ_pulse s.elapsed_lt, end_, ← length_pulse,
          List.take_length]
        simp [waveform, State.elapsed]
      · simp [State.begun, here]

end Emitted

/-- The trace of every run is made of the pulses of its words. -/
theorem emitted_of_run {guard : State 6 depth → Choice → Prop} {start s : State 6 depth}
    {choices : List Choice} {events : List Event} (initial : (stepper.system depth).Initial start)
    (run : (stepper.system depth).Run guard start choices events s) :
    ∃ finished, Emitted finished s events := by
  refine run.invariant (fun state events => ∃ finished, Emitted finished state events) ?_ ?_
  · obtain ⟨here, empty⟩ := initial
    have pc : start.pc = 0 := here
    refine ⟨[], ⟨⟨by simp [pc], by simp [pc]⟩, ?_, ?_, ?_, ?_, by simp [risingEdges, cycles, edgesFrom],
      .nil⟩⟩
    · simp [State.current, pc, empty, pushedWords]
    · simp [State.elapsed, pc, busyLevels, cycles, waveform]
    · simp [State.high, pc, levelAfter, cycles]
    · simp [State.begun, pc, risingEdges, cycles, edgesFrom]
  · rintro state events choice emitted next ⟨finished, before⟩ _ stepped
    exact before.turn (turn_of_step stepped)

namespace Emitted

variable {s : State 6 depth} {events : List Event} {finished : List Word}
  (emitted : Emitted finished s events)

include emitted

/-- There is no edge without a word. -/
theorem edges_le_words : (risingEdges (cycles events)).length ≤ (pushedWords events).length := by
  rw [emitted.count, emitted.words, List.length_append, List.length_append, State.begun,
    State.current]
  by_cases here : s.pc = 0
  · simp [here]
  · rw [if_neg here, List.length_singleton]
    split <;> omega

/-- Without the stalls, the pin follows the pulses of the words. -/
theorem levels_prefix : busyLevels (cycles events) <+: waveform (pushedWords events) := by
  rw [emitted.levels, emitted.words, waveform, waveform, List.flatMap_append, List.flatMap_append,
    List.append_assoc]
  apply (List.prefix_append_right_inj _).mpr
  by_cases here : s.pc = 0
  · simp [State.elapsed, here]
  · have current : s.current = [s.osr] := if_neg here
    rw [current, List.flatMap_singleton]
    exact (List.take_prefix _ _).trans (List.prefix_append _ _)

/-- From the edge of a word to the next edge. -/
theorem edge_after {index first second : Nat} {word : Word}
    (here : (pushedWords events)[index]? = some word)
    (rises : (risingEdges (cycles events))[index]? = some first)
    (rises' : (risingEdges (cycles events))[index + 1]? = some second) :
    second = first + 2 * (word.toNat + 3) + stallsBetween (cycles events) first second := by
  obtain ⟨within, before⟩ := emitted.edges index first rises
  obtain ⟨within', after⟩ := emitted.edges (index + 1) second rises'
  have period : stepPeriod word = 2 * (word.toNat + 3) := rfl
  have longer : offset ((pushedWords events).take (index + 1)) =
      offset ((pushedWords events).take index) + stepPeriod word := by
    rw [List.take_add_one, here, offset_append]
    simp [offset]
  have later : first ≤ second := by
    by_contra earlier
    have less := busyBefore_mono (cycles events) (Nat.le_of_lt (Nat.lt_of_not_le earlier))
    omega
  have between := cycles_between (cycles events) later within'.le
  omega

/-- A word has its edge once the words before it are over and the program has loaded it. -/
theorem edge_iff {index : Nat} (pushed : index < (pushedWords events).length) :
    index < (risingEdges (cycles events)).length ↔
      offset ((pushedWords events).take index) + 2 <
        busyBefore (cycles events) (cycles events).length := by
  rw [emitted.count, emitted.busy, s.begun_eq]
  rw [emitted.words, List.append_assoc] at pushed ⊢
  have short := s.elapsed_lt
  rcases Nat.lt_trichotomy index finished.length with inside | rfl | later
  · have enough : offset (finished.take index) + stepPeriod finished[index] ≤ offset finished := by
      have upto : finished.take (index + 1) = finished.take index ++ [finished[index]] := by
        rw [List.take_add_one, List.getElem?_eq_getElem inside]
        rfl
      have less := offset_le_of_prefix (List.take_prefix (index + 1) finished)
      rw [upto, offset_append] at less
      simpa [offset] using less
    rw [stepPeriod] at enough
    rw [List.take_append_of_le_length inside.le]
    omega
  · rw [List.take_left]
    split <;> omega
  · have beyond : offset finished + s.elapsed ≤
        offset ((finished ++ (s.current ++ s.txFifo.items)).take index) := by
      have both : finished ++ s.current <+: (finished ++ (s.current ++ s.txFifo.items)).take index := by
        rw [← List.append_assoc]
        apply List.prefix_take_iff.mpr
        refine ⟨List.prefix_append _ _, ?_⟩
        have one : s.current.length ≤ 1 := by
          rw [State.current]
          split <;> simp
        rw [List.length_append]
        omega
      have less := offset_le_of_prefix both
      rw [offset_append] at less
      by_cases here : s.pc = 0
      · have none : s.elapsed = 0 := by simp [State.elapsed, here]
        omega
      · have current : offset s.current = stepPeriod s.osr := by
          rw [State.current, if_neg here]
          simp [offset]
        omega
    split <;> omega

end Emitted

/-- Every run emits one pulse for each word, in order. Not counting stalls, the pin follows
the pulses of the words; from the edge of a word to the next edge it is its period and the
stalls; a stall finds the pin low and no pulse still to come; and a word pushed has its edge
as soon as the words before it are over and it has been loaded. -/
theorem step_pulses {start s : State 6 depth} {choices : List Choice} {events : List Event}
    (initial : (stepper.system depth).Initial start)
    (run : (stepper.system depth).Run (stepper.system depth).unguarded start choices events s) :
    (risingEdges (cycles events)).length ≤ (pushedWords events).length ∧
    busyLevels (cycles events) <+: waveform (pushedWords events) ∧
    (∀ index word first second, (pushedWords events)[index]? = some word →
      (risingEdges (cycles events))[index]? = some first →
      (risingEdges (cycles events))[index + 1]? = some second →
      second = first + 2 * (word.toNat + 3) + stallsBetween (cycles events) first second) ∧
    Recorded StallsDrained events ∧
    ∀ index < (pushedWords events).length, index < (risingEdges (cycles events)).length ↔
      offset ((pushedWords events).take index) + 2 <
        busyBefore (cycles events) (cycles events).length := by
  obtain ⟨finished, emitted⟩ := emitted_of_run initial run
  exact ⟨emitted.edges_le_words, emitted.levels_prefix, fun _ _ _ _ => emitted.edge_after,
    emitted.drained, fun _ => emitted.edge_iff⟩

/-- Two words, the second of them pushed while the program waits for it. -/
theorem two_words_pulsed : ∃ (start s : State 6 4) (choices : List Choice) (events : List Event),
    (stepper.system 4).Run (stepper.system 4).unguarded start choices events s ∧
    pushedWords events = [1, 0] ∧ risingEdges (cycles events) = [3, 14] ∧
    stallsBetween (cycles events) 3 14 = 3 ∧ busyLevels (cycles events) <+: waveform [1, 0] := by
  let start : State 6 4 := ⟨0, 0, 0, 0, .empty⟩
  have executed : (System.execute stepper.step (fun _ _ => true) start
      ([.cycle, .push 1] ++ List.replicate 11 .cycle ++ [.push 0] ++ List.replicate 4 .cycle)).map
        (fun result => (pushedWords result.1, risingEdges (cycles result.1),
          stallsBetween (cycles result.1) 3 14)) = some ([1, 0], [3, 14], 3) := by
    decide +kernel
  obtain ⟨⟨events, s⟩, executed, told⟩ := Option.map_eq_some_iff.mp executed
  simp only [Prod.mk.injEq] at told
  obtain ⟨words, edges, stalls⟩ := told
  have run : (stepper.system 4).Run (stepper.system 4).unguarded start _ events s :=
    System.unguarded_run_of_execute executed
  obtain ⟨_, levels, _⟩ := step_pulses ⟨rfl, rfl⟩ run
  exact ⟨start, s, _, events, run, words, edges, stalls, words ▸ levels⟩

end Rp2350Stepper.Pio
