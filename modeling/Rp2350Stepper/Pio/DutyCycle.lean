import Rp2350Stepper.Pio.Stepper

/-!
# The duty cycle of the STEP program

`pull block` and the first `mov` of the next step belong to the low half of the step before,
and nothing makes up for them in the high half: the program is low two cycles longer than
it is high.
-/

namespace Rp2350Stepper.Pio

open Rp2350Stepper.Data Rp2350Stepper.Semantics

/-- The levels of the cycles from one to another. -/
def levelsBetween (samples : List Sample) (start finish : Nat) : List Bool :=
  ((samples.drop start).take (finish - start)).map (·.level)

/-- High for some cycles, then low for some. -/
def dutyCycle (high low : Nat) : List Bool := List.replicate high true ++ List.replicate low false

/-- Once the edge at a cycle has come, the word after that edge's is queued. -/
def NextQueued (events : List Event) (index edge : Nat) : Prop :=
  ∀ before, before <+: events → edge < (cycles before).length →
    index + 1 < (pushedWords before).length

/-- A duty cycle is determined by its levels. -/
theorem dutyCycle_injective {high low high' low' : Nat}
    (same : dutyCycle high low = dutyCycle high' low') : high = high' ∧ low = low' := by
  have highs := congrArg (List.count true) same
  have lows := congrArg (List.count false) same
  simp only [dutyCycle, List.count_append, List.count_replicate_self,
    List.count_replicate] at highs lows
  simpa using And.intro highs lows

/-- The levels of a pulse from its edge to the next one. -/
theorem drop_pulse (word : Word) :
    (pulse word).drop 2 ++ [false, false] = dutyCycle (word.toNat + 2) (word.toNat + 4) := by
  have tail : List.replicate (word.toNat + 2) false ++ [false, false] =
      List.replicate (word.toNat + 4) false :=
    (List.replicate_append_replicate (n := word.toNat + 2) (m := 2) (a := false))
  rw [dutyCycle, ← tail, ← List.append_assoc]
  rfl

/-- Cycles none of which stalls have the levels of busy cycles. -/
theorem busyLevels_of_stallsBetween {samples : List Sample} {start finish : Nat}
    (busy : stallsBetween samples start finish = 0) :
    busyLevels ((samples.drop start).take (finish - start)) = levelsBetween samples start finish := by
  rw [busyLevels, levelsBetween, List.filter_eq_self.mpr]
  intro sample member
  have quiet := List.countP_eq_zero.mp busy sample member
  simpa using quiet

/-- The waveform around the edge of a word which is not the last. -/
theorem waveform_around {words : List Word} {index : Nat} {word : Word}
    (here : words[index]? = some word) (more : index + 1 < words.length) :
    ∃ rest, waveform words = waveform (words.take index) ++ [false, false] ++
      dutyCycle (word.toNat + 2) (word.toNat + 4) ++ rest := by
  obtain ⟨within, rfl⟩ := List.getElem?_eq_some_iff.mp here
  have opening : pulse words[index + 1] = [false, false] ++ (pulse words[index + 1]).drop 2 := rfl
  have whole : pulse words[index] = [false, false] ++ (pulse words[index]).drop 2 := rfl
  have cut : words = words.take index ++ words[index] :: words[index + 1] :: words.drop (index + 2) := by
    rw [← List.drop_eq_getElem_cons more, ← List.drop_eq_getElem_cons within,
      List.take_append_drop]
  refine ⟨(pulse words[index + 1]).drop 2 ++ waveform (words.drop (index + 2)), ?_⟩
  calc waveform words
      = waveform (words.take index) ++ (pulse words[index] ++
          (pulse words[index + 1] ++ waveform (words.drop (index + 2)))) := by
        nth_rewrite 1 [cut]
        rw [waveform, List.flatMap_append, List.flatMap_cons, List.flatMap_cons]
        rfl
    _ = _ := by
        rw [opening, whole, ← drop_pulse]
        simp only [List.append_assoc]
        rfl

/-- The levels of two stretches, in order. -/
theorem busyLevels_append (samples later : List Sample) :
    busyLevels (samples ++ later) = busyLevels samples ++ busyLevels later := by
  rw [busyLevels, List.filter_append, List.map_append]
  rfl

/-- There is one for each cycle which is not a stall. -/
theorem length_busyLevels_take (samples : List Sample) (index : Nat) :
    (busyLevels (samples.take index)).length = busyBefore samples index := by
  rw [busyLevels, List.length_map, ← List.countP_eq_length_filter, busyBefore]

/-- Where a cycle stands in a trace. -/
theorem cycle_split {events : List Event} {index : Nat} {sample : Sample}
    (there : (cycles events)[index]? = some sample) :
    ∃ before after, events = before ++ .cycle sample :: after ∧ (cycles before).length = index := by
  induction events generalizing index with
  | nil => cases there
  | cons event rest inductionHypothesis =>
      cases event with
      | pushed word =>
          obtain ⟨before, after, rfl, length⟩ := inductionHypothesis there
          exact ⟨.pushed word :: before, after, rfl, length⟩
      | cycle first =>
          have opened : cycles (.cycle first :: rest) = first :: cycles rest := rfl
          rw [opened] at there
          cases index with
          | zero =>
              obtain rfl := Option.some.inj there
              exact ⟨[], rest, rfl, rfl⟩
          | succ index =>
              obtain ⟨before, after, rfl, length⟩ := inductionHypothesis there
              exact ⟨.cycle first :: before, after, rfl, congrArg (· + 1) length⟩

/-- An edge is in a cycle there has been. -/
theorem edge_lt {samples : List Sample} {edge : Nat} (rises : edge ∈ risingEdges samples) :
    edge < samples.length := by
  induction samples using List.reverseRecOn with
  | nil => cases rises
  | append_singleton earlier last inductionHypothesis =>
      rw [risingEdges_append_singleton, List.mem_append] at rises
      rw [List.length_append, List.length_singleton]
      rcases rises with old | new
      · have := inductionHypothesis old
        omega
      · split at new
        · rw [List.mem_singleton] at new
          omega
        · cases new

namespace Emitted

variable {s : State 6 depth} {events : List Event} {finished : List Word}
  {index first second : Nat} {word : Word} (emitted : Emitted finished s events)

include emitted

/-- The levels from the edge of a word to the next edge, when no cycle stalls. -/
theorem levels_between (here : (pushedWords events)[index]? = some word)
    (rises : (risingEdges (cycles events))[index]? = some first)
    (rises' : (risingEdges (cycles events))[index + 1]? = some second)
    (busy : stallsBetween (cycles events) first second = 0) :
    levelsBetween (cycles events) first second = dutyCycle (word.toNat + 2) (word.toNat + 4) := by
  obtain ⟨_, before⟩ := emitted.edges index first rises
  obtain ⟨within, _⟩ := emitted.edges (index + 1) second rises'
  have distance := emitted.edge_after here rises rises'
  rw [busy, Nat.add_zero] at distance
  have more : index + 1 < (pushedWords events).length :=
    (List.getElem?_eq_some_iff.mp rises').1.trans_le emitted.edges_le_words
  obtain ⟨rest, around⟩ := waveform_around here more
  have cut : cycles events = (cycles events).take first ++
      (((cycles events).drop first).take (second - first) ++
        ((cycles events).drop first).drop (second - first)) := by
    rw [List.take_append_drop, List.take_append_drop]
  obtain ⟨later, told⟩ := emitted.levels_prefix
  rw [cut, busyLevels_append, busyLevels_append, busyLevels_of_stallsBetween busy, around,
    List.append_assoc, List.append_assoc, List.append_assoc] at told
  have sameStart : (busyLevels ((cycles events).take first)).length =
      (waveform ((pushedWords events).take index) ++ [false, false]).length := by
    rw [length_busyLevels_take, before, List.length_append, length_waveform]
    rfl
  have sameLength : (levelsBetween (cycles events) first second).length =
      (dutyCycle (word.toNat + 2) (word.toNat + 4)).length := by
    rw [levelsBetween, dutyCycle, List.length_map, List.length_take, List.length_drop,
      List.length_append, List.length_replicate, List.length_replicate]
    omega
  have tails := (List.append_inj told sameStart).2
  exact (List.append_inj tails sameLength).1

/-- No cycle stalls between the edge of a word and the next one, when the next word is queued. -/
theorem no_stalls (queued : NextQueued events index first)
    (rises' : (risingEdges (cycles events))[index + 1]? = some second) :
    stallsBetween (cycles events) first second = 0 := by
  rw [stallsBetween, List.countP_eq_zero]
  intro sample member stalled
  obtain ⟨position, bound, here⟩ := List.mem_iff_getElem.mp member
  rw [List.length_take, List.length_drop] at bound
  rw [List.getElem_take, List.getElem_drop] at here
  have there : (cycles events)[first + position]? = some sample :=
    List.getElem?_eq_some_iff.mpr ⟨by omega, here⟩
  obtain ⟨before, after, split, length⟩ := cycle_split there
  -- The stall comes after the pulse of every word, while the next word has had none.
  obtain ⟨_, drained⟩ := emitted.drained before (.cycle sample) after split stalled
  have isPrefix : before ++ [.cycle sample] <+: events := ⟨after, by simp [split]⟩
  have longer : (cycles (before ++ [.cycle sample])).length = first + position + 1 := by
    rw [cycles_append, List.length_append, length]
    rfl
  have more := queued _ isPrefix (by omega)
  rw [pushedWords_append, List.length_append] at more
  have none : (pushedWords [.cycle sample]).length = 0 := rfl
  have earlier : index + 1 < (risingEdges (cycles before)).length := by omega
  have same : (risingEdges (cycles before))[index + 1]? = some second := by
    rw [risingEdges] at earlier
    rw [← rises', split, cycles_append, risingEdges, risingEdges, edgesFrom_append,
      List.getElem?_append_left earlier]
  have less := edge_lt (List.mem_of_getElem? same)
  omega

end Emitted

/-- From the edge of a word to the next edge, when no cycle stalls, the pin is high for two
cycles more than the word says and low for four more: never for three more each. And no cycle
stalls when the next word is already queued at the edge. -/
theorem high_shorter_than_low {start s : State 6 depth} {choices : List Choice}
    {events : List Event} {index first second : Nat} {word : Word}
    (initial : (stepper.system depth).Initial start)
    (run : (stepper.system depth).Run (stepper.system depth).unguarded start choices events s)
    (pushed : (pushedWords events)[index]? = some word)
    (rises : (risingEdges (cycles events))[index]? = some first)
    (rises' : (risingEdges (cycles events))[index + 1]? = some second) :
    (NextQueued events index first → stallsBetween (cycles events) first second = 0) ∧
    (stallsBetween (cycles events) first second = 0 →
      levelsBetween (cycles events) first second = dutyCycle (word.toNat + 2) (word.toNat + 4) ∧
      levelsBetween (cycles events) first second ≠
        dutyCycle (word.toNat + 3) (word.toNat + 3)) := by
  obtain ⟨finished, emitted⟩ := emitted_of_run initial run
  refine ⟨fun queued => emitted.no_stalls queued rises', ?_⟩
  intro busy
  have levels := emitted.levels_between pushed rises rises' busy
  refine ⟨levels, ?_⟩
  intro even
  have lengths := dutyCycle_injective (levels.symm.trans even)
  omega

/-- Two words pushed before the first cycle. -/
theorem queued_words_run : ∃ (start s : State 6 4) (choices : List Choice) (events : List Event),
    (stepper.system 4).Initial start ∧
    (stepper.system 4).Run (stepper.system 4).unguarded start choices events s ∧
    events.take 2 = [.pushed 0, .pushed 0] ∧
    pushedWords events = [0, 0] ∧ risingEdges (cycles events) = [2, 8] ∧
    stallsBetween (cycles events) 2 8 = 0 ∧
    levelsBetween (cycles events) 2 8 = [true, true, false, false, false, false] := by
  let start : State 6 4 := ⟨0, 0, 0, 0, .empty⟩
  have executed : (System.execute stepper.step (fun _ _ => true) start
      ([.push 0, .push 0] ++ List.replicate 9 .cycle)).map
        (fun result => (result.1.take 2, pushedWords result.1, risingEdges (cycles result.1),
          stallsBetween (cycles result.1) 2 8, levelsBetween (cycles result.1) 2 8)) =
        some ([.pushed 0, .pushed 0], [0, 0], [2, 8], 0,
          [true, true, false, false, false, false]) := by
    decide +kernel
  obtain ⟨⟨events, s⟩, executed, told⟩ := Option.map_eq_some_iff.mp executed
  simp only [Prod.mk.injEq] at told
  obtain ⟨pushes, words, edges, busy, levels⟩ := told
  have run : (stepper.system 4).Run (stepper.system 4).unguarded start _ events s :=
    System.unguarded_run_of_execute executed
  exact ⟨start, s, _, events, ⟨rfl, rfl⟩, run, pushes, words, edges, busy, levels⟩

/-- The word 0, with the next word queued: high for two cycles and low for four. -/
theorem zero_word_duty_cycle :
    ∃ (start s : State 6 4) (choices : List Choice) (events : List Event),
    (stepper.system 4).Run (stepper.system 4).unguarded start choices events s ∧
    (pushedWords events)[0]? = some 0 ∧ stallsBetween (cycles events) 2 8 = 0 ∧
    levelsBetween (cycles events) 2 8 = dutyCycle 2 4 := by
  obtain ⟨start, s, choices, events, initial, run, _, words, edges, busy, _⟩ := queued_words_run
  have pushed : (pushedWords events)[0]? = some 0 := by rw [words]; rfl
  have rises : (risingEdges (cycles events))[0]? = some 2 := by rw [edges]; rfl
  have rises' : (risingEdges (cycles events))[1]? = some 8 := by rw [edges]; rfl
  have duty := ((high_shorter_than_low initial run pushed rises rises').2 busy).1
  exact ⟨start, s, choices, events, run, pushed, busy, duty⟩

/-- It is not high for three cycles and low for three. -/
theorem zero_word_uneven :
    ∃ (start s : State 6 4) (choices : List Choice) (events : List Event),
    (stepper.system 4).Initial start ∧
    (stepper.system 4).Run (stepper.system 4).unguarded start choices events s ∧
    events.take 2 = [.pushed 0, .pushed 0] ∧
    pushedWords events = [0, 0] ∧ risingEdges (cycles events) = [2, 8] ∧
    levelsBetween (cycles events) 2 8 ≠ dutyCycle (0 + 3) (0 + 3) := by
  obtain ⟨start, s, choices, events, initial, run, pushes, words, edges, _, levels⟩ :=
    queued_words_run
  refine ⟨start, s, choices, events, initial, run, pushes, words, edges, ?_⟩
  rw [levels]
  decide

end Rp2350Stepper.Pio
