import Mathlib.Data.List.Perm.Basic
import Rp2350Stepper.Lan9250.MacRegisters

/-!
# The multicast hash filter

A reference count is kept for each of the 64 bits, and a bit of `HMAC_HASHH` and
`HMAC_HASHL` is written from its count. In every run of joins and leaves in which each
leave takes back a join, the count of a bit is the number of outstanding joins which hash
to it, whatever register writes have failed; so a call which succeeds leaves exactly the
bits of the outstanding joins set.
-/

namespace Rp2350Stepper.Lan9250

open Rp2350Stepper.Data Rp2350Stepper.Semantics

/-! ### The bits written -/

/-- The 64-bit value of two words. -/
private def wide (words : Word × Word) : BitVec 64 := words.1 ++ words.2

/-- One bit of a word is set. -/
private theorem getLsbD_bit (bit index : Nat) :
    (1#32 <<< bit).getLsbD index = true ↔ index = bit ∧ index < 32 := by
  simp only [BitVec.getLsbD_shiftLeft, BitVec.getLsbD_one, Bool.and_eq_true, Bool.not_eq_true',
    decide_eq_true_eq, decide_eq_false_iff_not]
  omega

/-- One round of the loop of `lan9250_mcast_hash_write`. -/
private theorem wide_step (counts : HashRefcount) (words : Word × Word) (bit other : Fin 64) :
    (wide (if counts bit = 0 then words
      else if bit.val < 32 then (words.1, words.2 ||| 1#32 <<< bit.val)
      else (words.1 ||| 1#32 <<< (bit.val - 32), words.2))).getLsbD other = true ↔
      (wide words).getLsbD other = true ∨ counts bit ≠ 0 ∧ bit = other := by
  obtain ⟨other, bound⟩ := other
  split
  · simp_all
  · rename_i counted
    split <;>
    · simp only [wide, BitVec.getLsbD_append, BitVec.getLsbD_or, Fin.ext_iff]
      split <;>
      · simp only [Bool.or_eq_true, getLsbD_bit, ne_eq, counted, not_false_eq_true, true_and]
        first
          | refine or_congr_right ?_
            omega
          | refine (or_iff_left ?_).symm
            omega

/-- The words written have the bits set whose count is not 0. -/
theorem mcastHash_getLsbD (counts : HashRefcount) (bit : Fin 64) :
    ((mcastHash counts).1 ++ (mcastHash counts).2 : BitVec 64).getLsbD bit = true ↔
      counts bit ≠ 0 := by
  have folded : ∀ (bits : List (Fin 64)) (words : Word × Word),
      (wide (bits.foldl (fun words bit => if counts bit = 0 then words
        else if bit.val < 32 then (words.1, words.2 ||| 1#32 <<< bit.val)
        else (words.1 ||| 1#32 <<< (bit.val - 32), words.2)) words)).getLsbD bit = true ↔
      (wide words).getLsbD bit = true ∨ counts bit ≠ 0 ∧ bit ∈ bits := by
    intro bits
    induction bits with
    | nil => simp
    | cons first rest inductionHypothesis =>
        intro words
        rw [List.foldl_cons, inductionHypothesis, wide_step, List.mem_cons, or_assoc, eq_comm]
        apply or_congr_right
        constructor
        · rintro (⟨counted, rfl⟩ | ⟨counted, later⟩)
          · exact ⟨counted, .inl rfl⟩
          · exact ⟨counted, .inr later⟩
        · rintro ⟨counted, rfl | later⟩
          · exact .inl ⟨counted, rfl⟩
          · exact .inr ⟨counted, later⟩
  have all : (wide (mcastHash counts)).getLsbD bit = true ↔
      (wide (0, 0)).getLsbD bit = true ∨ counts bit ≠ 0 ∧ bit ∈ List.finRange 64 :=
    folded (List.finRange 64) (0, 0)
  simpa [wide] using all

/-! ### One call -/

/-- The 64-bit value in `HMAC_HASHH` and `HMAC_HASHL`. -/
def World.hashFilter (world : World) : BitVec 64 :=
  world.chip.hmac hmacHashh ++ world.chip.hmac hmacHashl

section Calls

variable {guard : lan9250.Guard} (live : Live guard)

include live

/-- A success leaves exactly the bits set whose count is not 0. -/
theorem mcastHashWrite_spec (world : World) :
    lan9250.Completes guard mcastHashWrite.run world fun result next =>
      next.mcastHashRefcount = world.mcastHashRefcount ∧ ∀ done, result = .ok done →
        ∀ bit : Fin 64, next.hashFilter.getLsbD bit = true ↔ world.mcastHashRefcount bit ≠ 0 := by
  unfold mcastHashWrite
  rw [Device.completes_run_bind, Device.completes_run_lift, completes_loadRefcount live]
  simp only
  rw [Device.completes_run_bind]
  apply (writeMacReg_spec live hmacHashl _ world).weaken
  rintro result low ⟨counts, written⟩
  cases result with
  | error => exact ⟨counts, nofun⟩
  | ok _ =>
      obtain ⟨idle, lowWritten⟩ := written () rfl
      apply (writeMacReg_spec live hmacHashh _ low).weaken
      rintro result next ⟨counts', written'⟩
      refine ⟨counts'.trans counts, fun done succeeded bit => ?_⟩
      obtain ⟨_, highWritten⟩ := written' done succeeded
      rw [Mac.execute_of_idle idle, lowWritten] at highWritten
      have high : next.chip.hmac hmacHashh = (mcastHash world.mcastHashRefcount).1 := by
        have shown := congrFun highWritten hmacHashh
        rwa [Function.update_self] at shown
      have low : next.chip.hmac hmacHashl = (mcastHash world.mcastHashRefcount).2 := by
        have shown := congrFun highWritten hmacHashl
        rwa [Function.update_of_ne (by decide), Function.update_self] at shown
      rw [World.hashFilter, high, low, mcastHash_getLsbD]

/-- A call counts its address, whether or not its register writes succeed. -/
theorem setConfigFilter_spec {filter : EthernetFilter} (multicast : filter.Multicast)
    (world : World) :
    lan9250.Completes guard (setConfigFilter filter).run world fun result next =>
      next.mcastHashRefcount = countFilter world.mcastHashRefcount filter ∧
      ∀ done, result = .ok done →
        ∀ bit : Fin 64, next.hashFilter.getLsbD bit = true ↔ next.mcastHashRefcount bit ≠ 0 := by
  obtain ⟨destination, group⟩ := multicast
  unfold setConfigFilter
  simp only [destination, Bool.not_true, Bool.false_eq_true, if_false, if_neg group]
  rw [Device.completes_run_bind, Device.completes_run_lift, completes_mutexLock live]
  intro locked _
  rw [Device.completes_run_bind, Device.completes_run_lift, completes_loadRefcount live,
    (advance_mac world locked).2]
  simp only
  rw [Device.completes_run_bind, Device.completes_run_lift, completes_storeRefcount live]
  simp only
  rw [Device.completes_run_bind, completes_attempt]
  apply (mcastHashWrite_spec live _).weaken
  rintro result next ⟨counts, written⟩
  simp only at counts written ⊢
  rw [Device.completes_run_bind, Device.completes_run_lift, completes_mutexUnlock live]
  rw [← counts] at written
  cases result with
  | ok _ => exact ⟨counts, fun _ _ => written () rfl⟩
  | error => exact ⟨counts, nofun⟩

end Calls

/-! ### Joins and leaves -/

/-- The addresses joined and not yet left after a sequence of calls. -/
def outstanding (filters : List EthernetFilter) : List (Vector Byte 6) :=
  filters.foldl (fun joined filter =>
    if filter.set then filter.macAddress :: joined else joined.erase filter.macAddress) []

/-- One more call is a join or a leave. -/
theorem outstanding_append (filters : List EthernetFilter) (filter : EthernetFilter) :
    outstanding (filters ++ [filter]) =
      if filter.set then filter.macAddress :: outstanding filters
      else (outstanding filters).erase filter.macAddress := by
  simp [outstanding]

/-- How many addresses hash to a bit. -/
def onBit (addresses : List (Vector Byte 6)) (bit : Fin 64) : Nat :=
  addresses.countP fun address => mcastHashBit address = bit

/-- Multicast addresses only, every leave takes back an outstanding join of the same address,
and at most 255 joins are outstanding on one bit. -/
structure WellMatched (filters : List EthernetFilter) : Prop where
  multicast : ∀ filter ∈ filters, filter.Multicast
  joined : ∀ earlier filter later, filters = earlier ++ filter :: later → filter.set = false →
    filter.macAddress ∈ outstanding earlier
  few : ∀ earlier, earlier <+: filters → ∀ bit, onBit (outstanding earlier) bit ≤ 255

/-- Earlier calls match as well. -/
theorem WellMatched.earlier {filters later : List EthernetFilter}
    (matched : WellMatched (filters ++ later)) : WellMatched filters := by
  refine ⟨fun filter member => matched.multicast filter (List.mem_append_left _ member), ?_,
    fun earlier short => matched.few earlier (short.trans (List.prefix_append _ _))⟩
  intro earlier filter rest split
  exact matched.joined earlier filter (rest ++ later) (by rw [split, List.append_assoc]; rfl)

/-- No calls match. -/
theorem WellMatched.nil : WellMatched [] := by
  refine ⟨nofun, ?_, ?_⟩
  · intro earlier filter later split
    simp at split
  · intro earlier short bit
    simp [List.prefix_nil.mp short, outstanding, onBit]

/-- One more call matches, if it is a join or leaves a group which is joined. -/
theorem WellMatched.append_singleton {filters : List EthernetFilter} {filter : EthernetFilter}
    (matched : WellMatched filters) (multicast : filter.Multicast)
    (joined : filter.set = false → filter.macAddress ∈ outstanding filters)
    (few : (outstanding (filters ++ [filter])).length ≤ 255) :
    WellMatched (filters ++ [filter]) := by
  refine ⟨?_, ?_, ?_⟩
  · intro other member
    rcases List.mem_append.mp member with old | new
    · exact matched.multicast other old
    · rwa [List.mem_singleton.mp new]
  · intro earlier other later split leaves
    rcases List.eq_nil_or_concat later with rfl | ⟨rest, last, rfl⟩
    · obtain ⟨rfl, same⟩ := List.append_inj' split rfl
      cases same
      exact joined leaves
    · rw [List.concat_eq_append, ← List.cons_append, ← List.append_assoc] at split
      obtain ⟨same, _⟩ := List.append_inj' split rfl
      exact matched.joined earlier other rest same leaves
  · intro earlier short bit
    rcases List.prefix_concat_iff.mp short with rfl | shorter
    · exact List.countP_le_length.trans few
    · exact matched.few earlier shorter bit

/-- The counts follow the outstanding joins. -/
theorem countFilter_outstanding {filters : List EthernetFilter} {filter : EthernetFilter}
    {counts : HashRefcount} (matched : WellMatched (filters ++ [filter]))
    (counted : ∀ bit, (counts bit).toNat = onBit (outstanding filters) bit) (bit : Fin 64) :
    (countFilter counts filter bit).toNat = onBit (outstanding (filters ++ [filter])) bit := by
  have few := matched.few _ List.prefix_rfl bit
  have here := counted bit
  rw [outstanding_append] at few ⊢
  unfold countFilter onBit at *
  cases joins : filter.set with
  | true =>
      simp only [joins, if_true, List.countP_cons, decide_eq_true_eq] at few ⊢
      by_cases own : bit = mcastHashBit filter.macAddress
      · subst own
        rw [if_pos rfl] at few ⊢
        rw [if_pos rfl, BitVec.toNat_add, here]
        simp
        omega
      · rw [if_neg own, if_neg (Ne.symm own), here, Nat.add_zero]
  | false =>
      have member := matched.joined filters filter [] rfl joins
      have split := (List.perm_cons_erase member).countP_eq
        (fun address => decide (mcastHashBit address = bit))
      rw [List.countP_cons] at split
      simp only [joins, Bool.false_eq_true, if_false] at few ⊢
      by_cases own : bit = mcastHashBit filter.macAddress
      · subst own
        rw [if_pos rfl]
        rw [if_pos (by simp)] at split
        have counted : counts (mcastHashBit filter.macAddress) ≠ 0 := by
          intro zero
          rw [zero] at here
          simp at here
          omega
        rw [if_neg counted, BitVec.toNat_sub]
        have bound := (counts (mcastHashBit filter.macAddress)).isLt
        simp
        omega
      · rw [if_neg own, here, split, if_neg (by simpa using Ne.symm own), Nat.add_zero]

/-- The joins of an address are its leaves and its outstanding joins. -/
theorem count_outstanding {filters : List EthernetFilter} (matched : WellMatched filters)
    (address : Vector Byte 6) :
    (outstanding filters).count address +
        filters.countP (fun filter => filter.macAddress = address && !filter.set) =
      filters.countP fun filter => filter.macAddress = address && filter.set := by
  induction filters using List.reverseRecOn with
  | nil => rfl
  | append_singleton filters filter inductionHypothesis =>
      have counted := inductionHypothesis matched.earlier
      rw [outstanding_append, List.countP_append, List.countP_append, List.countP_singleton,
        List.countP_singleton]
      cases joins : filter.set with
      | true =>
          simp only [if_true, List.count_cons, beq_iff_eq, Bool.not_true, Bool.and_false,
            Bool.and_true, Bool.false_eq_true, if_false, decide_eq_true_eq]
          omega
      | false =>
          have member := matched.joined filters filter [] rfl joins
          have split := (List.perm_cons_erase member).count_eq address
          rw [List.count_cons] at split
          simp only [Bool.false_eq_true, if_false, Bool.not_false, Bool.and_true, Bool.and_false,
            decide_eq_true_eq]
          simp only [beq_iff_eq] at split
          omega

/-- The outstanding joins do not depend on the order of the calls. -/
theorem mem_outstanding_of_perm {filters filters' : List EthernetFilter}
    (matched : WellMatched filters) (matched' : WellMatched filters')
    (perm : filters'.Perm filters) (address : Vector Byte 6) :
    address ∈ outstanding filters' ↔ address ∈ outstanding filters := by
  have counted := count_outstanding matched address
  have counted' := count_outstanding matched' address
  rw [perm.countP_eq, perm.countP_eq] at counted'
  rw [← List.count_pos_iff, ← List.count_pos_iff]
  omega

/-! ### Runs -/

/-- Runs of `lan9250_set_config` with filters, from counts of 0, whatever fails. -/
abbrev filterCalls : System (lan9250.Finished EthernetFilter (Except Errno Unit)) :=
  lan9250.calls lan9250.unguarded (fun world => world.mcastHashRefcount = fun _ => 0)
    fun filter => (setConfigFilter filter).run

/-- A call which returns 0 has left exactly the bits of the outstanding joins set. -/
def FilterExact (earlier : List (lan9250.Finished EthernetFilter (Except Errno Unit)))
    (event : lan9250.Finished EthernetFilter (Except Errno Unit)) : Prop :=
  event.result = .ok () → ∀ bit : Fin 64, event.after.hashFilter.getLsbD bit = true ↔
    ∃ address ∈ outstanding ((earlier ++ [event]).map (·.call)), mcastHashBit address = bit

/-- In every run of matched calls the counters count the outstanding joins, and a call which returns
0 leaves just their bits set. -/
theorem filter_follows_joins {start finish : World} {calls : List (EthernetFilter × List Choice)}
    {events : List (lan9250.Finished EthernetFilter (Except Errno Unit))}
    (run : filterCalls.Run filterCalls.unguarded start calls events finish)
    (initially : filterCalls.Initial start) (matched : WellMatched (calls.map Prod.fst)) :
    (∀ bit, (finish.mcastHashRefcount bit).toNat = onBit (outstanding (calls.map Prod.fst)) bit) ∧
      events.map (·.call) = calls.map Prod.fst ∧ Recorded FilterExact events := by
  refine run.along (fun calls events world => WellMatched (calls.map Prod.fst) →
    (∀ bit, (world.mcastHashRefcount bit).toNat = onBit (outstanding (calls.map Prod.fst)) bit) ∧
      events.map (·.call) = calls.map Prod.fst ∧ Recorded FilterExact events) ?_ ?_ matched
  · intro _
    refine ⟨fun bit => ?_, rfl, .nil⟩
    have zero : start.mcastHashRefcount = fun _ => 0 := initially
    rw [zero]
    rfl
  · intro calls events call emitted before after inductionHypothesis _ step matched
    rw [List.map_append, List.map_singleton] at matched ⊢
    obtain ⟨counted, sameCalls, recorded⟩ := inductionHypothesis matched.earlier
    obtain ⟨result, returns, rfl⟩ := step
    have multicast := matched.multicast call.1 (by simp)
    obtain ⟨counts, written⟩ :=
      returns.of_completes (setConfigFilter_spec live_unguarded multicast before)
    have counted' : ∀ bit, (after.mcastHashRefcount bit).toNat =
        onBit (outstanding (calls.map Prod.fst ++ [call.1])) bit := by
      intro bit
      rw [counts]
      exact countFilter_outstanding matched counted bit
    refine ⟨counted', by rw [List.map_append, sameCalls]; rfl, recorded.append_singleton ?_⟩
    intro succeeded bit
    rw [List.map_append, sameCalls]
    simp only [List.map_singleton] at succeeded ⊢
    rw [written () succeeded bit]
    have counted := counted' bit
    have zero : after.mcastHashRefcount bit = 0 ↔ (after.mcastHashRefcount bit).toNat = 0 := by
      rw [← BitVec.toNat_inj]
      rfl
    rw [ne_eq, zero, counted, onBit, List.countP_eq_zero]
    simp

/-- In every run of matched joins and leaves, whatever register writes fail, a call which
returns 0 leaves exactly the bits of the outstanding joins set; and two runs of the same
calls, in any orders, which both end in such a call leave the same value. -/
theorem hash_filter_exact {start finish : World} {calls : List (EthernetFilter × List Choice)}
    {events : List (lan9250.Finished EthernetFilter (Except Errno Unit))}
    (run : filterCalls.Run filterCalls.unguarded start calls events finish)
    (initially : filterCalls.Initial start) (matched : WellMatched (calls.map Prod.fst)) :
    Recorded FilterExact events ∧
    ∀ {start' finish' : World} {calls' : List (EthernetFilter × List Choice)}
      {earlier earlier' : List (lan9250.Finished EthernetFilter (Except Errno Unit))}
      {last last' : lan9250.Finished EthernetFilter (Except Errno Unit)},
      filterCalls.Run filterCalls.unguarded start' calls' (earlier' ++ [last']) finish' →
      filterCalls.Initial start' → WellMatched (calls'.map Prod.fst) →
      (calls'.map Prod.fst).Perm (calls.map Prod.fst) → events = earlier ++ [last] →
      last.result = .ok () → last'.result = .ok () →
      last'.after.hashFilter = last.after.hashFilter := by
  obtain ⟨_, sameCalls, recorded⟩ := filter_follows_joins run initially matched
  refine ⟨recorded, ?_⟩
  intro start' finish' calls' earlier earlier' last last' run' initially' matched' perm shape
    succeeded succeeded'
  obtain ⟨_, sameCalls', recorded'⟩ := filter_follows_joins run' initially' matched'
  subst shape
  have exact := recorded earlier last [] rfl succeeded
  have exact' := recorded' earlier' last' [] rfl succeeded'
  rw [sameCalls] at exact
  rw [sameCalls'] at exact'
  apply BitVec.eq_of_getLsbD_eq
  intro index bound
  rw [Bool.eq_iff_iff, exact ⟨index, bound⟩, exact' ⟨index, bound⟩]
  simp only [mem_outstanding_of_perm matched matched' perm]

/-! ### Two groups in two orders -/

private def group (last : Byte) (set : Bool) : EthernetFilter :=
  ⟨true, #v[0x01, 0x00, 0x5E, 0x00, 0x01, last], set⟩

/-- A write of the data word fails. -/
private def failing : List Choice :=
  List.replicate 6 default ++ [{ Choice.quiet with outcome := .failed false (.spi 5) }]

/-- A call, and whether it returns 0. -/
private def callOutcome (event : lan9250.Finished EthernetFilter (Except Errno Unit)) :
    EthernetFilter × Bool :=
  (event.call, match event.result with
    | .ok _ => true
    | .error _ => false)

/-- A call which is accepted has returned 0. -/
private theorem succeeded_of_callOutcome {filter : EthernetFilter}
    {event : lan9250.Finished EthernetFilter (Except Errno Unit)}
    (accepted : callOutcome event = (filter, true)) : event.result = .ok () := by
  obtain ⟨-, accepted⟩ := Prod.mk.inj accepted
  split at accepted
  · assumption
  · cases accepted

/-- A call which is not has returned an error. -/
private theorem failed_of_callOutcome {filter : EthernetFilter}
    {event : lan9250.Finished EthernetFilter (Except Errno Unit)}
    (refused : callOutcome event = (filter, false)) : ∃ error, event.result = .error error := by
  obtain ⟨-, refused⟩ := Prod.mk.inj refused
  split at refused
  · cases refused
  · exact ⟨_, by assumption⟩

/-- Two calls played from a chip at rest are a run. -/
private theorem filterCalls_of_play {script : List (EthernetFilter × List Choice)}
    {outcomes outcomes' : EthernetFilter × Bool}
    (played : (lan9250.playCalls (fun _ _ _ => true) (fun _ _ => true)
      (fun filter => (setConfigFilter filter).run) .idle script).map
        (fun (events, _) => events.map callOutcome) = some [outcomes, outcomes']) :
    ∃ calls first last finish, filterCalls.Run filterCalls.unguarded .idle calls ([first] ++ [last])
      finish ∧ calls.map Prod.fst = [outcomes.1, outcomes'.1] ∧ callOutcome first = outcomes ∧
        callOutcome last = outcomes' := by
  obtain ⟨⟨events, finish⟩, ran, facts⟩ := Option.map_eq_some_iff.mp played
  have run := Device.run_of_playCalls (fun _ => True) ran
  obtain ⟨first, rest, rfl, head, facts⟩ := List.map_eq_cons_iff.mp facts
  obtain ⟨last, rest, rfl, tail, facts⟩ := List.map_eq_cons_iff.mp facts
  obtain rfl := List.map_eq_nil_iff.mp facts
  refine ⟨_, first, last, finish,
    Device.calls_weaken run (fun _ _ _ _ => trivial) fun _ _ _ => trivial, ?_, head, tail⟩
  rw [← head, ← tail]
  rfl

/-- The first of two joins fails at a register write, and the second repairs it; joining in
the other order without a failure leaves the same filter. -/
theorem failed_join_repaired : ∃ calls calls' earlier earlier' last last' finish finish',
    filterCalls.Run filterCalls.unguarded .idle calls (earlier ++ [last]) finish ∧
    filterCalls.Run filterCalls.unguarded .idle calls' (earlier' ++ [last']) finish' ∧
    calls.map Prod.fst = [group 0x81 true, group 0x82 true] ∧
    calls'.map Prod.fst = [group 0x82 true, group 0x81 true] ∧
    (∃ failed error, earlier = [failed] ∧ failed.result = .error error) ∧
    last'.after.hashFilter = last.after.hashFilter := by
  have multicast (last : Byte) : (group last true).Multicast := by
    have first : (group last true).macAddress[0] = 0x01 := rfl
    refine ⟨rfl, ?_⟩
    rw [first]
    decide
  have matched (first second : Byte) :
      WellMatched ([] ++ [group first true] ++ [group second true]) := by
    refine (WellMatched.nil.append_singleton (multicast first) ?_ ?_).append_singleton
      (multicast second) ?_ ?_
    · exact fun leaves => Bool.noConfusion leaves
    · exact Nat.le_of_ble_eq_true rfl
    · exact fun leaves => Bool.noConfusion leaves
    · exact Nat.le_of_ble_eq_true rfl
  have played : (lan9250.playCalls (fun _ _ _ => true) (fun _ _ => true)
      (fun filter => (setConfigFilter filter).run) .idle
      [(group 0x81 true, failing), (group 0x82 true, [])]).map
        (fun (events, _) => events.map callOutcome) =
        some [(group 0x81 true, false), (group 0x82 true, true)] := by
    decide +kernel
  have played' : (lan9250.playCalls (fun _ _ _ => true) (fun _ _ => true)
      (fun filter => (setConfigFilter filter).run) .idle
      [(group 0x82 true, []), (group 0x81 true, [])]).map
        (fun (events, _) => events.map callOutcome) =
        some [(group 0x82 true, true), (group 0x81 true, true)] := by
    decide +kernel
  obtain ⟨calls, first, last, finish, run, shape, refused, accepted⟩ := filterCalls_of_play played
  obtain ⟨calls', first', last', finish', run', shape', -, accepted'⟩ := filterCalls_of_play played'
  obtain ⟨error, failed⟩ := failed_of_callOutcome refused
  refine ⟨calls, calls', [first], [first'], last, last', finish, finish', run, run', shape, shape',
    ⟨first, error, rfl, failed⟩, ?_⟩
  refine (hash_filter_exact run rfl (shape ▸ matched 0x81 0x82)).2 run' rfl
    (shape' ▸ matched 0x82 0x81) ?_ rfl (succeeded_of_callOutcome accepted)
    (succeeded_of_callOutcome accepted')
  rw [shape, shape']
  exact List.Perm.swap _ _ _

end Rp2350Stepper.Lan9250
