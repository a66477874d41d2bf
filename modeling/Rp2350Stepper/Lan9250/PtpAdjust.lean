import Rp2350Stepper.Lan9250.PtpClock
import Mathlib.Data.Int.ModEq

/-!
# Stepping the 1588 clock

`lan9250_ptp_clock_adjust` adds a signed number of nanoseconds to the clock, whose seconds
wrap around. A time is a residue of nanoseconds modulo 2^32 seconds, and the sum is one of
residues: steps compose and cancel.
-/

namespace Rp2350Stepper.Lan9250

open Rp2350Stepper.Semantics

/-! ### Times as nanoseconds -/

/-- The nanoseconds of a second. -/
def nsPerSec : Int := 1000000000

/-- The nanoseconds after which the clock repeats. -/
def clockPeriod : Int := 2 ^ 32 * nsPerSec

namespace PtpTime

/-- A time in nanoseconds. -/
def total (time : PtpTime) : Int := time.second.toNat * nsPerSec + time.nanosecond.toNat

/-- The nanoseconds are less than a second. -/
def Normal (time : PtpTime) : Prop := time.nanosecond.toNat < nsPerSec

instance (time : PtpTime) : Decidable time.Normal := inferInstanceAs (Decidable (_ < _))

/-- A normal time is determined by its nanoseconds modulo the period. -/
theorem eq_of_total_modEq {time time' : PtpTime} (normal : time.Normal) (normal' : time'.Normal)
    (same : time.total ≡ time'.total [ZMOD clockPeriod]) : time = time' := by
  obtain ⟨sec, ns⟩ := time
  obtain ⟨sec', ns'⟩ := time'
  have secBound := sec.isLt
  have secBound' := sec'.isLt
  simp only [Normal, total, nsPerSec, clockPeriod, Int.ModEq] at normal normal' same
  have seconds : sec = sec' := by
    apply BitVec.eq_of_toNat_eq
    omega
  have nanoseconds : ns = ns' := by
    apply BitVec.eq_of_toNat_eq
    omega
  rw [seconds, nanoseconds]

/-- What `lan9250_ptp_clock_adjust` computes from the time it reads. -/
def adjusted (time : PtpTime) (incrementNs : BitVec 32) : PtpTime :=
  let totalNs : Int := time.nanosecond.toNat + incrementNs.toInt
  let sec := time.second + BitVec.ofInt 32 (totalNs.tdiv 1000000000)
  let restNs := totalNs.tmod 1000000000
  if restNs < 0 then ⟨sec - 1, BitVec.ofInt 32 (restNs + 1000000000)⟩
  else ⟨sec, BitVec.ofInt 32 restNs⟩

end PtpTime

/-- Seconds wrap around. -/
theorem toNat_add_ofInt (sec : Word) (quotient : Int) :
    ((sec + BitVec.ofInt 32 quotient).toNat : Int) = (sec.toNat + quotient) % 2 ^ 32 := by
  rw [BitVec.toNat_add, BitVec.toNat_ofInt]
  omega

/-- A remainder which fits is kept. -/
theorem toNat_ofInt_of_small {rest : Int} (nonneg : 0 ≤ rest) (small : rest < nsPerSec) :
    ((BitVec.ofInt 32 rest).toNat : Int) = rest := by
  rw [nsPerSec] at small
  rw [BitVec.toNat_ofInt]
  omega

/-- The adjusted time is normal, and it is the sum modulo the period. -/
theorem adjusted_spec (time : PtpTime) (incrementNs : BitVec 32) :
    (time.adjusted incrementNs).Normal ∧
      (time.adjusted incrementNs).total ≡ time.total + incrementNs.toInt [ZMOD clockPeriod] := by
  have division := Int.tmod_add_mul_tdiv (time.nanosecond.toNat + incrementNs.toInt) 1000000000
  have above := Int.tmod_lt_of_pos (time.nanosecond.toNat + incrementNs.toInt)
    (show (0 : Int) < 1000000000 by decide)
  have below := Int.lt_tmod_of_pos (time.nanosecond.toNat + incrementNs.toInt)
    (show (0 : Int) < 1000000000 by decide)
  unfold PtpTime.adjusted
  dsimp only
  generalize ((time.nanosecond.toNat : Int) + incrementNs.toInt).tdiv 1000000000 = quotient at *
  generalize ((time.nanosecond.toNat : Int) + incrementNs.toInt).tmod 1000000000 = rest at *
  have seconds := toNat_add_ofInt time.second quotient
  split
  · rename_i negative
    have borrowed : ((time.second + BitVec.ofInt 32 quotient - 1).toNat : Int) =
        (time.second.toNat + quotient - 1) % 2 ^ 32 := by
      have one : (1 : Word).toNat = 1 := rfl
      rw [BitVec.toNat_sub, one]
      omega
    have kept : ((BitVec.ofInt 32 (rest + 1000000000)).toNat : Int) = rest + 1000000000 :=
      toNat_ofInt_of_small (by omega) (by rw [nsPerSec]; omega)
    simp only [PtpTime.Normal, PtpTime.total, clockPeriod, nsPerSec, Int.ModEq]
    omega
  · rename_i nonneg
    have kept := toNat_ofInt_of_small (by omega : 0 ≤ rest) (by rw [nsPerSec]; omega)
    simp only [PtpTime.Normal, PtpTime.total, clockPeriod, nsPerSec, Int.ModEq]
    omega

/-- Two adjustments are one by the sum of their increments, if that is an increment. -/
theorem adjusted_adjusted (time : PtpTime) {first second both : BitVec 32}
    (fits : both.toInt = first.toInt + second.toInt) :
    (time.adjusted first).adjusted second = time.adjusted both := by
  obtain ⟨_, once⟩ := adjusted_spec time first
  obtain ⟨normal, twice⟩ := adjusted_spec (time.adjusted first) second
  obtain ⟨normal', sum⟩ := adjusted_spec time both
  apply PtpTime.eq_of_total_modEq normal normal'
  calc ((time.adjusted first).adjusted second).total
      ≡ (time.adjusted first).total + second.toInt [ZMOD clockPeriod] := twice
    _ ≡ time.total + first.toInt + second.toInt [ZMOD clockPeriod] := once.add_right _
    _ = time.total + both.toInt := by rw [fits, Int.add_assoc]
    _ ≡ (time.adjusted both).total [ZMOD clockPeriod] := sum.symm

/-- An adjustment by 0 keeps a normal time. -/
theorem adjusted_zero {time : PtpTime} (normal : time.Normal) : time.adjusted 0 = time := by
  obtain ⟨normal', same⟩ := adjusted_spec time 0
  apply PtpTime.eq_of_total_modEq normal' normal
  simpa using same

/-! ### The call -/

/-- `lan9250_ptp_clock_adjust`, with its calls made one transaction after the other. -/
def adjustClock (incrementNs : BitVec 32) : Driver Unit :=
  ExceptT.mk ((ptpClockAdjust incrementNs).run.translate clockImplementation.body)

/-- The clock does not tick; any transaction may fail. -/
def Unticked : clockDevice.Guard := fun _ _ choice => choice.ticks = []

/-- The clock does not tick, and no transaction fails. -/
def Unhindered : clockDevice.Guard := fun _ _ choice => choice.ticks = [] ∧ choice.outcome = .ok

/-- A call has loaded one normal time: that before, and the increment, modulo the period. -/
structure AdjustedBy (incrementNs : BitVec 32) (clock finish : ClockUnit) : Prop where
  normal : finish.live.Normal
  total : finish.live.total ≡ clock.live.total + incrementNs.toInt [ZMOD clockPeriod]
  loaded : loadedDuring clock finish = [finish.live]

/-- Under a guard the clock does not tick, and a transaction may succeed. -/
structure Still (guard : clockDevice.Guard) : Prop where
  unticked : ∀ clock request choice, guard clock request choice → choice.ticks = []
  possible : ∀ clock request, guard clock request ⟨[], .ok⟩

/-- Some transaction may fail. -/
def MayFail (guard : clockDevice.Guard) : Prop :=
  ∃ clock request choice, guard clock request choice ∧ choice.outcome ≠ .ok

/-- A clock which does not tick stands still. -/
theorem still_unticked : Still Unticked := ⟨fun _ _ _ still => still, fun _ _ => rfl⟩

theorem still_unhindered : Still Unhindered := ⟨fun _ _ _ still => still.1, fun _ _ => ⟨rfl, rfl⟩⟩

/-- Then none may fail. -/
theorem not_mayFail_unhindered : ¬MayFail Unhindered :=
  fun ⟨_, _, _, still, failed⟩ => failed still.2

/-- Without ticks nothing happens before a request. -/
theorem advance_unticked {clock : ClockUnit} {choice : ClockChoice} (still : choice.ticks = []) :
    clock.advance choice = clock := by
  rw [ClockUnit.advance, still, List.foldl_nil]

/-- A transaction succeeds with its value and effect, or it fails. -/
theorem conclude_cases {α : Type} (before after : ClockUnit) (outcome : Outcome) (value : α) :
    before.conclude outcome value after = (.ok value, after) ∨
      outcome ≠ .ok ∧ ∃ error next, before.conclude outcome value after = (.error error, next) ∧
        (next = before ∨ next = after) := by
  unfold ClockUnit.conclude
  split
  · exact .inl rfl
  · exact .inr ⟨by simp, _, _, rfl, .inr rfl⟩
  · exact .inr ⟨by simp, _, _, rfl, .inl rfl⟩

section Still

variable {guard : clockDevice.Guard} (still : Still guard) {clock : ClockUnit} {address : Address}
  {value : Word}

include still

/-- A register read. -/
theorem completes_still_read {post : Except Errno Word → ClockUnit → Prop}
    (shown : clock.read? address = some value) (succeeds : post (.ok value) clock)
    (fails : MayFail guard → ∀ error, post (.error error) clock) :
    clockDevice.Completes guard (readSysReg address).run clock post := by
  refine Device.Completes.ask ⟨⟨[], .ok⟩, still.possible _ _⟩ ?_
  intro choice allowed
  have answered : clockDevice.answer clock (.readSysReg address) choice =
      some (clock.conclude choice.outcome value clock) := by
    simp only [ClockUnit.answer, advance_unticked (still.unticked _ _ _ allowed), shown,
      Option.map_some]
  rcases conclude_cases clock clock choice.outcome value with
    success | ⟨failed, error, next, failure, same⟩
  · exact ⟨_, _, answered.trans (congrArg some success), succeeds⟩
  · obtain rfl : next = clock := same.elim id id
    exact ⟨_, _, answered.trans (congrArg some failure), fails ⟨_, _, _, allowed, failed⟩ error⟩

/-- A register write. -/
theorem completes_still_write {written : ClockUnit} {post : Except Errno Unit → ClockUnit → Prop}
    (found : clock.write? address value = some written) (succeeds : post (.ok ()) written)
    (fails : MayFail guard → ∀ error next, post (.error error) next) :
    clockDevice.Completes guard (writeSysReg address value).run clock post := by
  refine Device.Completes.ask ⟨⟨[], .ok⟩, still.possible _ _⟩ ?_
  intro choice allowed
  have answered : clockDevice.answer clock (.writeSysReg address value) choice =
      some (clock.conclude choice.outcome () written) := by
    simp only [ClockUnit.answer, advance_unticked (still.unticked _ _ _ allowed), found,
      Option.map_some]
  rcases conclude_cases clock written choice.outcome () with
    success | ⟨failed, error, next, failure, _⟩
  · exact ⟨_, _, answered.trans (congrArg some success), succeeds⟩
  · exact ⟨_, _, answered.trans (congrArg some failure), fails ⟨_, _, _, allowed, failed⟩ error next⟩

/-- A read which succeeds returns the time, and leaves it in the registers. -/
theorem completes_ptpClockRead {post : Except Errno (PtpTime × Option Word) → ClockUnit → Prop}
    (succeeds : post (.ok (clock.live, none)) clock.snapshot)
    (fails : MayFail guard → ∀ error next, post (.error error) next) :
    clockDevice.Completes guard (ptpClockRead false).run clock post := by
  unfold ptpClockRead
  apply Device.completes_run_bind.mpr
  refine completes_still_write still (write?_clockRead clock) ?_ fails
  apply Device.completes_run_bind.mpr
  refine completes_still_read still (read?_clockSec clock.snapshot) ?_
    fun may error => fails may error _
  apply Device.completes_run_bind.mpr
  exact completes_still_read still (read?_clockNs clock.snapshot) succeeds
    fun may error => fails may error _

/-- A set which succeeds loads its time. -/
theorem completes_ptpClockSet {time : PtpTime} {post : Except Errno Unit → ClockUnit → Prop}
    (succeeds : post (.ok ()) (ClockUnit.load { clock with registers := time }))
    (fails : MayFail guard → ∀ error next, post (.error error) next) :
    clockDevice.Completes guard (ptpClockSet time).run clock post := by
  unfold ptpClockSet
  apply Device.completes_run_bind.mpr
  refine completes_still_write still (write?_clockSec clock _) ?_ fails
  apply Device.completes_run_bind.mpr
  refine completes_still_write still (write?_clockNs _ _) ?_ fails
  exact completes_still_write still (write?_clockLoad _) succeeds fails

omit still in
/-- The call reads the time and sets the adjusted one. -/
theorem ptpClockAdjust_eq (incrementNs : BitVec 32) :
    ptpClockAdjust incrementNs = ClockClient.read false >>= fun value =>
      ClockClient.set (value.1.adjusted incrementNs) := by
  unfold ptpClockAdjust
  apply bind_congr
  rintro ⟨time, subns⟩
  exact (apply_ite ClockClient.set _ _ _).symm

/-- An adjustment which succeeds loads the adjusted time. -/
theorem completes_ptpClockAdjust {incrementNs : BitVec 32}
    {post : Except Errno Unit → ClockUnit → Prop}
    (succeeds : ∀ next, next.live = clock.live.adjusted incrementNs →
      loadedDuring clock next = [clock.live.adjusted incrementNs] → post (.ok ()) next)
    (fails : MayFail guard → ∀ error next, post (.error error) next) :
    clockDevice.Completes guard (adjustClock incrementNs).run clock post := by
  have opened : (adjustClock incrementNs).run =
      (ptpClockRead false).run >>= fun result => match result with
        | .ok value => (ptpClockSet (value.1.adjusted incrementNs)).run
        | .error error => pure (.error error) := by
    rw [adjustClock, ptpClockAdjust_eq]
    change (ptpClockRead false).run.bind _ = (ptpClockRead false).run.bind _
    congr 1
    funext result
    cases result with
    | error error => rfl
    | ok value => exact Program.bind_done _
  rw [opened]
  apply Device.completes_bind.mpr
  refine completes_ptpClockRead still ?_ fails
  refine completes_ptpClockSet still ?_ fails
  apply succeeds
  · rfl
  · rw [loadedDuring, ClockUnit.load, ClockUnit.snapshot]
    simp [loads]

/-- Unless a transaction fails an adjustment returns 0, and then it has loaded the adjusted
time. -/
theorem completes_adjust {incrementNs : BitVec 32} :
    clockDevice.Completes guard (adjustClock incrementNs).run clock fun result finish =>
      (result = .ok () ∨ MayFail guard) ∧
      (result = .ok () → finish.live = clock.live.adjusted incrementNs ∧
        loadedDuring clock finish = [clock.live.adjusted incrementNs]) := by
  refine completes_ptpClockAdjust still ?_ fun may error next => ⟨.inr may, by simp⟩
  intro next live loaded
  exact ⟨.inl rfl, fun _ => ⟨live, loaded⟩⟩

/-- Two adjustments, one after the other. -/
theorem completes_adjust_adjust {first second : BitVec 32} :
    clockDevice.Completes guard (adjustClock first >>= fun _ => adjustClock second).run clock
      fun result finish => (result = .ok () ∨ MayFail guard) ∧
        (result = .ok () → finish.live = (clock.live.adjusted first).adjusted second) := by
  apply Device.completes_run_bind.mpr
  refine completes_ptpClockAdjust still ?_ fun may error next => ⟨.inr may, by simp⟩
  intro next live _
  rw [← live]
  refine completes_ptpClockAdjust still ?_ fun may error next => ⟨.inr may, by simp⟩
  intro finish live' _
  exact ⟨.inl rfl, fun _ => live'⟩

end Still

/-- What an adjustment which returns 0 has done. -/
theorem adjustedBy {incrementNs : BitVec 32} {clock finish : ClockUnit}
    (live : finish.live = clock.live.adjusted incrementNs)
    (loaded : loadedDuring clock finish = [clock.live.adjusted incrementNs]) :
    AdjustedBy incrementNs clock finish := by
  obtain ⟨normal, sum⟩ := adjusted_spec clock.live incrementNs
  rw [← live] at normal sum loaded
  exact ⟨normal, sum, loaded⟩

/-- While the clock does not tick, an adjustment which returns 0 has loaded one normal time,
which is the time before and the increment modulo the period; two of them have the effect of one
by the sum of their increments; and the opposite increment restores the clock. And if no
transaction fails, each of these calls returns 0. -/
theorem clock_adjusted {clock : ClockUnit} (normal : clock.live.Normal) (first : BitVec 32) :
    clockDevice.Completes Unticked (adjustClock first).run clock (fun result finish =>
      result = .ok () → AdjustedBy first clock finish) ∧
    clockDevice.Completes Unhindered (adjustClock first).run clock (fun result finish =>
      result = .ok () ∧ AdjustedBy first clock finish) ∧
    (∀ second both : BitVec 32, both.toInt = first.toInt + second.toInt →
      (∀ choices choices' finish finish',
        clockDevice.Returns Unticked (adjustClock first >>= fun _ => adjustClock second).run clock
          choices (.ok ()) finish →
        clockDevice.Returns Unticked (adjustClock both).run clock choices' (.ok ()) finish' →
        finish.live = finish'.live) ∧
      clockDevice.Completes Unhindered (adjustClock first >>= fun _ => adjustClock second).run clock
        fun twice finish => twice = .ok () ∧
          clockDevice.Completes Unhindered (adjustClock both).run clock fun once finish' =>
            once = .ok () ∧ finish.live = finish'.live) ∧
    ∀ second : BitVec 32, second.toInt = -first.toInt →
      (∀ choices finish,
        clockDevice.Returns Unticked (adjustClock first >>= fun _ => adjustClock second).run clock
          choices (.ok ()) finish → finish.live = clock.live) ∧
      clockDevice.Completes Unhindered (adjustClock first >>= fun _ => adjustClock second).run clock
        fun result finish => result = .ok () ∧ finish.live = clock.live := by
  have restored {second : BitVec 32} (opposite : second.toInt = -first.toInt) :
      (clock.live.adjusted first).adjusted second = clock.live := by
    have none : (0 : BitVec 32).toInt = first.toInt + second.toInt := by
      rw [opposite, Int.add_right_neg]
      rfl
    rw [adjusted_adjusted _ none, adjusted_zero normal]
  refine ⟨?_, ?_, ?_, ?_⟩
  · apply (completes_adjust still_unticked).weaken
    rintro result finish ⟨_, adjusted⟩ succeeded
    obtain ⟨live, loaded⟩ := adjusted succeeded
    exact adjustedBy live loaded
  · apply (completes_adjust still_unhindered).weaken
    rintro result finish ⟨returned, adjusted⟩
    have succeeded := returned.resolve_right not_mayFail_unhindered
    obtain ⟨live, loaded⟩ := adjusted succeeded
    exact ⟨succeeded, adjustedBy live loaded⟩
  · intro second both fits
    constructor
    · intro choices choices' finish finish' twice once
      have composed := (twice.of_completes (completes_adjust_adjust still_unticked)).2 rfl
      have single := (once.of_completes (completes_adjust still_unticked)).2 rfl
      rw [composed, single.1, adjusted_adjusted _ fits]
    · apply (completes_adjust_adjust still_unhindered).weaken
      rintro result finish ⟨returned, composed⟩
      have succeeded := returned.resolve_right not_mayFail_unhindered
      refine ⟨succeeded, ?_⟩
      apply (completes_adjust still_unhindered).weaken
      rintro result' finish' ⟨returned', single⟩
      have succeeded' := returned'.resolve_right not_mayFail_unhindered
      exact ⟨succeeded', by rw [composed succeeded, (single succeeded').1, adjusted_adjusted _ fits]⟩
  · intro second opposite
    constructor
    · intro choices finish twice
      rw [(twice.of_completes (completes_adjust_adjust still_unticked)).2 rfl, restored opposite]
    · apply (completes_adjust_adjust still_unhindered).weaken
      rintro result finish ⟨returned, composed⟩
      have succeeded := returned.resolve_right not_mayFail_unhindered
      exact ⟨succeeded, by rw [composed succeeded, restored opposite]⟩

/-- A nanosecond before the beginning is the last one of the period. -/
theorem zero_adjusted_back :
    clockDevice.Completes Unhindered (adjustClock (-1)).run ⟨⟨0, 0⟩, 0, ⟨0, 0⟩, 0, []⟩
      fun result finish => result = .ok () ∧ finish.live = ⟨0xFFFFFFFF, 999999999⟩ := by
  apply (clock_adjusted (by decide) (-1)).2.1.weaken
  rintro result finish ⟨succeeded, adjusted⟩
  have last : (⟨0xFFFFFFFF, 999999999⟩ : PtpTime).Normal := by decide
  exact ⟨succeeded, PtpTime.eq_of_total_modEq adjusted.normal last (adjusted.total.trans (by decide))⟩

end Rp2350Stepper.Lan9250
