import Rp2350Stepper.Lan9250.Interface
import Rp2350Stepper.Num.Rounding
import Mathlib.Data.Rat.Floor
import Mathlib.Tactic.FieldSimp
import Mathlib.Tactic.NormNum

/-!
# Trimming the rate of the 1588 clock

`lan9250_ptp_clock_rate_adjust` takes a ratio to the nominal rate and writes a sign and a
magnitude, which the chip adds to its sub-nanosecond accumulator on every tick of 10 ns.
Its `double` arithmetic is idealised: no operation rounds, and `llround` yields the nearest
integer, away from zero between two, whatever its size.
-/

namespace Rp2350Stepper.Lan9250

open Rp2350Stepper.Num Rp2350Stepper.Semantics

/-! ### The register -/

/-- `LAN9250_1588_CLOCK_RATE_ADJ`. -/
def clockRateAdj : Address := 0x011C

/-- `LAN9250_1588_CLOCK_RATE_ADJ_DIR`. -/
def clockRateAdjDir : Word := 0x80000000

/-- `LAN9250_1588_CLOCK_RATE_ADJ_VALUE_MASK`. -/
def clockRateAdjValueMask : Word := 0x3FFFFFFF

/-- What is added to the accumulator on each tick. -/
def trimValue (word : Word) : Nat := (word &&& clockRateAdjValueMask).toNat

/-- Whether a carry speeds the clock up. -/
def trimsUp (word : Word) : Bool := word &&& clockRateAdjDir != 0

/-- The nanoseconds of some ticks: 10 each, and one more or less for each carry of the
32-bit accumulator. -/
def tickedNs (word : Word) (ticks : Nat) (subns : Word) : Int :=
  let carries : Int := (accumulateTicks (2 ^ 32) (trimValue word) ticks subns.toNat).1
  10 * ticks + if trimsUp word then carries else -carries

/-- The units of a trim in a rate. -/
def trimUnits : Nat := 10 * 2 ^ 32

/-- The rate at which the clock runs, relative to the nominal one. -/
def hardwareRate (word : Word) : ℚ :=
  if trimsUp word then 1 + trimValue word / trimUnits else 1 - trimValue word / trimUnits

/-- The rate has 30 bits. -/
theorem trimValue_lt (word : Word) : trimValue word < 2 ^ 30 := by
  have mask : clockRateAdjValueMask.toNat = 2 ^ 30 - 1 := rfl
  rw [trimValue, BitVec.toNat_and, mask, Nat.and_two_pow_sub_one_eq_mod]
  exact Nat.mod_lt _ (by decide)

/-- A unit is a part in ten times 2^32. -/
theorem trimUnits_cast : (trimUnits : ℚ) = 10 * 2 ^ 32 := by norm_num [trimUnits]

/-- There are some. -/
theorem trimUnits_pos : (0 : ℚ) < trimUnits := by
  rw [trimUnits_cast]
  positivity

/-- The clock keeps to its rate to the nanosecond, whatever the accumulator holds. -/
theorem tickedNs_near (word : Word) (ticks : Nat) (subns : Word) :
    |(tickedNs word ticks subns : ℚ) - 10 * ticks * hardwareRate word| < 1 := by
  have small : trimValue word ≤ 2 ^ 32 := (trimValue_lt word).le.trans (by decide)
  obtain ⟨below, total⟩ := accumulateTicks_spec small subns.isLt ticks
  unfold tickedNs hardwareRate
  generalize accumulateTicks (2 ^ 32) (trimValue word) ticks subns.toNat = result at *
  generalize trimValue word = value at *
  obtain ⟨carries, phase⟩ := result
  have start : (subns.toNat : ℚ) < 2 ^ 32 := by exact_mod_cast subns.isLt
  have stop : (phase : ℚ) < 2 ^ 32 := by exact_mod_cast below
  have sum : (2 : ℚ) ^ 32 * carries + phase = subns.toNat + ticks * value := by
    exact_mod_cast total
  have drift : |(carries : ℚ) - ticks * value / 2 ^ 32| < 1 := by
    have scaled : (carries : ℚ) - ticks * value / 2 ^ 32 = (subns.toNat - phase) / 2 ^ 32 := by
      rw [eq_div_iff (by positivity)]
      field_simp
      linarith
    have nonneg : (0 : ℚ) ≤ subns.toNat := Nat.cast_nonneg _
    have nonneg' : (0 : ℚ) ≤ phase := Nat.cast_nonneg _
    rw [scaled, abs_lt, lt_div_iff₀ (by positivity), div_lt_iff₀ (by positivity)]
    constructor <;> linarith
  rw [trimUnits_cast]
  dsimp only
  split
  · have ahead : (((10 * ticks + carries : ℤ) : ℚ) - 10 * ticks * (1 + value / (10 * 2 ^ 32))) =
        carries - ticks * value / 2 ^ 32 := by
      push_cast
      ring
    rwa [ahead]
  · have behind : (((10 * ticks + -carries : ℤ) : ℚ) - 10 * ticks * (1 - value / (10 * 2 ^ 32))) =
        -(carries - ticks * value / 2 ^ 32) := by
      push_cast
      ring
    rwa [behind, abs_neg]

/-! ### The call -/

/-- How the call fails. -/
inductive RateError where
  | erange
  /-- The register could not be written. -/
  | write (error : Errno)
deriving DecidableEq, Repr

/-- `lan9250_ptp_clock_rate_adjust`. -/
def ptpClockRateAdjust (ratio : ℚ) : ExceptT RateError (Program driverInterface) Unit := do
  let ppb := (ratio - 1) * 1.0e9
  let magnitude := (roundHalfAway ((if ppb < 0 then -ppb else ppb) * 42.94967296)).toNat
  if clockRateAdjValueMask.toNat < magnitude then throw .erange
  let rateAdj := BitVec.ofNat 32 magnitude
  let rateAdj := if 0 ≤ ppb then rateAdj ||| clockRateAdjDir else rateAdj
  ExceptT.mk do
    let result ← call (.writeSysReg clockRateAdj rateAdj)
    return result.mapError .write

/-- A trim in units, as a whole number. -/
def trimFor (ratio : ℚ) : ℤ := roundHalfAway (|ratio - 1| * trimUnits)

/-- The word of a trim and its direction. -/
def trimWord (ratio : ℚ) : Word :=
  if 0 ≤ ratio - 1 then BitVec.ofNat 32 (trimFor ratio).toNat ||| clockRateAdjDir
  else BitVec.ofNat 32 (trimFor ratio).toNat

/-- A call which writes one word, and nothing else. -/
def writesRate (word : Word) : Program driverInterface (Except RateError Unit) :=
  .ask (.writeSysReg clockRateAdj word) fun result => .done (result.mapError .write)

/-- The magnitude of a rate. -/
theorem trimFor_nonneg (ratio : ℚ) : 0 ≤ trimFor ratio :=
  roundHalfAway_nonneg (by positivity)

/-- The parts per billion, scaled, are the trim in units. -/
theorem scaled_ppb (ratio : ℚ) :
    (if (ratio - 1) * 1.0e9 < 0 then -((ratio - 1) * 1.0e9) else (ratio - 1) * 1.0e9) *
      42.94967296 = |ratio - 1| * trimUnits := by
  rw [trimUnits_cast]
  split
  · rename_i slower
    have negative : ratio - 1 < 0 := by
      norm_num at slower
      linarith
    rw [abs_of_neg negative]
    norm_num
    ring
  · rename_i faster
    have nonneg : 0 ≤ ratio - 1 := by
      norm_num at faster
      linarith
    rw [abs_of_nonneg nonneg]
    norm_num
    ring

/-- The call refuses a trim which does not fit its field, and writes any other. -/
theorem ptpClockRateAdjust_eq (ratio : ℚ) :
    (ptpClockRateAdjust ratio).run =
      if (0x3FFFFFFF : ℤ) < trimFor ratio then .done (.error .erange)
      else writesRate (trimWord ratio) := by
  have nonneg := trimFor_nonneg ratio
  have mask : clockRateAdjValueMask.toNat = 0x3FFFFFFF := rfl
  have sign : (0 ≤ (ratio - 1) * 1.0e9) ↔ 0 ≤ ratio - 1 := by norm_num
  have word : (if 0 ≤ (ratio - 1) * 1.0e9 then
      BitVec.ofNat 32 (trimFor ratio).toNat ||| clockRateAdjDir
      else BitVec.ofNat 32 (trimFor ratio).toNat) = trimWord ratio := by
    simp only [sign, trimWord]
  unfold ptpClockRateAdjust
  dsimp only
  rw [scaled_ppb, ← trimFor, mask]
  by_cases large : (0x3FFFFFFF : ℤ) < trimFor ratio
  · rw [if_pos large, if_pos (by omega)]
    rfl
  · rw [if_neg large, if_neg (by omega)]
    rw [word]
    rfl

/-! ### The word -/

/-- The direction is bit 31. -/
theorem trimsUp_eq (word : Word) : trimsUp word = word.getLsbD 31 := by
  have direction : clockRateAdjDir = BitVec.twoPow 32 31 := by decide
  rw [trimsUp, direction, BitVec.and_twoPow]
  split
  · rename_i set
    rw [set]
    rfl
  · rename_i clear
    rw [Bool.not_eq_true] at clear
    rw [clear]
    rfl

section Word

variable {ratio : ℚ} (fits : trimFor ratio ≤ 0x3FFFFFFF)

include fits

/-- The word as a number: its direction in bit 31, and the trim below bit 30. -/
theorem toNat_trimWord : (trimWord ratio).toNat =
    (if 0 ≤ ratio - 1 then 2 ^ 31 else 0) + (trimFor ratio).toNat := by
  have below : (trimFor ratio).toNat < 2 ^ 31 := by omega
  have value : (BitVec.ofNat 32 (trimFor ratio).toNat).toNat = (trimFor ratio).toNat := by
    rw [BitVec.toNat_ofNat]
    omega
  unfold trimWord
  split
  · have direction : clockRateAdjDir.toNat = 2 ^ 31 * 1 := rfl
    rw [BitVec.toNat_or, value, direction, Nat.or_comm, ← Nat.two_pow_add_eq_or_of_lt below,
      Nat.mul_one]
  · rw [value, Nat.zero_add]

/-- It is what the word holds. -/
theorem trimValue_trimWord : (trimValue (trimWord ratio) : ℤ) = trimFor ratio := by
  have nonneg := trimFor_nonneg ratio
  have mask : clockRateAdjValueMask.toNat = 2 ^ 30 - 1 := rfl
  rw [trimValue, BitVec.toNat_and, mask, Nat.and_two_pow_sub_one_eq_mod, toNat_trimWord fits]
  split <;> omega

/-- The direction is that of the ratio. -/
theorem trimsUp_trimWord : trimsUp (trimWord ratio) = decide (0 ≤ ratio - 1) := by
  have nonneg := trimFor_nonneg ratio
  rw [trimsUp_eq, BitVec.getLsbD, toNat_trimWord fits, Nat.testBit_eq_decide_div_mod_eq,
    decide_eq_decide]
  split
  · rename_i faster
    exact iff_of_true (by omega) faster
  · rename_i slower
    exact iff_of_false (by omega) slower

/-- The reserved bit stays 0. -/
theorem trimWord_bit30 : (trimWord ratio).getLsbD 30 = false := by
  rw [BitVec.getLsbD, toNat_trimWord fits, Nat.testBit_eq_decide_div_mod_eq]
  split <;> simp <;> omega

/-- The realised rate. -/
theorem hardwareRate_trimWord :
    hardwareRate (trimWord ratio) =
      1 + (roundHalfAway ((ratio - 1) * trimUnits) : ℚ) / trimUnits := by
  have value : (trimValue (trimWord ratio) : ℚ) = trimFor ratio := by
    exact_mod_cast trimValue_trimWord fits
  rw [hardwareRate, trimsUp_trimWord fits, value, trimFor]
  simp only [decide_eq_true_eq]
  split
  · rename_i faster
    rw [abs_of_nonneg faster]
  · rename_i slower
    rw [abs_of_neg (not_le.mp slower), neg_mul, roundHalfAway_neg]
    push_cast
    ring

/-- It is within half a unit of the ratio. -/
theorem hardwareRate_near : |hardwareRate (trimWord ratio) - ratio| ≤ 1 / (20 * 2 ^ 32) := by
  have rounded := abs_sub_roundHalfAway ((ratio - 1) * (trimUnits : ℚ))
  rw [abs_sub_comm] at rounded
  have units : (0 : ℚ) < trimUnits := trimUnits_pos
  have scaled : hardwareRate (trimWord ratio) - ratio =
      (roundHalfAway ((ratio - 1) * (trimUnits : ℚ)) - (ratio - 1) * trimUnits) / trimUnits := by
    rw [hardwareRate_trimWord fits, sub_div, mul_div_assoc, div_self units.ne']
    ring
  have half : (1 : ℚ) / (20 * 2 ^ 32) = 1 / 2 / trimUnits := by
    rw [trimUnits_cast]
    norm_num
  rw [scaled, half, abs_div, abs_of_pos units]
  gcongr

/-- A higher ratio realises a rate which is no lower. -/
theorem hardwareRate_mono {ratio' : ℚ} (fits' : trimFor ratio' ≤ 0x3FFFFFFF)
    (le : ratio ≤ ratio') : hardwareRate (trimWord ratio) ≤ hardwareRate (trimWord ratio') := by
  have units : (0 : ℚ) < trimUnits := trimUnits_pos
  have rounded : roundHalfAway ((ratio - 1) * (trimUnits : ℚ)) ≤
      roundHalfAway ((ratio' - 1) * (trimUnits : ℚ)) := by
    apply roundHalfAway_mono
    gcongr
  rw [hardwareRate_trimWord fits, hardwareRate_trimWord fits']
  gcongr

/-- Opposite ratios realise opposite rates. -/
theorem hardwareRate_opposite (fits' : trimFor (2 - ratio) ≤ 0x3FFFFFFF) :
    hardwareRate (trimWord (2 - ratio)) - 1 = -(hardwareRate (trimWord ratio) - 1) := by
  have opposite : (2 - ratio - 1) * (trimUnits : ℚ) = -((ratio - 1) * trimUnits) := by ring
  rw [hardwareRate_trimWord fits, hardwareRate_trimWord fits', opposite, roundHalfAway_neg]
  push_cast
  ring

end Word

/-- Opposite deviations have the same magnitude. -/
theorem trimFor_opposite (ratio : ℚ) : trimFor (2 - ratio) = trimFor ratio := by
  have opposite : 2 - ratio - 1 = -(ratio - 1) := by ring
  rw [trimFor, opposite, abs_neg, ← trimFor]

/-- A rate is refused if it does not fit in 30 bits. -/
theorem refuses_iff (ratio : ℚ) :
    (ptpClockRateAdjust ratio).run = .done (.error .erange) ↔ 0x3FFFFFFF < trimFor ratio := by
  rw [ptpClockRateAdjust_eq]
  split
  · rename_i large
    exact iff_of_true rfl large
  · rename_i fits
    exact iff_of_false (by simp [writesRate]) fits

/-- Otherwise the word of the ratio is written. -/
theorem writes_iff (ratio : ℚ) (word : Word) :
    (ptpClockRateAdjust ratio).run = writesRate word ↔
      trimFor ratio ≤ 0x3FFFFFFF ∧ trimWord ratio = word := by
  rw [ptpClockRateAdjust_eq]
  split
  · rename_i large
    exact iff_of_false (by simp [writesRate]) fun fits => absurd fits.1 (not_le.mpr large)
  · rename_i fits
    constructor
    · intro same
      injection same with request
      injection request with _ word
      exact ⟨not_lt.mp fits, word⟩
    · rintro ⟨_, rfl⟩
      rfl

/-- The call returns `-ERANGE` and writes nothing exactly when the trim does not fit its field.
Otherwise it writes one word, with bit 30 clear, whose rate is within half a unit of the ratio;
a higher ratio realises no lower rate, and opposite ratios are refused together or realise
opposite rates. The chip keeps to the rate of a word to the nanosecond. -/
theorem rate_adjusted (ratio : ℚ) :
    ((ptpClockRateAdjust ratio).run = .done (.error .erange) ↔
      0x3FFFFFFF < roundHalfAway (|ratio - 1| * trimUnits)) ∧
    ((ptpClockRateAdjust ratio).run ≠ .done (.error .erange) →
      ∃ word, (ptpClockRateAdjust ratio).run = writesRate word ∧ word.getLsbD 30 = false ∧
        |hardwareRate word - ratio| ≤ 1 / (20 * 2 ^ 32)) ∧
    (∀ ratio' word word', (ptpClockRateAdjust ratio).run = writesRate word →
      (ptpClockRateAdjust ratio').run = writesRate word' → ratio ≤ ratio' →
      hardwareRate word ≤ hardwareRate word') ∧
    (∀ word, (ptpClockRateAdjust ratio).run = writesRate word →
      ∃ word', (ptpClockRateAdjust (2 - ratio)).run = writesRate word' ∧
        hardwareRate word' - 1 = -(hardwareRate word - 1)) ∧
    ∀ word ticks subns, |(tickedNs word ticks subns : ℚ) - 10 * ticks * hardwareRate word| < 1 := by
  refine ⟨refuses_iff ratio, ?_, ?_, ?_, tickedNs_near⟩
  · intro accepted
    have fits := not_lt.mp (mt (refuses_iff ratio).mpr accepted)
    exact ⟨trimWord ratio, (writes_iff ratio _).mpr ⟨fits, rfl⟩, trimWord_bit30 fits,
      hardwareRate_near fits⟩
  · intro ratio' word word' writes writes' le
    obtain ⟨fits, rfl⟩ := (writes_iff ratio word).mp writes
    obtain ⟨fits', rfl⟩ := (writes_iff ratio' word').mp writes'
    exact hardwareRate_mono fits fits' le
  · intro word writes
    obtain ⟨fits, rfl⟩ := (writes_iff ratio word).mp writes
    have fits' : trimFor (2 - ratio) ≤ 0x3FFFFFFF := (trimFor_opposite ratio).symm ▸ fits
    exact ⟨trimWord (2 - ratio), (writes_iff _ _).mpr ⟨fits', rfl⟩, hardwareRate_opposite fits fits'⟩

end Rp2350Stepper.Lan9250
