import Rp2350Stepper.Core1.Moves
import Rp2350Stepper.Core1.SpeedLimits
import Rp2350Stepper.Pio.Stepper

/-!
# The step rate of a pushed word

`hz_to_half_period` cuts its quotient down to a whole number, so the period which the STEP
program makes of it is at most that of the speed asked for: the steps come at that speed or
faster, and exactly at it only when the PIO clock holds a whole number of half periods.
-/

namespace Rp2350Stepper.Core1

open Rp2350Stepper.Num Rp2350Stepper.Data Rp2350Stepper.Semantics

/-- Steps per second for a word, when the STEP program does not wait. -/
noncomputable def stepFrequency (word : Word) : ℝ := pioFSys / Pio.stepPeriod word

/-- The clock in the reals. -/
theorem pioFSys_exact : (pioFSys : ℝ) = 150000000 := by
  simp [pioFSys]

/-- `hz_to_half_period`, over exact arithmetic. -/
theorem Motion.hzToHalfPeriod_exact (hz : ℝ) : hzToHalfPeriod hz =
    if 0 < 150000000 / (2 * hz) - 3 then BitVec.ofInt 32 ⌊150000000 / (2 * hz) - 3⌋ else 0 := by
  unfold hzToHalfPeriod
  simp only [pioFSys_exact, SinglePrecision.ofNat_exact, Nat.cast_ofNat, Nat.cast_zero,
    SinglePrecision.lt, decide_eq_true_eq]
  rfl

/-- The period is twice the whole half periods in the PIO clock. -/
theorem stepPeriod_exact {hz : ℝ} (low : 50 ≤ hz) (high : hz ≤ 160000) :
    Pio.stepPeriod (Motion.hzToHalfPeriod hz) = 2 * ⌊75000000 / hz⌋₊ := by
  have positive : 0 < hz := by linarith
  have halved : 150000000 / (2 * hz) - 3 = 75000000 / hz - 3 := by
    field_simp
    ring
  have least : 468 ≤ 75000000 / hz := by
    rw [le_div_iff₀ positive]
    linarith
  have most : 75000000 / hz ≤ 1500000 := by
    rw [div_le_iff₀ positive]
    linarith
  have few : 3 ≤ ⌊75000000 / hz⌋₊ := Nat.le_floor (by push_cast; linarith)
  have bound : ⌊75000000 / hz⌋₊ ≤ 1500000 := Nat.floor_le_of_le (by push_cast; linarith)
  have floor : ⌊75000000 / hz - 3⌋ = ((⌊75000000 / hz⌋₊ - 3 : ℕ) : ℤ) := by
    have cut : ⌊75000000 / hz - 3⌋ = ⌊75000000 / hz⌋ - 3 := by
      exact_mod_cast Int.floor_sub_intCast (75000000 / hz) 3
    rw [cut, ← Int.natCast_floor_eq_floor (by linarith)]
    omega
  rw [Motion.hzToHalfPeriod_exact, halved, if_pos (by linarith), floor, Pio.stepPeriod,
    BitVec.ofInt_natCast, BitVec.toNat_ofNat, Nat.mod_eq_of_lt (by omega)]
  omega

/-- The rate of the steps, for a speed within the limits. -/
theorem stepFrequency_exact {hz : ℝ} (low : 50 ≤ hz) (high : hz ≤ 160000) :
    stepFrequency (Motion.hzToHalfPeriod hz) = 75000000 / ⌊75000000 / hz⌋₊ := by
  rw [stepFrequency, pioFSys_exact, stepPeriod_exact low high, Nat.cast_mul, Nat.cast_ofNat,
    ← div_div]
  norm_num

/-- A rate is kept exactly if its period has at most the whole half periods of the speed. -/
theorem stepFrequency_le_iff {hz rate : ℝ} (low : 50 ≤ hz) (high : hz ≤ 160000) (positive : 0 < rate) :
    stepFrequency (Motion.hzToHalfPeriod hz) ≤ rate ↔ 75000000 / rate ≤ ⌊75000000 / hz⌋₊ := by
  have least : 468 ≤ 75000000 / hz := by
    rw [le_div_iff₀ (by linarith)]
    linarith
  have halves : (0 : ℝ) < ⌊75000000 / hz⌋₊ := by
    exact_mod_cast Nat.lt_of_lt_of_le (by norm_num : 0 < 468) (Nat.le_floor (by exact_mod_cast least))
  rw [stepFrequency_exact low high, div_le_iff₀ halves, div_le_iff₀ positive, mul_comm]

/-- The PIO clock holds a whole number of half periods of a speed. -/
def DividesClock (hz : ℝ) : Prop := ∃ halves : ℕ, halves * hz = 75000000

/-- Nothing is cut off if the speed divides the clock. -/
theorem le_floor_iff_dividesClock {hz : ℝ} (positive : 0 < hz) :
    75000000 / hz ≤ ⌊75000000 / hz⌋₊ ↔ DividesClock hz := by
  have floor : (⌊75000000 / hz⌋₊ : ℝ) ≤ 75000000 / hz := Nat.floor_le (by positivity)
  constructor
  · intro reached
    refine ⟨⌊75000000 / hz⌋₊, ?_⟩
    rw [le_antisymm floor reached]
    field_simp
  · rintro ⟨halves, whole⟩
    have quotient : 75000000 / hz = halves := by
      rw [← whole]
      field_simp
    rw [quotient, Nat.floor_natCast]

/-- The emitted period is less than two cycles short. -/
theorem period_near {hz : ℝ} (low : 50 ≤ hz) (high : hz ≤ 160000) :
    |(Pio.stepPeriod (Motion.hzToHalfPeriod hz) : ℝ) - 150000000 / hz| < 2 := by
  have positive : 0 < hz := by linarith
  have floor : (⌊75000000 / hz⌋₊ : ℝ) ≤ 75000000 / hz := Nat.floor_le (by positivity)
  have next : 75000000 / hz < ⌊75000000 / hz⌋₊ + 1 := Nat.lt_floor_add_one _
  have whole : 150000000 / hz = 2 * (75000000 / hz) := by ring
  rw [stepPeriod_exact low high, Nat.cast_mul, Nat.cast_ofNat, whole, abs_lt]
  constructor <;> linarith

/-- The rate for a speed is not above it, and the rates for all speeds up to a limit are not
above that, exactly if the clock holds a whole number of half periods of the speed and of the
limit; the period is less than two cycles off for every speed. -/
theorem step_rate_exact {hz maxSpeed : ℝ} (low : 50 ≤ hz) (within : hz ≤ maxSpeed)
    (limit : maxSpeed ≤ 160000) :
    (stepFrequency (Motion.hzToHalfPeriod hz) ≤ hz ∧
      |(Pio.stepPeriod (Motion.hzToHalfPeriod hz) : ℝ) - 150000000 / hz| < 2 ↔ DividesClock hz) ∧
    |(Pio.stepPeriod (Motion.hzToHalfPeriod hz) : ℝ) - 150000000 / hz| < 2 ∧
    ((∀ speed, 50 ≤ speed → speed ≤ maxSpeed →
      stepFrequency (Motion.hzToHalfPeriod speed) ≤ maxSpeed) ↔ DividesClock maxSpeed) := by
  have near := period_near low (within.trans limit)
  have itself : stepFrequency (Motion.hzToHalfPeriod hz) ≤ hz ↔ DividesClock hz := by
    rw [stepFrequency_le_iff low (within.trans limit) (by linarith),
      le_floor_iff_dividesClock (by linarith)]
  refine ⟨⟨fun both => itself.mp both.1, fun divides => ⟨itself.mpr divides, near⟩⟩, near, ?_⟩
  constructor
  · intro kept
    have top := kept maxSpeed (low.trans within) le_rfl
    rwa [stepFrequency_le_iff (low.trans within) limit (by linarith),
      le_floor_iff_dividesClock (by linarith)] at top
  · rintro ⟨halves, whole⟩ speed above below
    rw [stepFrequency_le_iff above (below.trans limit) (by linarith)]
    have quotient : 75000000 / maxSpeed = halves := by
      rw [← whole, mul_div_assoc, div_self (by linarith), mul_one]
    have fewer : (halves : ℝ) ≤ 75000000 / speed := by
      rw [← quotient]
      exact div_le_div_of_nonneg_left (by norm_num) (by linarith) below
    rw [quotient]
    exact_mod_cast Nat.le_floor fewer

/-- The rate for 100000 steps per second, under the highest limit. -/
theorem default_rate_kept : stepFrequency (Motion.hzToHalfPeriod (100000 : ℝ)) ≤ 100000 :=
  ((step_rate_exact (by norm_num) (by norm_num) (le_refl (160000 : ℝ))).1.mpr
    ⟨750, by norm_num⟩).1

/-- The rate for the highest limit is above it. -/
theorem limit_rate_exceeded : ¬∀ hz maxSpeed : ℝ, 50 ≤ hz → hz ≤ maxSpeed → maxSpeed ≤ 160000 →
    stepFrequency (Motion.hzToHalfPeriod hz) ≤ hz ∧
      |(Pio.stepPeriod (Motion.hzToHalfPeriod hz) : ℝ) - 150000000 / hz| < 2 := by
  intro kept
  have top := (kept 160000 160000 (by norm_num) le_rfl le_rfl).1
  rw [stepFrequency_le_iff (by norm_num) le_rfl (by norm_num)] at top
  have floor : ⌊(75000000 / 160000 : ℝ)⌋₊ = 468 := by
    rw [Nat.floor_eq_iff (by norm_num)]
    norm_num
  rw [floor] at top
  norm_num at top

end Rp2350Stepper.Core1
