import Mathlib.Algebra.Order.Round
import Mathlib.Tactic.Linarith
import Mathlib.Tactic.Ring

/-!
# Rounding half away from zero, and phase accumulators

The rounding of C's `round` functions, and a counter which adds a value on each tick and
carries at a modulus: its carries count the multiples of the modulus it has passed.
-/

namespace Rp2350Stepper.Num

section HalfAway

variable {α : Type} [Field α] [LinearOrder α] [FloorRing α] {x y : α}

/-- The nearest integer, and the one away from zero between two. -/
def roundHalfAway (x : α) : ℤ := if x < 0 then -round (-x) else round x

/-- Without a sign it is the usual rounding. -/
theorem roundHalfAway_of_nonneg (nonneg : 0 ≤ x) : roundHalfAway x = round x :=
  if_neg nonneg.not_gt

variable [IsStrictOrderedRing α]

/-- The sign stays. -/
theorem roundHalfAway_nonneg (nonneg : 0 ≤ x) : 0 ≤ roundHalfAway x := by
  rw [roundHalfAway_of_nonneg nonneg, round_eq]
  apply Int.floor_nonneg.mpr
  linarith

/-- Rounding moves by at most one half. -/
theorem abs_sub_roundHalfAway (x : α) : |x - roundHalfAway x| ≤ 1 / 2 := by
  unfold roundHalfAway
  split
  · have moved := abs_sub_round (-x)
    rw [abs_sub_comm] at moved
    have same : x - ((-round (-x) : ℤ) : α) = round (-x) - -x := by
      push_cast
      ring
    rwa [same]
  · exact abs_sub_round x

/-- Rounding keeps the order. -/
theorem round_mono (le : x ≤ y) : round x ≤ round y := by
  rw [round_eq, round_eq]
  exact Int.floor_mono (by linarith)

/-- Rounding is odd. -/
theorem roundHalfAway_neg (x : α) : roundHalfAway (-x) = -roundHalfAway x := by
  rcases lt_trichotomy x 0 with negative | rfl | positive
  · rw [roundHalfAway_of_nonneg (neg_nonneg.mpr negative.le), roundHalfAway, if_pos negative,
      neg_neg]
  · rw [neg_zero, roundHalfAway_of_nonneg le_rfl, round_zero, neg_zero]
  · rw [roundHalfAway, if_pos (neg_neg_iff_pos.mpr positive), neg_neg,
      roundHalfAway_of_nonneg positive.le]

/-- Rounding is monotone. -/
theorem roundHalfAway_mono (le : x ≤ y) : roundHalfAway x ≤ roundHalfAway y := by
  rcases lt_or_ge y 0 with negative | nonneg
  · rw [roundHalfAway, roundHalfAway, if_pos negative, if_pos (le.trans_lt negative)]
    exact neg_le_neg (round_mono (neg_le_neg le))
  rcases lt_or_ge x 0 with negative | nonneg'
  · have below : roundHalfAway x = -roundHalfAway (-x) := by rw [roundHalfAway_neg, neg_neg]
    have left := roundHalfAway_nonneg (neg_nonneg.mpr negative.le)
    have right := roundHalfAway_nonneg nonneg
    omega
  · rw [roundHalfAway_of_nonneg nonneg, roundHalfAway_of_nonneg nonneg']
    exact round_mono le

end HalfAway

section Accumulator

variable {modulus value : Nat}

/-- A tick of an accumulator: whether it carries, and the phase after it. -/
def accumulate (modulus value phase : Nat) : Bool × Nat :=
  (decide (modulus ≤ phase + value), (phase + value) % modulus)

/-- The carries of some ticks, and the phase after them. -/
def accumulateTicks (modulus value : Nat) : (ticks phase : Nat) → Nat × Nat
  | 0, phase => (0, phase)
  | ticks + 1, phase =>
      let (carries, phase) := accumulateTicks modulus value ticks phase
      let (carry, phase) := accumulate modulus value phase
      (carries + carry.toNat, phase)

/-- Carries and phase make up what has been added. -/
theorem accumulateTicks_spec (small : value ≤ modulus) {phase : Nat} (below : phase < modulus)
    (ticks : Nat) :
    (accumulateTicks modulus value ticks phase).2 < modulus ∧
      modulus * (accumulateTicks modulus value ticks phase).1 +
        (accumulateTicks modulus value ticks phase).2 = phase + ticks * value := by
  induction ticks with
  | zero => exact ⟨below, by simp [accumulateTicks]⟩
  | succ ticks inductionHypothesis =>
      obtain ⟨within, total⟩ := inductionHypothesis
      simp only [accumulateTicks, accumulate]
      refine ⟨Nat.mod_lt _ (by omega), ?_⟩
      rw [Nat.succ_mul, ← Nat.add_assoc, ← total, Nat.mul_add]
      by_cases carry : modulus ≤ (accumulateTicks modulus value ticks phase).2 + value
      · have wrapped : ((accumulateTicks modulus value ticks phase).2 + value) % modulus =
            (accumulateTicks modulus value ticks phase).2 + value - modulus := by
          rw [Nat.mod_eq_sub_mod carry, Nat.mod_eq_of_lt (by omega)]
        rw [wrapped, decide_eq_true carry, Bool.toNat_true]
        omega
      · rw [Nat.mod_eq_of_lt (by omega), decide_eq_false carry, Bool.toNat_false]
        omega

end Accumulator

end Rp2350Stepper.Num
