import Rp2350Stepper.Num.SinglePrecision
import Mathlib.Analysis.Real.Sqrt
import Mathlib.Algebra.Order.Floor.Ring

/-!
# Exact arithmetic

The operations of C on `float`, idealised: no operation rounds, and a conversion to an
integer is the floor. A bit pattern which is no number reads as 0.
-/

namespace Rp2350Stepper.Num

/-- The value of a bit pattern. -/
noncomputable def valueOfBits (bits : BitVec 32) : ℝ :=
  match (Binary32.mk bits).datum with
  | .finite value => value
  | .infinite _ | .nan => 0

open Classical in
noncomputable instance : SinglePrecision ℝ where
  ofNat n := n
  add x y := x + y
  sub x y := x - y
  mul x y := x * y
  div x y := x / y
  sqrt := Real.sqrt
  lt x y := decide (x < y)
  le x y := decide (x ≤ y)
  toInt32 x := ⌊x⌋
  toUint32 x := BitVec.ofInt 32 ⌊x⌋
  ofBits := valueOfBits
  toBits x := if known : ∃ bits, valueOfBits bits = x then known.choose else 0

/-- A number is itself. -/
@[simp] theorem SinglePrecision.ofNat_exact (n : ℕ) : (SinglePrecision.ofNat n : ℝ) = n := rfl

end Rp2350Stepper.Num
