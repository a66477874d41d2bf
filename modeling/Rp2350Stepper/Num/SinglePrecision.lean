import Mathlib.Data.Rat.Lemmas
import Mathlib.Algebra.Order.Field.Rat

/-!
# Single-precision arithmetic

`SinglePrecision` lists the operations a C program performs on `float`, so that
one definition of a program can be read over any arithmetic.

`Binary32` is the IEEE 754 interchange format. `Binary32.datum` gives a bit
pattern its value, comparisons are the ordered ones (false whenever an operand
is NaN), and every operation rounds the exact result to nearest, ties to even.
Conversions to integers truncate and saturate, as the Cortex-M FPU's `vcvt`.
-/

namespace Rp2350Stepper.Num

/-- The `float` operations of C. -/
class SinglePrecision (F : Type) where
  ofNat : Nat → F
  add : F → F → F
  sub : F → F → F
  mul : F → F → F
  div : F → F → F
  sqrt : F → F
  lt : F → F → Bool
  le : F → F → Bool
  toInt32 : F → Int
  toUint32 : F → BitVec 32
  ofBits : BitVec 32 → F
  toBits : F → BitVec 32

/-- An IEEE 754 binary32 bit pattern. -/
structure Binary32 where
  bits : BitVec 32
deriving DecidableEq, Repr

/-- The value of a floating-point datum; both zeros are the rational zero. -/
inductive Datum where
  | nan
  | infinite (negative : Bool)
  | finite (value : ℚ)
deriving DecidableEq

namespace Datum

/-- The ordered comparison `<`: false whenever an operand is NaN. -/
def lt : Datum → Datum → Bool
  | nan, _ => false
  | _, nan => false
  | infinite left, infinite right => left && !right
  | infinite left, finite _ => left
  | finite _, infinite right => !right
  | finite left, finite right => decide (left < right)

/-- The ordered comparison `<=`: false whenever an operand is NaN. -/
def le : Datum → Datum → Bool
  | nan, _ => false
  | _, nan => false
  | infinite left, infinite right => left || !right
  | infinite left, finite _ => left
  | finite _, infinite right => !right
  | finite left, finite right => decide (left ≤ right)

/-- A datum within `low` and `high` as far as both comparisons can tell is NaN
or a number between them. -/
theorem number_of_not_lt {datum : Datum} {low high : ℚ} (number : datum ≠ nan)
    (above : datum.lt (finite low) = false) (below : (finite high).lt datum = false) :
    ∃ value, datum = finite value ∧ low ≤ value ∧ value ≤ high := by
  cases datum with
  | nan => exact absurd rfl number
  | infinite negative => cases negative <;> simp [lt] at above below
  | finite value =>
      simp only [lt, decide_eq_false_iff_not, not_lt] at above below
      exact ⟨value, rfl, above, below⟩

/-- As `number_of_not_lt`, with the lower bound excluded. -/
theorem number_of_not_le {datum : Datum} {low high : ℚ} (number : datum ≠ nan)
    (above : datum.le (finite low) = false) (below : (finite high).lt datum = false) :
    ∃ value, datum = finite value ∧ low < value ∧ value ≤ high := by
  cases datum with
  | nan => exact absurd rfl number
  | infinite negative => cases negative <;> simp [lt, le] at above below
  | finite value =>
      simp only [lt, le, decide_eq_false_iff_not, not_lt, not_le] at above below
      exact ⟨value, rfl, above, below⟩

/-- A NaN is below nothing. -/
@[simp] theorem nan_lt (datum : Datum) : nan.lt datum = false := rfl

/-- Nothing is below a NaN. -/
@[simp] theorem lt_nan (datum : Datum) : datum.lt nan = false := by
  cases datum <;> rfl

/-- A NaN is not even below itself. -/
@[simp] theorem nan_le (datum : Datum) : nan.le datum = false := rfl

end Datum

namespace Binary32

/-- The sign bit. -/
def sign (x : Binary32) : Bool := x.bits.msb

/-- The biased exponent. -/
def exponent (x : Binary32) : Nat := (x.bits.extractLsb' 23 8).toNat

/-- The fraction, without its leading bit. -/
def fraction (x : Binary32) : Nat := (x.bits.extractLsb' 0 23).toNat

/-- The magnitude of a finite pattern in units of the smallest subnormal, `2⁻¹⁴⁹`. -/
def magnitude (x : Binary32) : Nat :=
  if x.exponent = 0 then x.fraction else (2 ^ 23 + x.fraction) * 2 ^ (x.exponent - 1)

/-- The signed value of a finite pattern in units of `2⁻¹⁴⁹`. -/
def units (x : Binary32) : Int :=
  if x.sign then -(x.magnitude : Int) else x.magnitude

/-- The number the bits stand for. -/
def datum (x : Binary32) : Datum :=
  if x.exponent = 255 then
    if x.fraction = 0 then .infinite x.sign else .nan
  else .finite (mkRat x.units (2 ^ 149))

/-- The largest exponent with a fraction. -/
def isNaN (x : Binary32) : Bool := x.exponent == 255 && x.fraction != 0

/-- Such bits stand for no number. -/
theorem datum_eq_nan_iff {x : Binary32} : x.datum = .nan ↔ x.isNaN = true := by
  unfold datum isNaN
  by_cases top : x.exponent = 255
  · by_cases zero : x.fraction = 0 <;> simp [top, zero]
  · simp [top]

/-- All others stand for a number or an infinity. -/
theorem datum_ne_nan_iff {x : Binary32} : x.datum ≠ .nan ↔ x.isNaN = false := by
  rw [ne_eq, datum_eq_nan_iff, Bool.not_eq_true]

/-! ### Rounding -/

/-- The quotient rounded to nearest, ties to even. -/
def divideToNearest (dividend divisor : Nat) : Nat :=
  let quotient := dividend / divisor
  let remainder := dividend % divisor
  if divisor < 2 * remainder ∨ (2 * remainder = divisor ∧ quotient % 2 = 1) then
    quotient + 1
  else quotient

/-- Attach a sign to a magnitude pattern; past the largest finite one it is infinity. -/
def pack (negative : Bool) (magnitudeBits : Nat) : Binary32 :=
  let bits := BitVec.ofNat 32 (min magnitudeBits 0x7F800000)
  ⟨if negative then bits ||| 0x80000000#32 else bits⟩

/-- The position of the lowest significand bit of a magnitude, in units of `2⁻¹⁴⁹`. -/
def shiftOf (floor : Nat) : Nat := if floor < 2 ^ 24 then 0 else floor.log2 - 23

/-- Round the exact magnitude `dividend / divisor`, in units of `2⁻¹⁴⁹`. A carry
out of the significand increments the exponent field, which is why the two are
added and not concatenated. -/
def round (negative : Bool) (dividend divisor : Nat) : Binary32 :=
  let shift := shiftOf (dividend / divisor)
  pack negative (shift * 2 ^ 23 + divideToNearest dividend (divisor * 2 ^ shift))

/-- The NaN an invalid operation returns. -/
def quietNaN : Binary32 := ⟨0x7FC00000#32⟩

/-- An infinity of either sign. -/
def infinity (negative : Bool) : Binary32 := pack negative 0x7F800000

/-- The nearest number. -/
def ofNat (n : Nat) : Binary32 := round false (n * 2 ^ 149) 1

/-- The other sign. -/
def neg (x : Binary32) : Binary32 := ⟨x.bits ^^^ 0x80000000#32⟩

/-- An exact zero sum is negative only when both operands are negative zeros. -/
def add (x y : Binary32) : Binary32 :=
  match x.datum, y.datum with
  | .nan, _ | _, .nan => quietNaN
  | .infinite left, .infinite right => if left = right then x else quietNaN
  | .infinite _, .finite _ => x
  | .finite _, .infinite _ => y
  | .finite _, .finite _ =>
      let sum := x.units + y.units
      if sum = 0 then pack (x.sign && y.sign) 0 else round (sum < 0) sum.natAbs 1

/-- The nearest number to a difference. -/
def sub (x y : Binary32) : Binary32 :=
  if y.isNaN then quietNaN else x.add y.neg

/-- The nearest number to a product. -/
def mul (x y : Binary32) : Binary32 :=
  let negative := x.sign != y.sign
  match x.datum, y.datum with
  | .nan, _ | _, .nan => quietNaN
  | .infinite _, .infinite _ => infinity negative
  | .infinite _, .finite value | .finite value, .infinite _ =>
      if value = 0 then quietNaN else infinity negative
  | .finite _, .finite _ => round negative (x.magnitude * y.magnitude) (2 ^ 149)

/-- The nearest number to a quotient. -/
def div (x y : Binary32) : Binary32 :=
  let negative := x.sign != y.sign
  match x.datum, y.datum with
  | .nan, _ | _, .nan => quietNaN
  | .infinite _, .infinite _ => quietNaN
  | .infinite _, .finite _ => infinity negative
  | .finite _, .infinite _ => pack negative 0
  | .finite dividend, .finite divisor =>
      if divisor = 0 then if dividend = 0 then quietNaN else infinity negative
      else round negative (x.magnitude * 2 ^ 149) y.magnitude

/-- The square root rounded to nearest. No binary32 root lies halfway between
two patterns, so the tie rule never applies. -/
def sqrt (x : Binary32) : Binary32 :=
  match x.datum with
  | .nan => quietNaN
  | .infinite negative => if negative then quietNaN else x
  | .finite value =>
      if value = 0 then x
      else if x.sign then quietNaN
      else
        let square := x.magnitude * 2 ^ 149
        let shift := shiftOf (Nat.sqrt square)
        let floor := Nat.sqrt (square / 4 ^ shift)
        let up := (2 * floor + 1) ^ 2 * 4 ^ shift < 4 * square
        pack false (shift * 2 ^ 23 + if up then floor + 1 else floor)

/-- One number is below the other. -/
def lt (x y : Binary32) : Bool := x.datum.lt y.datum

/-- One number is not above the other. -/
def le (x y : Binary32) : Bool := x.datum.le y.datum

/-- Truncate towards zero. -/
def truncate (x : Binary32) : Int := Int.tdiv x.units (2 ^ 149)

/-- Clamp a conversion to the range of the integer type. -/
def saturate (x : Binary32) (low high : Int) : Int :=
  match x.datum with
  | .nan => 0
  | .infinite negative => if negative then low else high
  | .finite _ => max low (min high x.truncate)

instance : SinglePrecision Binary32 where
  ofNat := ofNat
  add := add
  sub := sub
  mul := mul
  div := div
  sqrt := sqrt
  lt := lt
  le := le
  toInt32 x := x.saturate (-2 ^ 31) (2 ^ 31 - 1)
  toUint32 x := BitVec.ofInt 32 (x.saturate 0 (2 ^ 32 - 1))
  ofBits := Binary32.mk
  toBits := Binary32.bits

example : (ofNat 50).datum = .finite 50 := by decide +kernel

example : (div (ofNat 150000000) (mul (ofNat 2) (ofNat 50))).datum = .finite 1500000 := by
  decide +kernel

end Binary32
end Rp2350Stepper.Num
