import Dogmos.Lib.FloatFormat
import Mathlib.Algebra.Order.Field.Rat
import Mathlib.Data.Nat.Pairing
import Mathlib.Data.Rat.Floor
import Mathlib.Tactic.NormNum

/-!
# Exact arithmetic

The rational numbers as a number format: nothing is rounded, and every number is finite.  The
largest number is the one of binary32, so that what saturates there saturates here.

Rounding to an integer is the only step of the code that is not exact by itself; it rounds
halves away from zero (`Exact.roundHalfAway`).  Division by zero has no exact result, and the
code guards its divisions where it is used over this format; `Exact.dividing` leaves open what a
quotient by zero is.
-/

namespace Exact

/-- The nearest integer, halves away from zero. -/
def roundHalfAway (x : ℚ) : ℤ := if 0 ≤ x then ⌊x + 1 / 2⌋ else -⌊-x + 1 / 2⌋

/-- The largest finite number of binary32. -/
def largest : ℚ := (2 ^ 24 - 1) * 2 ^ 104

instance : FloatFormat ℚ where
  decLt := inferInstance
  decLe := inferInstance
  ofNat n := n
  fmin := min
  fmax := max
  fabs x := |x|
  mulAdd a b c := a * b + c
  round x := roundHalfAway x
  ceil x := ⌈x⌉
  isFinite _ := true
  isNormal x := decide (x ≠ 0)
  maxValue := largest
  infinity := largest
  toU32 x := UInt32.ofNatClamp ⌊x⌋.toNat
  toBits x := Nat.pair (if 0 ≤ x.num then 2 * x.num.natAbs else 2 * x.num.natAbs + 1) x.den
  totalCmp := compare

instance : FloatCast ℚ ℚ where
  widen x := x
  narrow x := x

@[simp] theorem fmin_eq (a b : ℚ) : fmin a b = min a b := rfl

@[simp] theorem fmax_eq (a b : ℚ) : fmax a b = max a b := rfl

@[simp] theorem fabs_eq (a : ℚ) : fabs a = |a| := rfl

@[simp] theorem mulAdd_eq (a b c : ℚ) : mulAdd a b c = a * b + c := rfl

@[simp] theorem widen_eq (a : ℚ) : (widen a : ℚ) = a := rfl

@[simp] theorem narrow_eq (a : ℚ) : (narrow a : ℚ) = a := rfl

@[simp] theorem ofNat_eq (n : ℕ) : (FloatFormat.ofNat n : ℚ) = n := rfl

@[simp] theorem isFinite_eq (a : ℚ) : FloatFormat.isFinite a = true := rfl

/-! ## Quotients by zero -/

/-- A quotient that is what a function says where the divisor is zero. -/
@[irreducible] def quotient (zero : ℚ → ℚ) (a b : ℚ) : ℚ := if b = 0 then zero a else a / b

theorem quotient_of_ne {zero : ℚ → ℚ} {a b : ℚ} (h : b ≠ 0) : quotient zero a b = a / b := by
  rw [quotient, if_neg h]

/-- Exact arithmetic whose quotients by zero are what a function says.  A program that computes the
same for every such function divides by zero nowhere. -/
abbrev dividing (zero : ℚ → ℚ) : FloatFormat ℚ :=
  { (inferInstance : FloatFormat ℚ) with div := quotient zero }

end Exact
