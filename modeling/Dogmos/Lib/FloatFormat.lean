import Mathlib.Algebra.Group.Int.Defs
import Mathlib.Algebra.GroupWithZero.Nat
import Mathlib.Tactic.Common

/-!
# Floating-point formats

`FloatFormat F` lists what a program does with the numbers of one floating-point
format: the arithmetic operators and decimal literals, IEEE comparison and
equality, and the named operations of the standard library.  `FloatCast F D`
adds the conversions between a narrow format `F` and a wide one `D`.  A program
written over these classes can be read in exact arithmetic or in machine
arithmetic; what does not depend on rounding is proved once for both.

The machine instances are binary32 and binary64, over the logical model of the
built-in floating-point types.  The operations that model leaves out are defined
here on unpacked numbers: `Ieee.fma` (one rounding of an exact product and sum),
`Ieee.roundHalfAway`, `Ieee.ceil` and `Ieee.convert`.
-/

/-- The operations on one floating-point format. -/
class FloatFormat (F : Type) extends Add F, Sub F, Mul F, Div F, Neg F, BEq F, LT F, LE F,
    OfScientific F where
  decLt : DecidableLT F
  decLe : DecidableLE F
  /-- The conversion from an unsigned integer. -/
  ofNat : Nat → F
  /-- The smaller number, or the one that is a number. -/
  fmin : F → F → F
  /-- The larger number, or the one that is a number. -/
  fmax : F → F → F
  fabs : F → F
  /-- `mulAdd a b c` is `a * b + c`, rounded once. -/
  mulAdd : F → F → F → F
  /-- The nearest integer, halves away from zero. -/
  round : F → F
  ceil : F → F
  isFinite : F → Bool
  isNormal : F → Bool
  /-- The largest finite number. -/
  maxValue : F
  /-- Positive infinity. -/
  infinity : F
  /-- Truncation to 32 bits; what does not fit saturates. -/
  toU32 : F → UInt32
  /-- The bit pattern. -/
  toBits : F → Nat
  /-- The order of bit patterns that extends the numeric order to zeros of either sign and to
  what is not a number. -/
  totalCmp : F → F → Ordering

/-- The conversions between a narrow format and a wide one. -/
class FloatCast (F : Type) (D : outParam Type) where
  widen : F → D
  narrow : D → F

export FloatFormat (fmin fmax fabs mulAdd)
export FloatCast (widen narrow)

attribute [reducible, instance] FloatFormat.decLt FloatFormat.decLe

namespace FloatFormat

variable {F : Type} [FloatFormat F]

/-- Restricts a number to the range `lo .. hi`; what is not a number stays as it is. -/
def clamp (x lo hi : F) : F :=
  let x := if x < lo then lo else x
  if hi < x then hi else x

/-- The fourth power. -/
def pow4 (x : F) : F := (x * x) * (x * x)

/-- The sum of a list in order. -/
def sum (xs : List F) : F := xs.foldl (· + ·) (-0.0)

end FloatFormat

/-! ## Machine arithmetic -/

namespace Ieee

open Float.Model

/-- `a * b + c` with a single rounding. -/
def fma (spec : Format) (a b c : UnpackedFloat) : UnpackedFloat :=
  match a, b, c with
  | .finite s₁ m₁ e₁ h₁, .finite s₂ m₂ e₂ h₂, c =>
    match c with
    | .notANumber => .notANumber
    | .infinity s => .infinity s
    | .zero _ => UnpackedFloat.mul spec (.finite s₁ m₁ e₁ h₁) (.finite s₂ m₂ e₂ h₂)
    | .finite s₃ m₃ e₃ _ =>
      -- the product is exact here, so the addition rounds once
      let e := min (e₁ + e₂) e₃
      let p := (UnpackedFloat.decreaseExponent (m₁ * m₂) (e₁ + e₂) e).1
      let q := (UnpackedFloat.decreaseExponent m₃ e₃ e).1
      UnpackedFloat.normalize spec ((s₁ * s₂).apply p + s₃.apply q) e .positive
  -- a product with a zero or an infinity is exact already
  | a, b, c => UnpackedFloat.add spec (UnpackedFloat.mul spec a b) c

/-- Rounds a finite number to an integer with `pick`, which sees the sign, the integer part
and the quotient's fraction as a remainder and a power of two. -/
def roundWith (spec : Format) (pick : UnpackedFloat.Sign → Nat → Nat → Nat → Nat) :
    UnpackedFloat → UnpackedFloat
  | .finite s m e h =>
    if 0 ≤ e then .finite s m e h
    else
      let unit := 2 ^ (-e).toNat
      UnpackedFloat.normalize spec (s.apply (pick s (m / unit) (m % unit) unit)) 0 s
  | x => x

/-- The nearest integer, halves away from zero. -/
def roundHalfAway (spec : Format) : UnpackedFloat → UnpackedFloat :=
  roundWith spec fun _ n r unit => if unit ≤ 2 * r then n + 1 else n

/-- The next integer towards positive infinity. -/
def ceil (spec : Format) : UnpackedFloat → UnpackedFloat :=
  roundWith spec fun s n r _ =>
    match s with
    | .positive => if r = 0 then n else n + 1
    | .negative => n

/-- Rounds a number of another format into this one. -/
def convert (spec : Format) : UnpackedFloat → UnpackedFloat
  | .finite s m e _ => UnpackedFloat.round spec s m e
  | x => x

/-- The integer a bit pattern of `bits` bits compares by in the total order. -/
def totalKey (bits n : Nat) : Int :=
  if n < 2 ^ (bits - 1) then n else 2 ^ (bits - 1) - 1 - (n : Int)

/-- Whether a number is finite, not zero and uses all the bits of its format's mantissa. -/
def isNormal (spec : Format) : UnpackedFloat → Bool
  | .finite _ m _ _ => m.log2 + 1 = spec.mantissaBits
  | _ => false

end Ieee

/-- binary32, the format of `f32`. -/
abbrev F32 := Float32.Model

/-- binary64, the format of `f64`. -/
abbrev F64 := Float.Model

instance : FloatFormat F32 where
  ofScientific m s e := Float32.Model.ofScientific m (if s then -(e : Int) else e)
  decLt := inferInstance
  decLe := inferInstance
  ofNat := Float32.Model.ofNat
  fmin a b := if a.isNaN then b else if b < a then b else a
  fmax a b := if a.isNaN then b else if a < b then b else a
  fabs := Float32.Model.abs
  mulAdd a b c := .pack (Ieee.fma .binary32 a.unpack b.unpack c.unpack)
  round a := .pack (Ieee.roundHalfAway .binary32 a.unpack)
  ceil a := .pack (Ieee.ceil .binary32 a.unpack)
  isFinite := Float32.Model.isFinite
  isNormal a := Ieee.isNormal .binary32 a.unpack
  maxValue := Float32.Model.ofBits 0x7F7FFFFF
  infinity := Float32.Model.ofBits 0x7F800000
  toU32 := Float32.Model.toUInt32
  toBits a := a.toBits.toNat
  totalCmp a b := compare (Ieee.totalKey 32 a.toBits.toNat) (Ieee.totalKey 32 b.toBits.toNat)

instance : FloatFormat F64 where
  ofScientific m s e := Float.Model.ofScientific m (if s then -(e : Int) else e)
  decLt := inferInstance
  decLe := inferInstance
  ofNat := Float.Model.ofNat
  fmin a b := if a.isNaN then b else if b < a then b else a
  fmax a b := if a.isNaN then b else if a < b then b else a
  fabs := Float.Model.abs
  mulAdd a b c := .pack (Ieee.fma .binary64 a.unpack b.unpack c.unpack)
  round a := .pack (Ieee.roundHalfAway .binary64 a.unpack)
  ceil a := .pack (Ieee.ceil .binary64 a.unpack)
  isFinite := Float.Model.isFinite
  isNormal a := Ieee.isNormal .binary64 a.unpack
  maxValue := Float.Model.ofBits 0x7FEFFFFFFFFFFFFF
  infinity := Float.Model.ofBits 0x7FF0000000000000
  toU32 := Float.Model.toUInt32
  toBits a := a.toBits.toNat
  totalCmp a b := compare (Ieee.totalKey 64 a.toBits.toNat) (Ieee.totalKey 64 b.toBits.toNat)

instance : FloatCast F32 F64 where
  widen a := .pack (Ieee.convert .binary64 a.unpack)
  narrow a := .pack (Ieee.convert .binary32 a.unpack)
