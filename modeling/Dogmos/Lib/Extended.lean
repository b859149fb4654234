import Dogmos.Lib.Exact

/-!
# Exact arithmetic with infinities

The rational numbers with the values that floating-point arithmetic adds for what has no result:
two infinities, and one value that is no number.  Operations on numbers are exact, with the rules
of IEEE 754 for the rest: a number divided by zero is an infinity, and zero divided by zero is no
number.  There is one zero, which divides as the positive one.
-/

/-- A rational number, an infinity or no number. -/
inductive Extended
  | num (q : ℚ)
  | posInf
  | negInf
  | nan
deriving DecidableEq, Repr

namespace Extended

/-- The infinity with the sign of a number; zero has none. -/
def signed (q : ℚ) : Extended := if 0 < q then posInf else if q < 0 then negInf else nan

def neg : Extended → Extended
  | num q => num (-q)
  | posInf => negInf
  | negInf => posInf
  | nan => nan

def add : Extended → Extended → Extended
  | num a, num b => num (a + b)
  | nan, _ | _, nan | posInf, negInf | negInf, posInf => nan
  | posInf, _ | _, posInf => posInf
  | negInf, _ | _, negInf => negInf

def mul : Extended → Extended → Extended
  | num a, num b => num (a * b)
  | nan, _ | _, nan => nan
  | num a, posInf | posInf, num a => signed a
  | num a, negInf | negInf, num a => signed (-a)
  | posInf, posInf | negInf, negInf => posInf
  | posInf, negInf | negInf, posInf => negInf

def div : Extended → Extended → Extended
  | num a, num b => if b = 0 then signed a else num (a / b)
  | num _, posInf | num _, negInf => num 0
  | posInf, num b => if 0 ≤ b then posInf else negInf
  | negInf, num b => if 0 ≤ b then negInf else posInf
  | _, _ => nan

def lt : Extended → Extended → Bool
  | num a, num b => a < b
  | negInf, num _ | negInf, posInf | num _, posInf => true
  | _, _ => false

/-- IEEE equality: what is no number does not equal itself. -/
def equal : Extended → Extended → Bool
  | nan, nan => false
  | a, b => a = b

def le (a b : Extended) : Bool := lt a b || equal a b

/-- A function of numbers, which leaves the other values as they are. -/
def map (f : ℚ → ℚ) : Extended → Extended
  | num q => num (f q)
  | x => x

/-- The number, or zero. -/
def toRat : Extended → ℚ
  | num q => q
  | _ => 0

/-- The place of a value in the total order of bit patterns. -/
def rank : Extended → ℤ
  | negInf => -1
  | num _ => 0
  | posInf => 1
  | nan => 2

instance : FloatFormat Extended where
  add := add
  sub a b := add a (neg b)
  mul := mul
  div := div
  neg := neg
  beq := equal
  lt a b := lt a b = true
  le a b := le a b = true
  ofScientific m s e := num (OfScientific.ofScientific m s e)
  decLt a b := inferInstanceAs (Decidable (lt a b = true))
  decLe a b := inferInstanceAs (Decidable (le a b = true))
  ofNat n := num n
  fmin a b := if a = nan then b else if b = nan then a else if lt b a then b else a
  fmax a b := if a = nan then b else if b = nan then a else if lt a b then b else a
  fabs
    | num q => num |q|
    | negInf => posInf
    | x => x
  mulAdd a b c := add (mul a b) c
  round := map fun q => Exact.roundHalfAway q
  ceil := map fun q => ⌈q⌉
  isFinite
    | num _ => true
    | _ => false
  isNormal
    | num q => decide (q ≠ 0)
    | _ => false
  maxValue := num Exact.largest
  infinity := posInf
  toU32
    | num q => UInt32.ofNatClamp ⌊q⌋.toNat
    | posInf => 4294967295
    | _ => 0
  toBits
    | num q => FloatFormat.toBits q + 3
    | posInf => 0
    | negInf => 1
    | nan => 2
  totalCmp a b := (compare a.rank b.rank).then (compare a.toRat b.toRat)

instance : FloatCast Extended Extended where
  widen x := x
  narrow x := x

variable (a b c : ℚ)

@[simp] theorem num_inj : num a = num b ↔ a = b := ⟨fun h => by injection h, fun h => h ▸ rfl⟩

@[simp] theorem num_add : num a + num b = num (a + b) := rfl

@[simp] theorem num_mul : num a * num b = num (a * b) := rfl

theorem num_div (h : b ≠ 0) : num a / num b = num (a / b) := if_neg h

theorem num_div_zero : num a / num 0 = signed a := by
  change (if (0 : ℚ) = 0 then signed a else num (a / 0)) = signed a
  rw [if_pos rfl]

@[simp] theorem num_mulAdd : mulAdd (num a) (num b) (num c) = num (a * b + c) := rfl

@[simp] theorem num_lt : num a < num b ↔ a < b := decide_eq_true_iff

@[simp] theorem num_beq : (num a == num b) = decide (a = b) := by
  change decide (num a = num b) = _
  simp

@[simp] theorem num_fmax : fmax (num a) (num b) = num (max a b) := by
  change (if num a = nan then num b else if num b = nan then num a
    else if lt (num a) (num b) then num b else num a) = _
  rw [if_neg (by simp), if_neg (by simp)]
  by_cases h : a < b
  · rw [if_pos (by simpa [lt] using h), max_eq_right h.le]
  · rw [if_neg (by simpa [lt] using h), max_eq_left (not_lt.1 h)]

theorem fmax_posInf : fmax posInf (num a) = posInf := rfl

theorem fmax_negInf : fmax negInf (num a) = num a := rfl

theorem fmax_nan : fmax nan (num a) = num a := rfl

@[simp] theorem num_isFinite : FloatFormat.isFinite (num a) = true := rfl

theorem posInf_isFinite : FloatFormat.isFinite posInf = false := rfl

theorem num_ofScientific (m : ℕ) (s : Bool) (e : ℕ) :
    (OfScientific.ofScientific m s e : Extended) = num (OfScientific.ofScientific m s e) := rfl

end Extended
