import Mathlib.Algebra.Order.Field.Basic
import Mathlib.Order.Interval.Set.UnorderedInterval
import Mathlib.Tactic.FieldSimp
import Mathlib.Tactic.Linarith
import Mathlib.Tactic.Positivity
import Mathlib.Tactic.Ring

/-!
# Mixing two values

What becomes of two values when they are mixed with non-negative weights, over any ordered field.
`Set.uIcc x y` holds the values between `x` and `y`, whichever is the larger.

* `mean_mem` — the mean lies between the two values.
* `scaled_mem_iff` — divided by less than the sum of the weights, the result exceeds the mean; it
  stays between the two values exactly when the weight that is missing, at the larger value, is
  made up for by the weight of the smaller one.
* `blend_mem` — what moves from one value towards the other stays between the two.
* `Exchange` — two values that move towards each other, each by its share of the difference, keep
  their weighted sum and their order (`exchange_of_share`).
-/

namespace Mixing

variable {K : Type} [Field K] [LinearOrder K] [IsStrictOrderedRing K] {a b c u v x y z : K}

/-- The weighted mean of two values. -/
theorem mean_mem (ha : 0 ≤ a) (hb : 0 ≤ b) (hab : 0 < a + b) :
    (a * x + b * y) / (a + b) ∈ Set.uIcc x y := by
  rw [Set.mem_uIcc]
  rcases le_total x y with hxy | hxy
  · left
    constructor
    · rw [le_div_iff₀ hab]
      have hgain := mul_le_mul_of_nonneg_left hxy hb
      linarith
    · rw [div_le_iff₀ hab]
      have hgain := mul_le_mul_of_nonneg_left hxy ha
      linarith
  · right
    constructor
    · rw [le_div_iff₀ hab]
      have hgain := mul_le_mul_of_nonneg_left hxy ha
      linarith
    · rw [div_le_iff₀ hab]
      have hgain := mul_le_mul_of_nonneg_left hxy hb
      linarith

/-- The mean of two values between `x` and `y`. -/
theorem mean_mem_of_mem (ha : 0 ≤ a) (hb : 0 ≤ b) (hab : 0 < a + b) (hu : u ∈ Set.uIcc x y)
    (hv : v ∈ Set.uIcc x y) : (a * u + b * v) / (a + b) ∈ Set.uIcc x y :=
  Set.uIcc_subset_uIcc hu hv (mean_mem ha hb hab)

/-- The weight of the smaller of two values. -/
def lesserWeight (a b x y : K) : K := if x ≤ y then a else b

/-- A weighted sum divided by less than the sum of the weights. -/
theorem scaled_mem_iff (ha : 0 ≤ a) (hb : 0 ≤ b) (hc : 0 < c) (hle : c ≤ a + b) (hx : 0 ≤ x)
    (hy : 0 ≤ y) : (a * x + b * y) / c ∈ Set.uIcc x y ↔
      (a + b - c) * max x y ≤ lesserWeight a b x y * |x - y| := by
  unfold lesserWeight
  rcases le_total x y with hxy | hxy
  · rw [Set.uIcc_of_le hxy, Set.mem_Icc, le_div_iff₀ hc, div_le_iff₀ hc, max_eq_right hxy,
      if_pos hxy, abs_sub_comm, abs_of_nonneg (sub_nonneg.2 hxy)]
    have hgain := mul_le_mul_of_nonneg_left hxy hb
    have hexcess := mul_nonneg (sub_nonneg.2 hle) hx
    constructor
    · intro h
      linarith [h.2]
    · intro h
      constructor <;> linarith
  · rw [Set.uIcc_of_ge hxy, Set.mem_Icc, le_div_iff₀ hc, div_le_iff₀ hc, max_eq_left hxy,
      abs_of_nonneg (sub_nonneg.2 hxy)]
    have hgain := mul_le_mul_of_nonneg_left hxy ha
    have hexcess := mul_nonneg (sub_nonneg.2 hle) hy
    rcases hxy.eq_or_lt with heq | hlt
    · subst heq
      rw [if_pos le_rfl, sub_self, mul_zero]
      constructor
      · intro h
        linarith [h.2]
      · intro h
        constructor <;> linarith
    · rw [if_neg (not_le.2 hlt)]
      constructor
      · intro h
        linarith [h.2]
      · intro h
        constructor <;> linarith

/-! ## Moving towards each other -/

/-- What moves a part of the way from one value to the other. -/
theorem blend_mem {t : K} (h : 0 ≤ t) (h' : t ≤ 1) : x + t * (y - x) ∈ Set.uIcc x y := by
  have hmean := mean_mem (x := x) (y := y) (sub_nonneg.2 h') h (by linarith)
  have heq : ((1 - t) * x + t * y) / (1 - t + t) = x + t * (y - x) := by
    rw [sub_add_cancel, div_one]
    ring
  rwa [heq] at hmean

/-- Two values that move towards each other: their weighted sum stays, and neither passes the
other. -/
structure Exchange (a b x y x' y' : K) : Prop where
  sum : a * x' + b * y' = a * x + b * y
  first : x' ∈ Set.uIcc x y
  second : y' ∈ Set.uIcc x y
  le : x ≤ y → x' ≤ y'
  ge : y ≤ x → y' ≤ x'

/-- Each value moves by its share of a part `k` of the difference. -/
theorem exchange_of_share {k : K} (ha : 0 < a) (hb : 0 < b) (hk : 0 ≤ k) (hk' : k ≤ 1) :
    Exchange a b x y (x + k * (b / (a + b)) * (y - x)) (y + k * (a / (a + b)) * (x - y)) := by
  have hab : 0 < a + b := add_pos ha hb
  have hfirst : 0 ≤ b / (a + b) := by positivity
  have hsecond : 0 ≤ a / (a + b) := by positivity
  have hfirst' : b / (a + b) ≤ 1 := by
    rw [div_le_one hab]
    linarith
  have hsecond' : a / (a + b) ≤ 1 := by
    rw [div_le_one hab]
    linarith
  have hgap : y + k * (a / (a + b)) * (x - y) - (x + k * (b / (a + b)) * (y - x)) =
      (1 - k) * (y - x) := by
    field_simp
    ring
  refine ⟨?_, ?_, ?_, fun h => ?_, fun h => ?_⟩
  · field_simp
    ring
  · exact blend_mem (mul_nonneg hk hfirst) (mul_le_one₀ hk' hfirst hfirst')
  · rw [Set.uIcc_comm]
    exact blend_mem (mul_nonneg hk hsecond) (mul_le_one₀ hk' hsecond hsecond')
  · have hle := mul_nonneg (sub_nonneg.2 hk') (sub_nonneg.2 h)
    linarith
  · have hle := mul_nonneg (sub_nonneg.2 hk') (sub_nonneg.2 h)
    linarith

end Mixing
