import Mathlib.Algebra.BigOperators.Ring.Finset
import Mathlib.Algebra.Order.BigOperators.Group.Finset
import Mathlib.Algebra.Order.Field.Basic
import Mathlib.Order.Interval.Set.Defs
import Mathlib.Tactic.Linarith
import Mathlib.Tactic.Ring

/-!
# Spreading over neighbours

Every place gives each of its neighbours the same share of its value and keeps the rest.

* `sum_spread` — where being a neighbour is symmetric, the values keep their sum.
* `spread_mem` — where a place gives away at most all it has, its new value stays between bounds of
  its own value and those of its neighbours.
-/

open Finset

namespace Spread

variable {ι K : Type} [Field K]

/-- What a place has after all places spread at once. -/
def spread (neighbors : ι → Finset ι) (share : K) (x : ι → K) (i : ι) : K :=
  x i * (1 - #(neighbors i) * share) + ∑ j ∈ neighbors i, x j * share

variable {neighbors : ι → Finset ι} {share : K} {x : ι → K} {i : ι}

/-- The sum over places that no neighbour leaves is kept. -/
theorem sum_spread (share : K) (x : ι → K) {s : Finset ι}
    (hsymm : ∀ i j, i ∈ s ∧ j ∈ neighbors i ↔ i ∈ neighbors j ∧ j ∈ s) :
    ∑ i ∈ s, spread neighbors share x i = ∑ i ∈ s, x i := by
  have hswap : ∑ i ∈ s, ∑ j ∈ neighbors i, x j * share =
      ∑ j ∈ s, ∑ _i ∈ neighbors j, x j * share :=
    sum_comm' hsymm
  unfold spread
  rw [sum_add_distrib, hswap, ← sum_add_distrib]
  refine sum_congr rfl fun i _ => ?_
  rw [sum_const, nsmul_eq_mul]
  ring

theorem spread_mem [LinearOrder K] [IsStrictOrderedRing K] {lo hi : K} (hshare : 0 ≤ share)
    (hkeeps : #(neighbors i) * share ≤ 1) (hown : x i ∈ Set.Icc lo hi)
    (hothers : ∀ j ∈ neighbors i, x j ∈ Set.Icc lo hi) :
    spread neighbors share x i ∈ Set.Icc lo hi := by
  have hlower : #(neighbors i) * (lo * share) ≤ ∑ j ∈ neighbors i, x j * share := by
    rw [← nsmul_eq_mul]
    exact card_nsmul_le_sum _ _ _ fun j hj =>
      mul_le_mul_of_nonneg_right (hothers j hj).1 hshare
  have hupper : ∑ j ∈ neighbors i, x j * share ≤ #(neighbors i) * (hi * share) := by
    rw [← nsmul_eq_mul]
    exact sum_le_card_nsmul _ _ _ fun j hj =>
      mul_le_mul_of_nonneg_right (hothers j hj).2 hshare
  have hkept := sub_nonneg.2 hkeeps
  have hownLower := mul_le_mul_of_nonneg_right hown.1 hkept
  have hownUpper := mul_le_mul_of_nonneg_right hown.2 hkept
  unfold spread
  constructor
  · linarith
  · linarith

end Spread
