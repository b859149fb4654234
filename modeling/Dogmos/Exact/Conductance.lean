import Dogmos.Exact.HeatExchange
import Dogmos.Lib.Relaxation

/-!
# The weights of conduction

`heat_row_weight` gives each end of an edge its part of the conducted energy: the least of the two
conductivities times the harmonic capacity, over the capacity of the end; an end of infinite
capacity takes none (`rowWeight`).  Between ends of finite capacity the energy that leaves one end
is the energy that reaches the other (`rowWeight_balanced`).
-/

namespace Dogmos

open Relaxation

/-! ## Weights -/

/-- The weight of an end of an edge. -/
def rowWeight (firstConductivity secondConductivity firstCapacity secondCapacity : ℚ) : ℚ :=
  if 10 ^ 30 ≤ firstCapacity then 0
  else min firstConductivity secondConductivity * harmonicCapacity firstCapacity secondCapacity /
    firstCapacity

section Weights

variable {k l a b weight : ℚ}

theorem heatRowWeight_eq_ok :
    heatRowWeight k l a b = .ok weight ↔
      0 ≤ k ∧ 0 ≤ l ∧ 0 < a ∧ 0 < b ∧ weight = rowWeight k l a b := by
  unfold heatRowWeight rowWeight
  simp only [Exact.isFinite_eq, Bool.not_true, Bool.false_or, decide_eq_true_eq, exact_zero,
    exact_byondInfinityThreshold, Exact.fmin_eq]
  by_cases hk : k < 0
  · rw [if_pos hk]
    exact iff_of_false (by simp [throw, throwThe, MonadExceptOf.throw]) fun h => absurd hk (not_lt.2 h.1)
  by_cases hl : l < 0
  · rw [if_neg hk, if_pos hl]
    exact iff_of_false (by simp [throw, throwThe, MonadExceptOf.throw])
      fun h => absurd hl (not_lt.2 h.2.1)
  by_cases ha : a ≤ 0
  · rw [if_neg hk, if_neg hl, if_pos ha]
    exact iff_of_false (by simp [throw, throwThe, MonadExceptOf.throw])
      fun h => absurd ha (not_le.2 h.2.2.1)
  by_cases hb : b ≤ 0
  · rw [if_neg hk, if_neg hl, if_neg ha, if_pos hb]
    exact iff_of_false (by simp [throw, throwThe, MonadExceptOf.throw])
      fun h => absurd hb (not_le.2 h.2.2.2.1)
  rw [if_neg hk, if_neg hl, if_neg ha, if_neg hb]
  have hsigns : 0 ≤ k ∧ 0 ≤ l ∧ 0 < a ∧ 0 < b :=
    ⟨not_lt.1 hk, not_lt.1 hl, not_le.1 ha, not_le.1 hb⟩
  have hpure : ∀ value : ℚ, (pure value : Except String ℚ) = .ok weight ↔ weight = value :=
    fun value => ⟨fun h => (Except.ok.inj h).symm, fun h => h ▸ rfl⟩
  by_cases hinfinite : 10 ^ 30 ≤ a
  · rw [if_pos hinfinite, if_pos hinfinite, hpure]
    tauto
  · rw [if_neg hinfinite, if_neg hinfinite, hpure]
    tauto

theorem harmonicCapacity_nonneg (ha : 0 < a) (hb : 0 < b) : 0 ≤ harmonicCapacity a b := by
  unfold harmonicCapacity
  split
  · exact exact_zero.ge
  · split
    · exact hb.le
    · split
      · exact ha.le
      · exact harmonicHeatCapacity_nonneg ha hb

theorem rowWeight_nonneg (hk : 0 ≤ k) (hl : 0 ≤ l) (ha : 0 < a) (hb : 0 < b) :
    0 ≤ rowWeight k l a b := by
  unfold rowWeight
  split
  · exact le_rfl
  · exact div_nonneg (mul_nonneg (le_min hk hl) (harmonicCapacity_nonneg ha hb)) ha.le

/-- An end of infinite capacity takes no part. -/
theorem rowWeight_of_infinite (ha : 10 ^ 30 ≤ a) : rowWeight k l a b = 0 := if_pos ha

theorem harmonicCapacity_comm (ha : 0 < a) (hb : 0 < b) (ha' : a < 10 ^ 30) (hb' : b < 10 ^ 30) :
    harmonicCapacity a b = harmonicCapacity b a := by
  unfold harmonicCapacity
  rw [exact_byondInfinityThreshold, if_neg fun h => absurd ha' (not_lt.2 h.1),
    if_neg (not_le.2 ha'), if_neg (not_le.2 hb'), if_neg fun h => absurd ha' (not_lt.2 h.2),
    if_neg (not_le.2 hb'), if_neg (not_le.2 ha'), harmonicHeatCapacity_eq ha hb,
    harmonicHeatCapacity_eq hb ha, mul_comm b a, add_comm b a]

/-- Between finite capacities, what leaves one end reaches the other. -/
theorem rowWeight_balanced (ha : 0 < a) (hb : 0 < b) (ha' : a < 10 ^ 30) (hb' : b < 10 ^ 30) :
    a * rowWeight k l a b = b * rowWeight l k b a := by
  unfold rowWeight
  rw [if_neg (not_le.2 ha'), if_neg (not_le.2 hb'), harmonicCapacity_comm ha hb ha' hb',
    min_comm l k]
  field_simp

end Weights

/-! ## Lists of values -/

/-- The value at an index; nothing counts as zero. -/
def valueAt (values : List ℚ) (index : Nat) : ℚ := values[index]?.getD 0

theorem valueAt_eq (values : List ℚ) (index : Nat) :
    (values[index]?).getD 0.0 = valueAt values index := by
  rw [valueAt, exact_zero]

theorem valueAt_set {values : List ℚ} {index : Nat} (h : index < values.length) (value : ℚ) :
    valueAt (values.set index value) = Function.update (valueAt values) index value := by
  funext other
  unfold valueAt
  by_cases heq : other = index
  · rw [heq, Function.update_self, List.getElem?_set_self h, Option.getD_some]
  · rw [Function.update_of_ne heq, List.getElem?_set_ne (Ne.symm heq)]

theorem valueAt_of_getElem? {values : List ℚ} {index : Nat} {value : ℚ}
    (h : values[index]? = some value) : valueAt values index = value := by
  rw [valueAt, h, Option.getD_some]

/-- The values after an amount is added at one index and then an amount at another. -/
theorem valueAt_added {values : List ℚ} {first second : Nat} (hfirst : first < values.length)
    (hsecond : second < values.length) (a b : ℚ) :
    let added := values.set first (valueAt values first + a)
    ∀ i, valueAt (added.set second (valueAt added second + b)) i =
      valueAt values i + (if i = first then a else 0) + if i = second then b else 0 := by
  intro added i
  have hlength : second < added.length := by
    rwa [List.length_set]
  have hadded : ∀ i, valueAt added i = valueAt values i + if i = first then a else 0 := by
    intro i
    rw [valueAt_set hfirst]
    by_cases hi : i = first
    · rw [hi, Function.update_self, if_pos rfl]
    · rw [Function.update_of_ne hi, if_neg hi, add_zero]
  rw [valueAt_set hlength]
  by_cases hi : i = second
  · rw [hi, Function.update_self, if_pos rfl, hadded]
  · rw [Function.update_of_ne hi, if_neg hi, add_zero, hadded]

/-! ## Substeps -/

theorem toNat_max (a b : UInt32) : (max a b).toNat = max a.toNat b.toNat := by
  show (if a ≤ b then b else a).toNat = _
  split
  · next h => exact (Nat.max_eq_right (UInt32.le_iff_toNat_le.1 h)).symm
  · next h =>
    have hle : b.toNat ≤ a.toNat := by
      have hnot := mt UInt32.le_iff_toNat_le.2 h
      omega
    exact (Nat.max_eq_left hle).symm

/-- The number of substeps is at least one and at least the scaled sum. -/
theorem toU32_ceil {scaled : ℚ} (h : scaled ≤ 1000000) :
    1 ≤ (max (FloatFormat.toU32 (FloatFormat.ceil scaled : ℚ)) 1).toNat ∧
      scaled ≤ ((max (FloatFormat.toU32 (FloatFormat.ceil scaled)) 1).toNat : ℚ) := by
  have hceil : ⌈scaled⌉ ≤ 1000000 := Int.ceil_le.2 (by exact_mod_cast h)
  have hvalue : (FloatFormat.toU32 (FloatFormat.ceil scaled : ℚ)).toNat = ⌈scaled⌉.toNat := by
    show (UInt32.ofNatClamp ⌊((⌈scaled⌉ : ℤ) : ℚ)⌋.toNat).toNat = _
    rw [Int.floor_intCast]
    refine UInt32.toNat_ofNatClamp_of_lt ?_
    show _ < 2 ^ 32
    omega
  rw [toNat_max, hvalue]
  refine ⟨le_max_right .., ?_⟩
  calc scaled ≤ (⌈scaled⌉ : ℚ) := Int.le_ceil scaled
    _ ≤ ((⌈scaled⌉.toNat : ℤ) : ℚ) := by exact_mod_cast Int.self_le_toNat _
    _ ≤ _ := by exact_mod_cast le_max_left ..

end Dogmos
