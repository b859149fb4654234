import Dogmos.Lib.Exact
import Dogmos.Lib.Mixing
import Dogmos.Runs.Writes
import Mathlib.Algebra.BigOperators.Group.Finset.Basic
import Mathlib.Algebra.Order.BigOperators.Group.Finset
import Mathlib.Tactic.Positivity

/-!
# Gas amounts in exact arithmetic

The amounts of a mixture, gas by gas, and what the record functions do with each of them when
nothing is rounded but moved amounts.

* `foldHeatCapacity_eq` — the heat capacity is the sum over the gases.
* `dropTrace_eq`, `saturatingAdd_eq` — the arithmetic of one amount.
* `MixtureRecord.Physical` — no amount, heat capacity or temperature is negative.
-/

namespace Dogmos

open Finset

/-! ## Arrays -/

section Arrays

variable {F : Type} [FloatFormat F] {index : Nat}

theorem Gases.ext_at {left right : Gases F}
    (h : ∀ index, index < maxGasSlots → left.at index = right.at index) : left = right := by
  refine Vector.ext fun index hindex => ?_
  rw [← Gases.at_eq_getElem _ hindex, ← Gases.at_eq_getElem _ hindex]
  exact h index hindex

theorem Gases.getElem?_toList (gases : Gases F) (h : index < maxGasSlots) :
    gases.toList[index]? = some (gases.at index) := by
  rw [at_eq_getElem _ h, List.getElem?_eq_getElem (by simpa using h)]
  simp

end Arrays

/-! ## Numbers -/

@[simp] theorem exact_zero : (0.0 : ℚ) = 0 := by norm_num

@[simp] theorem exact_one : (1.0 : ℚ) = 1 := by norm_num

@[simp] theorem exact_minimumCalculatedMoles : (minimumCalculatedMoles : ℚ) = 1 / 100 := by
  norm_num [minimumCalculatedMoles]

@[simp] theorem exact_molarAccuracy : (molarAccuracy : ℚ) = 1 / 10000 := by
  norm_num [molarAccuracy]

@[simp] theorem exact_minimumHeatCapacity : (minimumHeatCapacity : ℚ) = 3 / 10000 := by
  norm_num [minimumHeatCapacity]

@[simp] theorem exact_minimumTemperatureK : (minimumTemperatureK : ℚ) = 27 / 10 := by
  norm_num [minimumTemperatureK]

/-! ## One amount -/

theorem dropTrace_eq (amount : ℚ) : dropTrace amount = if amount < 1 / 100 then 0 else amount := by
  simp [dropTrace]

theorem roundHalfAway_nonneg {x : ℚ} (h : 0 ≤ x) : 0 ≤ Exact.roundHalfAway x := by
  rw [Exact.roundHalfAway, if_pos h]
  exact Int.floor_nonneg.2 (by linarith)

theorem round_eq (x : ℚ) : (FloatFormat.round x : ℚ) = Exact.roundHalfAway x := rfl

theorem quantize_nonneg {amount : ℚ} (h : 0 ≤ amount) : 0 ≤ quantize amount := by
  rw [quantize, round_eq]
  have hround : (0 : ℚ) ≤ Exact.roundHalfAway (amount / molarAccuracy) := by
    refine Int.cast_nonneg (roundHalfAway_nonneg ?_)
    rw [exact_molarAccuracy]
    positivity
  rw [exact_molarAccuracy] at hround ⊢
  positivity

theorem quantizedRemoval_nonneg {amount ratio : ℚ} (h : 0 ≤ amount) (hratio : 0 ≤ ratio) :
    0 ≤ quantizedRemoval amount ratio :=
  le_min (quantize_nonneg (mul_nonneg h hratio)) h

theorem quantizedRemoval_le (amount ratio : ℚ) : quantizedRemoval amount ratio ≤ amount :=
  min_le_right ..

theorem saturatingAdd_eq (amount added : ℚ) :
    saturatingAdd amount added = min (amount + added) Exact.largest := rfl

theorem saturatingScale_eq (amount factor : ℚ) :
    saturatingScale amount factor = min (amount * factor) Exact.largest := rfl

theorem largest_pos : 0 < Exact.largest := by
  norm_num [Exact.largest]

theorem clamp_eq (ratio : ℚ) : FloatFormat.clamp ratio 0.0 1.0 = max 0 (min ratio 1) := by
  unfold FloatFormat.clamp
  rw [exact_one, exact_zero]
  rcases lt_or_ge ratio 0 with hneg | hpos
  · rw [if_pos hneg, if_neg (by norm_num), min_eq_left (by linarith), max_eq_left hneg.le]
  · rw [if_neg (not_lt.2 hpos)]
    rcases lt_or_ge 1 ratio with hlarge | hsmall
    · rw [if_pos hlarge, min_eq_right hlarge.le]
      norm_num
    · rw [if_neg (not_lt.2 hsmall), min_eq_left hsmall, max_eq_right hpos]

/-- What a write makes of amounts that are not negative is not negative. -/
theorem nonneg_of_made {amount : ℚ} (h : Made (fun held => 0 ≤ held) amount) : 0 ≤ amount := by
  cases h with
  | held h => exact h
  | dropped amount =>
    rw [dropTrace_eq]
    split
    · exact le_refl 0
    · next hkept => linarith
  | removed h ratio =>
    rw [clamp_eq]
    exact quantizedRemoval_nonneg h (le_max_left _ _)
  | left h ratio => exact sub_nonneg.2 (quantizedRemoval_le _ _)

/-! ## Heat capacities -/

/-- The specific heat of a gas; an index without a gas has none. -/
def heatAt (heats : List ℚ) (index : Nat) : ℚ := heats[index]?.getD 0

/-- No specific heat is negative. -/
def HeatsNonneg (heats : List ℚ) : Prop := ∀ index, 0 ≤ heatAt heats index

theorem foldHeatCapacity_lists (amounts heats : List ℚ) : ∀ capacity : ℚ,
    (amounts.zip heats).foldl
        (fun capacity (amount, specificHeat) => mulAdd specificHeat amount capacity) capacity =
      capacity + ∑ index ∈ range amounts.length, heatAt heats index * amounts[index]?.getD 0 := by
  induction amounts generalizing heats with
  | nil => simp
  | cons amount rest ih =>
    intro capacity
    cases heats with
    | nil => simp [heatAt]
    | cons heat heats =>
      rw [List.zip_cons_cons, List.foldl_cons, ih, List.length_cons, sum_range_succ']
      simp [heatAt]
      ring

theorem foldHeatCapacity_eq (gases : Gases ℚ) (heats : List ℚ) : foldHeatCapacity gases heats =
    ∑ index ∈ range maxGasSlots, heatAt heats index * gases.at index := by
  unfold foldHeatCapacity
  rw [foldHeatCapacity_lists]
  simp only [exact_zero, zero_add, Vector.length_toList]
  refine sum_congr rfl fun index hindex => ?_
  rw [Gases.getElem?_toList _ (mem_range.1 hindex), Option.getD_some]

theorem foldHeatCapacity_nonneg {gases : Gases ℚ} {heats : List ℚ} (hheats : HeatsNonneg heats)
    (h : ∀ index, 0 ≤ gases.at index) : 0 ≤ foldHeatCapacity gases heats := by
  rw [foldHeatCapacity_eq]
  exact sum_nonneg fun index _ => mul_nonneg (hheats index) (h index)

theorem heatAt_paddedHeats (heats : List ℚ) {index : Nat} (h : index < maxGasSlots) :
    heatAt (paddedHeats heats).toList index = heatAt heats index := by
  rw [heatAt, Gases.getElem?_toList _ h, paddedHeats, Gases.at_ofFn _ h]
  simp [heatAt]

theorem foldHeatCapacity_paddedHeats (gases : Gases ℚ) (heats : List ℚ) :
    foldHeatCapacity gases (paddedHeats heats).toList = foldHeatCapacity gases heats := by
  rw [foldHeatCapacity_eq, foldHeatCapacity_eq]
  refine sum_congr rfl fun index hindex => ?_
  rw [heatAt_paddedHeats heats (mem_range.1 hindex)]

theorem recordHeatCapacity_eq (record : MixtureRecord ℚ) (heats : List ℚ) :
    recordHeatCapacity record heats =
      max (foldHeatCapacity record.gases heats) record.minimumHeatCapacity := rfl

/-! ## Records -/

/-- A record whose numbers are those of a gas mixture: what every command and upload checks of
the amounts, the heat capacities and the temperatures it is given. -/
structure MixtureRecord.Physical (record : MixtureRecord ℚ) : Prop where
  amounts : ∀ index, 0 ≤ record.gases.at index
  minimumHeatCapacity : 0 ≤ record.minimumHeatCapacity
  temperature : 0 ≤ record.temperature

theorem recordHeatCapacity_nonneg {record : MixtureRecord ℚ} (h : 0 ≤ record.minimumHeatCapacity)
    (heats : List ℚ) : 0 ≤ recordHeatCapacity record heats := by
  rw [recordHeatCapacity_eq]
  exact le_max_of_le_right h

/-- Whether a record is physical. -/
def MixtureRecord.isPhysical (record : MixtureRecord ℚ) : Bool :=
  record.gases.toList.all (fun amount => 0 ≤ amount) && decide (0 ≤ record.minimumHeatCapacity) &&
    decide (0 ≤ record.temperature)

theorem MixtureRecord.physical_of_isPhysical {record : MixtureRecord ℚ}
    (h : record.isPhysical = true) : record.Physical := by
  unfold isPhysical at h
  simp only [Bool.and_eq_true, List.all_eq_true, decide_eq_true_eq] at h
  refine ⟨fun index => ?_, h.1.2, h.2⟩
  by_cases hindex : index < maxGasSlots
  · exact h.1.1 _ (List.mem_of_getElem? (Gases.getElem?_toList _ hindex))
  · rw [Gases.at_of_le _ (Nat.le_of_not_lt hindex), exact_zero]

end Dogmos
