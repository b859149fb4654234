import Dogmos.Exact.Transfers
import Mathlib.Algebra.BigOperators.Ring.Finset

/-!
# Transfers of listed gases

`transfer_gases` moves one gas after the other, each by the amount computed from the source it
found.  So a gas that is listed several times moves several times that amount (`gasMoved`), and
what the destination retains of it is credited once for each time it is listed
(`creditedCapacity`), while the capacity that is divided by counts it once (`arrivedCapacity`).
-/

namespace Dogmos

open DogmosWorld Finset

variable {heats : List ℚ} {indices : List Nat} {ratio : ℚ} {f s : MixtureRecord ℚ}

/-- How much of a gas is moved in all. -/
def gasMoved (indices : List Nat) (ratio : ℚ) (source : MixtureRecord ℚ) (index : Nat) : ℚ :=
  indices.count index * (source.gases.at index * ratio)

theorem gasMoved_nonneg (hf : f.Physical) (hratio : 0 ≤ ratio) (index : Nat) :
    0 ≤ gasMoved indices ratio f index :=
  mul_nonneg (Nat.cast_nonneg _) (mul_nonneg (hf.amounts index) hratio)

/-! ## The loop over the list -/

theorem at_foldl_moveGas (amount : Nat → ℚ) (indices : List Nat) : ∀ (gases : Gases ℚ × Gases ℚ)
    {index : Nat}, index < maxGasSlots →
      ((indices.map fun index => (index, amount index)).foldl moveGas gases).1.at index =
          gases.1.at index - indices.count index * amount index ∧
        ((indices.map fun index => (index, amount index)).foldl moveGas gases).2.at index =
          gases.2.at index + indices.count index * amount index := by
  induction indices with
  | nil => simp
  | cons head rest ih =>
    intro gases index hindex
    rw [List.map_cons, List.foldl_cons]
    obtain ⟨hfirst, hsecond⟩ := ih (moveGas gases (head, amount head)) hindex
    rw [hfirst, hsecond, moveGas, Gases.at_put, Gases.at_put, List.count_cons]
    by_cases hhead : index = head
    · subst hhead
      simp only [true_and, hindex, if_true, beq_self_eq_true]
      push_cast
      constructor <;> ring
    · have hbeq : (head == index) = false := beq_eq_false_iff_ne.2 fun h => hhead h.symm
      simp [hhead, hbeq]

/-- A sum over a list of gases, gas by gas. -/
theorem foldl_add_eq (g : Nat → ℚ) (hg : ∀ index, maxGasSlots ≤ index → g index = 0)
    (indices : List Nat) : ∀ start : ℚ, indices.foldl (fun total index => total + g index) start =
      start + ∑ index ∈ range maxGasSlots, indices.count index * g index := by
  induction indices with
  | nil => simp
  | cons head rest ih =>
    intro start
    rw [List.foldl_cons, ih]
    have hcount : ∀ index ∈ range maxGasSlots, ((head :: rest).count index : ℚ) * g index =
        rest.count index * g index + if index = head then g head else 0 := by
      intro index _
      rw [List.count_cons]
      by_cases hhead : index = head
      · subst hhead
        simp
        ring
      · have hbeq : (head == index) = false := beq_eq_false_iff_ne.2 fun h => hhead h.symm
        simp [hhead, hbeq]
    rw [sum_congr rfl hcount, sum_add_distrib, sum_ite_eq']
    by_cases hhead : head < maxGasSlots
    · rw [if_pos (mem_range.2 hhead)]
      ring
    · rw [if_neg fun h => hhead (mem_range.1 h), hg head (Nat.le_of_not_lt hhead)]
      ring

/-! ## The records it leaves -/

/-- Whether a transfer of gases moves nothing at all. -/
def TransferIdle (ratio : ℚ) (source destination : MixtureRecord ℚ) : Prop :=
  ratio = 0 ∨ source.immutable = true ∨ destination.immutable = true

theorem gasesTransferred_of_idle (h : TransferIdle ratio f s) :
    gasesTransferred heats ratio indices f s = (f, s) := if_pos h

/-- The amounts of the two mixtures after a transfer. -/
theorem at_gasesTransferred (h : ¬TransferIdle ratio f s) {index : Nat}
    (hindex : index < maxGasSlots) :
    (gasesTransferred heats ratio indices f s).1.gases.at index =
        dropTrace (f.gases.at index - gasMoved indices ratio f index) ∧
      (gasesTransferred heats ratio indices f s).2.gases.at index =
        dropTrace (s.gases.at index + gasMoved indices ratio f index) := by
  unfold TransferIdle at h
  rw [gasesTransferred, if_neg h]
  dsimp only
  obtain ⟨hfirst, hsecond⟩ := at_foldl_moveGas (fun index => f.gases.at index * ratio) indices
    (f.gases, s.gases) hindex
  rw [canonicalizeGases, canonicalizeGases, Gases.at_map _ _ hindex, Gases.at_map _ _ hindex, hfirst,
    hsecond]
  exact ⟨rfl, rfl⟩

/-- The heat capacity a transfer credits to what the destination retains. -/
def creditedCapacity (heats : List ℚ) (indices : List Nat) (ratio : ℚ)
    (source destination : MixtureRecord ℚ) : ℚ :=
  ∑ index ∈ range maxGasSlots, indices.count index * (heatAt heats index *
    if destination.gases.at index + gasMoved indices ratio source index < 1 / 100 then 0
    else gasMoved indices ratio source index)

/-- The heat capacity of the gas in the destination after a transfer. -/
def arrivedCapacity (heats : List ℚ) (indices : List Nat) (ratio : ℚ)
    (source destination : MixtureRecord ℚ) : ℚ :=
  ∑ index ∈ range maxGasSlots, heatAt heats index *
    dropTrace (destination.gases.at index + gasMoved indices ratio source index)

/-- By how much the credited capacities exceed the one that is divided by: by the minimum heat
capacity that the destination's gas falls short of, by what is dropped as a trace, and by what is
credited more than once. -/
def excessCapacity (heats : List ℚ) (indices : List Nat) (ratio : ℚ)
    (source destination : MixtureRecord ℚ) : ℚ :=
  max (destination.minimumHeatCapacity - foldHeatCapacity destination.gases heats) 0 +
    ∑ index ∈ range maxGasSlots, heatAt heats index *
      if destination.gases.at index + gasMoved indices ratio source index < 1 / 100 then
        destination.gases.at index
      else (indices.count index - 1) * gasMoved indices ratio source index

theorem excessCapacity_eq : excessCapacity heats indices ratio f s =
    recordHeatCapacity s heats + creditedCapacity heats indices ratio f s -
      arrivedCapacity heats indices ratio f s := by
  have hmax : recordHeatCapacity s heats = foldHeatCapacity s.gases heats +
      max (s.minimumHeatCapacity - foldHeatCapacity s.gases heats) 0 := by
    rw [recordHeatCapacity_eq]
    rcases le_total s.minimumHeatCapacity (foldHeatCapacity s.gases heats) with h | h
    · rw [max_eq_left h, max_eq_right (by linarith), add_zero]
    · rw [max_eq_right h, max_eq_left (by linarith)]
      ring
  rw [hmax, excessCapacity, foldHeatCapacity_eq]
  have hsum : ∑ index ∈ range maxGasSlots, (heatAt heats index *
      if s.gases.at index + gasMoved indices ratio f index < 1 / 100 then s.gases.at index
      else (indices.count index - 1) * gasMoved indices ratio f index) =
      ∑ index ∈ range maxGasSlots, heatAt heats index * s.gases.at index +
        creditedCapacity heats indices ratio f s - arrivedCapacity heats indices ratio f s := by
    rw [creditedCapacity, arrivedCapacity, ← sum_add_distrib, ← sum_sub_distrib]
    refine sum_congr rfl fun index _ => ?_
    rw [dropTrace_eq]
    split <;> ring
  rw [hsum]
  ring

theorem creditedCapacity_nonneg (hheats : HeatsNonneg heats) (hf : f.Physical) (hratio : 0 ≤ ratio) :
    0 ≤ creditedCapacity heats indices ratio f s := by
  refine sum_nonneg fun index _ => mul_nonneg (Nat.cast_nonneg _) (mul_nonneg (hheats index) ?_)
  split
  · exact le_rfl
  · exact gasMoved_nonneg hf hratio index

theorem excessCapacity_nonneg (indices : List Nat) (hheats : HeatsNonneg heats) (hf : f.Physical) (hs : s.Physical)
    (hratio : 0 ≤ ratio) : 0 ≤ excessCapacity heats indices ratio f s := by
  refine add_nonneg (le_max_right ..) (sum_nonneg fun index _ => mul_nonneg (hheats index) ?_)
  split
  · exact hs.amounts index
  · rcases Nat.eq_zero_or_pos (indices.count index) with hzero | hpos
    · simp [gasMoved, hzero]
    · have hone : (1 : ℚ) ≤ indices.count index := by exact_mod_cast hpos
      exact mul_nonneg (by linarith) (gasMoved_nonneg hf hratio index)

/-- The temperature of the destination after a transfer. -/
theorem temperature_gasesTransferred (hf : f.Physical) (hs : s.Physical) (hratio : 0 ≤ ratio)
    (h : ¬TransferIdle ratio f s) : (gasesTransferred heats ratio indices f s).2.temperature =
      if 3 / 10000 < arrivedCapacity heats indices ratio f s then
        (recordHeatCapacity s heats * s.temperature +
          creditedCapacity heats indices ratio f s * f.temperature) /
            arrivedCapacity heats indices ratio f s
      else s.temperature := by
  have hgases := fun index hindex => (@at_gasesTransferred heats indices ratio f s h index hindex).2
  unfold TransferIdle at h
  rw [gasesTransferred, if_neg h] at hgases ⊢
  dsimp only at hgases ⊢
  generalize canonicalizeGases (F := ℚ) _ = gases at hgases ⊢
  have hcapacity : foldHeatCapacity gases heats = arrivedCapacity heats indices ratio f s := by
    rw [foldHeatCapacity_eq]
    refine sum_congr rfl fun index hindex => ?_
    rw [hgases index (mem_range.1 hindex)]
  have hheat : indices.foldl (fun energy index => energy +
      max (gases.at index - s.gases.at index) 0 * f.temperature * (paddedHeats heats).at index) 0 =
      creditedCapacity heats indices ratio f s * f.temperature := by
    rw [foldl_add_eq, zero_add, creditedCapacity, sum_mul]
    · refine sum_congr rfl fun index hindex => ?_
      have hlt := mem_range.1 hindex
      have hheat : (paddedHeats heats).at index = heatAt heats index := by
        rw [paddedHeats, Gases.at_ofFn _ hlt]
        simp [heatAt]
      rw [hgases index hlt, hheat, dropTrace_eq]
      split
      · rw [max_eq_right (by linarith [hs.amounts index])]
        ring
      · rw [add_sub_cancel_left, max_eq_left (gasMoved_nonneg hf hratio index)]
        ring
    · intro index hindex
      rw [Gases.at_of_le _ hindex, Gases.at_of_le _ hindex]
      simp
  rw [hcapacity, exact_minimumHeatCapacity, List.foldl_map]
  dsimp only
  rw [hheat]

/-- When the temperature of the destination stays between the two. -/
def TransferBalanced (heats : List ℚ) (indices : List Nat) (ratio : ℚ)
    (source destination : MixtureRecord ℚ) : Prop :=
  TransferIdle ratio source destination ∨
    arrivedCapacity heats indices ratio source destination ≤ 3 / 10000 ∨
    excessCapacity heats indices ratio source destination *
        max destination.temperature source.temperature ≤
      Mixing.lesserWeight (recordHeatCapacity destination heats)
          (creditedCapacity heats indices ratio source destination)
          destination.temperature source.temperature *
        |destination.temperature - source.temperature|

theorem gasesTransferred_temperature_mem_iff (indices : List Nat) (hheats : HeatsNonneg heats) (hf : f.Physical)
    (hs : s.Physical) (hratio : 0 ≤ ratio) :
    (gasesTransferred heats ratio indices f s).2.temperature ∈
      Set.uIcc f.temperature s.temperature ↔ TransferBalanced heats indices ratio f s := by
  unfold TransferBalanced
  by_cases hidle : TransferIdle ratio f s
  · rw [gasesTransferred_of_idle hidle]
    exact ⟨fun _ => .inl hidle, fun _ => Set.right_mem_uIcc⟩
  · rw [temperature_gasesTransferred hf hs hratio hidle]
    by_cases hcapacity : 3 / 10000 < arrivedCapacity heats indices ratio f s
    · have hexcess := excessCapacity_nonneg indices hheats hf hs hratio
      rw [excessCapacity_eq] at hexcess
      rw [if_pos hcapacity, Set.uIcc_comm, Mixing.scaled_mem_iff
        (recordHeatCapacity_nonneg hs.minimumHeatCapacity heats)
        (creditedCapacity_nonneg hheats hf hratio) (by linarith) (by linarith) hs.temperature
        hf.temperature, ← excessCapacity_eq]
      simp only [hidle, not_le.2 hcapacity, false_or]
    · rw [if_neg hcapacity]
      exact ⟨fun _ => .inr (.inl (not_lt.1 hcapacity)), fun _ => Set.right_mem_uIcc⟩

theorem gasesTransferred_temperature_fst :
    (gasesTransferred heats ratio indices f s).1.temperature = f.temperature := by
  unfold gasesTransferred
  split <;> rfl

end Dogmos
