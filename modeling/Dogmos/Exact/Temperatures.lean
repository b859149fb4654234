import Dogmos.Exact.Transfers

/-!
# The temperatures of mixtures that are mixed

A mixture that takes in gas of another has a temperature between the two.  Merging, transferring
a ratio or an amount and sharing weigh each temperature with the heat capacity that is divided
by, so their results are means (`mergeRecord_temperature_mem`, `received_temperature_mem`).
-/

namespace Dogmos

open DogmosWorld

variable {heats : List ℚ} {x y : ℚ} {r g f s : MixtureRecord ℚ}

/-! ## Merging -/

theorem mergeRecord_temperature (hmutable : r.immutable = false) :
    (mergeRecord r g heats).temperature =
      if 3 / 10000 < recordHeatCapacity r heats + recordHeatCapacity g heats then
        (recordHeatCapacity r heats * r.temperature + recordHeatCapacity g heats * g.temperature) /
          (recordHeatCapacity r heats + recordHeatCapacity g heats)
      else r.temperature := by
  rw [mergeRecord, hmutable, if_neg Bool.false_ne_true, exact_minimumHeatCapacity]

theorem mergeRecord_immutable (himmutable : r.immutable = true) : mergeRecord r g heats = r := by
  rw [mergeRecord, if_pos himmutable]

/-- A mixture without heat capacity does not change the temperature of another. -/
theorem mergeRecord_temperature_of_empty (hempty : recordHeatCapacity g heats = 0) :
    (mergeRecord r g heats).temperature = r.temperature := by
  cases hmutable : r.immutable with
  | true => rw [mergeRecord_immutable hmutable]
  | false =>
    rw [mergeRecord_temperature hmutable, hempty]
    split
    · next hcapacity =>
      rw [zero_mul, add_zero, add_zero, mul_div_cancel_left₀]
      intro hzero
      rw [hzero] at hcapacity
      norm_num at hcapacity
    · rfl

theorem mergeRecord_temperature_mem (hr : 0 ≤ r.minimumHeatCapacity)
    (hg : 0 ≤ g.minimumHeatCapacity) (hx : r.temperature ∈ Set.uIcc x y)
    (hy : g.temperature ∈ Set.uIcc x y) : (mergeRecord r g heats).temperature ∈ Set.uIcc x y := by
  cases hmutable : r.immutable with
  | true => rwa [mergeRecord_immutable hmutable]
  | false =>
    rw [mergeRecord_temperature hmutable]
    split
    · next hcapacity =>
      exact Mixing.mean_mem_of_mem (recordHeatCapacity_nonneg hr heats)
        (recordHeatCapacity_nonneg hg heats) (by linarith) hx hy
    · exact hx

theorem merged_temperature_mem (hr : 0 ≤ r.minimumHeatCapacity)
    (hg : 0 ≤ g.minimumHeatCapacity) :
    (merged heats r g).temperature ∈ Set.uIcc r.temperature g.temperature := by
  unfold merged
  split
  · exact Set.left_mem_uIcc
  · exact mergeRecord_temperature_mem hr hg Set.left_mem_uIcc Set.right_mem_uIcc

/-! ## Transferring a ratio -/

theorem retainedCapacity_lists {heats : List ℚ} (hheats : ∀ heat ∈ heats, 0 ≤ heat) :
    ∀ (amounts : List (ℚ × ℚ)) (capacity : ℚ), 0 ≤ capacity →
      0 ≤ (amounts.zip heats).foldl (fun capacity ((amount, before), specificHeat) =>
        mulAdd specificHeat (fmax (amount - before) 0.0) capacity) capacity := by
  induction heats with
  | nil =>
    intro amounts capacity hcapacity
    simpa using hcapacity
  | cons heat rest ih =>
    intro amounts capacity hcapacity
    cases amounts with
    | nil => simpa using hcapacity
    | cons amount amounts =>
      rw [List.zip_cons_cons, List.foldl_cons]
      refine ih (fun h hmem => hheats h (List.mem_cons_of_mem _ hmem)) amounts _ ?_
      have hheat := hheats heat (List.mem_cons_self ..)
      have hgain : 0 ≤ max (amount.1 - amount.2) 0 := le_max_right _ _
      simp only [Exact.mulAdd_eq, Exact.fmax_eq, exact_zero]
      positivity

theorem HeatsNonneg.mem (h : HeatsNonneg heats) {heat : ℚ} (hmem : heat ∈ heats) : 0 ≤ heat := by
  obtain ⟨index, hlt, rfl⟩ := List.getElem_of_mem hmem
  have hat := h index
  rwa [heatAt, List.getElem?_eq_getElem hlt, Option.getD_some] at hat

theorem retainedCapacity_nonneg (hheats : HeatsNonneg heats) (after before : Gases ℚ) :
    0 ≤ retainedCapacity after before heats := by
  unfold retainedCapacity
  exact retainedCapacity_lists (fun _ hmem => hheats.mem hmem) _ 0.0 exact_zero.ge

theorem received_temperature_mem (hheats : HeatsNonneg heats) (hs : 0 ≤ s.minimumHeatCapacity)
    (removed : Gases ℚ) :
    (received heats f s removed).temperature ∈ Set.uIcc f.temperature s.temperature := by
  unfold received
  split
  · exact Set.right_mem_uIcc
  · dsimp only
    rw [exact_minimumHeatCapacity]
    split
    · next hcapacity =>
      exact Mixing.mean_mem_of_mem (recordHeatCapacity_nonneg hs heats)
        (retainedCapacity_nonneg hheats ..) (by linarith) Set.right_mem_uIcc Set.left_mem_uIcc
    · exact Set.right_mem_uIcc

theorem withdrawn_temperature (removed : Gases ℚ) :
    (withdrawn f removed).temperature = f.temperature := by
  unfold withdrawn
  split <;> rfl

/-! ## Sharing -/

theorem removeRatioRecord_of_nonpos (source : MixtureRecord ℚ) {ratio : ℚ} (h : ratio ≤ 0) :
    removeRatioRecord source ratio = (source, MixtureRecord.new) := by
  unfold removeRatioRecord removeRatioIntoRecord
  exact if_pos (by simp [h])

/-- What is taken out of a mixture has its temperature. -/
theorem removeRatioRecord_of_pos (source : MixtureRecord ℚ) {ratio : ℚ} (h : 0 < ratio) :
    (removeRatioRecord source ratio).1.temperature = source.temperature ∧
      (removeRatioRecord source ratio).1.minimumHeatCapacity = source.minimumHeatCapacity ∧
      (removeRatioRecord source ratio).2.temperature = source.temperature ∧
      (removeRatioRecord source ratio).2.minimumHeatCapacity = 0 := by
  unfold removeRatioRecord removeRatioIntoRecord
  rw [if_neg (by simp [not_le.2 h, MixtureRecord.new])]
  cases source.immutable <;> simp [copyRecord, MixtureRecord.new]

theorem recordHeatCapacity_new : recordHeatCapacity (MixtureRecord.new : MixtureRecord ℚ) heats = 0 := by
  rw [recordHeatCapacity_eq, foldHeatCapacity_eq, MixtureRecord.new]
  simp [Gases.at_noGases]

theorem recordHeatCapacity_scaleRecord_new {record : MixtureRecord ℚ} {factor : ℚ}
    (hgases : ∀ index, record.gases.at index = 0) (hminimum : record.minimumHeatCapacity = 0) :
    recordHeatCapacity (scaleRecord record factor) heats = 0 := by
  unfold scaleRecord
  split
  · rw [recordHeatCapacity_eq, foldHeatCapacity_eq, hminimum]
    simp [hgases]
  · rw [recordHeatCapacity_eq, foldHeatCapacity_eq]
    dsimp only
    rw [hminimum, Finset.sum_eq_zero, max_self]
    intro index hindex
    rw [Gases.at_map _ _ (Finset.mem_range.1 hindex), hgases]
    simp [saturatingScale_eq, largest_pos.le]

theorem scaleRecord_temperature (record : MixtureRecord ℚ) (factor : ℚ) :
    (scaleRecord record factor).temperature = record.temperature := by
  unfold scaleRecord
  split <;> rfl

theorem scaleRecord_minimumHeatCapacity (record : MixtureRecord ℚ) (factor : ℚ) :
    (scaleRecord record factor).minimumHeatCapacity = record.minimumHeatCapacity := by
  unfold scaleRecord
  split <;> rfl

theorem canonicalRecord_temperature (record : MixtureRecord ℚ) :
    (canonicalRecord record).temperature = record.temperature := by
  unfold canonicalRecord
  split <;> rfl

theorem mergeRecord_minimumHeatCapacity :
    (mergeRecord r g heats).minimumHeatCapacity = r.minimumHeatCapacity := by
  unfold mergeRecord
  split <;> rfl

theorem mergeRecord_new_gases (index : Nat) :
    (mergeRecord MixtureRecord.new MixtureRecord.new heats : MixtureRecord ℚ).gases.at index = 0 := by
  rw [mergeRecord, MixtureRecord.new, if_neg Bool.false_ne_true]
  dsimp only
  by_cases hindex : index < maxGasSlots
  · rw [Gases.at_zipWith _ _ _ hindex, Gases.at_noGases, saturatingAdd_eq, exact_zero]
    simp [largest_pos.le]
  · rw [Gases.at_of_le _ (Nat.le_of_not_lt hindex), exact_zero]

/-- What both mixtures of a share receive is at a temperature between the two, or it is nothing. -/
theorem inbetween_temperature_mem {u v : MixtureRecord ℚ}
    (hu : 0 ≤ u.minimumHeatCapacity) (hv : 0 ≤ v.minimumHeatCapacity) (hx : u.temperature ∈ Set.uIcc x y)
    (hy : v.temperature ∈ Set.uIcc x y ∨ recordHeatCapacity v heats = 0) (factor : ℚ) :
    (scaleRecord (mergeRecord u v heats) factor).temperature ∈ Set.uIcc x y := by
  rw [scaleRecord_temperature]
  rcases hy with hy | hempty
  · exact mergeRecord_temperature_mem hu hv hx hy
  · rwa [mergeRecord_temperature_of_empty hempty]

/-- What is left of a mixture after gas was taken out of it, once it has taken in what both share. -/
theorem mergeRecord_removed_mem (hf : 0 ≤ f.minimumHeatCapacity) (hg : 0 ≤ g.minimumHeatCapacity)
    {ratio : ℚ} (hratio : 0 < ratio) (hx : f.temperature ∈ Set.uIcc x y)
    (hy : g.temperature ∈ Set.uIcc x y) :
    (mergeRecord (removeRatioRecord f ratio).1 g heats).temperature ∈ Set.uIcc x y := by
  obtain ⟨htemperature, hminimum, -, -⟩ := removeRatioRecord_of_pos f hratio
  exact mergeRecord_temperature_mem (by rwa [hminimum]) hg (by rwa [htemperature]) hy

theorem shared_oneWay_mem (hf : 0 ≤ f.minimumHeatCapacity) (ratio : ℚ) :
    (sharedRecords f s ratio true heats).1.temperature ∈
      Set.uIcc f.temperature s.temperature := by
  unfold sharedRecords
  rw [if_pos rfl]
  dsimp only
  have hcopy : (scaleRecord (copyRecord MixtureRecord.new s) ratio).temperature = s.temperature := by
    rw [scaleRecord_temperature]
    rfl
  have hminimum : (scaleRecord (copyRecord MixtureRecord.new s) ratio).minimumHeatCapacity = 0 := by
    rw [scaleRecord_minimumHeatCapacity]
    exact exact_zero
  have hinbetween : ∀ giver factor, 0 ≤ (scaleRecord (mergeRecord (scaleRecord
      (copyRecord MixtureRecord.new s) ratio) giver heats) factor).minimumHeatCapacity := by
    intro giver factor
    rw [scaleRecord_minimumHeatCapacity, mergeRecord_minimumHeatCapacity, hminimum]
  have hright : (scaleRecord (copyRecord MixtureRecord.new s) ratio).temperature ∈
      Set.uIcc f.temperature s.temperature := by
    rw [hcopy]
    exact Set.right_mem_uIcc
  rcases le_or_gt ratio 0 with hratio | hratio
  · rw [removeRatioRecord_of_nonpos f hratio]
    exact mergeRecord_temperature_mem hf (hinbetween ..) Set.left_mem_uIcc
      (inbetween_temperature_mem hminimum.ge exact_zero.ge hright (.inr recordHeatCapacity_new) _)
  · obtain ⟨-, -, htaken, htakenMinimum⟩ := removeRatioRecord_of_pos f hratio
    refine mergeRecord_removed_mem hf (hinbetween ..) hratio Set.left_mem_uIcc
      (inbetween_temperature_mem hminimum.ge htakenMinimum.ge hright (.inl ?_) _)
    rw [htaken]
    exact Set.left_mem_uIcc

theorem shared_twoWay_mem (hf : 0 ≤ f.minimumHeatCapacity) (hs : 0 ≤ s.minimumHeatCapacity)
    (ratio : ℚ) :
    (sharedRecords f s ratio false heats).1.temperature ∈ Set.uIcc f.temperature s.temperature ∧
      (sharedRecords f s ratio false heats).2.temperature ∈
        Set.uIcc f.temperature s.temperature := by
  unfold sharedRecords
  rw [if_neg Bool.false_ne_true]
  change (mergeRecord (removeRatioRecord f ratio).1 (scaleRecord (mergeRecord
    (removeRatioRecord f ratio).2 (removeRatioRecord s ratio).2 heats) 0.5) heats).temperature ∈ _ ∧
    (mergeRecord (removeRatioRecord s ratio).1 (scaleRecord (mergeRecord
    (removeRatioRecord f ratio).2 (removeRatioRecord s ratio).2 heats) 0.5) heats).temperature ∈ _
  generalize (0.5 : ℚ) = factor
  rcases le_or_gt ratio 0 with hratio | hratio
  · rw [removeRatioRecord_of_nonpos f hratio, removeRatioRecord_of_nonpos s hratio]
    have hempty : recordHeatCapacity (scaleRecord (mergeRecord MixtureRecord.new
        MixtureRecord.new heats) factor) heats = 0 := by
      refine recordHeatCapacity_scaleRecord_new mergeRecord_new_gases ?_
      rw [mergeRecord_minimumHeatCapacity]
      exact exact_zero
    rw [mergeRecord_temperature_of_empty hempty, mergeRecord_temperature_of_empty hempty]
    exact ⟨Set.left_mem_uIcc, Set.right_mem_uIcc⟩
  · obtain ⟨-, -, hfirst, hfirstMinimum⟩ := removeRatioRecord_of_pos f hratio
    obtain ⟨-, -, hsecond, hsecondMinimum⟩ := removeRatioRecord_of_pos s hratio
    have hminimum : 0 ≤ (scaleRecord (mergeRecord (removeRatioRecord f ratio).2
        (removeRatioRecord s ratio).2 heats) factor).minimumHeatCapacity := by
      rw [scaleRecord_minimumHeatCapacity, mergeRecord_minimumHeatCapacity, hfirstMinimum]
    have hmem : (scaleRecord (mergeRecord (removeRatioRecord f ratio).2
        (removeRatioRecord s ratio).2 heats) factor).temperature ∈
          Set.uIcc f.temperature s.temperature := by
      refine inbetween_temperature_mem hfirstMinimum.ge hsecondMinimum.ge ?_ (.inl ?_) factor
      · rw [hfirst]
        exact Set.left_mem_uIcc
      · rw [hsecond]
        exact Set.right_mem_uIcc
    exact ⟨mergeRecord_removed_mem hf hminimum hratio Set.left_mem_uIcc hmem,
      mergeRecord_removed_mem hs hminimum hratio Set.right_mem_uIcc hmem⟩

theorem shared_temperature_mem (hf : 0 ≤ f.minimumHeatCapacity) (hs : 0 ≤ s.minimumHeatCapacity)
    (ratio : ℚ) (oneWay : Bool) :
    (shared heats ratio oneWay f s).1.temperature ∈ Set.uIcc f.temperature s.temperature ∧
      (shared heats ratio oneWay f s).2.temperature ∈ Set.uIcc f.temperature s.temperature := by
  unfold shared
  rw [canonicalRecord_temperature, canonicalRecord_temperature]
  cases oneWay with
  | true => exact ⟨shared_oneWay_mem hf ratio, Set.right_mem_uIcc⟩
  | false => exact shared_twoWay_mem hf hs ratio

end Dogmos
