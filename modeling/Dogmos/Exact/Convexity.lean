import Dogmos.Exact.GasTransfers
import Dogmos.Exact.Temperatures

/-!
# When mixing is convex

Merging, transferring a ratio or an amount and sharing leave both temperatures between the two
they found.  The two ways that compute a transfer from an energy credit more heat capacity than
they divide by: `transfer_gases` credits the destination's minimum heat capacity, the traces it
drops and the repetitions of its list, and `transfer_moles` credits a target with its minimum heat
capacity before the gas arrives but not after.  Both results are between the two temperatures
exactly when the excess, at the higher temperature, is made up for by the colder mixture
(`PairCommand.Balanced`, `MolesBalanced`).
-/

namespace Dogmos

open DogmosWorld Finset

variable {heats : List ℚ} {f s : MixtureRecord ℚ}

/-! ## Commands -/

namespace PairCommand

/-- The commands that mix two mixtures; removing into a mixture replaces what it held. -/
def Mixes : PairCommand → Prop
  | removeRatioInto _ | removeAmountInto _ => False
  | _ => True

/-- When a command leaves both temperatures between the two it found. -/
def Balanced (w : DogmosWorld ℚ) (f s : MixtureRecord ℚ) : PairCommand → Prop
  | transferGases ratio gases =>
    TransferBalanced w.heats (gases.map GasId.index) (max 0 (min ratio 1)) f s
  | transferByFlags flags amount =>
    amount ≤ 0 ∨ w.flagged flags = [] ∨ totalMoles f ≤ 0 ∨
      TransferBalanced w.heats (w.flagged flags) (max 0 (min (amount / totalMoles f) 1)) f s
  | _ => True

theorem ratioTransferred_temperature_mem (hheats : HeatsNonneg heats)
    (hs : 0 ≤ s.minimumHeatCapacity) (ratio : ℚ) :
    (ratioTransferred heats ratio f s).1.temperature ∈ Set.uIcc f.temperature s.temperature ∧
      (ratioTransferred heats ratio f s).2.temperature ∈
        Set.uIcc f.temperature s.temperature := by
  unfold ratioTransferred
  split
  · exact ⟨Set.left_mem_uIcc, Set.right_mem_uIcc⟩
  · dsimp only
    rw [withdrawn_temperature]
    exact ⟨Set.left_mem_uIcc, received_temperature_mem hheats hs _⟩

theorem outcome_temperature_mem_iff {w : DogmosWorld ℚ} (op : PairCommand) (hop : op.Mixes)
    (hheats : HeatsNonneg w.heats) (hf : f.Physical) (hs : s.Physical) :
    ((op.outcome w f s).1.temperature ∈ Set.uIcc f.temperature s.temperature ∧
      (op.outcome w f s).2.temperature ∈ Set.uIcc f.temperature s.temperature) ↔
        op.Balanced w f s := by
  cases op with
  | merge =>
    exact iff_of_true ⟨merged_temperature_mem hf.minimumHeatCapacity hs.minimumHeatCapacity,
      Set.right_mem_uIcc⟩ trivial
  | removeRatioInto ratio => exact hop.elim
  | removeAmountInto amount => exact hop.elim
  | transferGases ratio gases =>
    have hiff := gasesTransferred_temperature_mem_iff (gases.map GasId.index) hheats hf hs
      (le_max_left 0 (min ratio 1))
    refine Iff.trans ⟨And.right, fun h => ⟨?_, h⟩⟩ hiff
    rw [outcome, gasesTransferred_temperature_fst]
    exact Set.left_mem_uIcc
  | transferByFlags flags amount =>
    have hiff := gasesTransferred_temperature_mem_iff (w.flagged flags) hheats hf hs
      (le_max_left 0 (min (amount / totalMoles f) 1))
    simp only [outcome, flagsTransferred, Balanced]
    by_cases hidle : amount ≤ 0 ∨ w.flagged flags = [] ∨ totalMoles f ≤ 0
    · rw [if_pos hidle]
      refine iff_of_true ⟨Set.left_mem_uIcc, Set.right_mem_uIcc⟩ ?_
      tauto
    · rw [if_neg hidle, ← hiff, gasesTransferred_temperature_fst]
      simp only [not_or] at hidle
      simp only [hidle.1, hidle.2.1, hidle.2.2, Set.left_mem_uIcc, true_and, false_or]
  | transferRatio ratio =>
    exact iff_of_true (ratioTransferred_temperature_mem hheats hs.minimumHeatCapacity _) trivial
  | transferAmount amount =>
    exact iff_of_true (ratioTransferred_temperature_mem hheats hs.minimumHeatCapacity _) trivial
  | shareRatio ratio oneWay =>
    exact iff_of_true (shared_temperature_mem hf.minimumHeatCapacity hs.minimumHeatCapacity ..)
      trivial

end PairCommand

/-! ## The pairwise transfer of Equalize -/

/-- The heat capacity of what `transfer_moles` takes out of its source. -/
def removedCapacity (heats : List ℚ) (source : MixtureRecord ℚ) (amount : ℚ) : ℚ :=
  foldHeatCapacity (source.gases.map fun moles =>
    quantizedRemoval moles (min (amount / totalMoles source) 1)) heats

/-- When the temperature of the target stays between the two. -/
def MolesBalanced (heats : List ℚ) (source target : MixtureRecord ℚ) (amount : ℚ) : Prop :=
  amount ≤ 0 ∨ totalMoles source ≤ 0 ∨
    max (foldHeatCapacity target.gases heats + removedCapacity heats source amount)
      target.minimumHeatCapacity ≤ 3 / 10000 ∨
    min (max (target.minimumHeatCapacity - foldHeatCapacity target.gases heats) 0)
        (removedCapacity heats source amount) * max target.temperature source.temperature ≤
      Mixing.lesserWeight (recordHeatCapacity target heats) (removedCapacity heats source amount)
          target.temperature source.temperature *
        |target.temperature - source.temperature|

theorem foldHeatCapacity_add (left right : Gases ℚ) :
    foldHeatCapacity (Vector.zipWith (· + ·) left right) heats =
      foldHeatCapacity left heats + foldHeatCapacity right heats := by
  rw [foldHeatCapacity_eq, foldHeatCapacity_eq, foldHeatCapacity_eq, ← sum_add_distrib]
  refine sum_congr rfl fun index hindex => ?_
  rw [Gases.at_zipWith _ _ _ (mem_range.1 hindex)]
  ring

/-- The weights of `transfer_moles` exceed what it divides by by the minimum heat capacity that
the gas it moves makes up for. -/
theorem moles_excess {c m b : ℚ} (hb : 0 ≤ b) :
    max c m + b - max (c + b) m = min (max (m - c) 0) b := by
  rcases le_total m c with h | h
  · rw [max_eq_left h, max_eq_left (by linarith), max_eq_right (by linarith : m - c ≤ 0),
      min_eq_left hb]
    ring
  · rw [max_eq_right h, max_eq_left (by linarith : 0 ≤ m - c)]
    rcases le_total m (c + b) with h' | h'
    · rw [max_eq_left h', min_eq_left (by linarith)]
      ring
    · rw [max_eq_right h', min_eq_right (by linarith)]
      ring

/-- The temperatures `transfer_moles` leaves. -/
theorem transferMoles_temperature {amount moved : ℚ} {f' s' : MixtureRecord ℚ}
    (h : transferMoles (D := ℚ) f s amount (paddedHeats heats) = .ok (f', s', moved)) :
    f'.temperature = f.temperature ∧ s'.temperature =
      if ¬(amount ≤ 0 ∨ totalMoles f ≤ 0) ∧
          3 / 10000 < max (foldHeatCapacity s.gases heats + removedCapacity heats f amount)
            s.minimumHeatCapacity then
        (recordHeatCapacity s heats * s.temperature +
          removedCapacity heats f amount * f.temperature) /
            max (foldHeatCapacity s.gases heats + removedCapacity heats f amount)
              s.minimumHeatCapacity
      else s.temperature := by
  unfold transferMoles at h
  dsimp only at h
  by_cases hidle : amount ≤ 0 ∨ totalMoles f ≤ 0
  · rw [if_pos (by simpa using hidle)] at h
    cases h
    exact ⟨rfl, (if_neg fun hboth => hboth.1 hidle).symm⟩
  · rw [if_neg (by simpa using hidle)] at h
    split at h
    · cases h
    · cases h
      refine ⟨rfl, ?_⟩
      simp only [recordHeatCapacity_eq, foldHeatCapacity_paddedHeats, foldHeatCapacity_add,
        exact_minimumHeatCapacity, Exact.fmin_eq, exact_one, hidle, not_false_eq_true, true_and,
        removedCapacity]
      split <;> rfl

theorem removedCapacity_nonneg {amount : ℚ} (hheats : HeatsNonneg heats) (hf : f.Physical)
    (hamount : 0 ≤ amount) (htotal : 0 ≤ totalMoles f) : 0 ≤ removedCapacity heats f amount := by
  refine foldHeatCapacity_nonneg hheats fun index => ?_
  by_cases hindex : index < maxGasSlots
  · rw [Gases.at_map _ _ hindex]
    exact quantizedRemoval_nonneg (hf.amounts index) (le_min (by positivity) zero_le_one)
  · rw [Gases.at_of_le _ (Nat.le_of_not_lt hindex), exact_zero]

theorem transferMoles_temperature_mem_iff {amount moved : ℚ} {f' s' : MixtureRecord ℚ}
    (hheats : HeatsNonneg heats) (hf : f.Physical) (hs : s.Physical)
    (h : transferMoles (D := ℚ) f s amount (paddedHeats heats) = .ok (f', s', moved)) :
    (f'.temperature ∈ Set.uIcc f.temperature s.temperature ∧
      s'.temperature ∈ Set.uIcc f.temperature s.temperature) ↔ MolesBalanced heats f s amount := by
  obtain ⟨hfirst, hsecond⟩ := transferMoles_temperature h
  rw [hfirst, hsecond]
  simp only [Set.left_mem_uIcc, true_and]
  unfold MolesBalanced
  by_cases hidle : amount ≤ 0 ∨ totalMoles f ≤ 0
  · rw [if_neg fun hboth => hboth.1 hidle]
    refine iff_of_true Set.right_mem_uIcc ?_
    tauto
  have hremoved : 0 ≤ removedCapacity heats f amount := by
    rw [not_or, not_le, not_le] at hidle
    exact removedCapacity_nonneg hheats hf hidle.1.le hidle.2.le
  have hweights : max (foldHeatCapacity s.gases heats + removedCapacity heats f amount)
      s.minimumHeatCapacity ≤ recordHeatCapacity s heats + removedCapacity heats f amount := by
    rw [recordHeatCapacity_eq]
    refine max_le (by gcongr; exact le_max_left ..) ?_
    exact (le_max_right ..).trans (le_add_of_nonneg_right hremoved)
  by_cases hcapacity : 3 / 10000 < max (foldHeatCapacity s.gases heats +
      removedCapacity heats f amount) s.minimumHeatCapacity
  · rw [if_pos ⟨hidle, hcapacity⟩, Set.uIcc_comm, Mixing.scaled_mem_iff
      (recordHeatCapacity_nonneg hs.minimumHeatCapacity heats) hremoved (by linarith) hweights
      hs.temperature hf.temperature, recordHeatCapacity_eq, moles_excess hremoved]
    rw [not_or] at hidle
    simp only [hidle.1, hidle.2, not_le.2 hcapacity, false_or]
  · rw [if_neg fun hboth => hcapacity hboth.2]
    exact iff_of_true Set.right_mem_uIcc (.inr (.inr (.inl (not_lt.1 hcapacity))))

/-! ## The two together -/

/-- Every mutable participant is left at a temperature between the two there were. -/
def TemperaturesBetween (v : DogmosWorld ℚ) (first second : MixtureHandle)
    (f s : MixtureRecord ℚ) : Prop :=
  ∃ f' s', v.requireHandle first = .ok f' ∧ v.requireHandle second = .ok s' ∧
    (f.immutable = false → f'.temperature ∈ Set.uIcc f.temperature s.temperature) ∧
    (s.immutable = false → s'.temperature ∈ Set.uIcc f.temperature s.temperature)

theorem PairCommand.balanced_of_immutable {w : DogmosWorld ℚ} (op : PairCommand)
    (h : f.immutable = true ∨ s.immutable = true) : op.Balanced w f s := by
  cases op with
  | transferGases ratio gases => exact .inl (.inr h)
  | transferByFlags flags amount => exact .inr (.inr (.inr (.inl (.inr h))))
  | _ => exact trivial

theorem temperaturesBetween_iff {w v : DogmosWorld ℚ} {first second : MixtureHandle}
    (op : PairCommand) (hop : op.Mixes) (hheats : HeatsNonneg w.heats) (hf : f.Physical)
    (hs : s.Physical) (hleft : PairLeft w v first second f s (op.outcome w f s).1 (op.outcome w f s).2) :
    TemperaturesBetween v first second f s ↔ op.Balanced w f s := by
  obtain ⟨firstRevision, secondRevision, heffect⟩ := hleft
  have hiff := op.outcome_temperature_mem_iff hop hheats hf hs
  constructor
  · rintro ⟨f', s', hfirst, hsecond, hfirstMem, hsecondMem⟩
    rw [heffect.leftFirst] at hfirst
    rw [heffect.leftSecond] at hsecond
    cases hfirst
    cases hsecond
    cases hfirst : f.immutable with
    | true => exact op.balanced_of_immutable (.inl hfirst)
    | false =>
      cases hsecond : s.immutable with
      | true => exact op.balanced_of_immutable (.inr hsecond)
      | false => exact hiff.1 ⟨hfirstMem hfirst, hsecondMem hsecond⟩
  · intro hbalanced
    obtain ⟨hfirst, hsecond⟩ := hiff.2 hbalanced
    exact ⟨_, _, heffect.leftFirst, heffect.leftSecond, fun _ => hfirst, fun _ => hsecond⟩

/-- Mixing is convex exactly where the weights of a transfer do not exceed what it divides by, or
the colder mixture makes up for it: for the commands, and for the transfer of Equalize. -/
theorem mixing_convex_iff (f s : MixtureRecord ℚ) (hf : f.Physical) (hs : s.Physical) :
    (∀ (w v : DogmosWorld ℚ) (op : PairCommand) (first second : MixtureHandle) (clock : Nat → ℚ)
      (result : CommandResult ℚ), op.Mixes → w.Equipped → w.requireHandle first = .ok f →
      w.requireHandle second = .ok s →
      Exec.run (applyCommand (D := ℚ) (op.command first second) clock) w = (.ok result, v) →
      (TemperaturesBetween v first second f s ↔ op.Balanced w f s)) ∧
    ∀ (heats : List ℚ) (f' s' : MixtureRecord ℚ) (amount moved : ℚ), HeatsNonneg heats →
      transferMoles (D := ℚ) f s amount (paddedHeats heats) = .ok (f', s', moved) →
      ((f'.temperature ∈ Set.uIcc f.temperature s.temperature ∧
        s'.temperature ∈ Set.uIcc f.temperature s.temperature) ↔
          MolesBalanced heats f s amount) := by
  constructor
  · intro w v op first second clock result hop hequipped hfirst hsecond hrun
    exact temperaturesBetween_iff op hop hequipped.heats_nonneg hf hs
      (leaves_pairCommand op clock hfirst hsecond result v hrun)
  · intro heats f' s' amount moved hheats hmoles
    exact transferMoles_temperature_mem_iff hheats hf hs hmoles

/-! ## Two mixtures at one temperature -/

/-- A gas with a specific heat of ten. -/
def tenfoldGas : GasMetadata ℚ :=
  { id := ⟨0⟩, key := "o2", name := "Oxygen", flags := 0, specificHeat := 10, fusionPower := 0
    molesVisible := none, enthalpy := 0, fireRadiationReleased := 0, fireRole := .none
    fireProducts := none }

/-- Ten moles at 300 K, and an empty mixture at 300 K with a minimum heat capacity. -/
def evenPair : DogmosWorld ℚ :=
  System.run (step (D := ℚ)) (newWithCapacities 0 0 100000 8 4)
    [.installGases [tenfoldGas], .applyLifecycle [⟨.register, ⟨0, 1⟩⟩, ⟨.register, ⟨1, 1⟩⟩],
      .applyCommand (.setMoles ⟨0, 1⟩ ⟨0⟩ 10) fun _ => 0,
      .applyCommand (.setTemperature ⟨0, 1⟩ 300) fun _ => 0,
      .applyCommand (.setTemperature ⟨1, 1⟩ 300) fun _ => 0,
      .applyCommand (.setMinimumHeatCapacity ⟨1, 1⟩ 100) fun _ => 0]

/-- A record that a handle finds. -/
theorem exists_of_map {α : Type} {w : DogmosWorld ℚ} {handle : MixtureHandle}
    (g : MixtureRecord ℚ → α) {a : α} (h : (w.requireHandle handle).toOption.map g = some a) :
    ∃ record, w.requireHandle handle = .ok record ∧ g record = a := by
  rcases hrecord : w.requireHandle handle with error | record
  · rw [hrecord] at h
    cases h
  · rw [hrecord] at h
    exact ⟨record, rfl, Option.some.inj h⟩

theorem exists_of_toBool {ε α σ : Type} {m : Exec ε σ α} {w : σ}
    (h : (Exec.run m w).1.toBool = true) :
    ∃ a, Exec.run m w = (.ok a, (Exec.run m w).2) := by
  rcases hrun : Exec.run m w with ⟨error | a, v⟩
  · rw [hrun] at h
    cases h
  · exact ⟨a, rfl⟩

theorem evenPair_first : ∃ f, evenPair.requireHandle ⟨0, 1⟩ = .ok f ∧
    (f.isPhysical, f.temperature) = (true, 300) :=
  exists_of_map (fun f => (f.isPhysical, f.temperature)) (by decide +kernel)

theorem evenPair_second : ∃ s, evenPair.requireHandle ⟨1, 1⟩ = .ok s ∧
    (s.isPhysical, s.immutable, s.temperature) = (true, false, 300) :=
  exists_of_map (fun s => (s.isPhysical, s.immutable, s.temperature)) (by decide +kernel)

theorem evenPair_reachable : Reachable (D := ℚ) evenPair :=
  System.reachable_run ⟨0, 0, 100000, 8, 4, rfl⟩ _

/-- A mixture at 300 K. -/
def evenMixture (amount minimum : ℚ) : MixtureRecord ℚ :=
  { MixtureRecord.new with
    gases := noGases.put 0 amount, temperature := 300, minimumHeatCapacity := minimum }

theorem mixing_convex_iff_evenPair :
    (∃ f s v, evenPair.requireHandle ⟨0, 1⟩ = .ok f ∧ evenPair.requireHandle ⟨1, 1⟩ = .ok s ∧
      TemperaturesBetween v ⟨0, 1⟩ ⟨1, 1⟩ f s) ∧
    ∃ source' target' : MixtureRecord ℚ,
      (source'.temperature ∈ Set.uIcc (evenMixture 10 0).temperature (evenMixture 5 0).temperature ∧
        target'.temperature ∈ Set.uIcc (evenMixture 10 0).temperature
          (evenMixture 5 0).temperature) ↔ MolesBalanced [10] (evenMixture 10 0) (evenMixture 5 0) 2 := by
  constructor
  · obtain ⟨f, hfirst, hf⟩ := evenPair_first
    obtain ⟨s, hsecond, hs⟩ := evenPair_second
    obtain ⟨result, hrun⟩ : ∃ result, Exec.run (applyCommand (D := ℚ)
        (PairCommand.merge.command ⟨0, 1⟩ ⟨1, 1⟩) fun _ => 0) evenPair = (.ok result, _) :=
      exists_of_toBool (by decide +kernel)
    refine ⟨f, s, _, hfirst, hsecond, ((mixing_convex_iff f s
      (MixtureRecord.physical_of_isPhysical (Prod.mk.inj hf).1)
      (MixtureRecord.physical_of_isPhysical (Prod.mk.inj hs).1)).1 evenPair _ .merge ⟨0, 1⟩ ⟨1, 1⟩ _
      result trivial (equipped_of_reachable evenPair_reachable) hfirst hsecond hrun).2 trivial⟩
  · have hmoles : (transferMoles (D := ℚ) (evenMixture 10 0) (evenMixture 5 0) 2
        (paddedHeats [10])).toBool = true := by decide +kernel
    rcases hresult : transferMoles (D := ℚ) (evenMixture 10 0) (evenMixture 5 0) 2
        (paddedHeats [10]) with gas | ⟨source', target', moved⟩
    · rw [hresult] at hmoles
      cases hmoles
    · refine ⟨source', target', (mixing_convex_iff (evenMixture 10 0) (evenMixture 5 0)
        (MixtureRecord.physical_of_isPhysical (by decide +kernel))
        (MixtureRecord.physical_of_isPhysical (by decide +kernel))).2 [10] source' target' 2 moved ?_
          hresult⟩
      intro index
      match index with
      | 0 => norm_num [heatAt]
      | _ + 1 => simp [heatAt]

/-- A transfer between two mixtures at 300 K leaves one of them at 600 K. -/
theorem mixing_not_convex : ¬∀ (w v : DogmosWorld ℚ) (op : PairCommand)
    (first second : MixtureHandle) (f s : MixtureRecord ℚ) (clock : Nat → ℚ)
    (result : CommandResult ℚ), Reachable (D := ℚ) w → op.Mixes → f.Physical → s.Physical →
    w.requireHandle first = .ok f → w.requireHandle second = .ok s →
    Exec.run (applyCommand (D := ℚ) (op.command first second) clock) w = (.ok result, v) →
    TemperaturesBetween v first second f s := by
  intro h
  obtain ⟨f, hfirst, hf⟩ := evenPair_first
  obtain ⟨s, hsecond, hs⟩ := evenPair_second
  obtain ⟨hfPhysical, hfTemperature⟩ := Prod.mk.inj hf
  obtain ⟨hsPhysical, hs⟩ := Prod.mk.inj hs
  obtain ⟨hmutable, hsTemperature⟩ := Prod.mk.inj hs
  obtain ⟨result, hrun⟩ : ∃ result, Exec.run (applyCommand (D := ℚ)
      ((PairCommand.transferGases 1 [⟨0⟩]).command ⟨0, 1⟩ ⟨1, 1⟩) fun _ => 0) evenPair =
        (.ok result, _) := exists_of_toBool (by decide +kernel)
  obtain ⟨-, s', -, hafter, -, hmem⟩ := h evenPair _ (.transferGases 1 [⟨0⟩]) ⟨0, 1⟩ ⟨1, 1⟩ f s _
    result evenPair_reachable trivial (MixtureRecord.physical_of_isPhysical hfPhysical)
    (MixtureRecord.physical_of_isPhysical hsPhysical) hfirst hsecond hrun
  have hheated : ((Exec.run (applyCommand (D := ℚ) ((PairCommand.transferGases 1 [⟨0⟩]).command
      ⟨0, 1⟩ ⟨1, 1⟩) fun _ => 0) evenPair).2.requireHandle ⟨1, 1⟩).toOption.map
        MixtureRecord.temperature = some 600 := by decide +kernel
  rw [hafter] at hheated
  have hmem := hmem hmutable
  rw [hfTemperature, hsTemperature, Set.uIcc_self, Set.mem_singleton_iff] at hmem
  rw [Except.toOption, Option.map_some, hmem] at hheated
  norm_num at hheated

end Dogmos
