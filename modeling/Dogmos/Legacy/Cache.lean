import Dogmos.Legacy.Removal
import Dogmos.Lib.System
import Mathlib.Algebra.BigOperators.Ring.Finset

/-!
# The heat capacity cache of legacy mixtures

Most mutators invalidate the cache, and reading the heat capacity fills it.  Three do something
else: `merge` and `share_ratio` set it to the sum of two heat capacities that were each raised to a
minimum, and `copy_from_mutable` copies it without the minimum it was raised to.  A transfer that
is refused half way changes the source and leaves its cache.

* `Coherent` — reading the heat capacity returns what recomputing it returns.
* `Merges`, `Shares`, `Copies`, `Finishes` — when each of the four leaves a coherent cache.
* `cache_coherent` — in every run whose steps meet these conditions, every cache is coherent.
-/

namespace Dogmos

namespace Legacy

open Exec Mixture

variable {F D : Type}

/-! ## Operations on a store of mixtures -/

/-- The mixtures by index. -/
abbrev Store (F : Type) := Nat → Mixture F

/-- An operation on the mixtures of a store. -/
inductive Op (F : Type)
  | heatCapacity (i : Nat)
  | setTemperature (i : Nat) (temperature : F)
  | setMinHeatCapacity (i : Nat) (amount : F)
  | setMoles (i idx : Nat) (amount : F)
  | adjustMoles (i idx : Nat) (amount : F)
  | adjustMulti (i : Nat) (adjustments : List (Nat × F))
  | multiply (i : Nat) (multiplier : F)
  | add (i : Nat) (num : F)
  | clear (i : Nat)
  | clearWithVol (i : Nat) (volume : F)
  | fixCorruption (i : Nat)
  | markImmutable (i : Nat)
  | copyFromMutable (i sample : Nat)
  | merge (i giver : Nat)
  | shareRatio (i giver : Nat) (ratio : F)
  | removeRatioInto (i into : Nat) (ratio : F)
  | transferGasesTo (i into : Nat) (ratio : F) (gases : List Nat)
  | temperatureShare (i sharer : Nat) (conductionCoefficient : F)

/-- One mixture changed. -/
def Store.onOne (store : Store F) (i : Nat) (f : Mixture F → Mixture F) : Store F :=
  Function.update store i (f (store i))

/-- Two mixtures changed.  A mixture that is borrowed mutably is no second argument as well, so two
equal indices change nothing. -/
def Store.onPair (store : Store F) (i j : Nat)
    (f : Mixture F × Mixture F → Mixture F × Mixture F) : Store F :=
  if i = j then store
  else
    let pair := f (store i, store j)
    Function.update (Function.update store i pair.1) j pair.2

section Step

variable [FloatFormat F] [FloatFormat D] [FloatCast F D]

/-- One operation; one that fails leaves what it had changed. -/
def stepStore (table : GasTable F) (store : Store F) : Op F → Store F
  | .heatCapacity i => store.onOne i fun m => m.measured table
  | .setTemperature i temperature => store.onOne i fun m => m.setTemperature temperature
  | .setMinHeatCapacity i amount => store.onOne i fun m => m.setMinHeatCapacity amount
  | .setMoles i idx amount => store.onOne i (final (setMoles table idx amount))
  | .adjustMoles i idx amount => store.onOne i (final (adjustMoles (D := D) table idx amount))
  | .adjustMulti i adjustments => store.onOne i (final (adjustMulti (D := D) table adjustments))
  | .multiply i multiplier => store.onOne i fun m => m.multiply (D := D) multiplier
  | .add i num => store.onOne i fun m => m.add (D := D) num
  | .clear i => store.onOne i clear
  | .clearWithVol i volume => store.onOne i fun m => m.clearWithVol volume
  | .fixCorruption i => store.onOne i fun m => m.fixCorruption table
  | .markImmutable i => store.onOne i markImmutable
  | .copyFromMutable i sample =>
    store.onPair i sample fun pair => (pair.1.copyFromMutable pair.2, pair.2)
  | .merge i giver => store.onPair i giver fun pair => pair.1.merge (D := D) pair.2 table
  | .shareRatio i giver ratio =>
    store.onPair i giver fun pair => pair.1.shareRatio (D := D) pair.2 ratio table
  | .removeRatioInto i into ratio =>
    store.onPair i into fun pair => pair.1.removeRatioInto ratio pair.2
  | .transferGasesTo i into ratio gases =>
    store.onPair i into (final (transferGasesTo (D := D) table ratio gases))
  | .temperatureShare i sharer conductionCoefficient =>
    store.onPair i sharer fun pair =>
      let shared := pair.1.temperatureShare pair.2 conductionCoefficient table
      (shared.1, shared.2.1)

end Step

/-! ## Heat capacities -/

namespace Mixture

open Finset

variable {m m' : Mixture ℚ} {table : GasTable ℚ}

/-- The heat capacity of the gases alone. -/
def gasHeatCapacity (m : Mixture ℚ) (table : GasTable ℚ) : ℚ :=
  (m.moles.zip table.specificHeats).foldl (fun sum (amount, cap) => mulAdd cap amount sum) 0.0

theorem slowHeatCapacity_eq (m : Mixture ℚ) (table : GasTable ℚ) :
    m.slowHeatCapacity table = max (m.gasHeatCapacity table) m.minHeatCapacity := rfl

theorem gasHeatCapacity_eq (m : Mixture ℚ) (table : GasTable ℚ) : m.gasHeatCapacity table =
    ∑ i ∈ range table.length, heatAt table.specificHeats i * m.getMoles i := by
  have hzero : ∀ i, table.length ≤ i → heatAt table.specificHeats i = 0 := by
    intro i hi
    rw [heatAt, List.getElem?_eq_none (by simpa [GasTable.specificHeats] using hi)]
    rfl
  rw [gasHeatCapacity, foldHeatCapacity_lists, exact_zero, zero_add]
  simp only [← getMoles_eq]
  rcases le_total table.length m.moles.length with hle | hle
  · refine (sum_subset (range_subset_range.2 hle) fun i _ hi => ?_).symm
    rw [hzero i (by simpa using hi), zero_mul]
  · refine sum_subset (range_subset_range.2 hle) fun i _ hi => ?_
    rw [getMoles_of_le (by simpa using hi), mul_zero]

theorem gasHeatCapacity_congr (h : m'.moles = m.moles) :
    m'.gasHeatCapacity table = m.gasHeatCapacity table := by
  rw [gasHeatCapacity, gasHeatCapacity, h]

/-! ## Coherence -/

/-- Reading the heat capacity returns what recomputing it returns. -/
def Coherent (table : GasTable ℚ) (m : Mixture ℚ) : Prop :=
  m.heatCapacity table = m.slowHeatCapacity table

theorem set_eq (value : ℚ) : GasCache.set value = some value := by
  simp [GasCache.set, isNan]

theorem coherent_of_none (h : m.cachedHeatCapacity = none) : Coherent table m := by
  rw [Coherent, heatCapacity, h]
  rfl

theorem coherent_of_some (h : m.cachedHeatCapacity = some (m.slowHeatCapacity table)) :
    Coherent table m := by
  rw [Coherent, heatCapacity, h]
  rfl

/-- A mixture with the gases, the minimum and the cache of a coherent one is coherent. -/
theorem Coherent.of_same (h : Coherent table m) (hmoles : m'.moles = m.moles)
    (hminimum : m'.minHeatCapacity = m.minHeatCapacity)
    (hcache : m'.cachedHeatCapacity = m.cachedHeatCapacity) : Coherent table m' := by
  have hslow : m'.slowHeatCapacity table = m.slowHeatCapacity table := by
    rw [slowHeatCapacity_eq, slowHeatCapacity_eq, gasHeatCapacity_congr hmoles, hminimum]
  rw [Coherent, heatCapacity, hcache, hslow]
  exact h

theorem Coherent.measured (h : Coherent table m) : Coherent table (m.measured table) := by
  refine coherent_of_some ?_
  show ((m.cachedHeatCapacity).getOrElse (m.slowHeatCapacity table)).2 = _
  rcases hcache : m.cachedHeatCapacity with _ | cached
  · exact set_eq _
  · rw [Coherent, heatCapacity, hcache] at h
    exact congrArg some h

theorem Coherent.setTemperature (h : Coherent table m) (temperature : ℚ) :
    Coherent table (m.setTemperature temperature) := by
  unfold Mixture.setTemperature
  split
  · exact h.of_same rfl rfl rfl
  · exact h

theorem Coherent.putMoles (h : Coherent table m) (idx : Nat) (amount : ℚ) :
    Coherent table (m.putMoles idx amount) := by
  unfold Mixture.putMoles
  dsimp only
  split_ifs
  · exact h
  · exact h
  · exact coherent_of_none rfl
  · exact coherent_of_none rfl

theorem coherent_invalidated (m : Mixture ℚ) : Coherent table m.invalidated := coherent_of_none rfl

/-! ### One mixture -/

section Single

variable {idx : Nat} {amount : ℚ}

theorem keeps_setMoles : Keeps (Coherent table) (setMoles table idx amount) := by
  refine keeps_check_bind fun amount => ?_
  split
  · exact fun _ h => h
  · exact keeps_modify fun m h => h.putMoles idx amount

theorem keeps_adjustMoles : Keeps (Coherent table) (adjustMoles (D := ℚ) table idx amount) := by
  refine keeps_check_bind fun amount => ?_
  split
  · exact fun _ h => h
  · refine keeps_get_bind fun m => ?_
    split
    · exact keeps_pure _
    · dsimp only
      split
      · exact fun _ h => h
      · exact keeps_setMoles

theorem keeps_adjustMulti (adjustments : List (Nat × ℚ)) :
    Keeps (Coherent table) (adjustMulti (D := ℚ) table adjustments) := by
  refine keeps_check_bind fun results => keeps_get_bind fun m => ?_
  split
  · exact keeps_pure _
  · exact keeps_forM fun _ _ => keeps_setMoles

theorem Coherent.setMinHeatCapacity (h : Coherent table m) (amount : ℚ) :
    Coherent table (m.setMinHeatCapacity amount) := by
  unfold Mixture.setMinHeatCapacity
  split
  · exact coherent_of_none rfl
  · exact h

theorem Coherent.multiply (h : Coherent table m) (multiplier : ℚ) :
    Coherent table (m.multiply (D := ℚ) multiplier) := by
  unfold Mixture.multiply
  split
  · exact coherent_of_none rfl
  · exact h

theorem Coherent.add (h : Coherent table m) (num : ℚ) :
    Coherent table (m.add (D := ℚ) num) := by
  unfold Mixture.add
  split
  · exact coherent_of_none rfl
  · exact h

theorem Coherent.clear (h : Coherent table m) : Coherent table m.clear := by
  unfold Mixture.clear
  split
  · exact coherent_of_none rfl
  · exact h

theorem coherent_clearWithVol (m : Mixture ℚ) (volume : ℚ) :
    Coherent table (m.clearWithVol volume) := coherent_of_none rfl

theorem coherent_fixCorruption (m : Mixture ℚ) : Coherent table (m.fixCorruption table) :=
  coherent_of_none rfl

end Single

/-! ### Two mixtures -/

section Pairs

variable {giver : Mixture ℚ}

/-- A sum of two heat capacities that were raised to a minimum each is the sum raised to the first
minimum: neither was raised, or the second is zero. -/
def AddsUp (gas least gas' least' : ℚ) : Prop :=
  (least ≤ gas ∧ least' ≤ gas' ∧ 0 ≤ gas') ∨ (gas' = 0 ∧ least' ≤ 0)

theorem AddsUp.max_add {gas least gas' least' : ℚ} (h : AddsUp gas least gas' least') :
    max (gas + gas') least = max gas least + max gas' least' := by
  rcases h with ⟨hleast, hleast', hgas'⟩ | ⟨hgas, hleast'⟩
  · rw [max_eq_left hleast, max_eq_left hleast', max_eq_left (by linarith)]
  · rw [hgas, max_eq_left hleast', add_zero, add_zero]

/-- No gas with a specific heat is cut off at the largest number. -/
def Unsaturated (table : GasTable ℚ) (m giver : Mixture ℚ) (ratio : ℚ) : Prop :=
  ∀ i < table.length, heatAt table.specificHeats i = 0 ∨
    m.getMoles i + giver.getMoles i * ratio ≤ Exact.largest

/-- When `merge` leaves a coherent cache. -/
def Merges (table : GasTable ℚ) (m giver : Mixture ℚ) : Prop :=
  m.immutable = true ∨ (Unsaturated table m giver 1 ∧
    AddsUp (m.gasHeatCapacity table) m.minHeatCapacity (giver.gasHeatCapacity table)
      giver.minHeatCapacity)

/-- When `share_ratio` leaves a coherent cache: as `merge`, with what each side puts in. -/
def Shares (table : GasTable ℚ) (m giver : Mixture ℚ) (ratio : ℚ) : Prop :=
  m.immutable = true ∨ (Unsaturated table (m.multiply (D := ℚ) (1 - ratio)) giver ratio ∧
    AddsUp ((m.multiply (D := ℚ) (1 - ratio)).gasHeatCapacity table) m.minHeatCapacity
      (giver.gasHeatCapacity table * ratio) (giver.minHeatCapacity * ratio))

/-- When `copy_from_mutable` leaves a coherent cache: the copied one is invalid, or the two minimum
heat capacities raise the heat capacity of the copied gases alike. -/
def Copies (table : GasTable ℚ) (m sample : Mixture ℚ) : Prop :=
  m.immutable = true ∨ sample.cachedHeatCapacity = none ∨
    max (sample.gasHeatCapacity table) m.minHeatCapacity =
      max (sample.gasHeatCapacity table) sample.minHeatCapacity

/-- When `transfer_gases_to` leaves a coherent cache: it does not stop between two portions, or the
cache of the source is invalid anyway. -/
def Finishes (table : GasTable ℚ) (source into : Mixture ℚ) (ratio : ℚ) (gases : List Nat) : Prop :=
  source.immutable = true ∨ into.immutable = true ∨ source.cachedHeatCapacity = none ∨
    into.firstOverflow (source.transfers table ratio gases) ≠ none ∨
    Accepts table (into.measured table) (source.transfers table ratio gases)

theorem getMoles_addAmounts (m giver : Mixture ℚ) (added : ℚ → ℚ → ℚ) (i : Nat) :
    (m.addAmounts giver added).getMoles i =
      if i < giver.moles.length then added (m.getMoles i) (giver.getMoles i)
      else m.getMoles i := by
  have hlength : giver.moles.length ≤ (m.maybeExpand giver.moles.length).moles.length := by
    simp [maybeExpand]
    omega
  rw [← getMoles_maybeExpand m giver.moles.length i]
  unfold addAmounts
  generalize m.maybeExpand giver.moles.length = expanded at hlength ⊢
  simp only [getMoles_eq, List.getElem?_append, List.getElem?_zipWith, List.length_zipWith,
    Nat.min_eq_right hlength, List.getElem?_drop]
  split
  · next hi =>
    rw [List.getElem?_eq_getElem hi, List.getElem?_eq_getElem (Nat.lt_of_lt_of_le hi hlength)]
    rfl
  · next hi => rw [Nat.add_sub_cancel' (Nat.le_of_not_lt hi)]

/-- Merging adds the amounts, up to the largest number. -/
theorem getMoles_merge (hmutable : m.immutable = false) (i : Nat)
    (hfits : m.getMoles i ≤ Exact.largest) : (m.merge (D := ℚ) giver table).1.getMoles i =
      min (m.getMoles i + giver.getMoles i) Exact.largest := by
  unfold merge
  rw [hmutable]
  have hmixed : ∀ (summed : Mixture ℚ) (ours others temperature : ℚ),
      (summed.mixed ours others temperature).getMoles i = summed.getMoles i := by
    intro summed ours others temperature
    unfold Mixture.mixed
    dsimp only
    split
    · exact getMoles_setTemperature ..
    · rfl
  rw [if_neg Bool.false_ne_true, hmixed, getMoles_addAmounts]
  split
  · rfl
  · next hpast =>
    rw [getMoles_of_le (m := giver) (Nat.le_of_not_lt hpast), add_zero, min_eq_left hfits]

/-- Adding amounts that are not cut off adds the heat capacities of the gases. -/
theorem gasHeatCapacity_addAmounts {ratio : ℚ} (h : Unsaturated table m giver ratio) :
    (m.addAmounts giver fun amount added =>
        saturated (D := ℚ) (widen amount + widen added * widen ratio)).gasHeatCapacity table =
      m.gasHeatCapacity table + giver.gasHeatCapacity table * ratio := by
  rw [gasHeatCapacity_eq, gasHeatCapacity_eq, gasHeatCapacity_eq, sum_mul, ← sum_add_distrib]
  refine sum_congr rfl fun i hi => ?_
  rw [mul_assoc, ← mul_add]
  rcases h i (mem_range.1 hi) with hheat | hfits
  · rw [hheat, zero_mul, zero_mul]
  · congr 1
    rw [getMoles_addAmounts]
    split
    · exact min_eq_left hfits
    · next hpast => rw [getMoles_of_le (Nat.le_of_not_lt hpast), zero_mul, add_zero]

theorem Coherent.mixed {a b : ℚ} (h : m.slowHeatCapacity table = a + b) (temperature : ℚ) :
    Coherent table (m.mixed a b temperature) := by
  have hcache : (m.mixed a b temperature).cachedHeatCapacity = some (a + b) := set_eq _
  have hslow : (m.mixed a b temperature).slowHeatCapacity table = m.slowHeatCapacity table := by
    unfold Mixture.mixed Mixture.setTemperature
    dsimp only
    split_ifs <;> rfl
  refine coherent_of_some ?_
  rw [hcache, hslow, h]

theorem Coherent.merge (hm : Coherent table m) (hgiver : Coherent table giver)
    (hmerges : Merges table m giver) :
    Coherent table (m.merge (D := ℚ) giver table).1 ∧
      Coherent table (m.merge (D := ℚ) giver table).2 := by
  unfold Mixture.merge
  split
  · exact ⟨hm, hgiver⟩
  · next hmutable =>
    obtain ⟨hunsaturated, hadds⟩ := hmerges.resolve_left hmutable
    refine ⟨Coherent.mixed ?_ _, hgiver.measured⟩
    have hgas := gasHeatCapacity_addAmounts hunsaturated
    simp only [Exact.widen_eq, mul_one] at hgas
    rw [hm, hgiver, slowHeatCapacity_eq, slowHeatCapacity_eq, slowHeatCapacity_eq, ← hadds.max_add,
      ← hgas]
    rfl

theorem Coherent.shareRatio (hm : Coherent table m) (hgiver : Coherent table giver) {r : ℚ}
    (hshares : Shares table m giver (max 0 (min r 1))) :
    Coherent table (m.shareRatio (D := ℚ) giver r table).1 ∧
      Coherent table (m.shareRatio (D := ℚ) giver r table).2 := by
  unfold Mixture.shareRatio
  split
  · exact ⟨hm, hgiver⟩
  · next hmutable =>
    obtain ⟨hunsaturated, hadds⟩ := hshares.resolve_left hmutable
    dsimp only
    rw [clamp_eq, exact_one]
    have hratio : 0 ≤ max 0 (min r 1) := le_max_left ..
    generalize max 0 (min r 1) = ratio at hunsaturated hadds hratio ⊢
    refine ⟨Coherent.mixed ?_ _, hgiver.measured⟩
    have hgas := gasHeatCapacity_addAmounts hunsaturated
    have hkept : Coherent table (m.multiply (D := ℚ) (1 - ratio)) := hm.multiply _
    have hminimum : (m.multiply (D := ℚ) (1 - ratio)).minHeatCapacity = m.minHeatCapacity := by
      unfold Mixture.multiply
      split <;> rfl
    rw [hkept, hgiver, slowHeatCapacity_eq, slowHeatCapacity_eq, slowHeatCapacity_eq,
      max_mul_of_nonneg _ _ hratio, hminimum, ← hadds.max_add, ← hgas, ← hminimum]
    rfl

theorem Coherent.copyFromMutable (hm : Coherent table m) (hsample : Coherent table giver)
    (hcopies : Copies table m giver) : Coherent table (m.copyFromMutable giver) := by
  unfold Mixture.copyFromMutable
  split
  · exact hm
  · next hmutable =>
    rcases hcache : giver.cachedHeatCapacity with _ | cached
    · exact coherent_of_none rfl
    · have hsame := (hcopies.resolve_left hmutable).resolve_left (by rw [hcache]; simp)
      rw [Coherent, heatCapacity, hcache] at hsample
      refine coherent_of_some ?_
      dsimp only
      rw [Option.some.injEq]
      exact (show cached = _ from hsample).trans hsame.symm

theorem Coherent.removeRatioInto (hm : Coherent table m) (hinto : Coherent table giver)
    (ratio : ℚ) : Coherent table (m.removeRatioInto ratio giver).1 ∧
      Coherent table (m.removeRatioInto ratio giver).2 := by
  unfold Mixture.removeRatioInto
  dsimp only
  split_ifs
  · exact ⟨hm, hinto⟩
  · exact ⟨hm, hinto⟩
  · exact ⟨hm, coherent_of_none rfl⟩
  · exact ⟨coherent_of_none rfl, coherent_of_none rfl⟩

theorem Coherent.temperatureShare (hm : Coherent table m) (hsharer : Coherent table giver)
    (conductionCoefficient : ℚ) :
    Coherent table (m.temperatureShare giver conductionCoefficient table).1 ∧
      Coherent table (m.temperatureShare giver conductionCoefficient table).2.1 := by
  unfold Mixture.temperatureShare
  dsimp only
  split_ifs
  · exact ⟨hm.measured.setTemperature _, hsharer.measured.setTemperature _⟩
  · exact ⟨hm.measured, hsharer.measured⟩
  · exact ⟨hm, hsharer⟩

/-- The loop over the transfers fails where the destination refuses a portion. -/
theorem fst_run_moveGas (table : GasTable ℚ) (transfers : List (Nat × ℚ)) :
    ∀ source into : Mixture ℚ, (run (transfers.forM (moveGas (D := ℚ) table)) (source, into)).1 =
      (run (transfers.forM fun transfer => adjustMoles (D := ℚ) table transfer.1 transfer.2)
        into).1 := by
  induction transfers with
  | nil => exact fun _ _ => rfl
  | cons transfer rest ih =>
    intro source into
    obtain ⟨idx, delta⟩ := transfer
    rw [run_forM_cons, run_forM_cons, run_bind, run_bind, run_moveGas]
    dsimp only
    rcases run (adjustMoles (D := ℚ) table idx delta) into with ⟨error | value, into'⟩
    · rfl
    · exact ih _ into'

/-- The loop keeps the destination coherent, and the cache of the source. -/
theorem keeps_moveGas (table : GasTable ℚ) (transfers : List (Nat × ℚ)) (cache : GasCache ℚ) :
    Keeps (fun pair => pair.1.cachedHeatCapacity = cache ∧ Coherent table pair.2)
      (transfers.forM (moveGas (D := ℚ) table)) := by
  refine keeps_forM fun transfer _ pair hpair => ?_
  obtain ⟨source, into⟩ := pair
  obtain ⟨idx, delta⟩ := transfer
  rw [run_moveGas]
  exact ⟨hpair.1, keeps_adjustMoles into hpair.2⟩

theorem Coherent.reheated (m : Mixture ℚ) (energy : ℚ) :
    Coherent table (m.reheated table energy) := by
  unfold Mixture.reheated
  split
  · exact (coherent_invalidated m).measured.setTemperature _
  · exact (coherent_invalidated m).measured

theorem Coherent.transferGasesTo (hm : Coherent table m) (hinto : Coherent table giver)
    (ratio : ℚ) (gases : List Nat)
    (hfinishes : Finishes table m giver (max 0 (min ratio 1)) gases) :
    Coherent table (final (Mixture.transferGasesTo (D := ℚ) table ratio gases) (m, giver)).1 ∧
      Coherent table (final (Mixture.transferGasesTo (D := ℚ) table ratio gases) (m, giver)).2 := by
  by_cases himmutable : m.immutable = true ∨ giver.immutable = true
  · have hnothing : final (Mixture.transferGasesTo (D := ℚ) table ratio gases) (m, giver) =
        (m, giver) := by
      unfold final Mixture.transferGasesTo
      rw [run_bind, run_get]
      dsimp only
      rw [if_pos (by simpa using himmutable)]
      rfl
    rw [hnothing]
    exact ⟨hm, hinto⟩
  rw [not_or, Bool.not_eq_true, Bool.not_eq_true] at himmutable
  obtain ⟨energy, hrun⟩ := run_transferGasesTo table himmutable.1 himmutable.2 ratio gases
  have hkeeps := keeps_moveGas table (m.transfers table (max 0 (min ratio 1)) gases)
    m.cachedHeatCapacity (m, giver.measured table) ⟨rfl, hinto.measured⟩
  have hresult := fst_run_moveGas table
    (m.transfers table (max 0 (min ratio 1)) gases) m (giver.measured table)
  unfold final
  rw [hrun]
  unfold Finishes Accepts at hfinishes
  rw [himmutable.1, himmutable.2, ← hresult] at hfinishes
  rcases hoverflow : giver.firstOverflow (m.transfers table (max 0 (min ratio 1)) gases) with
    _ | idx
  · dsimp only
    generalize run ((m.transfers table (max 0 (min ratio 1)) gases).forM (moveGas (D := ℚ) table))
      (m, giver.measured table) = outcome at hkeeps hfinishes ⊢
    rcases outcome with ⟨error | value, source', into'⟩
    · -- stopped between two portions, which only an invalid cache of the source survives
      have hnone : m.cachedHeatCapacity = none := by
        rcases hfinishes with h | h | h | h | h
        · cases h
        · cases h
        · exact h
        · exact absurd hoverflow h
        · cases h
      exact ⟨coherent_of_none (hkeeps.1.trans hnone), hkeeps.2⟩
    · exact ⟨coherent_invalidated _, .reheated _ _⟩
  · exact ⟨hm, hinto.measured⟩

end Pairs

end Mixture

/-! ## Runs -/

/-- The condition under which an operation leaves coherent caches. -/
def MeetsCondition (table : GasTable ℚ) (store : Store ℚ) : Op ℚ → Prop
  | .copyFromMutable i sample => Copies table (store i) (store sample)
  | .merge i giver => Merges table (store i) (store giver)
  | .shareRatio i giver ratio => Shares table (store i) (store giver) (max 0 (min ratio 1))
  | .transferGasesTo i into ratio gases =>
    Finishes table (store i) (store into) (max 0 (min ratio 1)) gases
  | _ => True

/-- Every cache of a store is coherent. -/
def AllCoherent (table : GasTable ℚ) (store : Store ℚ) : Prop := ∀ i, Coherent table (store i)

section Runs

variable {table : GasTable ℚ} {store : Store ℚ}

theorem AllCoherent.onOne (h : AllCoherent table store) (i : Nat) {f : Mixture ℚ → Mixture ℚ}
    (hf : Coherent table (f (store i))) : AllCoherent table (store.onOne i f) := by
  intro k
  unfold Store.onOne
  by_cases hk : k = i
  · rw [hk, Function.update_self]
    exact hf
  · rw [Function.update_of_ne hk]
    exact h k

theorem AllCoherent.onPair (h : AllCoherent table store) (i j : Nat)
    {f : Mixture ℚ × Mixture ℚ → Mixture ℚ × Mixture ℚ}
    (hf : Coherent table (f (store i, store j)).1 ∧ Coherent table (f (store i, store j)).2) :
    AllCoherent table (store.onPair i j f) := by
  intro k
  unfold Store.onPair
  split
  · exact h k
  · by_cases hj : k = j
    · rw [hj, Function.update_self]
      exact hf.2
    · rw [Function.update_of_ne hj]
      by_cases hi : k = i
      · rw [hi, Function.update_self]
        exact hf.1
      · rw [Function.update_of_ne hi]
        exact h k

theorem AllCoherent.step (h : AllCoherent table store) (op : Op ℚ)
    (hop : MeetsCondition table store op) :
    AllCoherent table (stepStore (D := ℚ) table store op) := by
  cases op with
  | heatCapacity i => exact h.onOne i (h i).measured
  | setTemperature i temperature => exact h.onOne i ((h i).setTemperature temperature)
  | setMinHeatCapacity i amount => exact h.onOne i ((h i).setMinHeatCapacity amount)
  | setMoles i idx amount => exact h.onOne i (keeps_setMoles _ (h i))
  | adjustMoles i idx amount => exact h.onOne i (keeps_adjustMoles _ (h i))
  | adjustMulti i adjustments => exact h.onOne i (keeps_adjustMulti adjustments _ (h i))
  | multiply i multiplier => exact h.onOne i ((h i).multiply multiplier)
  | add i num => exact h.onOne i ((h i).add num)
  | clear i => exact h.onOne i (h i).clear
  | clearWithVol i volume => exact h.onOne i (coherent_clearWithVol _ volume)
  | fixCorruption i => exact h.onOne i (coherent_fixCorruption _)
  | markImmutable i => exact h.onOne i ((h i).of_same rfl rfl rfl)
  | copyFromMutable i sample =>
    exact h.onPair i sample ⟨(h i).copyFromMutable (h sample) hop, h sample⟩
  | merge i giver => exact h.onPair i giver ((h i).merge (h giver) hop)
  | shareRatio i giver ratio => exact h.onPair i giver ((h i).shareRatio (h giver) hop)
  | removeRatioInto i into ratio => exact h.onPair i into ((h i).removeRatioInto (h into) ratio)
  | transferGasesTo i into ratio gases =>
    exact h.onPair i into ((h i).transferGasesTo (h into) ratio gases hop)
  | temperatureShare i sharer conductionCoefficient =>
    exact h.onPair i sharer ((h i).temperatureShare (h sharer) conductionCoefficient)

/-- **The cache is coherent** in every state of a run whose every step meets the condition. -/
theorem cache_coherent (h : System.ReachableWhere (AllCoherent table) (stepStore (D := ℚ) table)
    (MeetsCondition table) store) (i : Nat) :
    (store i).heatCapacity table = (store i).slowHeatCapacity table :=
  h.induct (fun _ hstart => hstart) (fun _ op _ hop hstore => hstore.step op hop) i

end Runs

/-- The gas table of one gas. -/
def oneGas : GasTable ℚ := [⟨"o2", 10, .none⟩]

/-- Mixtures without gas. -/
def emptyStore : Store ℚ := fun _ => new

/-- Two mixtures that hold gas, with a minimum heat capacity each and valid caches. -/
def filledStore : Store ℚ :=
  System.run (stepStore (D := ℚ) oneGas) emptyStore
    [.setMinHeatCapacity 0 5, .setMinHeatCapacity 1 10, .setMoles 0 0 2, .setMoles 1 0 3,
      .heatCapacity 0, .heatCapacity 1]

/-- The filled mixtures, the second merged into the first and then half of each shared. -/
theorem cache_coherent_filledStore :
    (filledStore 0).cachedHeatCapacity = some 20 ∧ (filledStore 1).cachedHeatCapacity = some 30 ∧
    (System.run (stepStore (D := ℚ) oneGas) filledStore [.merge 0 1, .shareRatio 0 1 (1 / 2)]
      0).heatCapacity oneGas = 40 ∧
    (System.run (stepStore (D := ℚ) oneGas) filledStore [.merge 0 1, .shareRatio 0 1 (1 / 2)]
      0).heatCapacity oneGas =
    (System.run (stepStore (D := ℚ) oneGas) filledStore [.merge 0 1, .shareRatio 0 1 (1 / 2)]
      0).slowHeatCapacity oneGas := by
  have hstart : System.ReachableWhere (AllCoherent oneGas) (stepStore (D := ℚ) oneGas)
      (MeetsCondition oneGas) emptyStore := .start fun i => rfl
  have hfilled := (((((hstart.next (.setMinHeatCapacity 0 5) (by trivial)).next
    (.setMinHeatCapacity 1 10) (by trivial)).next (.setMoles 0 0 2) (by trivial)).next
      (.setMoles 1 0 3) (by trivial)).next (.heatCapacity 0) (by trivial)).next
        (.heatCapacity 1) (by trivial)
  have hmerges : MeetsCondition oneGas filledStore (.merge 0 1) := by
    unfold MeetsCondition Merges Unsaturated AddsUp
    decide +kernel
  have hmerged := hfilled.next _ hmerges
  have hshares : MeetsCondition oneGas (stepStore (D := ℚ) oneGas filledStore (.merge 0 1))
      (.shareRatio 0 1 (1 / 2)) := by
    unfold MeetsCondition Shares Unsaturated AddsUp
    decide +kernel
  exact ⟨by decide +kernel, by decide +kernel, by decide +kernel,
    cache_coherent (hmerged.next _ hshares) 0⟩

/-- Merging two mixtures that have a minimum heat capacity leaves twice that in the cache. -/
theorem merge_incoherent : ¬∀ ops : List (Op ℚ),
    (System.run (stepStore (D := ℚ) oneGas) emptyStore ops 0).heatCapacity oneGas =
      (System.run (stepStore (D := ℚ) oneGas) emptyStore ops 0).slowHeatCapacity oneGas := by
  intro h
  have hmerged := h [.setMinHeatCapacity 0 10, .setMinHeatCapacity 1 10, .merge 0 1]
  revert hmerged
  decide +kernel

end Legacy

end Dogmos
