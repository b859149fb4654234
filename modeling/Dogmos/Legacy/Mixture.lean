import Dogmos.Lib.Exec
import Dogmos.Lib.FloatFormat
import Std.Data.TreeMap.Basic

/-!
# Legacy mixtures

The gas mixture of the in-process backend.  Its amounts are a vector that is as long as the last
gas it holds, and its heat capacity is kept in a cache: a mutator either invalidates the cache,
sets it, or copies it from another mixture.  Reading the heat capacity fills an invalid cache, also
through a shared reference, so a mixture that is only read is returned as well.

A method that takes `&mut self` and can fail is a computation over the mixture, and one that also
takes a second mixture is one over both.
-/

namespace Dogmos

namespace Legacy

/-- `MixtureValueError`; the class of a rejected number is kept, as the source names it. -/
inductive MixtureValueError
  | invalidValue (quantity : String) (cls : String)
  | gasIndexOutOfRange (index gasCount : Nat)
  | moleOverflow (index : Nat)
deriving DecidableEq

/-- `OxidationInfo` and `FuelInfo`, the payloads of `FireInfo`. -/
inductive FireInfo (F : Type)
  | oxidation (temperature power : F)
  | fuel (temperature burnRate : F)
  | none

/-- `GasType`: what the mixtures and the reactions read of a registered gas. -/
structure GasType (F : Type) where
  id : String
  specificHeat : F
  fireInfo : FireInfo F

/-- The registered gases by index.  `TOTAL_NUM_GASES` is their number, and
`GAS_SPECIFIC_HEATS` their specific heats. -/
abbrev GasTable (F : Type) := List (GasType F)

variable {F D : Type}

/-- `GAS_SPECIFIC_HEATS`. -/
def GasTable.specificHeats (table : GasTable F) : List F := table.map GasType.specificHeat

section Constants

variable [FloatFormat F]

/-- `TCMB`. -/
def tcmb : F := 2.7

/-- `T20C`. -/
def t20c : F := 293.15

/-- `GAS_MIN_MOLES`. -/
def gasMinMoles : F := 0.0001

/-- `MOLAR_ACCURACY`. -/
def molarAccuracy : F := 0.0001

/-- `MINIMUM_HEAT_CAPACITY`. -/
def minimumHeatCapacity : F := 0.0003

/-- `MINIMUM_TEMPERATURE_DELTA_TO_CONSIDER`. -/
def minimumTemperatureDeltaToConsider : F := 0.5

end Constants

/-! ## Numbers -/

section Numbers

variable [FloatFormat F]

/-- `is_nan`. -/
def isNan (value : F) : Bool := !(value == value)

/-- `is_infinite`. -/
def isInfinite (value : F) : Bool := !FloatFormat.isFinite value && !isNan value

/-- `invalid_numeric_class`. -/
def invalidNumericClass (value : F) : String :=
  if isNan value then "NaN"
  else if isInfinite value && decide (0.0 < value) then "positive infinity"
  else if isInfinite value then "negative infinity"
  else "negative finite"

/-- `validate_mole_amount`. -/
def validateMoleAmount (value : F) : Except MixtureValueError F :=
  if !FloatFormat.isFinite value || decide (value < 0.0) then
    throw (.invalidValue "mole amount" (invalidNumericClass value))
  else pure (if value ≤ gasMinMoles then 0.0 else value)

/-- `validate_volume`. -/
def validateVolume (value : F) : Except MixtureValueError F :=
  if !FloatFormat.isFinite value || decide (value < 0.0) then
    throw (.invalidValue "volume" (invalidNumericClass value))
  else pure value

/-- `validate_mole_delta`. -/
def validateMoleDelta (value : F) : Except MixtureValueError F :=
  if !FloatFormat.isFinite value then
    throw (.invalidValue "mole delta" (invalidNumericClass value))
  else pure value

/-- What `unwrap_or(0.0)` makes of a validated number. -/
def orZero (result : Except MixtureValueError F) : F :=
  match result with
  | .ok value => value
  | .error _ => 0.0

/-- `quantize`. -/
def quantize (amount : F) : F := FloatFormat.round (amount / molarAccuracy) * molarAccuracy

/-- `harmonic_heat_capacity`. -/
def harmonicHeatCapacity (capA capB : F) : F :=
  if !(decide (0.0 < capA) && decide (0.0 < capB)) then 0.0
  else if isInfinite capA then (if FloatFormat.isFinite capB then capB else 0.0)
  else if isInfinite capB then capA
  else
    let (smaller, larger) := if capA < capB then (capA, capB) else (capB, capA)
    smaller / (1.0 + smaller / larger)

end Numbers

/-! ## The cache -/

/-- `GasCache`; the value that is no number, which marks an invalid cache, is `none`. -/
abbrev GasCache (F : Type) := Option F

section Cache

variable [FloatFormat F]

/-- `GasCache::set`. -/
def GasCache.set (value : F) : GasCache F := if isNan value then none else some value

/-- `GasCache::get_or_else`: the value, and the cache after the call. -/
def GasCache.getOrElse (cache : GasCache F) (value : F) : F × GasCache F :=
  match cache with
  | some cached => (cached, cache)
  | none => (value, GasCache.set value)

end Cache

/-! ## Mixtures -/

/-- `Mixture`. -/
structure Mixture (F : Type) where
  temperature : F
  volume : F
  minHeatCapacity : F
  moles : List F
  cachedHeatCapacity : GasCache F
  immutable : Bool

/-- A method of a mixture that can fail. -/
abbrev MixtureM (F α : Type) := Exec MixtureValueError (Mixture F) α

/-- A method of two mixtures that can fail: the receiver and the other one. -/
abbrev PairM (F α : Type) := Exec MixtureValueError (Mixture F × Mixture F) α

namespace Mixture

variable [FloatFormat F]

/-- `Mixture::new`. -/
def new : Mixture F :=
  { temperature := 2.7
    volume := 2500.0
    minHeatCapacity := 0.0
    moles := []
    cachedHeatCapacity := none
    immutable := false }

/-- `from_vol`. -/
def fromVol (volume : F) : Mixture F := { new with volume := orZero (validateVolume volume) }

/-- The mixture with its cache invalidated. -/
def invalidated (m : Mixture F) : Mixture F := { m with cachedHeatCapacity := none }

/-- `get_moles`. -/
def getMoles (m : Mixture F) (idx : Nat) : F := m.moles[idx]?.getD 0.0

/-- `set_temperature`. -/
def setTemperature (m : Mixture F) (temperature : F) : Mixture F :=
  if !m.immutable && FloatFormat.isFinite temperature then
    { m with temperature := fmax temperature tcmb }
  else m

/-- `set_min_heat_capacity`. -/
def setMinHeatCapacity (m : Mixture F) (amount : F) : Mixture F :=
  if !m.immutable && FloatFormat.isFinite amount && decide (0.0 ≤ amount) then
    { m with minHeatCapacity := amount }.invalidated
  else m

/-- `maybe_expand`. -/
def maybeExpand (m : Mixture F) (size : Nat) : Mixture F :=
  { m with moles := m.moles ++ List.replicate (size - m.moles.length) 0.0 }

/-- The length `garbage_collect` truncates to: up to the last amount it keeps. -/
def retainedLen (moles : List F) : Nat :=
  moles.zipIdx.foldl
    (fun retained (amount, i) => if gasMinMoles < amount then i + 1 else retained) 0

/-- What `garbage_collect` makes of one amount. -/
def collected (amount : F) : F := if gasMinMoles < amount then amount else 0.0

/-- `garbage_collect`. -/
def garbageCollect (m : Mixture F) : Mixture F :=
  { m with moles := (m.moles.map collected).take (retainedLen m.moles) }

/-- The part of `set_moles` behind its checks. -/
def putMoles (m : Mixture F) (idx : Nat) (amount : F) : Mixture F :=
  if m.immutable then m
  else if m.moles.length ≤ idx ∧ (amount == 0.0) = true then m
  else
    let expanded := m.maybeExpand (idx + 1)
    let written := { expanded with moles := expanded.moles.set idx amount }.invalidated
    if amount == 0.0 then written.garbageCollect else written

/-- `set_moles`. -/
def setMoles (table : GasTable F) (idx : Nat) (amount : F) : MixtureM F Unit := do
  let amount ← Exec.check fun _ => validateMoleAmount amount
  if table.length ≤ idx then throw (.gasIndexOutOfRange idx table.length)
  modify fun m => m.putMoles idx amount

/-! ### Heat -/

/-- `slow_heat_capacity`. -/
def slowHeatCapacity (m : Mixture F) (table : GasTable F) : F :=
  fmax
    ((m.moles.zip table.specificHeats).foldl (fun sum (amount, cap) => mulAdd cap amount sum) 0.0)
    m.minHeatCapacity

/-- `heat_capacity`. -/
def heatCapacity (m : Mixture F) (table : GasTable F) : F :=
  (m.cachedHeatCapacity.getOrElse (m.slowHeatCapacity table)).1

/-- The mixture after `heat_capacity`, which fills its cache. -/
def measured (m : Mixture F) (table : GasTable F) : Mixture F :=
  { m with
    cachedHeatCapacity := (m.cachedHeatCapacity.getOrElse (m.slowHeatCapacity table)).2 }

/-- `total_moles`. -/
def totalMoles (m : Mixture F) : F := FloatFormat.sum m.moles

/-- `thermal_energy`. -/
def thermalEnergy (m : Mixture F) (table : GasTable F) : F := m.heatCapacity table * m.temperature

/-! ### Mutators of one mixture -/

section Wide

variable [FloatFormat D] [FloatCast F D]

/-- `adjust_moles`. -/
def adjustMoles (table : GasTable F) (idx : Nat) (amount : F) : MixtureM F Unit := do
  let amount ← Exec.check fun _ => validateMoleDelta amount
  if table.length ≤ idx then throw (.gasIndexOutOfRange idx table.length)
  let m ← get
  if m.immutable || (amount == 0.0) || !FloatFormat.isNormal amount then
    return ()
  let adjusted : D := fmax (widen (m.getMoles idx) + widen amount) 0.0
  if widen (FloatFormat.maxValue : F) < adjusted then throw (.moleOverflow idx)
  setMoles table idx (narrow adjusted)

/-- The sums of `adjust_multi`, gas by gas. -/
def adjustedMoles (m : Mixture F) (table : GasTable F) (adjustments : List (Nat × F)) :
    Except MixtureValueError (Std.TreeMap Nat D) :=
  adjustments.foldlM
    (fun (results : Std.TreeMap Nat D) (idx, delta) => do
      let delta ← validateMoleDelta delta
      if table.length ≤ idx then throw (.gasIndexOutOfRange idx table.length)
      let current := results[idx]?.getD (widen (m.getMoles idx))
      let adjusted := fmax (current + widen delta) 0.0
      if widen (FloatFormat.maxValue : F) < adjusted then throw (.moleOverflow idx)
      pure (results.insert idx adjusted))
    ∅

/-- `adjust_multi`. -/
def adjustMulti (table : GasTable F) (adjustments : List (Nat × F)) : MixtureM F Unit := do
  let results ← Exec.check fun m => m.adjustedMoles table adjustments
  let m ← get
  if m.immutable then
    return ()
  results.toList.forM fun (idx, amount) => setMoles table idx (narrow amount)

/-- The narrow sum, product or difference, no more than the largest number. -/
def saturated (value : D) : F := narrow (fmin value (widen (FloatFormat.maxValue : F)))

/-- `multiply`. -/
def multiply (m : Mixture F) (multiplier : F) : Mixture F :=
  if !m.immutable && FloatFormat.isFinite multiplier && decide (0.0 ≤ multiplier) then
    { m with moles := m.moles.map fun amount =>
        saturated (widen amount * widen multiplier) }.invalidated.garbageCollect
  else m

/-- `add`. -/
def add (m : Mixture F) (num : F) : Mixture F :=
  if !m.immutable && FloatFormat.isFinite num then
    { m with moles := m.moles.map fun amount =>
        narrow (FloatFormat.clamp (widen amount + widen num) 0.0
          (widen (FloatFormat.maxValue : F))) }.invalidated.garbageCollect
  else m

end Wide

/-- `clear`. -/
def clear (m : Mixture F) : Mixture F :=
  if !m.immutable then { m with moles := [] }.invalidated else m

/-- `clear_with_vol`. -/
def clearWithVol (m : Mixture F) (volume : F) : Mixture F :=
  { m with
    temperature := 2.7
    volume := orZero (validateVolume volume)
    minHeatCapacity := 0.0
    immutable := false }.clear

/-- `fix_corruption`. -/
def fixCorruption (m : Mixture F) (table : GasTable F) : Mixture F :=
  let m := { m with moles := m.moles.map fun amount => orZero (validateMoleAmount amount) }
  let m := m.garbageCollect
  { m with
    moles := m.moles.take table.length
    temperature :=
      if decide (m.temperature < tcmb) || !FloatFormat.isNormal m.temperature then t20c
      else m.temperature
    volume := orZero (validateVolume m.volume)
    minHeatCapacity :=
      if !FloatFormat.isFinite m.minHeatCapacity || decide (m.minHeatCapacity < 0.0) then 0.0
      else m.minHeatCapacity }.invalidated

/-- `mark_immutable`. -/
def markImmutable (m : Mixture F) : Mixture F := { m with immutable := true }

/-! ### Two mixtures -/

/-- `copy_from_mutable`. -/
def copyFromMutable (m sample : Mixture F) : Mixture F :=
  if m.immutable then m
  else
    { m with
      moles := sample.moles
      temperature := sample.temperature
      cachedHeatCapacity := sample.cachedHeatCapacity }

/-- The amounts of a mixture with those of another added; `added` is what one amount adds to
another. -/
def addAmounts (m giver : Mixture F) (added : F → F → F) : Mixture F :=
  let expanded := m.maybeExpand giver.moles.length
  { expanded with
    moles := List.zipWith added expanded.moles giver.moles ++
      expanded.moles.drop giver.moles.length }

/-- The end of `merge` and `share_ratio`: the temperature is that of both together, and the cache
is set to the sum of the two heat capacities. -/
def mixed (m : Mixture F) (ourHeatCapacity otherHeatCapacity otherTemperature : F) : Mixture F :=
  let combinedHeatCapacity := ourHeatCapacity + otherHeatCapacity
  let m :=
    if minimumHeatCapacity < combinedHeatCapacity then
      m.setTemperature
        ((ourHeatCapacity * m.temperature + otherHeatCapacity * otherTemperature) /
          combinedHeatCapacity)
    else m
  { m with cachedHeatCapacity := GasCache.set combinedHeatCapacity }

section Pairs

variable [FloatFormat D] [FloatCast F D]

/-- `merge`: the receiver and the giver after it. -/
def merge (m giver : Mixture F) (table : GasTable F) : Mixture F × Mixture F :=
  if m.immutable then (m, giver)
  else
    let summed := m.addAmounts giver fun amount added => saturated (widen amount + widen added)
    (summed.mixed (m.heatCapacity table) (giver.heatCapacity table) giver.temperature,
      giver.measured table)

/-- `share_ratio`: the receiver and the giver after it. -/
def shareRatio (m giver : Mixture F) (r : F) (table : GasTable F) : Mixture F × Mixture F :=
  if m.immutable then (m, giver)
  else
    let ratio := FloatFormat.clamp r 0.0 1.0
    let kept := m.multiply (1.0 - ratio)
    let summed := kept.addAmounts giver fun amount added =>
      saturated (widen amount + widen added * widen ratio)
    (summed.mixed (kept.heatCapacity table) (giver.heatCapacity table * ratio) giver.temperature,
      giver.measured table)

/-- `remove_ratio_into`: the source and the destination after it. -/
def removeRatioInto (source : Mixture F) (ratio : F) (into : Mixture F) : Mixture F × Mixture F :=
  if !FloatFormat.isFinite ratio || decide (ratio ≤ 0.0) then (source, into)
  else
    let ratio := fmin ratio 1.0
    if into.immutable then (source, into)
    else
      let into := into.copyFromMutable source
      let removed := into.moles.map fun amount => quantize (amount * ratio)
      if source.immutable then
        (source, { into with moles := removed }.invalidated.garbageCollect)
      else
        let left := List.zipWith (· - ·) source.moles removed
        ({ source with moles := left }.invalidated.garbageCollect,
          { into with moles := removed }.invalidated.garbageCollect)

/-- `remove_into`. -/
def removeInto (source : Mixture F) (amount : F) (into : Mixture F) : Mixture F × Mixture F :=
  source.removeRatioInto (amount / source.totalMoles) into

/-- `remove_ratio`: the source after it, and what was removed. -/
def removeRatio (source : Mixture F) (ratio : F) : Mixture F × Mixture F :=
  source.removeRatioInto ratio (fromVol source.volume)

/-- `remove`. -/
def remove (source : Mixture F) (amount : F) : Mixture F × Mixture F :=
  source.removeRatio (amount / source.totalMoles)

/-- The amounts `transfer_gases_to` moves, gas by gas. -/
def transfers (source : Mixture F) (table : GasTable F) (ratio : F) (gases : List Nat) :
    List (Nat × F) :=
  gases.filterMap fun i =>
    match source.moles[i]?, table.specificHeats[i]? with
    | some orig, some _ => some (i, orig * ratio)
    | _, _ => none

/-- The heat `transfer_gases_to` moves. -/
def heatTransfer (source : Mixture F) (table : GasTable F) (ratio : F) (gases : List Nat) : F :=
  gases.foldl
    (fun heat i =>
      match source.moles[i]?, table.specificHeats[i]? with
      | some orig, some specificHeat => heat + orig * ratio * source.temperature * specificHeat
      | _, _ => heat)
    0.0

/-- The first of the amounts that do not fit the destination. -/
def firstOverflow (into : Mixture F) (transfers : List (Nat × F)) : Option Nat :=
  (transfers.find? fun (idx, delta) =>
    decide (widen (FloatFormat.maxValue : F) < widen (into.getMoles idx) + widen delta)).map
      Prod.fst

/-- One amount moved. -/
def moveGas (table : GasTable F) (transfer : Nat × F) : PairM F Unit := do
  let (idx, delta) := transfer
  modify fun (source, into) =>
    ({ source with moles := source.moles.modify idx (· - delta) }, into)
  Exec.embed Prod.snd (fun pair into => (pair.1, into)) id (adjustMoles table idx delta)

/-- `transfer_gases_to`. -/
def transferGasesTo (table : GasTable F) (r : F) (gases : List Nat) : PairM F Unit := do
  let (source, into) ← get
  if source.immutable || into.immutable then
    return ()
  if !FloatFormat.isFinite r then
    throw (.invalidValue "transfer ratio" (invalidNumericClass r))
  let ratio := FloatFormat.clamp r 0.0 1.0
  modify fun (source, into) => (source, into.measured table)
  let initialEnergy := into.thermalEnergy table
  let heatTransfer := source.heatTransfer table ratio gases
  let transfers := source.transfers table ratio gases
  match into.firstOverflow transfers with
  | some idx => throw (.moleOverflow idx)
  | none => do
    transfers.forM (moveGas table)
    modify fun (source, into) =>
      let into := into.invalidated
      let newHeatCapacity := into.heatCapacity table
      let into := into.measured table
      (source.invalidated,
        if minimumHeatCapacity < newHeatCapacity then
          into.setTemperature ((initialEnergy + heatTransfer) / newHeatCapacity)
        else into)

end Pairs

/-- `temperature_share`: the two mixtures after it, and the temperature of the second. -/
def temperatureShare (m sharer : Mixture F) (conductionCoefficient : F) (table : GasTable F) :
    Mixture F × Mixture F × F :=
  let temperatureDelta := m.temperature - sharer.temperature
  if minimumTemperatureDeltaToConsider < fabs temperatureDelta then
    let selfHeatCapacity := m.heatCapacity table
    let sharerHeatCapacity := sharer.heatCapacity table
    let m := m.measured table
    let sharer := sharer.measured table
    if minimumHeatCapacity < sharerHeatCapacity ∧ minimumHeatCapacity < selfHeatCapacity then
      let heat := conductionCoefficient * temperatureDelta *
        harmonicHeatCapacity selfHeatCapacity sharerHeatCapacity
      let m := m.setTemperature (fmax (m.temperature - heat / selfHeatCapacity) tcmb)
      let sharer :=
        sharer.setTemperature (fmax (sharer.temperature + heat / sharerHeatCapacity) tcmb)
      (m, sharer, sharer.temperature)
    else (m, sharer, sharer.temperature)
  else (m, sharer, sharer.temperature)

end Mixture

end Legacy

end Dogmos
