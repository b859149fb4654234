import Dogmos.Core.React

/-!
# Mixture commands

`applyCommand` and the two batch writers of mixture state.  A command reads what
it needs first and then writes through `mutateMixture` or `writePair`, which
settle the slots they touch: a candidate a stage has prepared there is adopted
when it is published and dropped, with its publication, when it is not.
-/

namespace Dogmos

/-- The record with its revision raised. -/
def MixtureRecord.revised {F : Type} (mixture : MixtureRecord F) : MixtureRecord F :=
  { mixture with revision := mixture.revision + 1 }

namespace DogmosWorld

variable {F D : Type} [FloatFormat F] [FloatFormat D] [FloatCast F D]

/-! ## Reading -/

/-- `gas_index`. -/
def gasIndex (w : DogmosWorld F) (gas : GasId) : Except WorldError Nat := do
  let registry ← w.requireGases
  if (registry.byId gas).isNone then
    throw (.invalidGasId gas)
  pure gas.index

/-- The specific heat of a gas that `gas_index` has accepted. -/
def specificHeatAt (w : DogmosWorld F) (index : Nat) : F :=
  ((w.gasRegistry.map GasMetadataRegistry.specificHeats).getD [])[index]?.getD 0.0

/-- `heat_capacity`. -/
def heatCapacity (w : DogmosWorld F) (mixture : MixtureRecord F) : Except WorldError F := do
  let registry ← w.requireGases
  pure (recordHeatCapacity mixture registry.specificHeats)

/-- `snapshot`. -/
def snapshot (w : DogmosWorld F) (handle : MixtureHandle) :
    Except WorldError (MixtureSnapshot F) := do
  let mixture ← w.requireHandle handle
  pure
    { revision := mixture.revision
      temperature := mixture.temperature
      volume := mixture.volume
      minimumHeatCapacity := mixture.minimumHeatCapacity
      totalMoles := totalMoles mixture
      pressure := mixturePressure mixture
      heatCapacity :=
        match w.gasRegistry with
        | some registry => recordHeatCapacity mixture registry.specificHeats
        | none => mixture.minimumHeatCapacity
      gases := mixture.gases
      immutable := mixture.immutable }

/-- `turf_mixture`. -/
def turfMixture (w : DogmosWorld F) (handle : TurfHandle) :
    Except WorldError (Option MixtureHandle) := do
  let turf ← w.requireTurfHandle handle
  pure turf.mixture

/-- `turf_heat`. -/
def turfHeat (w : DogmosWorld F) (handle : TurfHandle) :
    Except WorldError (Option (TurfHeatState F)) := do
  let turf ← w.requireTurfHandle handle
  pure turf.heat

/-! ## Writing -/

/-- `mutate_mixture`; the mutation returns whether it counts as a change, and the record. -/
def mutateMixture (handle : MixtureHandle) (mutation : MixtureRecord F → Bool × MixtureRecord F) :
    WorldM F Bool := do
  let mixture ← requireHandleMut handle
  if mixture.revision = maxRevision then
    throw (.revisionExhausted handle)
  let (changed, mutated) := mutation mixture
  modify fun w => w.writeMixture handle.slot.toNat fun _ =>
    if changed then
      { mutated with
        gases := canonicalizeGases mutated.gases
        revision := mutated.revision + 1 }
    else mutated
  return changed

/-- A mutation that leaves an unchanged record alone. -/
def changeIf (changed : Bool) (before after : MixtureRecord F) : Bool × MixtureRecord F :=
  (changed, if changed then after else before)

/-- `require_two_handles_mut`: the two records, with their slots settled. -/
def requireTwoHandlesMut (first second : MixtureHandle) :
    WorldM F (MixtureRecord F × MixtureRecord F) := do
  let firstRecord ← Exec.check fun w => w.requireHandle first
  let secondRecord ← Exec.check fun w => w.requireHandle second
  if first.slot = second.slot then
    throw (.sameMixtureHandles first)
  modify fun w =>
    (w.writeMixture first.slot.toNat fun record => record).writeMixture second.slot.toNat
      fun record => record
  return (firstRecord, secondRecord)

/-- Writes two records through `require_two_handles_mut`; one that is absent stays. -/
def writePair (first second : MixtureHandle) (firstAfter secondAfter : Option (MixtureRecord F)) :
    WorldM F Unit := do
  let _ ← requireTwoHandlesMut first second
  modify fun w =>
    (w.writeMixture first.slot.toNat fun record => firstAfter.getD record).writeMixture
      second.slot.toNat fun record => secondAfter.getD record

/-- Fails when a record that changes cannot raise its revision. -/
def requireRevision (handle : MixtureHandle) (mixture : MixtureRecord F) (changed : Bool) :
    Except WorldError Unit :=
  if changed && mixture.revision = maxRevision then throw (.revisionExhausted handle) else pure ()

/-- The commands of two mixtures that need different handles and a ratio. -/
def requireRatio (first second : MixtureHandle) (ratio : F) : Except WorldError F :=
  if first = second then throw (.sameMixtureHandles first)
  else if !FloatFormat.isFinite ratio then throw .invalidRatio
  else pure (FloatFormat.clamp ratio 0.0 1.0)

/-- Fails when an argument is not finite. -/
def requireFinite (value : F) (error : WorldError) : Except WorldError Unit :=
  if !FloatFormat.isFinite value then throw error else pure ()

/-- Fails when an argument is not finite and non-negative. -/
def requireNonNegative (value : F) (error : WorldError) : Except WorldError Unit :=
  if !FloatFormat.isFinite value || value < 0.0 then throw error else pure ()

/-- The result of a command that changed one mixture or none. -/
def appliedIf (changed : Bool) : CommandResult F := .applied (if changed then 1 else 0)

/-! ## Batches -/

/-- The check of `apply_mixture_state` on one mutation. -/
def validateMixtureState (w : DogmosWorld F) (mutation : MixtureStateMutation F) :
    Except WorldError Unit := do
  let mixture ← w.requireHandle mutation.handle
  if mixture.revision ≠ mutation.expectedRevision then
    throw (.revisionMismatch mutation.handle mutation.expectedRevision mixture.revision)
  if ¬validMixtureState mutation then
    throw .invalidMixtureState
  if ¬mixture.immutable ∧ mixture.revision = maxRevision then
    throw (.revisionExhausted mutation.handle)

/-- The record after a mutation of `apply_mixture_state`. -/
def applyState (mutation : MixtureStateMutation F) (mixture : MixtureRecord F) : MixtureRecord F :=
  if mixture.immutable then mixture
  else
    { mixture with
      temperature := mutation.temperature
      volume := mutation.volume
      gases := canonicalizeGases mutation.gases
      revision := mixture.revision + 1 }

/-- `apply_mixture_state`. -/
def applyMixtureState (mutations : List (MixtureStateMutation F)) : WorldM F UInt32 := do
  mutations.forM fun mutation => Exec.check fun w => w.validateMixtureState mutation
  let slots := (mutations.map fun mutation => mutation.handle.slot).insertionSort (· ≤ ·)
  match firstRepeated (fun slot => slot) slots with
  | some duplicate => throw (.duplicateMixtureState duplicate)
  | none => pure ()
  mutations.forM fun mutation =>
    modify fun w => w.writeMixture mutation.handle.slot.toNat (applyState mutation)
  return UInt32.ofNat mutations.length

/-- The check of `reconcile_pipenet` on a handle it has not seen yet. -/
def validatePipenetHandle (w : DogmosWorld F) (handle : MixtureHandle) :
    Except WorldError Unit := do
  let mixture ← w.requireHandle handle
  if ¬mixture.immutable ∧ mixture.revision = maxRevision then
    throw (.revisionExhausted handle)

/-- The totals of `reconcile_pipenet`. -/
structure PipenetTotals (F : Type) where
  gases : Gases F
  thermalEnergy : F
  heatCapacity : F
  volume : F

/-- One mixture added to the totals of a pipenet. -/
def addToPipenet (w : DogmosWorld F) (totals : PipenetTotals F) (handle : MixtureHandle) :
    Except WorldError (PipenetTotals F) := do
  let mixture ← w.requireHandle handle
  let capacity ← w.heatCapacity mixture
  pure
    { gases := Vector.zipWith (· + ·) totals.gases mixture.gases
      thermalEnergy := totals.thermalEnergy + mixture.temperature * capacity
      heatCapacity := totals.heatCapacity + capacity
      volume := totals.volume + mixture.volume }

/-- What a pipenet writes to one of its mixtures. -/
def pipenetMutation (w : DogmosWorld F) (totals : PipenetTotals F) (temperature : F)
    (handle : MixtureHandle) : Except WorldError (MixtureStateMutation F) := do
  let mixture ← w.requireHandle handle
  let volumeRatio := mixture.volume / totals.volume
  pure
    { handle
      expectedRevision := mixture.revision
      temperature
      volume := mixture.volume
      gases := totals.gases.map fun amount => amount * volumeRatio }

/-- `reconcile_pipenet`. -/
def reconcilePipenet (handles : List MixtureHandle) : WorldM F (List MixtureHandle) := do
  let uniqueHandles := handles.reverse.dedup.reverse
  uniqueHandles.forM fun handle => Exec.check fun w => w.validatePipenetHandle handle
  let totals ← Exec.check fun w =>
    uniqueHandles.foldlM w.addToPipenet
      { gases := noGases, thermalEnergy := 0.0, heatCapacity := 0.0, volume := 0.0 }
  if totals.volume == 0.0 then
    return uniqueHandles
  let temperature :=
    if totals.heatCapacity == 0.0 then minimumTemperatureK
    else fmax (totals.thermalEnergy / totals.heatCapacity) minimumTemperatureK
  let mutations ← Exec.check fun w => uniqueHandles.mapM (w.pipenetMutation totals temperature)
  let _ ← applyMixtureState mutations
  return uniqueHandles

/-! ## Commands on one mixture -/

/-- `Command::AdjustMoles`: the amount it writes, if it writes one. -/
def adjustedMoles (current delta : F) : Option F :=
  let adjusted := fmax (widen current + widen delta) 0.0
  if widen (FloatFormat.maxValue : F) < adjusted then none else some (narrow adjusted)

/-- The arm of `Command::AdjustMoles`. -/
def adjustMoles (handle : MixtureHandle) (gas : GasId) (delta : F) : WorldM F (CommandResult F) := do
  let index ← Exec.check fun w => w.gasIndex gas
  Exec.check fun _ => requireFinite delta .invalidMoleDelta
  let updated ← mutateMixture handle fun mixture =>
    if mixture.immutable || delta == 0.0 || !FloatFormat.isNormal delta then (false, mixture)
    else
      match adjustedMoles (mixture.gases.at index) delta with
      | none => (false, mixture)
      | some adjusted =>
        changeIf (mixture.gases.at index != adjusted) mixture
          { mixture with gases := mixture.gases.put index adjusted }
  if !updated then
    let mixture ← Exec.check fun w => w.requireHandle handle
    if !mixture.immutable && sumOverflows (mixture.gases.at index) delta then
      throw (.moleOverflow gas)
  return appliedIf updated

/-- The arm of `Command::AdjustMolesTemperature`. -/
def adjustMolesTemperature (handle : MixtureHandle) (gas : GasId) (amount temperature : F) :
    WorldM F (CommandResult F) := do
  Exec.check fun _ => requireNonNegative amount .invalidMoleAmount
  Exec.check fun _ => requireFinite temperature .invalidTemperature
  if amount ≤ molarAccuracy then
    return .applied 0
  let index ← Exec.check fun w => w.gasIndex gas
  let specificHeat ← Exec.check fun w => pure (w.specificHeatAt index)
  let before ← Exec.check fun w => w.requireHandle handle
  let previousCapacity ← Exec.check fun w => w.heatCapacity before
  let addedCapacity := amount * specificHeat
  let combinedCapacity := previousCapacity + addedCapacity
  let adjusted := saturatingAdd (before.gases.at index) amount
  let mixedTemperature :=
    if minimumHeatCapacity < combinedCapacity then
      (previousCapacity * before.temperature +
        addedCapacity * fmax temperature minimumTemperatureK) / combinedCapacity
    else before.temperature
  let updated ← mutateMixture handle fun mixture =>
    changeIf (!mixture.immutable) mixture
      { mixture with
        gases := mixture.gases.put index adjusted
        temperature := fmax mixedTemperature minimumTemperatureK }
  return appliedIf updated

/-- One adjustment of `Command::AdjustMultiple`. -/
def adjustOne (w : DogmosWorld F) (before : MixtureRecord F) (adjusted : Std.TreeMap Nat D)
    (adjustment : GasId × F) : Except WorldError (Std.TreeMap Nat D) := do
  let (gas, delta) := adjustment
  let index ← w.gasIndex gas
  requireFinite delta .invalidMoleDelta
  let current : D := adjusted[index]?.getD (widen (before.gases.at index))
  let amount : D := fmax (current + widen delta) 0.0
  if widen (FloatFormat.maxValue : F) < amount then
    throw (.moleOverflow gas)
  pure (adjusted.insert index amount)

/-- The gases with every adjusted amount written, and whether one of them changed. -/
def writeAdjusted (progress : Bool × Gases F) (entry : Nat × D) : Bool × Gases F :=
  let amount : F := dropTrace (narrow entry.2)
  (progress.1 || progress.2.at entry.1 != amount, progress.2.put entry.1 amount)

/-- The arm of `Command::AdjustMultiple`. -/
def adjustMultiple (handle : MixtureHandle) (adjustments : List (GasId × F)) :
    WorldM F (CommandResult F) := do
  let before ← Exec.check fun w => w.requireHandle handle
  let adjusted ← Exec.check fun w =>
    adjustments.foldlM (w.adjustOne before) (∅ : Std.TreeMap Nat D)
  let updated ← mutateMixture handle fun mixture =>
    if mixture.immutable then (false, mixture)
    else
      let (changed, gases) := adjusted.toList.foldl writeAdjusted (false, mixture.gases)
      (changed, { mixture with gases })
  return appliedIf updated

/-- `Command::GetMolesByFlags`: the amount of the gases with one of the flags. -/
def molesByFlags (registry : GasMetadataRegistry F) (mixture : MixtureRecord F) (flags : UInt32) :
    F :=
  (registry.gases.filter fun gas => gas.flags &&& flags ≠ 0).foldl
    (fun total gas => total + mixture.gases.at gas.id.index) 0.0

/-- One gas of `Command::Burnability`. -/
def addBurnability (mixture : MixtureRecord F) (temperature : F) (totals : F × F)
    (gas : GasMetadata F) : F × F :=
  let amount := mixture.gases.at gas.id.index
  if amount < minimumCalculatedMoles then totals
  else
    match gas.fireRole with
    | .oxidizer minimumTemperature power =>
      if minimumTemperature < temperature then
        (totals.1 + amount * fmax (1.0 - minimumTemperature / temperature) 0.0 * power, totals.2)
      else totals
    | .fuel minimumTemperature burnRate =>
      if minimumTemperature < temperature then
        (totals.1, totals.2 + amount * fmax (1.0 - minimumTemperature / temperature) 0.0 / burnRate)
      else totals
    | .none => totals

/-- The arm of `Command::Burnability`. -/
def burnability (w : DogmosWorld F) (handle : MixtureHandle) (temperature : Option F) :
    Except WorldError (CommandResult F) := do
  let mixture ← w.requireHandle handle
  let temperature := temperature.getD mixture.temperature
  requireFinite temperature .invalidTemperature
  let temperature := fmax temperature minimumTemperatureK
  let registry ← w.requireGases
  let totals := registry.gases.foldl (addBurnability mixture temperature) (0.0, 0.0)
  pure (.scalars totals.1 totals.2)

/-- The part of a gas array up to its last non-zero amount. -/
def activeLength (gases : Gases F) : Nat :=
  (gases.toList.reverse.dropWhile fun moles => moles == 0.0).length

/-- One amount of `Command::Add`: whether it counts as a change, and what is written. -/
def addToMoles (amount moles : F) : Bool × F :=
  let adjusted : F :=
    narrow (FloatFormat.clamp (widen moles + widen amount) 0.0 (widen (FloatFormat.maxValue : F)))
  (moles != adjusted, dropTrace adjusted)

/-- The mutation of `Command::Add`; a trace amount it clears does not count as a change. -/
def addToAll (amount : F) (mixture : MixtureRecord F) : Bool × MixtureRecord F :=
  if mixture.immutable || amount == 0.0 then (false, mixture)
  else
    let active := activeLength mixture.gases
    ((mixture.gases.toList.take active).any fun moles => (addToMoles amount moles).1,
      { mixture with
        gases := mixture.gases.mapIdx fun index moles =>
          if index < active then (addToMoles amount moles).2 else moles })

/-- The mutation of `Command::Multiply`. -/
def multiplyAll (factor : F) (mixture : MixtureRecord F) : Bool × MixtureRecord F :=
  if mixture.immutable || factor == 1.0 then (false, mixture)
  else
    let gases := mixture.gases.map fun moles => dropTrace (saturatingScale moles factor)
    ((mixture.gases.toList.zip gases.toList).any fun (moles, adjusted) => moles != adjusted,
      { mixture with gases })

/-- The arm of `Command::AdjustHeat`. -/
def adjustHeat (handle : MixtureHandle) (heat : F) : WorldM F (CommandResult F) := do
  Exec.check fun _ => requireFinite heat .invalidHeat
  let before ← Exec.check fun w => w.requireHandle handle
  let capacity ← Exec.check fun w => w.heatCapacity before
  let temperature := fmax ((capacity * before.temperature + heat) / capacity) minimumTemperatureK
  let updated ← mutateMixture handle fun mixture =>
    changeIf
      (!(mixture.immutable || !FloatFormat.isFinite temperature || mixture.temperature == temperature))
      mixture { mixture with temperature }
  return appliedIf updated

/-- The arm of `Command::TemperatureShareNonGas`. -/
def temperatureShareNonGas (handle : MixtureHandle)
    (conductionCoefficient sharerTemperature sharerHeatCapacity : F) :
    WorldM F (CommandResult F) := do
  Exec.check fun _ => requireFinite conductionCoefficient .invalidConductivity
  Exec.check fun _ => requireFinite sharerTemperature .invalidTemperature
  Exec.check fun _ => requireFinite sharerHeatCapacity .invalidHeatCapacity
  let before ← Exec.check fun w => w.requireHandle handle
  let delta := before.temperature - sharerTemperature
  let (mixtureTemperature, returnedTemperature) ←
    if minimumTemperatureDeltaToConsider < fabs delta then do
      let capacity ← Exec.check fun w => w.heatCapacity before
      if minimumHeatCapacity < capacity ∧ minimumHeatCapacity < sharerHeatCapacity then
        let heat :=
          conductionCoefficient * delta * harmonicHeatCapacity capacity sharerHeatCapacity
        pure
          (if before.immutable then before.temperature
            else fmax (before.temperature - heat / capacity) minimumTemperatureK,
            fmax (sharerTemperature + heat / sharerHeatCapacity) minimumTemperatureK)
      else pure (before.temperature, sharerTemperature)
    else pure (before.temperature, sharerTemperature)
  let _ ← mutateMixture handle fun mixture =>
    changeIf (mixture.temperature != mixtureTemperature) mixture
      { mixture with temperature := mixtureTemperature }
  return .scalar returnedTemperature

/-! ## Commands on two mixtures -/

/-- The mutation of `Command::CopyFrom`. -/
def copyMutation (giver mixture : MixtureRecord F) : Bool × MixtureRecord F :=
  changeIf
    (!(mixture.immutable ||
      gasesEqual mixture.gases giver.gases && mixture.temperature == giver.temperature))
    mixture { mixture with gases := giver.gases, temperature := giver.temperature }

/-- The arm of `Command::CopyFrom`. -/
def copyFrom (receiver giver : MixtureHandle) : WorldM F (CommandResult F) := do
  if receiver = giver then
    throw (.sameMixtureHandles receiver)
  let giver ← Exec.check fun w => w.requireHandle giver
  let updated ← mutateMixture receiver (copyMutation giver)
  return appliedIf updated

/-- The mutation of `Command::EqualizeWith`. -/
def equalizeMutation (total mixture : MixtureRecord F) : Bool × MixtureRecord F :=
  let ratio := mixture.volume / total.volume
  let gases := total.gases.map fun amount => dropTrace (saturatingScale amount ratio)
  changeIf
    (!(mixture.immutable ||
      gasesEqual mixture.gases gases && mixture.temperature == total.temperature))
    mixture { mixture with gases, temperature := total.temperature }

/-- The arm of `Command::EqualizeWith`. -/
def equalizeWith (receiver total : MixtureHandle) : WorldM F (CommandResult F) := do
  if receiver = total then
    throw (.sameMixtureHandles receiver)
  let total ← Exec.check fun w => w.requireHandle total
  if !FloatFormat.isFinite total.volume || total.volume ≤ 0.0 then
    return .applied 0
  let updated ← mutateMixture receiver (equalizeMutation total)
  return appliedIf updated

/-- `commit_pair_temperatures`. -/
def commitPairTemperatures (first second : MixtureHandle)
    (firstTemperature secondTemperature : F) (firstChanged secondChanged : Bool) :
    WorldM F UInt32 := do
  if firstChanged then
    let record ← Exec.check fun w => w.requireHandle first
    Exec.check fun _ => requireRevision first record true
  if secondChanged then
    let record ← Exec.check fun w => w.requireHandle second
    Exec.check fun _ => requireRevision second record true
  if !firstChanged && !secondChanged then
    return 0
  let firstRecord ← Exec.check fun w => w.requireHandle first
  let secondRecord ← Exec.check fun w => w.requireHandle second
  let warmed := fun (record : MixtureRecord F) (temperature : F) =>
    MixtureRecord.revised { record with temperature }
  writePair first second
    (if firstChanged then some (warmed firstRecord firstTemperature) else none)
    (if secondChanged then some (warmed secondRecord secondTemperature) else none)
  return (if firstChanged then 1 else 0) + (if secondChanged then 1 else 0)

/-- The arm of `Command::TemperatureShare`. -/
def temperatureShare (first second : MixtureHandle) (conductionCoefficient : F) :
    WorldM F (CommandResult F) := do
  if first = second then
    throw (.sameMixtureHandles first)
  Exec.check fun _ => requireFinite conductionCoefficient .invalidConductivity
  let firstBefore ← Exec.check fun w => w.requireHandle first
  let secondBefore ← Exec.check fun w => w.requireHandle second
  let delta := firstBefore.temperature - secondBefore.temperature
  let (firstTemperature, secondTemperature) ←
    if minimumTemperatureDeltaToConsider < fabs delta then do
      let firstCapacity ← Exec.check fun w => w.heatCapacity firstBefore
      let secondCapacity ← Exec.check fun w => w.heatCapacity secondBefore
      if minimumHeatCapacity < firstCapacity ∧ minimumHeatCapacity < secondCapacity then
        let heat :=
          conductionCoefficient * delta * harmonicHeatCapacity firstCapacity secondCapacity
        pure
          (if firstBefore.immutable then firstBefore.temperature
            else fmax (firstBefore.temperature - heat / firstCapacity) minimumTemperatureK,
            if secondBefore.immutable then secondBefore.temperature
            else fmax (secondBefore.temperature + heat / secondCapacity) minimumTemperatureK)
      else pure (firstBefore.temperature, secondBefore.temperature)
    else pure (firstBefore.temperature, secondBefore.temperature)
  let _ ← commitPairTemperatures first second firstTemperature secondTemperature
    (firstTemperature != firstBefore.temperature) (secondTemperature != secondBefore.temperature)
  return .scalar secondTemperature

/-- `merge_mixtures`. -/
def mergeMixtures (receiver giver : MixtureHandle) : WorldM F Unit := do
  if receiver = giver then
    throw (.sameMixtureHandles receiver)
  let receiverBefore ← Exec.check fun w => w.requireHandle receiver
  let giver ← Exec.check fun w => w.requireHandle giver
  if !receiverBefore.immutable then
    let registry ← Exec.check requireGases
    let _ ← mutateMixture receiver fun mixture =>
      (true,
        { mixture with
          gases := Vector.zipWith saturatingAdd mixture.gases giver.gases
          temperature :=
            (mergeRecord receiverBefore giver registry.specificHeats).temperature })

/-- `remove_ratio_into`. -/
def removeRatioInto (source destination : MixtureHandle) (ratio : F) (canonicalizeTraces : Bool) :
    WorldM F UInt32 := do
  let ratio ← Exec.check fun _ => requireRatio source destination ratio
  let sourceBefore ← Exec.check fun w => w.requireHandle source
  let destinationBefore ← Exec.check fun w => w.requireHandle destination
  if ratio == 0.0 || destinationBefore.immutable then
    return 0
  Exec.check fun _ => requireRevision source sourceBefore true
  Exec.check fun _ => requireRevision destination destinationBefore true
  let removed := sourceBefore.gases.map fun amount => quantizedRemoval amount ratio
  let canonical := fun (gases : Gases F) =>
    if canonicalizeTraces then canonicalizeGases gases else gases
  let destinationAfter : MixtureRecord F :=
    { destinationBefore with
      gases := canonical removed
      temperature := sourceBefore.temperature
      revision := destinationBefore.revision + 1 }
  let sourceAfter : MixtureRecord F :=
    { sourceBefore with
      gases := canonical (Vector.zipWith (· - ·) sourceBefore.gases removed)
      revision := sourceBefore.revision + 1 }
  writePair source destination (if sourceBefore.immutable then none else some sourceAfter)
    (some destinationAfter)
  return if sourceBefore.immutable then 1 else 2

/-- The gases `transfer_gases` moves, each with its amount. -/
def gasTransfers (sourceBefore destinationBefore : MixtureRecord F) (ratio : F) :
    List Nat → Except WorldError (List (Nat × F)) :=
  fun gasIndices => gasIndices.mapM fun index => do
    let amount := sourceBefore.gases.at index * ratio
    if sumOverflows (destinationBefore.gases.at index) amount then
      throw (.moleOverflow ⟨UInt16.ofNat index⟩)
    pure (index, amount)

/-- One gas moved from the first array to the second. -/
def moveGas (gases : Gases F × Gases F) (transfer : Nat × F) : Gases F × Gases F :=
  let (index, amount) := transfer
  (gases.1.put index (gases.1.at index - amount), gases.2.put index (gases.2.at index + amount))

/-- `transfer_gases`. -/
def transferGases (source destination : MixtureHandle) (ratio : F) (gases : List GasId) :
    WorldM F UInt32 := do
  if source = destination then
    throw (.sameMixtureHandles source)
  Exec.check fun _ => requireFinite ratio .invalidRatio
  let gasIndices ← Exec.check fun w => gases.mapM w.gasIndex
  let ratio := FloatFormat.clamp ratio 0.0 1.0
  let sourceBefore ← Exec.check fun w => w.requireHandle source
  let destinationBefore ← Exec.check fun w => w.requireHandle destination
  if ratio == 0.0 || sourceBefore.immutable || destinationBefore.immutable then
    return 0
  Exec.check fun _ => requireRevision source sourceBefore true
  Exec.check fun _ => requireRevision destination destinationBefore true
  let registry ← Exec.check requireGases
  let specificHeats := paddedHeats registry.specificHeats
  let initialEnergy :=
    recordHeatCapacity destinationBefore registry.specificHeats * destinationBefore.temperature
  let transfers ← Exec.check fun _ =>
    gasTransfers sourceBefore destinationBefore ratio gasIndices
  let moved := transfers.foldl moveGas (sourceBefore.gases, destinationBefore.gases)
  let destinationGases := canonicalizeGases moved.2
  let heatTransfer := transfers.foldl
    (fun energy (index, _) =>
      let retained := fmax (destinationGases.at index - destinationBefore.gases.at index) 0.0
      energy + retained * sourceBefore.temperature * specificHeats.at index)
    0.0
  let destinationCapacity := foldHeatCapacity destinationGases specificHeats.toList
  let destinationAfter : MixtureRecord F :=
    { destinationBefore with
      gases := destinationGases
      temperature :=
        if minimumHeatCapacity < destinationCapacity then
          (initialEnergy + heatTransfer) / destinationCapacity
        else destinationBefore.temperature
      revision := destinationBefore.revision + 1 }
  let sourceAfter : MixtureRecord F :=
    { sourceBefore with
      gases := canonicalizeGases moved.1
      revision := sourceBefore.revision + 1 }
  writePair source destination (some sourceAfter) (some destinationAfter)
  return 2

/-- The heat capacity a mixture gained from one gas array to another. -/
def retainedCapacity (after before : Gases F) (specificHeats : List F) : F :=
  ((after.toList.zip before.toList).zip specificHeats).foldl
    (fun capacity ((amount, before), specificHeat) =>
      mulAdd specificHeat (fmax (amount - before) 0.0) capacity)
    0.0

/-- The destination of `transfer_ratio_to` after it. -/
def receiveTransfer (registry : GasMetadataRegistry F) (sourceBefore destinationBefore : MixtureRecord F)
    (removed : Gases F) : MixtureRecord F :=
  let capacity := recordHeatCapacity destinationBefore registry.specificHeats
  let gases := canonicalizeGases (Vector.zipWith saturatingAdd destinationBefore.gases removed)
  let retained := retainedCapacity gases destinationBefore.gases registry.specificHeats
  let combined := capacity + retained
  { destinationBefore with
    gases := canonicalizeGases gases
    temperature :=
      if minimumHeatCapacity < combined then
        (capacity * destinationBefore.temperature + retained * sourceBefore.temperature) / combined
      else destinationBefore.temperature }

/-- `transfer_ratio_to`. -/
def transferRatioTo (source destination : MixtureHandle) (ratio : F) : WorldM F UInt32 := do
  let ratio ← Exec.check fun _ => requireRatio source destination ratio
  let sourceBefore ← Exec.check fun w => w.requireHandle source
  let destinationBefore ← Exec.check fun w => w.requireHandle destination
  if ratio == 0.0 then
    return 0
  let removed := sourceBefore.gases.map fun amount => quantizedRemoval amount ratio
  let sourceAfter : MixtureRecord F :=
    if sourceBefore.immutable then sourceBefore
    else
      { sourceBefore with
        gases := canonicalizeGases (Vector.zipWith (· - ·) sourceBefore.gases removed) }
  let destinationAfter ←
    if destinationBefore.immutable then pure destinationBefore
    else do
      let registry ← Exec.check requireGases
      pure (receiveTransfer registry sourceBefore destinationBefore removed)
  let sourceChanged := !gasesEqual sourceAfter.gases sourceBefore.gases
  let destinationChanged :=
    !gasesEqual destinationAfter.gases destinationBefore.gases ||
      destinationAfter.temperature != destinationBefore.temperature
  Exec.check fun _ => requireRevision source sourceBefore sourceChanged
  Exec.check fun _ => requireRevision destination destinationBefore destinationChanged
  if !sourceChanged && !destinationChanged then
    return 0
  writePair source destination
    (if sourceChanged then some (MixtureRecord.revised sourceAfter) else none)
    (if destinationChanged then some (MixtureRecord.revised destinationAfter) else none)
  return (if sourceChanged then 1 else 0) + (if destinationChanged then 1 else 0)

/-- The two records `share_ratio` computes, before trace amounts are dropped. -/
def sharedRecords (first second : MixtureRecord F) (ratio : F) (oneWay : Bool)
    (specificHeats : List F) : MixtureRecord F × MixtureRecord F :=
  if oneWay then
    let inbetween := scaleRecord (copyRecord MixtureRecord.new second) ratio
    let (first, removed) := removeRatioRecord first ratio
    let inbetween := scaleRecord (mergeRecord inbetween removed specificHeats) 0.5
    (mergeRecord first inbetween specificHeats, second)
  else
    let (first, inbetween) := removeRatioIntoRecord first MixtureRecord.new ratio
    let (second, removed) := removeRatioRecord second ratio
    let inbetween := scaleRecord (mergeRecord inbetween removed specificHeats) 0.5
    (mergeRecord first inbetween specificHeats, mergeRecord second inbetween specificHeats)

/-- The record without trace amounts, unless it is immutable. -/
def canonicalRecord (mixture : MixtureRecord F) : MixtureRecord F :=
  if mixture.immutable then mixture
  else { mixture with gases := canonicalizeGases mixture.gases }

/-- `share_ratio`. -/
def shareRatio (first second : MixtureHandle) (ratio : F) (oneWay : Bool) : WorldM F Bool := do
  let ratio ← Exec.check fun _ => requireRatio first second ratio
  let registry ← Exec.check requireGases
  let firstBefore ← Exec.check fun w => w.requireHandle first
  let secondBefore ← Exec.check fun w => w.requireHandle second
  let shared := sharedRecords firstBefore secondBefore ratio oneWay registry.specificHeats
  let firstAfter := canonicalRecord shared.1
  let secondAfter := canonicalRecord shared.2
  let firstChanged := mixtureThermodynamicsDiffer firstBefore firstAfter
  let secondChanged := mixtureThermodynamicsDiffer secondBefore secondAfter
  Exec.check fun _ => requireRevision first firstBefore firstChanged
  Exec.check fun _ => requireRevision second secondBefore secondChanged
  if firstChanged || secondChanged then
    writePair first second
      (if firstChanged then some (MixtureRecord.revised firstAfter) else none)
      (if secondChanged then some (MixtureRecord.revised secondAfter) else none)
  return mixturesRequireProcessing firstAfter secondAfter

/-- The ratio that removes an amount from a mixture. -/
def amountRatio (w : DogmosWorld F) (source : MixtureHandle) (amount : F) :
    Except WorldError F := do
  requireFinite amount .invalidMoleAmount
  let mixture ← w.requireHandle source
  let total := totalMoles mixture
  pure (if 0.0 < total then amount / total else 0.0)

/-- The arm of `Command::TransferByFlags`. -/
def transferByFlags (source destination : MixtureHandle) (flags : UInt32) (amount : F) :
    WorldM F (CommandResult F) := do
  if !FloatFormat.isFinite amount || amount ≤ 0.0 then
    return .boolean false
  let registry ← Exec.check requireGases
  let gases := (registry.gases.filter fun gas => gas.flags &&& flags ≠ 0).map GasMetadata.id
  if gases.isEmpty then
    return .boolean false
  let mixture ← Exec.check fun w => w.requireHandle source
  let total := totalMoles mixture
  if !FloatFormat.isFinite total || total ≤ 0.0 then
    return .boolean false
  let _ ← transferGases source destination (amount / total) gases
  return .boolean true

/-! ## The dispatch -/

/-- `apply_command` on the commands that only read. -/
def readCommand (w : DogmosWorld F) : Command F → Except WorldError (Option (CommandResult F))
  | .snapshot handle => do
    let snapshot ← w.snapshot handle
    pure (some (.snapshot snapshot))
  | .getMoles handle gas => do
    let index ← w.gasIndex gas
    let mixture ← w.requireHandle handle
    pure (some (.scalar (mixture.gases.at index)))
  | .temperature handle => do
    let mixture ← w.requireHandle handle
    pure (some (.scalar mixture.temperature))
  | .volume handle => do
    let mixture ← w.requireHandle handle
    pure (some (.scalar mixture.volume))
  | .heatCapacity handle => do
    let mixture ← w.requireHandle handle
    let capacity ← w.heatCapacity mixture
    pure (some (.scalar capacity))
  | .partialHeatCapacity handle gas => do
    let index ← w.gasIndex gas
    let mixture ← w.requireHandle handle
    let amount := mixture.gases.at index
    pure (some (.scalar
      (if FloatFormat.isNormal amount then amount * w.specificHeatAt index else 0.0)))
  | .totalMoles handle => do
    let mixture ← w.requireHandle handle
    pure (some (.scalar (totalMoles mixture)))
  | .pressure handle => do
    let mixture ← w.requireHandle handle
    pure (some (.scalar (mixturePressure mixture)))
  | .thermalEnergy handle => do
    let mixture ← w.requireHandle handle
    let capacity ← w.heatCapacity mixture
    pure (some (.scalar (capacity * mixture.temperature)))
  | .getMolesByFlags handle flags => do
    let mixture ← w.requireHandle handle
    let registry ← w.requireGases
    pure (some (.scalar (molesByFlags registry mixture flags)))
  | .burnability handle temperature => do
    let result ← w.burnability handle temperature
    pure (some result)
  | .compare left right => do
    let left ← w.requireHandle left
    let right ← w.requireHandle right
    pure (some (.boolean (mixturesRequireProcessing left right)))
  | .isImmutable handle => do
    let mixture ← w.requireHandle handle
    pure (some (.boolean mixture.immutable))
  | _ => pure none

/-- `apply_command` on the commands that write one mixture. -/
def writeCommand : Command F → WorldM F (CommandResult F)
  | .setMoles handle gas amount => do
    let index ← Exec.check fun w => w.gasIndex gas
    Exec.check fun _ => requireNonNegative amount .invalidMoleAmount
    let updated ← mutateMixture handle fun mixture =>
      changeIf (!(mixture.immutable || mixture.gases.at index == dropTrace amount)) mixture
        { mixture with gases := mixture.gases.put index (dropTrace amount) }
    return appliedIf updated
  | .adjustMoles handle gas delta => adjustMoles handle gas delta
  | .adjustMolesTemperature handle gas amount temperature =>
    adjustMolesTemperature handle gas amount temperature
  | .adjustMultiple handle adjustments => adjustMultiple handle adjustments
  | .setTemperature handle temperature => do
    Exec.check fun _ => requireFinite temperature .invalidTemperature
    let temperature := fmax temperature minimumTemperatureK
    let updated ← mutateMixture handle fun mixture =>
      changeIf (!(mixture.immutable || mixture.temperature == temperature)) mixture
        { mixture with temperature }
    return appliedIf updated
  | .setVolume handle volume => do
    Exec.check fun _ => requireNonNegative volume .invalidVolume
    let updated ← mutateMixture handle fun mixture =>
      changeIf (!(mixture.immutable || mixture.volume == volume)) mixture { mixture with volume }
    return appliedIf updated
  | .setMinimumHeatCapacity handle amount => do
    Exec.check fun _ => requireNonNegative amount .invalidMinimumHeatCapacity
    let updated ← mutateMixture handle fun mixture =>
      changeIf (!(mixture.immutable || mixture.minimumHeatCapacity == amount)) mixture
        { mixture with minimumHeatCapacity := amount }
    return appliedIf updated
  | .clear handle => do
    let updated ← mutateMixture handle fun mixture =>
      changeIf (!(mixture.immutable || mixture.gases.toList.all fun amount => amount == 0.0)) mixture
        { mixture with gases := noGases }
    return appliedIf updated
  | .add handle amount => do
    Exec.check fun _ => requireFinite amount .invalidAddend
    let updated ← mutateMixture handle (addToAll amount)
    return appliedIf updated
  | .multiply handle factor => do
    Exec.check fun _ => requireNonNegative factor .invalidMultiplier
    let updated ← mutateMixture handle (multiplyAll factor)
    return appliedIf updated
  | .adjustHeat handle heat => adjustHeat handle heat
  | .temperatureShareNonGas handle coefficient sharerTemperature sharerHeatCapacity =>
    temperatureShareNonGas handle coefficient sharerTemperature sharerHeatCapacity
  | .markImmutable handle => do
    let updated ← mutateMixture handle fun mixture =>
      changeIf (!mixture.immutable) mixture { mixture with immutable := true }
    return appliedIf updated
  | .copyFrom receiver giver => copyFrom receiver giver
  | .equalizeWith receiver total => equalizeWith receiver total
  | .temperatureShare first second coefficient => temperatureShare first second coefficient
  | .merge receiver giver => do
    mergeMixtures receiver giver
    let mixture ← Exec.check fun w => w.requireHandle receiver
    return appliedIf (!mixture.immutable)
  | .removeRatioInto source destination ratio => do
    let updated ← removeRatioInto source destination ratio true
    return .applied updated
  | .removeAmountInto source destination amount => do
    let ratio ← Exec.check fun w => w.amountRatio source amount
    let updated ← removeRatioInto source destination ratio false
    return .applied updated
  | .transferGases source destination ratio gases => do
    let updated ← transferGases source destination ratio gases
    return .applied updated
  | .transferAmount source destination amount => do
    let ratio ← Exec.check fun w => w.amountRatio source amount
    let updated ← transferRatioTo source destination ratio
    return .applied updated
  | .transferRatio source destination ratio => do
    let updated ← transferRatioTo source destination ratio
    return .applied updated
  | .transferByFlags source destination flags amount =>
    transferByFlags source destination flags amount
  | .shareRatio first second ratio oneWay => do
    let different ← shareRatio first second ratio oneWay
    return .boolean different
  | _ => return .applied 0

/-- `apply_command`; `clock` times the reactions of a resumed sequence. -/
def applyCommand (command : Command F) (clock : Nat → F) : WorldM F (CommandResult F) := do
  match command with
  | .resumeReaction continuation => do
    let w ← get
    let updated ← resumeReactionWithEventLimit continuation w.maxEvents clock
    return .applied updated
  | command => do
    match ← Exec.check fun w => w.readCommand command with
    | some result => return result
    | none => writeCommand command

end DogmosWorld

end Dogmos
