import Dogmos.Core.Metadata

/-!
# Mixture and turf records, and the arithmetic on them

The records a world stores and the pure functions the commands and the stages
compute with.  A record function that the source writes as a method on a mutable
record is a function from the record before to the record after.
-/

namespace Dogmos

/-- `TurfHeatState`. -/
structure TurfHeatState (F : Type) where
  temperature : F
  thermalConductivity : F
  heatCapacity : F
  adjacentToSpace : Bool

/-- `TurfRecord`. -/
structure TurfRecord (F : Type) where
  mixture : Option MixtureHandle
  heat : Option (TurfHeatState F)
  heatActiveIndex : Option UInt32

/-- `MixtureRecord`. -/
structure MixtureRecord (F : Type) where
  revision : UInt32
  temperature : F
  volume : F
  minimumHeatCapacity : F
  gases : Gases F
  immutable : Bool

/-- `MixtureStateMutation`. -/
structure MixtureStateMutation (F : Type) where
  handle : MixtureHandle
  expectedRevision : UInt32
  temperature : F
  volume : F
  gases : Gases F

/-- `MixtureSnapshot`. -/
structure MixtureSnapshot (F : Type) where
  revision : UInt32
  temperature : F
  volume : F
  minimumHeatCapacity : F
  totalMoles : F
  pressure : F
  heatCapacity : F
  gases : Gases F
  immutable : Bool

section Constants

variable {F : Type} [FloatFormat F]

/-- `MINIMUM_TEMPERATURE_K`. -/
def minimumTemperatureK : F := 2.7

/-- `DEFAULT_MIXTURE_VOLUME_LITERS`. -/
def defaultMixtureVolumeLiters : F := 2500.0

/-- `MINIMUM_CALCULATED_MOLES`. -/
def minimumCalculatedMoles : F := 0.01

/-- `MOLAR_ACCURACY`. -/
def molarAccuracy : F := 0.0001

/-- `MINIMUM_HEAT_CAPACITY`. -/
def minimumHeatCapacity : F := 0.0003

/-- `MINIMUM_MOLES_DELTA_TO_MOVE`. -/
def minimumMolesDeltaToMove : F := 0.01032637

/-- `EXCITED_GROUP_PRESSURE_GOAL_KPA`. -/
def excitedGroupPressureGoalKpa : F := 0.5

/-- `IDEAL_GAS_CONSTANT`. -/
def idealGasConstant : F := 8.31

/-- `MINIMUM_TEMPERATURE_DELTA_TO_CONSIDER`. -/
def minimumTemperatureDeltaToConsider : F := 0.5

/-- `MINIMUM_TEMPERATURE_FOR_SUPERCONDUCTION_K`. -/
def minimumTemperatureForSuperconductionK : F := 373.15

/-- `MINIMUM_TEMPERATURE_START_SUPERCONDUCTION_K`. -/
def minimumTemperatureStartSuperconductionK : F := 673.15

/-- `OPEN_HEAT_TRANSFER_COEFFICIENT`. -/
def openHeatTransferCoefficient : F := 0.4

/-- `STEFAN_BOLTZMANN_CONSTANT`. -/
def stefanBoltzmannConstant : F := 5.670373e-8

/-- `BASE_HEAT_STEP_SECONDS`. -/
def baseHeatStepSeconds : F := 0.5

/-- `BYOND_INFINITY_THRESHOLD`. -/
def byondInfinityThreshold : F := 1.0e30

/-- `GAS_DIFFUSION_CONSTANT`. -/
def gasDiffusionConstant : F := 0.125

end Constants

/-- `MAX_CONDUCTION_SUBSTEPS`. -/
def maxConductionSubsteps : Nat := 1000000

/-- `u32::MAX`, the revision after which a mixture cannot change any more. -/
def maxRevision : UInt32 := 4294967295

variable {F D : Type} [FloatFormat F] [FloatFormat D] [FloatCast F D]

/-- `RADIATION_FROM_SPACE`. -/
def radiationFromSpace : D :=
  stefanBoltzmannConstant * widen (minimumTemperatureK : F) * widen (minimumTemperatureK : F) *
    widen (minimumTemperatureK : F) * widen (minimumTemperatureK : F)

/-- The gases of a mixture without any. -/
def noGases : Gases F := Vector.replicate maxGasSlots 0.0

/-- `MixtureRecord::new`. -/
def MixtureRecord.new : MixtureRecord F :=
  { revision := 0
    temperature := minimumTemperatureK
    volume := defaultMixtureVolumeLiters
    minimumHeatCapacity := 0.0
    gases := noGases
    immutable := false }

/-- The equality of gas arrays, amount by amount. -/
def gasesEqual (left right : Gases F) : Bool :=
  (left.toList.zip right.toList).all fun (a, b) => a == b

/-- The specific heats of a registry, padded to the length of a gas array. -/
def paddedHeats (specificHeats : List F) : Gases F :=
  Vector.ofFn fun index => specificHeats[index.val]?.getD 0.0

/-! ## Amounts -/

/-- `quantize`. -/
def quantize (amount : F) : F := FloatFormat.round (amount / molarAccuracy) * molarAccuracy

/-- An amount too small to count becomes zero. -/
def dropTrace (amount : F) : F := if amount < minimumCalculatedMoles then 0.0 else amount

/-- `canonicalize_gases`. -/
def canonicalizeGases (gases : Gases F) : Gases F := gases.map dropTrace

/-- `quantized_removal`. -/
def quantizedRemoval (amount ratio : F) : F := fmin (quantize (amount * ratio)) amount

/-- The narrow sum of two amounts, saturating at the largest number. -/
def saturatingAdd (amount added : F) : F :=
  narrow (fmin (widen amount + widen added) (widen (FloatFormat.maxValue : F)))

/-- The narrow product of an amount and a factor, saturating at the largest number. -/
def saturatingScale (amount factor : F) : F :=
  narrow (fmin (widen amount * widen factor) (widen (FloatFormat.maxValue : F)))

/-- Whether the sum of two amounts is past the largest number. -/
def sumOverflows (amount added : F) : Bool :=
  decide (widen (FloatFormat.maxValue : F) < widen amount + widen added)

/-- `total_moles_from_gases`. -/
def totalMolesFromGases (gases : Gases F) : F := FloatFormat.sum gases.toList

/-- `total_moles`. -/
def totalMoles (mixture : MixtureRecord F) : F := totalMolesFromGases mixture.gases

/-- `mixture_pressure`. -/
def mixturePressure (mixture : MixtureRecord F) : F :=
  if mixture.volume ≤ 0.0 then 0.0
  else totalMoles mixture * idealGasConstant * mixture.temperature / mixture.volume

/-! ## Heat -/

/-- `record_heat_capacity`. -/
def recordHeatCapacity (mixture : MixtureRecord F) (specificHeats : List F) : F :=
  fmax (foldHeatCapacity mixture.gases specificHeats) mixture.minimumHeatCapacity

/-- `harmonic_heat_capacity`. -/
def harmonicHeatCapacity (first second : F) : F :=
  let (smaller, larger) := if first < second then (first, second) else (second, first)
  smaller / (1.0 + smaller / larger)

/-- `heat_exchange_energy`. -/
def heatExchangeEnergy (delta firstCapacity secondCapacity : F) : F :=
  if byondInfinityThreshold ≤ firstCapacity ∧ byondInfinityThreshold ≤ secondCapacity then 0.0
  else if byondInfinityThreshold ≤ firstCapacity then delta * secondCapacity
  else if byondInfinityThreshold ≤ secondCapacity then delta * firstCapacity
  else delta * harmonicHeatCapacity firstCapacity secondCapacity

/-- `harmonic_capacity` of the conduction numerics. -/
def harmonicCapacity (first second : F) : F :=
  if byondInfinityThreshold ≤ first ∧ byondInfinityThreshold ≤ second then 0.0
  else if byondInfinityThreshold ≤ first then second
  else if byondInfinityThreshold ≤ second then first
  else harmonicHeatCapacity first second

/-- `heat_row_weight`; the error is its message. -/
def heatRowWeight (firstConductivity secondConductivity firstCapacity secondCapacity : F) :
    Except String F :=
  let invalidConductivity := fun (value : F) => !FloatFormat.isFinite value || value < 0.0
  let invalidCapacity := fun (value : F) => !FloatFormat.isFinite value || value ≤ 0.0
  if invalidConductivity firstConductivity then
    throw "thermal conductivity 0 is negative or non-finite"
  else if invalidConductivity secondConductivity then
    throw "thermal conductivity 1 is negative or non-finite"
  else if invalidCapacity firstCapacity then throw "heat capacity 0 is not finite and positive"
  else if invalidCapacity secondCapacity then throw "heat capacity 1 is not finite and positive"
  else if byondInfinityThreshold ≤ firstCapacity then pure 0.0
  else
    pure (fmin firstConductivity secondConductivity *
      harmonicCapacity firstCapacity secondCapacity / firstCapacity)

/-- The message of `ConductionError::TooManySubsteps`. -/
def tooManySubsteps : String := "heat step requires more than 1000000 substeps"

/-- `diffusion_self_weight`; the error is its message. -/
def diffusionSelfWeight (degree : Nat) : Except String F :=
  if 6 < degree then
    throw ("diffusion degree " ++ toString degree ++ " exceeds the supported maximum 6")
  else pure (1.0 - FloatFormat.ofNat degree * gasDiffusionConstant)

/-! ## Record operations -/

/-- `copy_record`. -/
def copyRecord (receiver giver : MixtureRecord F) : MixtureRecord F :=
  if receiver.immutable then receiver
  else { receiver with gases := giver.gases, temperature := giver.temperature }

/-- `scale_record`. -/
def scaleRecord (mixture : MixtureRecord F) (factor : F) : MixtureRecord F :=
  if mixture.immutable || !FloatFormat.isFinite factor || factor < 0.0 then mixture
  else
    { mixture with
      gases := mixture.gases.map fun amount =>
        let amount := saturatingScale amount factor
        if amount ≤ molarAccuracy then 0.0 else amount }

/-- `merge_record`. -/
def mergeRecord (receiver giver : MixtureRecord F) (specificHeats : List F) : MixtureRecord F :=
  if receiver.immutable then receiver
  else
    let receiverCapacity := recordHeatCapacity receiver specificHeats
    let giverCapacity := recordHeatCapacity giver specificHeats
    let combinedCapacity := receiverCapacity + giverCapacity
    { receiver with
      gases := Vector.zipWith saturatingAdd receiver.gases giver.gases
      temperature :=
        if minimumHeatCapacity < combinedCapacity then
          (receiverCapacity * receiver.temperature + giverCapacity * giver.temperature) /
            combinedCapacity
        else receiver.temperature }

/-- `remove_ratio_into_record`: the source and the destination after it. -/
def removeRatioIntoRecord (source destination : MixtureRecord F) (ratio : F) :
    MixtureRecord F × MixtureRecord F :=
  if !FloatFormat.isFinite ratio || ratio ≤ 0.0 || destination.immutable then
    (source, destination)
  else
    let ratio := fmin ratio 1.0
    let destination := copyRecord destination source
    if source.immutable then
      (source,
        { destination with
          gases := destination.gases.map fun amount => quantize (amount * ratio) })
    else
      let removed := source.gases.map fun amount => quantizedRemoval amount ratio
      ({ source with gases := Vector.zipWith (· - ·) source.gases removed },
        { destination with gases := removed })

/-- `remove_ratio_record`: the source after it and what was removed. -/
def removeRatioRecord (source : MixtureRecord F) (ratio : F) : MixtureRecord F × MixtureRecord F :=
  removeRatioIntoRecord source MixtureRecord.new ratio

/-- `mixture_thermodynamics_differ`. -/
def mixtureThermodynamicsDiffer (left right : MixtureRecord F) : Bool :=
  left.temperature != right.temperature || !gasesEqual left.gases right.gases

/-- Whether two gas arrays differ enough to move gas between them. -/
def gasesDiffer (left right : Gases F) : Bool :=
  (left.toList.zip right.toList).any fun (a, b) => minimumMolesDeltaToMove ≤ fabs (a - b)

/-- `mixtures_require_processing`. -/
def mixturesRequireProcessing (left right : MixtureRecord F) : Bool :=
  (4.0 < fabs (left.temperature - right.temperature) &&
    minimumMolesDeltaToMove < totalMoles left) ||
    gasesDiffer left.gases right.gases

/-- The first gas whose sum overflows. -/
def firstOverflow (target added : Gases F) : Option GasId :=
  ((target.toList.zip added.toList).zipIdx.find? fun ((a, b), _) => sumOverflows a b).map
    fun (_, index) => ⟨UInt16.ofNat index⟩

/-- `transfer_moles`: the source, the target and the amount moved; the error names the gas that
overflows. -/
def transferMoles (source target : MixtureRecord F) (amount : F) (specificHeats : Gases F) :
    Except GasId (MixtureRecord F × MixtureRecord F × F) :=
  let sourceTotal := totalMoles source
  if !FloatFormat.isFinite amount || amount ≤ 0.0 || sourceTotal ≤ 0.0 then
    pure (source, target, 0.0)
  else
    let ratio := fmin (amount / sourceTotal) 1.0
    let removed := source.gases.map fun moles => quantizedRemoval moles ratio
    match firstOverflow target.gases removed with
    | some gas => throw gas
    | none =>
      let targetEnergy := recordHeatCapacity target specificHeats.toList * target.temperature
      let removedCapacity := foldHeatCapacity removed specificHeats.toList
      let source := { source with gases := Vector.zipWith (· - ·) source.gases removed }
      let target := { target with gases := Vector.zipWith (· + ·) target.gases removed }
      let targetCapacity := recordHeatCapacity target specificHeats.toList
      let target :=
        if minimumHeatCapacity < targetCapacity then
          { target with
            temperature := (targetEnergy + removedCapacity * source.temperature) / targetCapacity }
        else target
      pure (source, target, totalMolesFromGases removed)

/-- `valid_mixture_state`. -/
def validMixtureState (mutation : MixtureStateMutation F) : Bool :=
  FloatFormat.isFinite mutation.temperature && minimumTemperatureK ≤ mutation.temperature &&
    FloatFormat.isFinite mutation.volume && 0.0 ≤ mutation.volume &&
    mutation.gases.toList.all fun value => FloatFormat.isFinite value && 0.0 ≤ value

/-- `valid_turf_heat_state`. -/
def validTurfHeatState (state : TurfHeatState F) : Bool :=
  FloatFormat.isFinite state.temperature && FloatFormat.isFinite state.thermalConductivity &&
    0.0 < state.thermalConductivity && FloatFormat.isFinite state.heatCapacity &&
    0.0 < state.heatCapacity

end Dogmos
