import Dogmos.Core.Record

/-!
# Native reactions

The four reactions the service executes itself: plasma fire, hydrogen and
tritium fire, and freon fire.  `executeNative` runs one of them on the gases and
the temperature of a mixture and checks that the result is finite; a reaction
that does not start leaves both alone and returns nothing.
-/

namespace Dogmos

/-- `NativeReactionError`. -/
inductive NativeReactionError
  | missingGas (key : String)
  | nonFiniteResult
deriving DecidableEq

/-- The text of a native reaction error. -/
def NativeReactionError.display : NativeReactionError → String
  | .missingGas key => "MissingGas(\"" ++ key ++ "\")"
  | .nonFiniteResult => "NonFiniteResult"

/-- `NativeReactionResult` with the gases and the temperature the reaction leaves. -/
structure NativeOutcome (F : Type) where
  gases : Gases F
  temperature : F
  values : Vector F 4

variable {F D : Type} [FloatFormat F] [FloatFormat D] [FloatCast F D]

/-- `gas_index` of the reactions. -/
def reactionGasIndex (registry : GasMetadataRegistry F) (key : String) :
    Except NativeReactionError Nat :=
  match registry.byKey key with
  | some gas => pure gas.id.index
  | none => throw (.missingGas key)

/-- `heat_capacity` of the reactions. -/
def reactionHeatCapacity (gases : Gases F) (minimum : F) (registry : GasMetadataRegistry F) : F :=
  fmax (foldHeatCapacity gases registry.specificHeats) minimum

/-- `plasma`. -/
def plasmaFire (gases : Gases F) (temperature minimum : F) (registry : GasMetadataRegistry F) :
    Except NativeReactionError (Option (NativeOutcome F)) := do
  let minimumBurnTemperature : F := 373.15
  let upperTemperature : F := 1643.15
  let oxygenBurnRatioBase : F := 1.4
  let oxygenFullBurn : F := 10.0
  let superSaturationThreshold : F := 96.0
  let burnRateDelta : F := 9.0
  let energyReleased : F := 3.0e6
  let oxygen ← reactionGasIndex registry "o2"
  let plasma ← reactionGasIndex registry "plasma"
  let carbonDioxide ← reactionGasIndex registry "co2"
  let tritium ← reactionGasIndex registry "tritium"
  let water ← reactionGasIndex registry "water_vapor"
  let temperatureScale :=
    if upperTemperature < temperature then 1.0
    else (temperature - minimumBurnTemperature) / (upperTemperature - minimumBurnTemperature)
  if temperatureScale ≤ 0.0 ∨ gases.at plasma ≤ 0.0 then
    return none
  let oxygenBurnRatio := oxygenBurnRatioBase - temperatureScale
  let oxygenMoles := gases.at oxygen
  let plasmaMoles := gases.at plasma
  let ratio := oxygenMoles / plasmaMoles
  let (burnRate, superSaturation) :=
    if superSaturationThreshold ≤ ratio then
      (plasmaMoles / burnRateDelta * temperatureScale, true)
    else if oxygenFullBurn ≤ ratio then
      (plasmaMoles / burnRateDelta * temperatureScale, false)
    else (oxygenMoles / oxygenFullBurn / burnRateDelta * temperatureScale, false)
  if burnRate < minimumHeatCapacity then
    return none
  let oldCapacity := reactionHeatCapacity gases minimum registry
  let burnRate := fmin (fmin burnRate plasmaMoles) (oxygenMoles / oxygenBurnRatio)
  let gases := gases.put plasma (quantize (plasmaMoles - burnRate))
  let gases := gases.put oxygen (quantize (oxygenMoles - burnRate * oxygenBurnRatio))
  let gases :=
    if superSaturation then gases.put tritium (gases.at tritium + burnRate)
    else
      let gases := gases.put carbonDioxide (gases.at carbonDioxide + burnRate * 0.75)
      gases.put water (gases.at water + burnRate * 0.25)
  let fireAmount := burnRate * (1.0 + oxygenBurnRatio)
  let newCapacity := reactionHeatCapacity gases minimum registry
  let temperature :=
    if minimumHeatCapacity < newCapacity then
      (temperature * oldCapacity + energyReleased * burnRate) / newCapacity
    else temperature
  return some { gases, temperature, values := #v[fireAmount, temperature, 0.0, 0.0] }

/-- `combust_fuel`; `report` lays out the values of the event from the burned fuel, the energy
and the new temperature. -/
def combustFuel (fuelKey : String) (report : F → F → F → Vector F 4) (gases : Gases F)
    (temperature minimum : F) (registry : GasMetadataRegistry F) :
    Except NativeReactionError (Option (NativeOutcome F)) := do
  let burnRateDelta : F := 2.0
  let oxygenFullBurn : F := 10.0
  let energyReleased : F := 2.8e6
  let oxygen ← reactionGasIndex registry "o2"
  let fuel ← reactionGasIndex registry fuelKey
  let water ← reactionGasIndex registry "water_vapor"
  let fuelMoles := gases.at fuel
  let oxygenMoles := gases.at oxygen
  let burnedFuel :=
    fmin (fmin (fmin (fuelMoles / burnRateDelta) (oxygenMoles / (burnRateDelta * oxygenFullBurn)))
      fuelMoles) (oxygenMoles / 0.5)
  if burnedFuel ≤ 0.0 ∨ fuelMoles - burnedFuel < 0.0 ∨ oxygenMoles - burnedFuel * 0.5 < 0.0 then
    return none
  let oldCapacity := reactionHeatCapacity gases minimum registry
  let gases := gases.put fuel (fmax (gases.at fuel - burnedFuel) 0.0)
  let gases := gases.put oxygen (fmax (gases.at oxygen - burnedFuel * 0.5) 0.0)
  let gases := gases.put water (gases.at water + burnedFuel)
  let energy := energyReleased * burnedFuel
  let newCapacity := reactionHeatCapacity gases minimum registry
  let temperature :=
    if minimumHeatCapacity < newCapacity then
      (temperature * oldCapacity + energy) / newCapacity
    else temperature
  return some { gases, temperature, values := report burnedFuel energy temperature }

/-- `hydrogen`. -/
def hydrogenFire (gases : Gases F) (temperature minimum : F) (registry : GasMetadataRegistry F) :
    Except NativeReactionError (Option (NativeOutcome F)) :=
  combustFuel "hydrogen" (fun burned _ temperature => #v[burned, temperature, 0.0, 0.0]) gases
    temperature minimum registry

/-- `tritium`. -/
def tritiumFire (gases : Gases F) (temperature volume minimum : F)
    (registry : GasMetadataRegistry F) : Except NativeReactionError (Option (NativeOutcome F)) :=
  combustFuel "tritium" (fun burned energy temperature => #v[burned, energy, volume, temperature])
    gases temperature minimum registry

/-- `freon`. -/
def freonFire (gases : Gases F) (temperature minimum : F) (registry : GasMetadataRegistry F) :
    Except NativeReactionError (Option (NativeOutcome F)) := do
  let maximumBurnTemperature : F := 283.0
  let lowerTemperature : F := 60.0
  let terminalTemperature : F := 20.0
  let oxygenBurnRatioBase : F := 1.4
  let oxygenFullBurn : F := 10.0
  let burnRateDelta : F := 4.0
  let energyConsumed : F := 3.0e5
  let oxygen ← reactionGasIndex registry "o2"
  let freon ← reactionGasIndex registry "freon"
  let carbonDioxide ← reactionGasIndex registry "co2"
  let oldTemperature := temperature
  let temperatureScale :=
    if temperature < terminalTemperature then 0.0
    else if temperature < lowerTemperature then 0.5
    else (maximumBurnTemperature - temperature) / (maximumBurnTemperature - terminalTemperature)
  if temperatureScale ≤ 0.0 ∨ gases.at freon ≤ 0.0 then
    return none
  let oxygenBurnRatio := oxygenBurnRatioBase - temperatureScale
  let oxygenMoles := gases.at oxygen
  let freonMoles := gases.at freon
  let burnRate :=
    if oxygenMoles < freonMoles * oxygenFullBurn then
      oxygenMoles / oxygenFullBurn / burnRateDelta * temperatureScale
    else freonMoles / burnRateDelta * temperatureScale
  if burnRate < minimumHeatCapacity then
    return none
  let oldCapacity := reactionHeatCapacity gases minimum registry
  let burnRate := fmin (fmin burnRate freonMoles) (oxygenMoles / oxygenBurnRatio)
  let gases := gases.put freon (quantize (freonMoles - burnRate))
  let gases := gases.put oxygen (quantize (oxygenMoles - burnRate * oxygenBurnRatio))
  let gases := gases.put carbonDioxide (gases.at carbonDioxide + burnRate)
  let fireAmount := burnRate * (1.0 + oxygenBurnRatio)
  let newCapacity := reactionHeatCapacity gases minimum registry
  let temperature :=
    if minimumHeatCapacity < newCapacity then
      fmax ((oldTemperature * oldCapacity - energyConsumed * burnRate) / newCapacity)
        minimumTemperatureK
    else temperature
  return some { gases, temperature, values := #v[fireAmount, oldTemperature, temperature, 0.0] }

/-- Whether a temperature and a gas array are finite and no amount is negative. -/
def mixtureFinite (temperature : F) (gases : Gases F) : Bool :=
  FloatFormat.isFinite temperature &&
    gases.toList.all fun amount => FloatFormat.isFinite amount && !decide (amount < 0.0)

/-- `execute_native`; also a reaction that does not start has to find a finite mixture. -/
def executeNative (kind : NativeReactionKind) (gases : Gases F) (temperature volume minimum : F)
    (registry : GasMetadataRegistry F) :
    Except NativeReactionError (Option (NativeOutcome F)) := do
  let result ←
    match kind with
    | .plasma => plasmaFire gases temperature minimum registry
    | .hydrogen => hydrogenFire gases temperature minimum registry
    | .tritium => tritiumFire gases temperature volume minimum registry
    | .freon => freonFire gases temperature minimum registry
  match result with
  | none => if mixtureFinite temperature gases then pure none else throw .nonFiniteResult
  | some outcome =>
    if mixtureFinite outcome.temperature outcome.gases &&
        outcome.values.toList.all FloatFormat.isFinite then
      pure (some outcome)
    else throw .nonFiniteResult

end Dogmos
