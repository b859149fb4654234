import Dogmos.Legacy.Mixture

/-!
# Legacy fires

The four fires of the in-process backend.  A fire computes on one mixture and then calls a
procedure of the game, which does the side effects: what is returned here is the list of numbers
that call is given after the mixture and its holder, or nothing where the fire returns before it.
-/

namespace Dogmos

namespace Legacy

variable {F D : Type} [FloatFormat F] [FloatFormat D] [FloatCast F D]

/-- The reports a fire ends with. -/
inductive FireError
  | invalidGasId (id : String)
  | value (error : MixtureValueError)

/-- A fire of one mixture. -/
abbrev FireM (F α : Type) := Exec FireError (Mixture F) α

/-- `gas_idx_from_string`. -/
def gasIdxFromString (table : GasTable F) (id : String) : FireM F Nat :=
  match table.findIdx? fun gas => gas.id == id with
  | some idx => pure idx
  | none => throw (.invalidGasId id)

/-- A mutator inside a fire. -/
def mutating (mutator : MixtureM F Unit) : FireM F Unit :=
  Exec.embed id (fun _ m => m) .value mutator

/-- `heat_capacity` inside a fire, which fills the cache. -/
def readHeatCapacity (table : GasTable F) : FireM F F := do
  let air ← get
  set (air.measured table)
  return air.heatCapacity table

/-- The new temperature of a fire, from the new heat capacity: it is set where there is enough of
that to divide by. -/
def reheat (table : GasTable F) (newTemperature : F → F) : FireM F F := do
  let newHeatCapacity ← readHeatCapacity table
  if minimumHeatCapacity < newHeatCapacity then do
    let t := newTemperature newHeatCapacity
    modify fun air => air.setTemperature t
    return t
  else
    let air ← get
    return air.temperature

/-! ## Plasma -/

/-- `PreMath` of `plasma_fire`. -/
structure PlasmaPreMath (F : Type) where
  plasmaBurnRate : F
  oxygenBurnRatio : F
  superSaturation : Bool
  oxygenMoles : F
  plasmaMoles : F
  temperature : F
  oldHeatCapacity : F

/-- The temperature scale of `plasma_fire`; nothing where it is too cold to burn. -/
def plasmaTemperatureScale (temperature : F) : Option F :=
  let plasmaMinimumBurnTemperature : F := 100.0 + 273.15
  let plasmaUpperTemperature : F := plasmaMinimumBurnTemperature + 1270.0
  if plasmaUpperTemperature < temperature then some 1.0
  else
    let scale := (temperature - plasmaMinimumBurnTemperature) /
      (plasmaUpperTemperature - plasmaMinimumBurnTemperature)
    if scale ≤ 0.0 then none else some scale

/-- What `plasma_fire` reads. -/
def plasmaPreMath (table : GasTable F) (o2 plasma : Nat) : FireM F (Option (PlasmaPreMath F)) := do
  let oxygenBurnRatioBase : F := 1.4
  let plasmaOxygenFullburn : F := 10.0
  let superSaturationThreshold : F := 96.0
  let plasmaBurnRateDelta : F := 9.0
  let air ← get
  match plasmaTemperatureScale air.temperature with
  | none => return none
  | some temperatureScale =>
    let oxygenBurnRatio := oxygenBurnRatioBase - temperatureScale
    let oxygenMoles := air.getMoles o2
    let plasmaMoles := air.getMoles plasma
    let ratio := oxygenMoles / plasmaMoles
    let (plasmaBurnRate, superSaturation) :=
      if superSaturationThreshold ≤ ratio then
        (plasmaMoles / plasmaBurnRateDelta * temperatureScale, true)
      else if plasmaOxygenFullburn ≤ ratio then
        (plasmaMoles / plasmaBurnRateDelta * temperatureScale, false)
      else (oxygenMoles / plasmaOxygenFullburn / plasmaBurnRateDelta * temperatureScale, false)
    if plasmaBurnRate < minimumHeatCapacity then
      return none
    else
      let oldHeatCapacity ← readHeatCapacity table
      let plasmaBurnRate :=
        fmin (fmin plasmaBurnRate plasmaMoles) (oxygenMoles / oxygenBurnRatio)
      return some { plasmaBurnRate, oxygenBurnRatio, superSaturation, oxygenMoles, plasmaMoles,
                    temperature := air.temperature, oldHeatCapacity }

/-- What `plasma_fire` writes. -/
def plasmaBurn (table : GasTable F) (o2 plasma co2 tritium waterVapor : Nat)
    (pre : PlasmaPreMath F) : FireM F (F × F) := do
  let firePlasmaEnergyReleased : F := 3e6
  mutating (Mixture.setMoles table plasma (quantize (pre.plasmaMoles - pre.plasmaBurnRate)))
  mutating (Mixture.setMoles table o2
    (quantize (pre.oxygenMoles - pre.plasmaBurnRate * pre.oxygenBurnRatio)))
  if pre.superSaturation then
    mutating (Mixture.adjustMoles table tritium pre.plasmaBurnRate)
  else
    mutating (Mixture.adjustMoles table co2 (pre.plasmaBurnRate * 0.75))
    mutating (Mixture.adjustMoles table waterVapor (pre.plasmaBurnRate * 0.25))
  let fireAmount := pre.plasmaBurnRate * (1.0 + pre.oxygenBurnRatio)
  let energyReleased := firePlasmaEnergyReleased * pre.plasmaBurnRate
  let newTemperature ← reheat table fun newHeatCapacity =>
    (pre.temperature * pre.oldHeatCapacity + energyReleased) / newHeatCapacity
  modify Mixture.garbageCollect
  return (fireAmount, newTemperature)

/-- `plasma_fire`. -/
def plasmaFire (table : GasTable F) : FireM F (Option (List F)) := do
  let o2 ← gasIdxFromString table "o2"
  let plasma ← gasIdxFromString table "plasma"
  let co2 ← gasIdxFromString table "co2"
  let tritium ← gasIdxFromString table "tritium"
  let waterVapor ← gasIdxFromString table "water_vapor"
  match ← plasmaPreMath table o2 plasma with
  | none => return none
  | some pre =>
    let (fireAmount, newTemperature) ← plasmaBurn table o2 plasma co2 tritium waterVapor pre
    return some [fireAmount, newTemperature]

/-! ## Hydrogen and tritium -/

/-- What a hydrogen or tritium fire computes: the burned fuel, the energy released, the volume and
the new temperature; the burned fuel and the energy are zero where nothing burns. -/
structure Combustion (F : Type) where
  burnedFuel : F
  energyReleased : F
  volume : F
  temperature : F

/-- The part that `hydrogen_fire` and `tritium_fire` share, word for word but for the gas. -/
def combust (table : GasTable F) (o2 fuel waterVapor : Nat) : FireM F (Combustion F) := do
  let burnRateDelta : F := 2.0
  let oxygenFullburn : F := 10.0
  let energyReleasedPerMole : F := 2.8e6
  let air ← get
  let fuelMoles := air.getMoles fuel
  let oxygenMoles := air.getMoles o2
  let oldHeatCapacity ← readHeatCapacity table
  let temperature := air.temperature
  let volume := air.volume
  let burnedFuel :=
    fmin (fmin (fmin (fuelMoles / burnRateDelta) (oxygenMoles / (burnRateDelta * oxygenFullburn)))
      fuelMoles) (oxygenMoles / 0.5)
  if burnedFuel ≤ 0.0 ∨ fuelMoles - burnedFuel < 0.0 ∨ oxygenMoles - burnedFuel * 0.5 < 0.0 then
    return { burnedFuel := 0.0, energyReleased := 0.0, volume, temperature }
  else
    mutating (Mixture.adjustMoles table fuel (-burnedFuel))
    mutating (Mixture.adjustMoles table o2 (-(burnedFuel * 0.5)))
    mutating (Mixture.adjustMoles table waterVapor burnedFuel)
    let energyReleased := energyReleasedPerMole * burnedFuel
    let newTemperature ←
      if 0.0 < energyReleased then
        reheat table fun newHeatCapacity =>
          (temperature * oldHeatCapacity + energyReleased) / newHeatCapacity
      else pure temperature
    modify Mixture.garbageCollect
    return { burnedFuel, energyReleased, volume, temperature := newTemperature }

/-- `hydrogen_fire`. -/
def hydrogenFire (table : GasTable F) : FireM F (Option (List F)) := do
  let o2 ← gasIdxFromString table "o2"
  let hydrogen ← gasIdxFromString table "hydrogen"
  let waterVapor ← gasIdxFromString table "water_vapor"
  let { burnedFuel, temperature, .. } ← combust table o2 hydrogen waterVapor
  if burnedFuel ≤ 0.0 then return none else return some [burnedFuel, temperature]

/-- `tritium_fire`. -/
def tritiumFire (table : GasTable F) : FireM F (Option (List F)) := do
  let o2 ← gasIdxFromString table "o2"
  let tritium ← gasIdxFromString table "tritium"
  let waterVapor ← gasIdxFromString table "water_vapor"
  let { burnedFuel, energyReleased, volume, temperature } ← combust table o2 tritium waterVapor
  if burnedFuel ≤ 0.0 then return none
  else return some [burnedFuel, energyReleased, volume, temperature]

/-! ## Freon -/

/-- `PreMath` of `freon_fire`. -/
structure FreonPreMath (F : Type) where
  freonBurnRate : F
  oxygenBurnRatio : F
  oxygenMoles : F
  freonMoles : F
  temperature : F
  oldHeatCapacity : F

/-- What `freon_fire` reads. -/
def freonPreMath (table : GasTable F) (o2 freon : Nat) : FireM F (Option (FreonPreMath F)) := do
  let freonMaximumBurnTemperature : F := 283.0
  let freonLowerTemperature : F := 60.0
  let freonTerminalTemperature : F := 20.0
  let oxygenBurnRatioBase : F := 1.4
  let freonOxygenFullburn : F := 10.0
  let freonBurnRateDelta : F := 4.0
  let air ← get
  let temperatureScale :=
    if air.temperature < freonTerminalTemperature then 0.0
    else if air.temperature < freonLowerTemperature then 0.5
    else (freonMaximumBurnTemperature - air.temperature) /
      (freonMaximumBurnTemperature - freonTerminalTemperature)
  if temperatureScale ≤ 0.0 then
    return none
  else
    let oxygenBurnRatio := oxygenBurnRatioBase - temperatureScale
    let freonMoles := air.getMoles freon
    let oxygenMoles := air.getMoles o2
    let freonBurnRate :=
      if oxygenMoles < freonMoles * freonOxygenFullburn then
        oxygenMoles / freonOxygenFullburn / freonBurnRateDelta * temperatureScale
      else freonMoles / freonBurnRateDelta * temperatureScale
    if freonBurnRate < minimumHeatCapacity then
      return none
    else
      let oldHeatCapacity ← readHeatCapacity table
      let freonBurnRate := fmin (fmin freonBurnRate freonMoles) (oxygenMoles / oxygenBurnRatio)
      return some { freonBurnRate, oxygenBurnRatio, oxygenMoles, freonMoles,
                    temperature := air.temperature, oldHeatCapacity }

/-- What `freon_fire` writes. -/
def freonBurn (table : GasTable F) (o2 freon co2 : Nat) (pre : FreonPreMath F) :
    FireM F (F × F) := do
  let fireFreonEnergyConsumed : F := 3e5
  mutating (Mixture.setMoles table freon (quantize (pre.freonMoles - pre.freonBurnRate)))
  mutating (Mixture.setMoles table o2
    (quantize (pre.oxygenMoles - pre.freonBurnRate * pre.oxygenBurnRatio)))
  mutating (Mixture.adjustMoles table co2 pre.freonBurnRate)
  let fireAmount := pre.freonBurnRate * (1.0 + pre.oxygenBurnRatio)
  let energyConsumed := fireFreonEnergyConsumed * pre.freonBurnRate
  let newTemperature ← reheat table fun newHeatCapacity =>
    fmax ((pre.temperature * pre.oldHeatCapacity - energyConsumed) / newHeatCapacity) tcmb
  modify Mixture.garbageCollect
  return (fireAmount, newTemperature)

/-- `freon_fire`. -/
def freonFire (table : GasTable F) : FireM F (Option (List F)) := do
  let o2 ← gasIdxFromString table "o2"
  let freon ← gasIdxFromString table "freon"
  let co2 ← gasIdxFromString table "co2"
  match ← freonPreMath table o2 freon with
  | none => return none
  | some pre =>
    let (fireAmount, newTemperature) ← freonBurn table o2 freon co2 pre
    return some [fireAmount, pre.temperature, newTemperature]

/-- `func_from_id`. -/
def funcFromId (id : String) : Option (GasTable F → FireM F (Option (List F))) :=
  match id with
  | "plasmafire" => some (plasmaFire (D := D))
  | "h2fire" => some (hydrogenFire (D := D))
  | "tritfire" => some (tritiumFire (D := D))
  | "freonfire" => some (freonFire (D := D))
  | _ => none

end Legacy

end Dogmos
