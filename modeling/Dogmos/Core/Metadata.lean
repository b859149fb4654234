import Dogmos.Lib.FloatFormat
import Dogmos.Core.Handles
import Mathlib.Data.List.Sort

/-!
# Gas and reaction metadata

The two registries a world carries.  A gas registry is built from a list of
`GasMetadata` and holds it by dense id and by key; a reaction registry holds the
reactions by dense id and in order of descending priority.  Both constructors
reject anything that is not dense, unique and in range, in the order the source
checks it.
-/

namespace Dogmos

/-- `GasFireRole`. -/
inductive GasFireRole (F : Type)
  | oxidizer (minimumTemperature power : F)
  | fuel (minimumTemperature burnRate : F)
  | none

/-- `GasProduct`. -/
structure GasProduct (F : Type) where
  gas : GasId
  ratio : F

/-- `GasRequirement`. -/
structure GasRequirement (F : Type) where
  gas : GasId
  minimumMoles : F

/-- `NativeReactionKind`. -/
inductive NativeReactionKind
  | plasma
  | hydrogen
  | tritium
  | freon
deriving DecidableEq

/-- `ReactionExecution`. -/
inductive ReactionExecution
  | native (kind : NativeReactionKind)
  | dm
deriving DecidableEq

/-- `FireProductRule`. -/
inductive FireProductRule (F : Type)
  | generic (products : List (GasProduct F))
  | plasma

/-- `GasMetadata`. -/
structure GasMetadata (F : Type) where
  id : GasId
  key : String
  name : String
  flags : UInt32
  specificHeat : F
  fusionPower : F
  molesVisible : Option F
  enthalpy : F
  fireRadiationReleased : F
  fireRole : GasFireRole F
  fireProducts : Option (FireProductRule F)

/-- `ReactionMetadata`. -/
structure ReactionMetadata (F : Type) where
  id : ReactionId
  key : String
  priority : F
  minimumTemperature : Option F
  maximumTemperature : Option F
  minimumEnergy : Option F
  minimumFireReagents : Option F
  gasRequirements : List (GasRequirement F)
  execution : ReactionExecution

/-- `GasMetadataRegistry`. -/
structure GasMetadataRegistry (F : Type) where
  gases : List (GasMetadata F)
  idsByKey : Std.TreeMap String GasId
  specificHeats : List F

/-- `ReactionMetadataRegistry`. -/
structure ReactionMetadataRegistry (F : Type) where
  reactions : List (ReactionMetadata F)
  idsByKey : Std.TreeMap String ReactionId
  priorityOrder : List ReactionId

/-- `GasMetadataError`. -/
inductive GasMetadataError
  | tooManyGases (count maximum : UInt32)
  | duplicateGasId (id : GasId)
  | nonDenseGasId (expected actual : GasId)
  | emptyGasKey (id : GasId)
  | duplicateGasKey (key : String)
  | invalidSpecificHeat (id : GasId)
  | invalidFusionPower (id : GasId)
  | invalidMolesVisible (id : GasId)
  | invalidEnthalpy (id : GasId)
  | invalidFireRadiation (id : GasId)
  | invalidFireRole (id : GasId)
  | unknownFireProduct (gas product : GasId)
  | invalidFireProductRatio (gas product : GasId)
  | duplicateFireProduct (gas product : GasId)
deriving DecidableEq

/-- `ReactionMetadataError`. -/
inductive ReactionMetadataError
  | duplicateReactionId (id : ReactionId)
  | nonDenseReactionId (expected actual : ReactionId)
  | emptyReactionKey (id : ReactionId)
  | duplicateReactionKey (key : String)
  | invalidPriority (id : ReactionId)
  | duplicateReactionPriority (first second : ReactionId)
  | invalidMinimumTemperature (id : ReactionId)
  | invalidMaximumTemperature (id : ReactionId)
  | invalidTemperatureRange (id : ReactionId)
  | invalidMinimumEnergy (id : ReactionId)
  | invalidMinimumFireReagents (id : ReactionId)
  | unknownRequiredGas (reaction : ReactionId) (gas : GasId)
  | invalidRequiredMoles (reaction : ReactionId) (gas : GasId)
  | duplicateRequiredGas (reaction : ReactionId) (gas : GasId)
deriving DecidableEq

/-- The gas amounts of a mixture: `[f32; MAX_GAS_SLOTS]`. -/
abbrev Gases (F : Type) := Vector F maxGasSlots

variable {F : Type} [FloatFormat F]

/-- The amount of a gas; an index past the array reads as zero and is never asked for. -/
def Gases.at (gases : Gases F) (index : Nat) : F := gases[index]?.getD 0.0

/-- The amounts with one of them replaced. -/
def Gases.put (gases : Gases F) (index : Nat) (amount : F) : Gases F :=
  gases.setIfInBounds index amount

/-! ## Building a gas registry -/

/-- The value whose key equals its right neighbour's, the first such. -/
def firstRepeated {α κ : Type} [DecidableEq κ] (key : α → κ) : List α → Option α
  | a :: b :: rest => if key a = key b then some a else firstRepeated key (b :: rest)
  | _ => none

/-- An optional quantity that is present has to be finite and non-negative. -/
def invalidOptional (value : Option F) : Bool :=
  value.any fun value => !FloatFormat.isFinite value || value < 0.0

/-- `valid_fire_role`. -/
def validFireRole : GasFireRole F → Bool
  | .oxidizer minimumTemperature power =>
    FloatFormat.isFinite minimumTemperature && 0.0 ≤ minimumTemperature &&
      FloatFormat.isFinite power && 0.0 ≤ power
  | .fuel minimumTemperature burnRate =>
    FloatFormat.isFinite minimumTemperature && 0.0 ≤ minimumTemperature &&
      FloatFormat.isFinite burnRate && 0.0 < burnRate
  | .none => true

/-- The loop of `validate_gas` over the fire products of a gas. -/
def validateFireProducts (gas : GasId) (gasCount : Nat) :
    List (GasProduct F) → List GasId → Except GasMetadataError Unit
  | [], _ => pure ()
  | product :: rest, seen =>
    if gasCount ≤ product.gas.index then
      throw (.unknownFireProduct gas product.gas)
    else if !FloatFormat.isFinite product.ratio || product.ratio < 0.0 then
      throw (.invalidFireProductRatio gas product.gas)
    else if product.gas ∈ seen then
      throw (.duplicateFireProduct gas product.gas)
    else
      validateFireProducts gas gasCount rest (product.gas :: seen)

/-- `validate_gas`. -/
def validateGas (gas : GasMetadata F) (gasCount : Nat) : Except GasMetadataError Unit := do
  if !FloatFormat.isFinite gas.specificHeat || gas.specificHeat ≤ 0.0 then
    throw (.invalidSpecificHeat gas.id)
  if !FloatFormat.isFinite gas.fusionPower then
    throw (.invalidFusionPower gas.id)
  if invalidOptional gas.molesVisible then
    throw (.invalidMolesVisible gas.id)
  if !FloatFormat.isFinite gas.enthalpy then
    throw (.invalidEnthalpy gas.id)
  if !FloatFormat.isFinite gas.fireRadiationReleased || gas.fireRadiationReleased < 0.0 then
    throw (.invalidFireRadiation gas.id)
  if !validFireRole gas.fireRole then
    throw (.invalidFireRole gas.id)
  match gas.fireProducts with
  | some (.generic products) => validateFireProducts gas.id gasCount products []
  | _ => pure ()

/-- The checking loop of `GasMetadataRegistry::try_new`. -/
def collectGasKeys (gasCount : Nat) :
    List (GasMetadata F) → Nat → Std.TreeMap String GasId →
      Except GasMetadataError (Std.TreeMap String GasId)
  | [], _, idsByKey => pure idsByKey
  | gas :: rest, expected, idsByKey => do
    if gas.id ≠ ⟨UInt16.ofNat expected⟩ then
      throw (.nonDenseGasId ⟨UInt16.ofNat expected⟩ gas.id)
    if gas.key = "" then
      throw (.emptyGasKey gas.id)
    if idsByKey.contains gas.key then
      throw (.duplicateGasKey gas.key)
    validateGas gas gasCount
    collectGasKeys gasCount rest (expected + 1) (idsByKey.insert gas.key gas.id)

namespace GasMetadataRegistry

/-- `GasMetadataRegistry::try_new`. -/
def tryNew (gases : List (GasMetadata F)) : Except GasMetadataError (GasMetadataRegistry F) := do
  if maxGasSlots < gases.length then
    throw (.tooManyGases (UInt32.ofNatClamp gases.length) (UInt32.ofNat maxGasSlots))
  let gases := gases.insertionSort fun a b => a.id.val ≤ b.id.val
  match firstRepeated GasMetadata.id gases with
  | some duplicate => throw (.duplicateGasId duplicate.id)
  | none => pure ()
  let idsByKey ← collectGasKeys gases.length gases 0 ∅
  pure { gases, idsByKey, specificHeats := gases.map GasMetadata.specificHeat }

/-- `GasMetadataRegistry::len`. -/
def len (registry : GasMetadataRegistry F) : UInt32 := UInt32.ofNat registry.gases.length

/-- `GasMetadataRegistry::by_id`. -/
def byId (registry : GasMetadataRegistry F) (id : GasId) : Option (GasMetadata F) :=
  registry.gases[id.index]?

/-- `GasMetadataRegistry::by_key`. -/
def byKey (registry : GasMetadataRegistry F) (key : String) : Option (GasMetadata F) :=
  (registry.idsByKey[key]?).bind registry.byId

end GasMetadataRegistry

/-! ## Building a reaction registry -/

/-- The loop of `validate_reaction` over the gas requirements of a reaction. -/
def validateRequirements (reaction : ReactionId) (gases : GasMetadataRegistry F) :
    List (GasRequirement F) → List GasId → Except ReactionMetadataError Unit
  | [], _ => pure ()
  | requirement :: rest, seen =>
    if (gases.byId requirement.gas).isNone then
      throw (.unknownRequiredGas reaction requirement.gas)
    else if !FloatFormat.isFinite requirement.minimumMoles || requirement.minimumMoles < 0.0 then
      throw (.invalidRequiredMoles reaction requirement.gas)
    else if requirement.gas ∈ seen then
      throw (.duplicateRequiredGas reaction requirement.gas)
    else
      validateRequirements reaction gases rest (requirement.gas :: seen)

/-- `validate_reaction`. -/
def validateReaction (reaction : ReactionMetadata F) (gases : GasMetadataRegistry F) :
    Except ReactionMetadataError Unit := do
  if !FloatFormat.isFinite reaction.priority then
    throw (.invalidPriority reaction.id)
  if invalidOptional reaction.minimumTemperature then
    throw (.invalidMinimumTemperature reaction.id)
  if invalidOptional reaction.maximumTemperature then
    throw (.invalidMaximumTemperature reaction.id)
  if (reaction.minimumTemperature.bind fun minimum =>
      reaction.maximumTemperature.map fun maximum => decide (maximum < minimum)).getD false then
    throw (.invalidTemperatureRange reaction.id)
  if invalidOptional reaction.minimumEnergy then
    throw (.invalidMinimumEnergy reaction.id)
  if invalidOptional reaction.minimumFireReagents then
    throw (.invalidMinimumFireReagents reaction.id)
  validateRequirements reaction.id gases reaction.gasRequirements []

/-- The checking loop of `ReactionMetadataRegistry::try_new`. -/
def collectReactionKeys (gases : GasMetadataRegistry F) :
    List (ReactionMetadata F) → Nat → Std.TreeMap String ReactionId → Std.TreeMap Nat ReactionId →
      Except ReactionMetadataError (Std.TreeMap String ReactionId)
  | [], _, idsByKey, _ => pure idsByKey
  | reaction :: rest, expected, idsByKey, idsByPriorityBits => do
    if reaction.id ≠ ⟨UInt32.ofNat expected⟩ then
      throw (.nonDenseReactionId ⟨UInt32.ofNat expected⟩ reaction.id)
    if reaction.key = "" then
      throw (.emptyReactionKey reaction.id)
    if idsByKey.contains reaction.key then
      throw (.duplicateReactionKey reaction.key)
    validateReaction reaction gases
    -- both zeros have the same numeric priority
    let priorityBits :=
      if reaction.priority == 0.0 then 0 else FloatFormat.toBits reaction.priority
    match idsByPriorityBits[priorityBits]? with
    | some first => throw (.duplicateReactionPriority first reaction.id)
    | none =>
      collectReactionKeys gases rest (expected + 1) (idsByKey.insert reaction.key reaction.id)
        (idsByPriorityBits.insert priorityBits reaction.id)

namespace ReactionMetadataRegistry

/-- The priority of a registered reaction. -/
def priorityOf (reactions : List (ReactionMetadata F)) (id : ReactionId) : F :=
  (reactions[id.val.toNat]?.map ReactionMetadata.priority).getD 0.0

/-- `ReactionMetadataRegistry::try_new`. -/
def tryNew (reactions : List (ReactionMetadata F)) (gases : GasMetadataRegistry F) :
    Except ReactionMetadataError (ReactionMetadataRegistry F) := do
  let reactions := reactions.insertionSort fun a b => a.id.val ≤ b.id.val
  match firstRepeated ReactionMetadata.id reactions with
  | some duplicate => throw (.duplicateReactionId duplicate.id)
  | none => pure ()
  let idsByKey ← collectReactionKeys gases reactions 0 ∅ ∅
  let priorityOrder := (reactions.map ReactionMetadata.id).insertionSort fun left right =>
    (FloatFormat.totalCmp (priorityOf reactions right) (priorityOf reactions left)).isLE
  pure { reactions, idsByKey, priorityOrder }

/-- `ReactionMetadataRegistry::len`. -/
def len (registry : ReactionMetadataRegistry F) : UInt32 :=
  UInt32.ofNatClamp registry.reactions.length

/-- `ReactionMetadataRegistry::by_id`. -/
def byId (registry : ReactionMetadataRegistry F) (id : ReactionId) : Option (ReactionMetadata F) :=
  registry.reactions[id.val.toNat]?

end ReactionMetadataRegistry

/-! ## Which reactions a mixture can run -/

/-- `MINIMUM_FIRE_MOLES`. -/
def minimumFireMoles : F := 0.0001

/-- The heat capacity sum shared by the reaction conditions, rounded once per gas. -/
def foldHeatCapacity (gases : Gases F) (specificHeats : List F) : F :=
  (gases.toList.zip specificHeats).foldl
    (fun capacity (amount, specificHeat) => mulAdd specificHeat amount capacity) 0.0

/-- The thermal energy `reaction_conditions_met` compares with `minimum_energy`. -/
def reactionThermalEnergy (temperature : F) (moles : Gases F) (gases : GasMetadataRegistry F) : F :=
  foldHeatCapacity moles gases.specificHeats * temperature

/-- One gas of the fire reagent totals. -/
def addFireReagents (temperature : F) (totals : F × F) (entry : F × GasMetadata F) : F × F :=
  let (amount, gas) := entry
  if amount ≤ minimumFireMoles then totals
  else
    match gas.fireRole with
    | .oxidizer minimumTemperature power =>
      if minimumTemperature < temperature then
        (totals.1 + amount * fmax (1.0 - minimumTemperature / temperature) 0.0 * power, totals.2)
      else totals
    | .fuel minimumTemperature burnRate =>
      if minimumTemperature < temperature then
        (totals.1, totals.2 + amount * fmax (1.0 - minimumTemperature / temperature) 0.0 / burnRate)
      else totals
    | .none => totals

/-- The fire reagents `reaction_conditions_met` compares with `minimum_fire_reagents`. -/
def reactionFireReagents (temperature : F) (moles : Gases F) (gases : GasMetadataRegistry F) : F :=
  let totals := (moles.toList.zip gases.gases).foldl (addFireReagents temperature) (0.0, 0.0)
  fmin totals.1 totals.2

/-- The lazily computed totals `reaction_conditions_met` shares between reactions. -/
structure ReactionTotals (F : Type) where
  thermalEnergy : Option F := none
  fireReagents : Option F := none

/-- `reaction_conditions_met`: whether a reaction can run, and the totals computed so far. -/
def reactionConditionsMet (reaction : ReactionMetadata F) (temperature : F) (moles : Gases F)
    (gases : GasMetadataRegistry F) (totals : ReactionTotals F) : Bool × ReactionTotals F :=
  if !reaction.minimumTemperature.all (fun minimum => decide (minimum ≤ temperature)) ||
      !reaction.maximumTemperature.all (fun maximum => decide (temperature ≤ maximum)) ||
      !reaction.gasRequirements.all
        (fun requirement => decide (requirement.minimumMoles ≤ moles.at requirement.gas.index)) then
    (false, totals)
  else
    let (energyMet, totals) :=
      match reaction.minimumEnergy with
      | none => (true, totals)
      | some minimum =>
        let energy := totals.thermalEnergy.getD (reactionThermalEnergy temperature moles gases)
        (decide (minimum ≤ energy), { totals with thermalEnergy := some energy })
    if !energyMet then (false, totals)
    else
      match reaction.minimumFireReagents with
      | none => (true, totals)
      | some minimum =>
        let reagents := totals.fireReagents.getD (reactionFireReagents temperature moles gases)
        (decide (minimum ≤ reagents), { totals with fireReagents := some reagents })

namespace ReactionMetadataRegistry

/-- The loop of `reactable_ids_into`. -/
def reactableFrom (registry : ReactionMetadataRegistry F) (temperature : F) (moles : Gases F)
    (gases : GasMetadataRegistry F) : List ReactionId → ReactionTotals F → List ReactionId
  | [], _ => []
  | id :: rest, totals =>
    match registry.byId id with
    | none => []
    | some reaction =>
      let (met, totals) := reactionConditionsMet reaction temperature moles gases totals
      if met then id :: reactableFrom registry temperature moles gases rest totals
      else reactableFrom registry temperature moles gases rest totals

/-- `ReactionMetadataRegistry::reactable_ids_into`. -/
def reactableIds (registry : ReactionMetadataRegistry F) (temperature : F) (moles : Gases F)
    (gases : GasMetadataRegistry F) : List ReactionId :=
  registry.reactableFrom temperature moles gases registry.priorityOrder {}

/-- `ReactionMetadataRegistry::is_reactable`. -/
def isReactable (registry : ReactionMetadataRegistry F) (id : ReactionId) (temperature : F)
    (moles : Gases F) (gases : GasMetadataRegistry F) : Bool :=
  match registry.byId id with
  | none => false
  | some reaction => (reactionConditionsMet reaction temperature moles gases {}).1

end ReactionMetadataRegistry

end Dogmos
