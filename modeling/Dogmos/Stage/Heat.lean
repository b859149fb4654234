import Dogmos.Core.TurfOps
import Dogmos.Core.React
import Dogmos.Stage.Diffusion

/-!
# The heat stage

`TurfHeat` captures the turfs of the frontier and of the active heat list with
their neighbours, exchanges heat with space and with the mixtures, conducts heat
along the edges in substeps, and stages the records it changes.  The active list
is rebuilt on a copy while the records stay hidden; publication makes the
records visible and swaps the copy in.
-/

namespace Dogmos

namespace DogmosWorld

variable {F D : Type} [FloatFormat F] [FloatFormat D] [FloatCast F D]

/-- The scratch a running heat stage owns. -/
def heatState : WorldM F (StageHeatState F) :=
  Exec.check fun w =>
    match w.stageHeat with
    | some state => pure state
    | none => throw (.state "turf-heat stage owns heat state")

/-- Writes the scratch of a running heat stage. -/
def setHeat (state : StageHeatState F) : WorldM F Unit :=
  modify fun w => { w with stageHeat := some state }

/-! ## Capture -/

/-- The scratch with a captured turf. -/
def capturedHeatTurf (state : StageHeatState F) (handle : TurfHandle) (heat : TurfHeatState F)
    (mixture : Option MixtureHandle) (canContinue : Bool) : StageHeatState F :=
  { state with
    nodes := state.nodes ++ [{ handle, heat, mixture, canContinue }]
    indexBySlot := state.indexBySlot.insert handle.slot state.nodes.length
    temperatures := state.temperatures ++ [heat.temperature]
    conductivities := state.conductivities ++ [heat.thermalConductivity]
    heatCapacities := state.heatCapacities ++ [heat.heatCapacity]
    rowSums := state.rowSums ++ [0.0] }

/-- The world with the records of a captured turf marked with the publication. -/
def prepareHeatRecords (w : DogmosWorld F) (publication : PublicationId) (handle : TurfHandle)
    (mixture : Option MixtureHandle) : DogmosWorld F :=
  let w := w.prepareTurf handle.slot.toNat publication
  match mixture with
  | some mixture => w.prepareMixture mixture.slot.toNat publication
  | none => w

/-- The mixture and the heat of a turf the stage can capture. -/
def capturableHeat (w : DogmosWorld F) (handle : TurfHandle) :
    Option (Option MixtureHandle × TurfHeatState F) :=
  match w.requireTurfHandle handle with
  | .ok turf => turf.heat.map fun heat => (turf.mixture, heat)
  | .error _ => none

/-- `append_stage_heat_turf`. -/
def appendStageHeatTurf (handle : TurfHandle) (canContinue : Bool) : WorldM F Unit := do
  let w ← get
  match w.capturableHeat handle with
  | none => return ()
  | some (mixture, heat) => do
    let state ← heatState
    match state.indexBySlot.get handle.slot with
    | some index =>
      setHeat
        { state with
          nodes := state.nodes.modify index fun node =>
            { node with canContinue := node.canContinue || canContinue } }
    | none => do
      if 2 ^ 32 ≤ state.nodes.length then
        throw (.state "turf heat count exceeds u32")
      setHeat (capturedHeatTurf state handle heat mixture canContinue)
      modify fun w => w.prepareHeatRecords state.publication handle mixture

/-- `prepare_stage_heat_turf`. -/
def prepareStageHeatTurf (handle : TurfHandle) (canContinue : Bool) : WorldM F Unit := do
  let w ← get
  let neighbors := (w.topology.heatNeighbors handle).take maxTurfNeighbors
  appendStageHeatTurf handle canContinue
  neighbors.forM fun neighbor => appendStageHeatTurf neighbor.handle true

/-! ## Heat exchange of a node -/

/-- The temperature of a turf after radiation to space. -/
def radiate (realistic : Bool) (heat : TurfHeatState F) (secondsPerTick temperature : F) : F :=
  let elapsedHeatScale := secondsPerTick / baseHeatStepSeconds
  if heat.adjacentToSpace && decide (273.15 < temperature) then
    if realistic then
      let emitted : D :=
        stefanBoltzmannConstant * widen secondsPerTick * FloatFormat.pow4 (widen temperature)
      let received : D := radiationFromSpace (F := F) * widen secondsPerTick
      narrow
        (fmax (widen temperature - (emitted - received) / widen heat.heatCapacity)
          (widen (minimumTemperatureK : F)))
    else if 293.15 < temperature then
      let energy := heatExchangeEnergy
        (heat.thermalConductivity * elapsedHeatScale * (temperature - minimumTemperatureK)) 7000.0
        heat.heatCapacity
      fmax (temperature - energy / heat.heatCapacity) minimumTemperatureK
    else temperature
  else temperature

/-- Whether a turf and a mixture are warm and different enough to exchange heat. -/
def exchangesHeat (temperature gasCapacity : F) (mixture : MixtureRecord F) : Bool :=
  !mixture.immutable &&
    (decide (minimumTemperatureForSuperconductionK < temperature) ||
      decide (minimumTemperatureForSuperconductionK ≤ mixture.temperature)) &&
    decide (minimumTemperatureDeltaToConsider < fabs (mixture.temperature - temperature)) &&
    decide (minimumHeatCapacity < gasCapacity)

/-- The exchange of heat between a turf and its mixture: the temperature of the turf, and the
mixture if it changes. -/
def exchangeWithMixture (handle : MixtureHandle) (heat : TurfHeatState F)
    (secondsPerTick temperature : F) : WorldM F F := do
  let state ← heatState
  let (inserted, linkedMixtures) := SlotSet.insertNew state.linkedMixtures handle
  setHeat { state with linkedMixtures }
  if !inserted then
    throw (.duplicateMutableTurfMixture handle)
  let registry ← Exec.check requireGases
  let mixture ← Exec.check fun w => w.requireHandle handle
  let gasCapacity := recordHeatCapacity mixture registry.specificHeats
  if !exchangesHeat temperature gasCapacity mixture then
    return temperature
  if mixture.revision = maxRevision then
    throw (.revisionExhausted handle)
  let energy :=
    heat.thermalConductivity * openHeatTransferCoefficient *
      (secondsPerTick / baseHeatStepSeconds) * (mixture.temperature - temperature) *
      harmonicHeatCapacity gasCapacity heat.heatCapacity
  setHeat
    { state with
      linkedMixtures
      stagedMixtures := state.stagedMixtures.insert handle
        { mixture with
          temperature := fmax (mixture.temperature - energy / gasCapacity) minimumTemperatureK } }
  return fmax (temperature + energy / heat.heatCapacity) minimumTemperatureK

/-- `compute_stage_heat_node`. -/
def computeStageHeatNode (index : Nat) (secondsPerTick : F) : WorldM F Unit := do
  let state ← heatState
  let w ← get
  match state.nodes[index]? with
  | none => return ()
  | some node => do
    let temperature := radiate w.realisticSpaceRadiation node.heat secondsPerTick
      ((state.temperatures[index]?).getD 0.0)
    let temperature ←
      match node.mixture with
      | none => pure temperature
      | some handle => exchangeWithMixture handle node.heat secondsPerTick temperature
    let state ← heatState
    let destroyed : Bool :=
      decide (minimumTemperatureStartSuperconductionK < temperature) &&
        decide (node.heat.heatCapacity < temperature)
    setHeat
      { state with
        temperatures := state.temperatures.set index temperature
        stagedEvents :=
          if destroyed then state.stagedEvents ++ [.turfDestructionRequest node.handle]
          else state.stagedEvents }

/-! ## Conduction -/

/-- The weight of an edge in the row of one of its ends. -/
def edgeWeight (state : StageHeatState F) (first second : Nat) : Except WorldError F :=
  let conductivity := fun (index : Nat) => (state.conductivities[index]?).getD 0.0
  let capacity := fun (index : Nat) => (state.heatCapacities[index]?).getD 0.0
  (heatRowWeight (conductivity first) (conductivity second) (capacity first)
    (capacity second)).mapError WorldError.state

/-- The scratch with an edge between two captured turfs. -/
def addHeatEdge (state : StageHeatState F) (first second : Nat) (firstWeight secondWeight : F) :
    StageHeatState F :=
  let rowSum := fun (rowSums : List F) (index : Nat) => (rowSums[index]?).getD 0.0
  let rowSums := state.rowSums.set first (rowSum state.rowSums first + firstWeight)
  let rowSums := rowSums.set second (rowSum rowSums second + secondWeight)
  { state with
    rowSums
    maximumRowSum := fmax (fmax state.maximumRowSum (rowSum rowSums first)) (rowSum rowSums second)
    edges := state.edges ++ [{ first, second, firstWeight, secondWeight }] }

/-- `advance_stage_heat_topology`: whether there was a neighbour slot to look at. -/
def advanceStageHeatTopology : WorldM F Bool := do
  let state ← heatState
  let w ← get
  match state.nodes[state.nextTopologyNode]? with
  | none => return false
  | some node => do
    match (w.topology.heatNeighbors node.handle)[state.nextTopologyNeighbor]? with
    | none => do
      setHeat
        { state with
          nextTopologyNode := state.nextTopologyNode + 1
          nextTopologyNeighbor := 0 }
      return true
    | some neighbor => do
      let state := { state with nextTopologyNeighbor := state.nextTopologyNeighbor + 1 }
      setHeat state
      match state.indexBySlot.get neighbor.handle.slot, state.indexBySlot.get node.handle.slot with
      | some second, some first => do
        if second ≤ first then
          return true
        let firstWeight ← Exec.check fun _ => edgeWeight state first second
        let secondWeight ← Exec.check fun _ => edgeWeight state second first
        setHeat (addHeatEdge state first second firstWeight secondWeight)
        return true
      | _, _ => return true

/-- `stage_heat_topology_complete`. -/
def stageHeatTopologyComplete (w : DogmosWorld F) : Bool :=
  w.stageHeat.any fun state => decide (state.nodes.length ≤ state.nextTopologyNode)

/-- `prepare_stage_heat_conduction`. -/
def prepareStageHeatConduction (secondsPerTick : F) : WorldM F Unit := do
  let state ← heatState
  if state.conductionSubsteps.isSome then
    return ()
  let elapsedScale := secondsPerTick / baseHeatStepSeconds
  let maximumScaledSum := state.maximumRowSum * elapsedScale
  if !FloatFormat.isFinite maximumScaledSum ||
      decide (FloatFormat.ofNat maxConductionSubsteps < maximumScaledSum) then
    throw (.state tooManySubsteps)
  let substeps := max (FloatFormat.toU32 (FloatFormat.ceil maximumScaledSum)) 1
  setHeat
    { state with
      conductionSubsteps := some substeps
      conductionScale := elapsedScale / FloatFormat.ofNat substeps.toNat }

/-- Whether all conduction substeps of a scratch are done. -/
def conductionComplete (state : StageHeatState F) : Bool :=
  state.conductionSubsteps.any fun substeps =>
    state.edges.isEmpty || decide (substeps ≤ state.conductionSubstep)

/-- `stage_heat_conduction_complete`. -/
def stageHeatConductionComplete (w : DogmosWorld F) : Bool := w.stageHeat.any conductionComplete

/-- The temperatures after one edge conducted. -/
def conductEdge (state : StageHeatState F) (edge : HeatEdge F) : List F :=
  let temperature := fun (temperatures : List F) (index : Nat) => (temperatures[index]?).getD 0.0
  let difference :=
    temperature state.temperatures edge.second - temperature state.temperatures edge.first
  let firstWeight := edge.firstWeight * state.conductionScale
  let secondWeight := edge.secondWeight * state.conductionScale
  let temperatures := state.temperatures.set edge.first
    (temperature state.temperatures edge.first + difference * firstWeight)
  temperatures.set edge.second (temperature temperatures edge.second - difference * secondWeight)

/-- `advance_stage_heat_conduction`: whether an edge conducted. -/
def advanceStageHeatConduction : WorldM F Bool := do
  let w ← get
  if w.stageHeatConductionComplete then
    return false
  let state ← heatState
  match state.edges[state.conductionEdge]? with
  | none => do
    setHeat { state with conductionSubstep := state.conductionSubsteps.getD 1 }
    return false
  | some edge => do
    let last := state.conductionEdge + 1 = state.edges.length
    setHeat
      { state with
        temperatures := conductEdge state edge
        conductionEdge := if last then 0 else state.conductionEdge + 1
        conductionSubstep :=
          if last then state.conductionSubstep + 1 else state.conductionSubstep }
    return true

/-! ## Staging the records -/

/-- The temperature that decides whether a node stays on the active list. -/
def stagedActivationTemperature (w : DogmosWorld F) (publication : PublicationId)
    (mixture : Option MixtureHandle) (temperature : F) : F :=
  match mixture.bind fun handle => w.preparedMixture handle.slot.toNat publication with
  | none => temperature
  | some mixture =>
    if mixture.gases.toList.any fun amount => decide (minimumCalculatedMoles ≤ amount) then
      fmax temperature mixture.temperature
    else temperature

/-- A node joins the staged active list. -/
def activateStaged (node : StageHeatNode F) : WorldM F Unit := do
  let state ← heatState
  let index := UInt32.ofNat state.stagedHeatActive.length
  setHeat { state with stagedHeatActive := state.stagedHeatActive ++ [node.handle] }
  modify fun w => w.writePreparedTurf node.handle.slot.toNat state.publication
    (TurfRecord.withIndex (some index))

/-- A node leaves the staged active list; the last turf takes its place. -/
def deactivateStaged (node : StageHeatNode F) (index : UInt32) : WorldM F Unit := do
  let state ← heatState
  let stagedHeatActive := swapRemove state.stagedHeatActive index.toNat
  setHeat { state with stagedHeatActive }
  match stagedHeatActive[index.toNat]? with
  | some moved =>
    modify fun w => w.writePreparedTurf moved.slot.toNat state.publication
      (TurfRecord.withIndex (some index))
  | none => pure ()
  modify fun w => w.writePreparedTurf node.handle.slot.toNat state.publication
    (TurfRecord.withIndex none)

/-- The staging of one node. -/
def publishNode (node : StageHeatNode F) : WorldM F Unit := do
  let state ← heatState
  let slot := node.handle.slot.toNat
  let temperature := (state.temperatures[state.publicationIndex]?).getD 0.0
  modify fun w => w.writePreparedTurf slot state.publication
    (TurfRecord.withTemperature temperature)
  let w ← get
  let oldIndex := (w.preparedTurf slot state.publication).bind TurfRecord.heatActiveIndex
  let threshold : F :=
    if oldIndex.isSome || node.canContinue then minimumTemperatureForSuperconductionK
    else minimumTemperatureStartSuperconductionK
  let activationTemperature :=
    w.stagedActivationTemperature state.publication node.mixture temperature
  match node.mixture with
  | some handle => modify fun w => w.prepareMixture handle.slot.toNat state.publication
  | none => pure ()
  if threshold ≤ activationTemperature then
    if oldIndex.isNone then
      activateStaged node
  else
    match oldIndex with
    | some index => deactivateStaged node index
    | none => pure ()

/-- `advance_stage_heat_publication`: whether there was a record to stage. -/
def advanceStageHeatPublication : WorldM F Bool := do
  let state ← heatState
  match state.stagedMixtures.minEntry? with
  | some (handle, mixture) => do
    setHeat { state with stagedMixtures := state.stagedMixtures.erase handle }
    modify fun w => w.stageMixture handle.slot.toNat state.publication
      { mixture with
        gases := canonicalizeGases mixture.gases
        revision := mixture.revision + 1 }
    return true
  | none => do
    match state.nodes[state.publicationIndex]? with
    | none => return false
    | some node => do
      publishNode node
      let state ← heatState
      setHeat { state with publicationIndex := state.publicationIndex + 1 }
      return true

/-- Whether every record of the stage is staged. -/
def stageHeatPublicationComplete (w : DogmosWorld F) : Bool :=
  !w.stageHeat.any fun state =>
    !state.stagedMixtures.isEmpty || decide (state.publicationIndex < state.nodes.length)

/-- `commit_stage_heat`: the number of turfs and of events. -/
def commitStageHeat (eventCapacity : Nat) : WorldM F (UInt32 × UInt32) := do
  let state ← heatState
  Exec.check fun w => w.requireEventCapacity state.stagedEvents.length eventCapacity
  modify fun w => { w with stageHeat := none }
  if 2 ^ 32 ≤ state.nodes.length then
    throw (.state "turf heat count exceeds u32")
  publishOr state.publication "publish heat after a concurrent write"
  modify fun w =>
    { w with
      heatActive := state.stagedHeatActive
      events := w.events ++ state.stagedEvents }.cacheHeat state
  return (UInt32.ofNat state.nodes.length, UInt32.ofNatClamp state.stagedEvents.length)

end DogmosWorld

end Dogmos
