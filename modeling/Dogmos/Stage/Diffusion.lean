import Dogmos.Stage.Scratch

/-!
# The diffusion stage

`ProcessTurfs` diffuses gas between the turfs of the frontier and their
neighbours.  Preparing a turf captures its mixture's gases and marks the mixture
with the publication of the stage; computing a node stages the diffused record;
one publication makes all of them visible.
-/

namespace Dogmos

namespace DogmosWorld

variable {F D : Type} [FloatFormat F] [FloatFormat D] [FloatCast F D]

/-- The scratch a running diffusion stage owns. -/
def diffusionState : WorldM F (StageDiffusionState F) :=
  Exec.check fun w =>
    match w.stageDiffusion with
    | some state => pure state
    | none => throw (.state "process-turfs stage owns diffusion state")

/-- Writes the scratch of a running diffusion stage. -/
def setDiffusion (state : StageDiffusionState F) : WorldM F Unit :=
  modify fun w => { w with stageDiffusion := some state }

/-- `widen_gas_stride`: the stride that covers the gases of a row. -/
def widenedStride (stride : Nat) (gases : Gases F) : Nat :=
  max stride (activeIndexBound gases)
where
  /-- One past the highest gas that is present. -/
  activeIndexBound (gases : Gases F) : Nat :=
    (gases.toList.reverse.dropWhile fun amount => amount == 0.0).length

/-- The scratch with a captured turf. -/
def capturedTurf (state : StageDiffusionState F) (turf : TurfHandle) (handle : MixtureHandle)
    (mixture : MixtureRecord F) (seenMixtures : SlotSet MixtureHandle) : StageDiffusionState F :=
  let heatCapacity :=
    fmax (foldHeatCapacity mixture.gases state.specificHeats.toList) mixture.minimumHeatCapacity
  { state with
    turfs := state.turfs ++ [turf]
    mixtures := state.mixtures ++ [handle]
    indexByTurf := state.indexByTurf.insert turf state.turfs.length
    seenMixtures
    gasStride := widenedStride state.gasStride mixture.gases
    input := state.input ++ [mixture.gases]
    output := state.output ++ [noGases]
    inputTemperatures := state.inputTemperatures ++ [mixture.temperature]
    minimumHeatCapacities := state.minimumHeatCapacities ++ [mixture.minimumHeatCapacity]
    inputEnergy := state.inputEnergy ++ [heatCapacity * mixture.temperature]
    outputEnergy := state.outputEnergy ++ [0.0] }

/-- The mixture of a turf the stage can capture; a turf that is gone or has none is skipped. -/
def capturableMixture (w : DogmosWorld F) (turf : TurfHandle) : Option MixtureHandle :=
  match w.requireTurfHandle turf with
  | .ok record => record.mixture
  | .error _ => none

/-- `append_stage_diffusion_turf`. -/
def appendStageDiffusionTurf (turf : TurfHandle) : WorldM F Unit := do
  let state ← diffusionState
  let w ← get
  if state.indexByTurf.containsKey turf then
    return ()
  match w.capturableMixture turf with
  | none => return ()
  | some handle => do
    let mixture ← Exec.check fun w => w.requireHandle handle
    let (inserted, seenMixtures) :=
      if mixture.immutable then (true, state.seenMixtures)
      else SlotSet.insertNew state.seenMixtures handle
    setDiffusion { state with seenMixtures }
    if !inserted then
      throw (.duplicateMutableTurfMixture handle)
    if !mixture.immutable && mixture.revision = maxRevision then
      throw (.revisionExhausted handle)
    setDiffusion (capturedTurf state turf handle mixture seenMixtures)
    modify fun w => w.prepareMixture handle.slot.toNat state.publication

/-- `prepare_stage_diffusion_turf`. -/
def prepareStageDiffusionTurf (turf : TurfHandle) : WorldM F Unit := do
  let w ← get
  let neighbors := (w.topology.gasNeighbors turf).take maxTurfNeighbors
  appendStageDiffusionTurf turf
  neighbors.forM fun neighbor => appendStageDiffusionTurf neighbor.handle

/-- The indexes of the captured neighbours of a node. -/
def capturedNeighbors (w : DogmosWorld F) (state : StageDiffusionState F) (turf : TurfHandle) :
    List Nat :=
  (w.topology.gasNeighbors turf).filterMap fun neighbor => state.indexByTurf.get neighbor.handle

/-- The diffused gases of a node: its own row by the self weight, then each neighbour's row. -/
def diffusedGases (state : StageDiffusionState F) (index : Nat) (neighbors : List Nat)
    (selfWeight : F) : Gases F :=
  let row := fun (index : Nat) => (state.input[index]?).getD noGases
  Vector.ofFn fun gas =>
    if gas.val < state.gasStride then
      neighbors.foldl
        (fun total neighbor => total + (row neighbor).at gas.val * gasDiffusionConstant)
        ((row index).at gas.val * selfWeight)
    else 0.0

/-- The diffused energy of a node. -/
def diffusedEnergy (state : StageDiffusionState F) (index : Nat) (neighbors : List Nat)
    (selfWeight : F) : F :=
  let energy := fun (index : Nat) => (state.inputEnergy[index]?).getD 0.0
  neighbors.foldl (fun total neighbor => total + energy neighbor * gasDiffusionConstant)
    (energy index * selfWeight)

/-- The record a node's mixture takes. -/
def diffusedRecord (state : StageDiffusionState F) (index : Nat) (gases : Gases F) (energy : F)
    (mixture : MixtureRecord F) : MixtureRecord F :=
  let gases := canonicalizeGases gases
  let heatCapacity := fmax (foldHeatCapacity gases state.specificHeats.toList)
    ((state.minimumHeatCapacities[index]?).getD 0.0)
  { mixture with
    gases
    temperature :=
      if minimumHeatCapacity < heatCapacity then fmax (energy / heatCapacity) minimumTemperatureK
      else (state.inputTemperatures[index]?).getD 0.0
    revision := mixture.revision + 1 }

/-- `compute_stage_diffusion_node`. -/
def computeStageDiffusionNode (index : Nat) : WorldM F Unit := do
  let state ← diffusionState
  let w ← get
  match state.turfs[index]?, state.mixtures[index]? with
  | some turf, some handle => do
    let neighbors := w.capturedNeighbors state turf
    let selfWeight ← Exec.check fun _ =>
      (diffusionSelfWeight neighbors.length).mapError WorldError.state
    let gases := diffusedGases state index neighbors selfWeight
    let energy := diffusedEnergy state index neighbors selfWeight
    setDiffusion
      { state with
        output := state.output.set index gases
        outputEnergy := state.outputEnergy.set index energy }
    match w.mixtureAt handle.slot.toNat with
    | none => throw (.unknownHandle handle)
    | some mixture =>
      if !mixture.immutable then
        modify fun w => w.stageMixture handle.slot.toNat state.publication
          (diffusedRecord state index gases energy mixture)
  | _, _ => return ()

/-- Publishes a token, or fails with the operation that a write got in the way of. -/
def publishOr (publication : PublicationId) (operation : String) : WorldM F Unit := do
  let w ← get
  if !w.publications.undecided publication then
    throw (.stageConflict (.activeStageMutation operation))
  modify fun w => { w with publications := w.publications.publish publication }

/-- `commit_stage_diffusion`. -/
def commitStageDiffusion : WorldM F UInt32 := do
  let state ← diffusionState
  modify fun w => { w with stageDiffusion := none }
  if 2 ^ 32 ≤ state.mixtures.length then
    throw (.state "turf count exceeds u32")
  publishOr state.publication "publish diffusion after a concurrent mixture write"
  modify fun w => w.cacheDiffusion state
  return UInt32.ofNat state.mixtures.length

end DogmosWorld

end Dogmos
