import Dogmos.Core.React
import Dogmos.Stage.Chunk
import Dogmos.Stage.Diffusion

/-!
# The component stages

`Equalize` and `ExcitedGroups` walk the connected components of the frontier.
A component is discovered neighbour by neighbour, captured turf by turf, computed
on its kernel, staged record by record, and published before the next one is
looked for.
-/

namespace Dogmos

namespace DogmosWorld

variable {F D : Type} [FloatFormat F] [FloatFormat D] [FloatCast F D]

open Chunk

/-- The scratch a running component stage owns. -/
def componentState : WorldM F (StageComponentState F) :=
  Exec.check fun w =>
    match w.stageComponents with
    | some state => pure state
    | none => throw (.state "component stage owns traversal state")

/-- Writes the scratch of a running component stage. -/
def setComponents (state : StageComponentState F) : WorldM F Unit :=
  modify fun w => { w with stageComponents := some state }

/-! ## Discovery -/

/-- `prepare_stage_component_turf`. -/
def prepareStageComponentTurf (turf : TurfHandle) : WorldM F Unit := do
  let w ← get
  match w.capturableMixture turf with
  | none => return ()
  | some _ => do
    let state ← componentState
    setComponents
      { state with
        targets := state.targets ++ [turf]
        activeBySlot := state.activeBySlot.insert turf.slot turf }

/-- A turf joins the component unless it was visited. -/
def visitTurf (state : StageComponentState F) (turf : TurfHandle) : StageComponentState F :=
  let (inserted, visited) := SlotSet.insertNew state.visited turf.slot
  { state with
    visited
    queue := if inserted then state.queue ++ [turf] else state.queue }

/-- `advance_stage_component_discovery`: whether there was something to look at. -/
def advanceStageComponentDiscovery : WorldM F Bool := do
  let state ← componentState
  let w ← get
  match state.queue[state.queueIndex]? with
  | some current => do
    match (w.topology.gasNeighbors current)[state.nextNeighbor]? with
    | none => do
      setComponents { state with queueIndex := state.queueIndex + 1, nextNeighbor := 0 }
      return true
    | some neighbor => do
      let state := { state with nextNeighbor := state.nextNeighbor + 1 }
      if state.activeBySlot.get neighbor.handle.slot = some neighbor.handle then
        setComponents (visitTurf state neighbor.handle)
      else
        setComponents state
      return true
  | none => do
    if !state.queue.isEmpty then
      setComponents { state with componentReady := true }
      return false
    match state.targets[state.nextSeed]? with
    | none => return false
    | some seed => do
      setComponents (visitTurf { state with nextSeed := state.nextSeed + 1 } seed)
      return true

/-- `stage_component_discovery_complete`. -/
def stageComponentDiscoveryComplete (w : DogmosWorld F) : Bool :=
  w.stageComponents.any fun state =>
    decide (state.targets.length ≤ state.nextSeed) && state.queue.isEmpty && !state.componentReady

/-! ## A component that is ready -/

/-- The scratch with a kernel to capture into. -/
def withKernel (w : DogmosWorld F) (state : StageComponentState F) : StageComponentState F :=
  if state.componentKernel.isNone && state.computation.isNone then
    { state with componentKernel := some (.new w) }
  else state

/-- The scratch with the computation of the captured component started. -/
def withComputation (state : StageComponentState F) (stage : WorldStage) :
    StageComponentState F :=
  match state.computation, state.componentKernel with
  | none, some kernel =>
    { state with
      componentKernel := none
      transaction := { slotToIndex := [], touchedBits := [], entries := [], maxEntries := 0 }
      stagedEvents := []
      computation := some (compute kernel state.transaction state.stagedEvents stage) }
  | _, _ => state

/-- The scratch after its computation returned. -/
def finishedComputation (state : StageComponentState F) (computation : Computation F) :
    StageComponentState F :=
  { state with
    computation := none
    componentKernel := some computation.kernel.clear
    transaction := computation.transaction
    stagedEvents := computation.events }

/-- One turf of the component captured. -/
def captureStageComponent (turf : TurfHandle) : WorldM F Unit := do
  let state ← componentState
  match state.componentKernel with
  | none => return ()
  | some kernel => do
    -- the position moves on even when the capture fails
    setComponents { state with preparedTurfs := state.preparedTurfs + 1 }
    let kernel ← Exec.check fun w => kernel.capture w turf
    setComponents
      { state with preparedTurfs := state.preparedTurfs + 1, componentKernel := some kernel }

/-- One poll of the computation: whether it has returned. -/
def pollStageComponent : WorldM F Bool := do
  let state ← componentState
  match state.computation with
  | none => return true
  | some computation => do
    if computation.polls ≠ 0 then
      setComponents
        { state with
          computation := some { computation with polls := computation.polls - 1 } }
      return false
    setComponents (finishedComputation state computation)
    let _ ← Exec.check fun _ => computation.result
    setComponents { finishedComputation state computation with computed := true }
    return true

/-- The record an entry of the transaction stages. -/
def entryCandidate (w : DogmosWorld F) (state : StageComponentState F)
    (entry : TransactionEntry (MixtureRecord F)) : Except WorldError (MixtureRecord F) := do
  if SlotSet.contains state.publishedMixtures entry.handle then
    throw (.duplicateMutableTurfMixture entry.handle)
  let current ←
    match w.requireHandle entry.handle with
    | .ok current => pure current
    | .error _ => throw (.stageConflict (.transactionHandleMissing entry.handle))
  if current.revision ≠ entry.expectedRevision then
    throw (.stageConflict
      (.transactionRevision entry.handle entry.expectedRevision current.revision))
  let candidate := { entry.candidate with gases := canonicalizeGases entry.candidate.gases }
  if !gasesEqual candidate.gases current.gases || candidate.temperature != current.temperature then
    if current.revision = maxRevision then
      throw (.revisionExhausted entry.handle)
    pure { candidate with revision := current.revision + 1 }
  else pure candidate

/-- One entry of the transaction staged; it is retired even when that fails. -/
def stageEntry (entry : TransactionEntry (MixtureRecord F)) : WorldM F Unit := do
  let state ← componentState
  let w ← get
  setComponents
    { state with
      publishedMixtures := state.publishedMixtures.insert entry.handle ()
      transaction := state.transaction.retire state.publicationIndex
      publicationIndex := state.publicationIndex + 1 }
  let candidate ← Exec.check fun _ => w.entryCandidate state entry
  modify fun w => w.stageMixture entry.handle.slot.toNat state.publication candidate

/-- The scratch after a component was published. -/
def publishedComponent (state : StageComponentState F) (publication : PublicationId) :
    StageComponentState F :=
  { state with
    callbackEvents :=
      UInt32.ofNatClamp
        (state.callbackEvents.toNat + (UInt32.ofNatClamp state.stagedEvents.length).toNat)
    stagedEvents := []
    transaction := state.transaction.clearRetired
    publication
    publicationIndex := 0
    computed := false
    queue := []
    preparedTurfs := 0
    queueIndex := 0
    nextNeighbor := 0
    componentReady := false
    componentsProcessed := state.componentsProcessed + 1 }

/-- The publication of a component. -/
def publishStageComponent (eventCapacity : Nat) : WorldM F Unit := do
  let state ← componentState
  Exec.check fun w => w.requireEventCapacity state.stagedEvents.length eventCapacity
  publishOr state.publication "publish component after a concurrent write"
  modify fun w => { w with events := w.events ++ state.stagedEvents }
  let publication ← newPublication
  setComponents (publishedComponent state publication)

/-- The part of `process_ready_stage_component` behind the computation. -/
def publishReadyComponent (eventCapacity : Nat) : WorldM F Unit := do
  let state ← componentState
  match state.transaction.entries[state.publicationIndex]? with
  | some entry => stageEntry entry
  | none => publishStageComponent eventCapacity

/-- The scratch of a ready component, with a kernel to capture into. -/
def takeKernel : WorldM F (StageComponentState F) := do
  let state ← componentState
  let w ← get
  setComponents (w.withKernel state)
  return w.withKernel state

/-- The part of `process_ready_stage_component` that captures and computes: whether the component
is computed. -/
def computeReadyComponent (stage : WorldStage) (shouldCancel : Nat → Bool) : ChunkM F Bool := do
  let state ← onWorld takeKernel
  match state.queue[state.preparedTurfs]? with
  | some turf => do
    onWorld (captureStageComponent turf)
    return false
  | none => do
    onWorld (setComponents (withComputation state stage))
    checkCancelled shouldCancel
    onWorld pollStageComponent

/-- `process_ready_stage_component`. -/
def processReadyStageComponent (stage : WorldStage) (eventCapacity : Nat)
    (shouldCancel : Nat → Bool) : ChunkM F Unit := do
  let state ← onWorld componentState
  let computed ←
    if state.computed then pure true else computeReadyComponent stage shouldCancel
  if computed then
    onWorld (publishReadyComponent eventCapacity)

/-- Whether a component waits to be processed. -/
def componentReady (w : DogmosWorld F) : Bool :=
  w.stageComponents.any StageComponentState.componentReady

/-- One unit of a component stage: a step of a ready component, or of the discovery. -/
def advanceComponents (stage : WorldStage) (eventCapacity : Nat) (shouldCancel : Nat → Bool) :
    ChunkM F Bool := do
  let chunk ← get
  if chunk.world.componentReady then do
    checkCancelled shouldCancel
    processReadyStageComponent stage eventCapacity shouldCancel
    return true
  else onWorld advanceStageComponentDiscovery

/-- `finish_stage_components`: the number of events and of components. -/
def finishStageComponents : WorldM F (UInt32 × UInt32) := do
  let state ← componentState
  modify fun w => w.cacheComponents state
  return (state.callbackEvents, state.componentsProcessed)

end DogmosWorld

end Dogmos
