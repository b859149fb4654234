import Dogmos.Stage.Chunk
import Dogmos.Stage.Heat
import Dogmos.Stage.Reaction
import Dogmos.Stage.Components

/-!
# The stage driver

`processStageChunk` does a bounded amount of a stage's work.  The first chunk
starts the stage, each chunk runs the phases of its kind until its work limit is
used up, and the chunk that finds every phase complete commits the stage.  A
chunk that fails aborts the stage.
-/

namespace Dogmos

variable {F D : Type}

namespace DogmosWorld

variable [FloatFormat F] [FloatFormat D] [FloatCast F D]

open Chunk

/-! ## Starting a stage -/

/-- `StageCursor::new`. -/
def newCursor (request : StageChunkRequest D) (topologyRevision : UInt64) : StageCursor :=
  { stage := request.stage
    frontierEpoch := request.frontierEpoch
    stageEpoch := request.stageEpoch
    secondsPerTickBits := FloatFormat.toBits request.secondsPerTick
    topologyRevision
    nextFrontierIndex := 0 }

/-- `StageCursor::matches`. -/
def cursorMatches (cursor : StageCursor) (request : StageChunkRequest D) : Bool :=
  cursor.stage = request.stage && cursor.frontierEpoch = request.frontierEpoch &&
    cursor.stageEpoch = request.stageEpoch &&
    cursor.secondsPerTickBits = FloatFormat.toBits request.secondsPerTick

/-- The checks of a chunk request that come before the cursor. -/
def validateChunkRequest (w : DogmosWorld F) (request : StageChunkRequest D) :
    Except WorldError Unit :=
  if request.workLimit = 0 ∨ maxStageWorkLimit < request.workLimit then
    throw (.invalidStageWorkLimit request.workLimit)
  else if !FloatFormat.isFinite request.secondsPerTick || decide (request.secondsPerTick ≤ 0.0) then
    throw .invalidSecondsPerTick
  else if w.frontier.committedEpoch ≠ some request.frontierEpoch then
    throw (.stageConflict (.frontierEpoch request.frontierEpoch w.frontier.committedEpoch))
  else pure ()

/-- The conflict of a request with the stage that is running. -/
def cursorConflict (cursor : StageCursor) (request : StageChunkRequest D) : WorldError :=
  .stageConflict
    (.cursorIdentity request.stage request.frontierEpoch request.stageEpoch
      (FloatFormat.toBits request.secondsPerTick) cursor.stage cursor.frontierEpoch
      cursor.stageEpoch cursor.secondsPerTickBits)

/-- Both registries, which a reaction stage needs. -/
def requireRegistries (w : DogmosWorld F) : Except WorldError Unit := do
  let _ ← w.requireGases
  let _ ← w.requireReactions
  pure ()

/-- Sets the cursor of a new stage; the scratch of its kind follows. -/
def setCursor (request : StageChunkRequest D) : WorldM F Unit :=
  modify fun w =>
    { w with
      stageCursor := some (newCursor request w.topology.revision)
      stageDiffusion := none
      stageHeat := none
      stageReactions := none
      stageComponents := none }

/-- The start of a stage: its scratch is taken from the cache or made, and the cursor is set. -/
def startStage (request : StageChunkRequest D) : WorldM F Unit :=
  match request.stage with
  | .processTurfs => do
    setCursor request
    startDiffusion
  | .turfHeat => do
    setCursor request
    startHeat
  | .react => do
    Exec.check requireRegistries
    setCursor request
    startReactions
  | _ => do
    let state ← startComponents
    setCursor request
    setComponents state

/-- The part of a chunk before its phases: the request is checked and the stage is started or
found. -/
def openStage (request : StageChunkRequest D) : WorldM F Unit := do
  Exec.check fun w => w.validateChunkRequest request
  let w ← get
  match w.stageCursor with
  | some cursor => do
    if !cursorMatches cursor request then
      throw (cursorConflict cursor request)
  | none => startStage request
  Exec.check fun w =>
    match w.stageCursor with
    | some cursor =>
      if cursor.topologyRevision ≠ w.topology.revision then
        throw (.stageConflict (.topologyRevision cursor.topologyRevision w.topology.revision))
      else pure ()
    | none => pure ()

/-! ## The phases -/

/-- The number of turfs to prepare. -/
def preparationLength (w : DogmosWorld F) : UInt32 := UInt32.ofNatClamp w.frontier.committed.length

/-- The position of the preparation. -/
def nextFrontierIndex (w : DogmosWorld F) : UInt32 :=
  match w.stageCursor with
  | some cursor => cursor.nextFrontierIndex
  | none => 0

/-- Moves the preparation on. -/
def advanceCursor : WorldM F Unit :=
  modify fun w =>
    { w with
      stageCursor := w.stageCursor.map fun cursor =>
        { cursor with nextFrontierIndex := cursor.nextFrontierIndex + 1 } }

/-- The preparation of one turf of the frontier. -/
def prepareStageTurf (stage : WorldStage) (handle : TurfHandle) : WorldM F Unit :=
  match stage with
  | .turfHeat => prepareStageHeatTurf handle false
  | .processTurfs => prepareStageDiffusionTurf handle
  | .react => prepareStageReactionTurf handle
  | _ => prepareStageComponentTurf handle

/-- One unit of the preparation. -/
def prepareNext (stage : WorldStage) : WorldM F Unit := do
  let w ← get
  match w.frontier.committed[w.nextFrontierIndex.toNat]? with
  | some handle => prepareStageTurf stage handle
  | none => pure ()
  advanceCursor

/-- The turfs of the frontier that are still to be prepared. -/
def remainingPreparation (w : DogmosWorld F) : Nat :=
  w.preparationLength.toNat - w.nextFrontierIndex.toNat

/-- The active turfs a heat stage has not taken as seeds yet. -/
def remainingSeeds (w : DogmosWorld F) : Nat :=
  match w.stageHeat with
  | some state => w.heatActive.length - state.nextActiveSeed
  | none => 0

/-- One active turf taken as a seed of a heat stage. -/
def prepareSeed : WorldM F Unit := do
  let state ← heatState
  let w ← get
  match w.heatActive[state.nextActiveSeed]? with
  | none => return ()
  | some handle => do
    setHeat { state with stagedHeatActive := state.stagedHeatActive ++ [handle] }
    prepareStageHeatTurf handle true
    let state ← heatState
    setHeat { state with nextActiveSeed := state.nextActiveSeed + 1 }

/-- The nodes a diffusion stage has not computed yet. -/
def remainingDiffusionNodes (w : DogmosWorld F) : Nat :=
  match w.stageDiffusion with
  | some state => state.turfs.length - state.nextNode
  | none => 0

/-- One node of a diffusion stage. -/
def computeNextDiffusionNode : WorldM F Unit := do
  let state ← diffusionState
  computeStageDiffusionNode state.nextNode
  let state ← diffusionState
  setDiffusion { state with nextNode := state.nextNode + 1 }

/-- The nodes a heat stage has not computed yet. -/
def remainingHeatNodes (w : DogmosWorld F) : Nat :=
  match w.stageHeat with
  | some state => state.nodes.length - state.nextNode
  | none => 0

/-- One node of a heat stage. -/
def computeNextHeatNode (secondsPerTick : F) : WorldM F Unit := do
  let state ← heatState
  computeStageHeatNode state.nextNode secondsPerTick
  let state ← heatState
  setHeat { state with nextNode := state.nextNode + 1 }

/-- The targets a reaction stage has not run yet; none once a sequence stopped. -/
def remainingTargets (w : DogmosWorld F) : Nat :=
  match w.stageReactions with
  | some state => if state.pending.isSome then 0 else state.targets.length - state.nextTarget
  | none => 0

/-- One target of a reaction stage. -/
def computeNextTarget : WorldM F Unit := do
  let state ← reactionState
  computeStageReactionTarget state.nextTarget
  let state ← reactionState
  setReactions { state with nextTarget := state.nextTarget + 1 }

/-- Ends the stage. -/
def clearCursor : WorldM F Unit := modify fun w => { w with stageCursor := none }

/-- The phases of `ProcessTurfs` behind the preparation. -/
def runDiffusion (workLimit : Nat) (shouldCancel : Nat → Bool) : ChunkM F StageChunkResult :=
  phase workLimit
    (checkedBefore shouldCancel (fun w => w.remainingDiffusionNodes ≠ 0) computeNextDiffusionNode)
    remainingDiffusionNodes do
      let chunk ← get
      let _ ← onWorld commitStageDiffusion
      onWorld clearCursor
      return finishedResult chunk

/-- The commit of `TurfHeat`. -/
def finishHeat (eventCapacity : Nat) : ChunkM F StageChunkResult := do
  let chunk ← get
  let (completed, callbackEvents) ← onWorld (commitStageHeat eventCapacity)
  onWorld clearCursor
  return { finishedResult chunk with callbackEvents, producedHeatSeeds := completed }

/-- The last phases of `TurfHeat`: conduction and the staging of its records. -/
def runConduction (secondsPerTick : F) (eventCapacity workLimit : Nat)
    (shouldCancel : Nat → Bool) : ChunkM F StageChunkResult := do
  onWorld (prepareStageHeatConduction secondsPerTick)
  phase workLimit (checkedAfter shouldCancel advanceStageHeatConduction)
    (fun w => if w.stageHeatConductionComplete then 0 else 1)
    (phase workLimit (checkedAfter shouldCancel advanceStageHeatPublication)
      (fun w => if w.stageHeatPublicationComplete then 0 else 1)
      (finishHeat eventCapacity))

/-- The phases of `TurfHeat` behind the preparation. -/
def runHeat (secondsPerTick : F) (eventCapacity workLimit : Nat) (shouldCancel : Nat → Bool) :
    ChunkM F StageChunkResult :=
  phase workLimit (checkedBefore shouldCancel (fun w => w.remainingSeeds ≠ 0) prepareSeed)
    remainingSeeds
    (phase workLimit
      (checkedBefore shouldCancel (fun w => w.remainingHeatNodes ≠ 0)
        (computeNextHeatNode secondsPerTick))
      remainingHeatNodes
      (phase workLimit (checkedAfter shouldCancel advanceStageHeatTopology)
        (fun w => if w.stageHeatTopologyComplete then 0 else 1)
        (runConduction secondsPerTick eventCapacity workLimit shouldCancel)))

/-- The phases of `React` behind the preparation. -/
def runTargets (eventCapacity workLimit : Nat) (shouldCancel : Nat → Bool) :
    ChunkM F StageChunkResult :=
  phase workLimit
    (checkedBefore shouldCancel (fun w => w.remainingTargets ≠ 0) computeNextTarget)
    remainingTargets do
      let chunk ← get
      let (_, callbackEvents) ← onWorld (commitStageReactions eventCapacity)
      onWorld clearCursor
      return { finishedResult chunk with callbackEvents }

/-- The phases of `Equalize` and `ExcitedGroups` behind the preparation. -/
def runComponents (stage : WorldStage) (eventCapacity workLimit : Nat)
    (shouldCancel : Nat → Bool) : ChunkM F StageChunkResult :=
  phase workLimit (advanceComponents stage eventCapacity shouldCancel)
    (fun w => if w.stageComponentDiscoveryComplete then 0 else 1) do
      let chunk ← get
      let (callbackEvents, componentsProcessed) ← onWorld finishStageComponents
      onWorld clearCursor
      return { finishedResult chunk with
        callbackEvents
        producedEqualizeSeeds := if stage = .equalize then componentsProcessed else 0
        producedGroupSeeds := if stage = .excitedGroups then componentsProcessed else 0 }

/-- The phases of a stage behind the preparation. -/
def runStage (request : StageChunkRequest D) (eventCapacity : Nat) (shouldCancel : Nat → Bool) :
    ChunkM F StageChunkResult :=
  let workLimit := request.workLimit.toNat
  match request.stage with
  | .processTurfs => runDiffusion workLimit shouldCancel
  | .turfHeat => runHeat (narrow request.secondsPerTick) eventCapacity workLimit shouldCancel
  | .react => runTargets eventCapacity workLimit shouldCancel
  | stage => runComponents stage eventCapacity workLimit shouldCancel

/-! ## Chunks -/

/-- `process_stage_chunk_cancellable_inner`. -/
def processStageChunkInner (request : StageChunkRequest D) (eventCapacity : Nat)
    (shouldCancel : Nat → Bool) : ChunkM F StageChunkResult := do
  onWorld (openStage request)
  checkCancelled shouldCancel
  phase request.workLimit.toNat
    (checkedBefore shouldCancel (fun w => w.remainingPreparation ≠ 0) (prepareNext request.stage))
    remainingPreparation
    (runStage request eventCapacity shouldCancel)

/-- `process_stage_chunk_cancellable_with_event_limit`; `shouldCancel` gives the answer to each
check. -/
def processStageChunk (request : StageChunkRequest D) (eventLimit : UInt32)
    (shouldCancel : Nat → Bool) : WorldM F StageChunkResult := do
  let w ← get
  let (result, chunk) := Exec.run
    (processStageChunkInner request (min w.maxEvents eventLimit).toNat shouldCancel)
    { world := w, workItems := 0, checks := 0 }
  match result with
  | .ok result => do
    set chunk.world
    return result
  | .error error => do
    set chunk.world.abortStage
    throw error

/-- `pending_stage_epoch`. -/
def pendingStageEpoch (w : DogmosWorld F) : Option UInt64 := w.stageCursor.map StageCursor.stageEpoch

end DogmosWorld

end Dogmos
