import Dogmos.Lib.System
import Dogmos.Service.State

/-!
# The requests of the service

Every request the server takes over a connection ends in one method of the service.  `Request`
lists them with what they are given, `exec` runs one, and `Reachable` collects the states of all
runs from a new service.  What the clock and the check for cancellation answer is part of a step.

* `react`, `resumeContinuation`, `cancelContinuation` — the life of a reaction transaction.
* `processStageChunk` — a chunk of a stage; its events go to the general queue.
* `beginMixtureStateUpload` and the three methods behind it — a batch of mixture states that
  comes in pieces.
-/

namespace Dogmos

namespace Service

/-! ## Mutations -/

/-- `apply_lifecycle`: with a mixture go the continuations that wait for it. -/
def applyLifecycle (mutations : List Wire.LifecycleMutation) : ServiceM UInt32 := do
  let applied ← onWorld (DogmosWorld.applyLifecycle (mutations.map coreLifecycleMutation))
  let slots := (mutations.filter fun mutation => mutation.action = .unregister).map
    fun mutation => mutation.handle.slot
  modify fun s =>
    (s.retainContinuations fun continuation => !slots.contains continuation.mixture.slot)
      |>.removeOrphanedContinuationCallbacks
  return applied

/-- `apply_turf_lifecycle`. -/
def applyTurfLifecycle (mutations : List Wire.TurfLifecycleMutation) : ServiceM UInt32 := do
  let applied ← onWorld (DogmosWorld.applyTurfLifecycle (mutations.map coreTurfLifecycleMutation))
  let slots := (mutations.filter fun mutation => mutation.action = .unregister).map
    fun mutation => mutation.turf.slot
  modify fun s =>
    (s.retainContinuations fun continuation =>
        !continuation.turf.any fun turf => slots.contains turf.slot)
      |>.removeOrphanedContinuationCallbacks
  return applied

/-- The check of `apply_turf_adjacency` that no edge comes twice. -/
def requireDistinctEdges : List (UInt32 × UInt32) → List Wire.TurfAdjacencyMutation →
    Except StateError Unit
  | _, [] => .ok ()
  | seen, mutation :: rest =>
    if mutation.edge ∈ seen then
      .error (.duplicateTurfAdjacency mutation.edge.1 mutation.edge.2)
    else requireDistinctEdges (mutation.edge :: seen) rest

/-- `apply_turf_adjacency`. -/
def applyTurfAdjacency (mutations : List Wire.TurfAdjacencyMutation) : ServiceM UInt32 := do
  Exec.check fun _ => requireDistinctEdges [] mutations
  let firelocks := (mutations.filter fun mutation => mutation.connected).map
    coreTurfFirelockMutation
  let _ ← onWorld (DogmosWorld.applyTurfAdjacency (mutations.map coreTurfAdjacencyMutation))
  let _ ← onWorld (DogmosWorld.applyTurfFirelocks firelocks)
  return UInt32.ofNat mutations.length

/-- `apply_mixture_state`. -/
def applyMixtureState (mutations : List Wire.MixtureStateMutation) : ServiceM UInt32 :=
  onWorld (DogmosWorld.applyMixtureState (mutations.map coreMixtureStateMutation))

/-! ## Uploads -/

/-- `begin_mixture_state_upload`. -/
def beginMixtureStateUpload (expectedCount maximum : UInt32) : ServiceM UInt64 := do
  let uploadId ← Exec.check fun s =>
    if expectedCount = 0 ∨ maximum < expectedCount then .error .mixtureStateUploadConflict
    else if s.pendingMixtureStateUpload.isSome then .error .mixtureStateUploadConflict
    else if s.nextMixtureStateUploadId = 0 then .error .mixtureStateUploadIdExhausted
    else .ok s.nextMixtureStateUploadId
  -- the id after the last one is 0, which stops all further uploads
  modify fun s =>
    { s with
      nextMixtureStateUploadId := uploadId + 1
      pendingMixtureStateUpload := some ⟨uploadId, expectedCount.toNat, []⟩ }
  return uploadId

/-- The upload that a request names. -/
def ServiceState.findUpload (s : ServiceState) (uploadId : UInt64) :
    Except StateError PendingMixtureStateUpload :=
  match s.pendingMixtureStateUpload with
  | some pending =>
    if pending.id = uploadId then .ok pending else .error .mixtureStateUploadConflict
  | none => .error .mixtureStateUploadConflict

/-- `append_mixture_state_upload`. -/
def appendMixtureStateUpload (uploadId : UInt64) (offset : UInt32)
    (mutations : List Wire.MixtureStateMutation) : ServiceM UInt32 := do
  let pending ← Exec.check fun s => s.findUpload uploadId
  if mutations = [] ∨ offset.toNat ≠ pending.mutations.length then
    throw .mixtureStateUploadConflict
  if pending.expectedCount < pending.mutations.length + mutations.length then
    throw .mixtureStateUploadConflict
  modify fun s =>
    { s with
      pendingMixtureStateUpload :=
        some { pending with mutations := pending.mutations ++ mutations } }
  return UInt32.ofNat mutations.length

/-- `commit_mixture_state_upload`: the upload is over, whatever the world says to it. -/
def commitMixtureStateUpload (uploadId : UInt64) : ServiceM UInt32 := do
  let pending ← Exec.check fun s => s.findUpload uploadId
  if pending.mutations.length ≠ pending.expectedCount then
    throw .mixtureStateUploadIncomplete
  modify fun s => { s with pendingMixtureStateUpload := none }
  applyMixtureState pending.mutations

/-- `abort_mixture_state_upload`. -/
def abortMixtureStateUpload (uploadId : UInt64) : ServiceM Unit := do
  let _ ← Exec.check fun s => s.findUpload uploadId
  modify fun s => { s with pendingMixtureStateUpload := none }

/-! ## Reading -/

/-- `snapshot`. -/
def ServiceState.snapshot (s : ServiceState) (handle : WireHandle) :
    Except StateError Wire.MixtureSnapshot := do
  let mixture ← (s.world.snapshot (coreHandle handle)).mapError mapWorldError
  return {
    revision := mixture.revision
    gasCount := (s.world.gasRegistry.map GasMetadataRegistry.len).getD 0
    temperature := widened mixture.temperature
    volume := widened mixture.volume
    minimumHeatCapacity := widened mixture.minimumHeatCapacity
    totalMoles := widened mixture.totalMoles
    pressure := widened mixture.pressure
    heatCapacity := widened mixture.heatCapacity
    immutable := mixture.immutable
    gases := mixture.gases.map widened }

/-- `turf_heat_snapshot`. -/
def ServiceState.turfHeatSnapshot (s : ServiceState) (handle : WireHandle) :
    Except StateError (Option Wire.TurfHeatState) := do
  let state ← (s.world.turfHeat (coreTurfHandle handle)).mapError mapWorldError
  return state.map fun state =>
    { temperature := widened state.temperature
      thermalConductivity := widened state.thermalConductivity
      heatCapacity := widened state.heatCapacity
      adjacentToSpace := state.adjacentToSpace }

/-- `reconcile_pipenet`. -/
def reconcilePipenet (handles : List WireHandle) : ServiceM (List Wire.PipenetReconcileSnapshot) := do
  let reconciled ← onWorld (DogmosWorld.reconcilePipenet (handles.map coreHandle))
  Exec.check fun s => reconciled.mapM fun handle => do
    let snapshot ← s.snapshot (wireHandle handle)
    return ⟨wireHandle handle, snapshot⟩

/-! ## Commands and reactions -/

/-- The answers of the environment during one request: the first reading of the clock, the one
of `apply_mixture_command`, the stopwatch of the profiled reactions, the check for cancellation
and the allocator. -/
structure Answers where
  nowTicks : UInt64
  reactTicks : UInt64
  clock : Nat → F32
  shouldCancel : Nat → Bool
  reserve : Nat → Bool

/-- The result of a command as the client reads it. -/
def commandResponse : CommandResult F32 → Except StateError MixtureCommandResponse
  | .applied updated => .ok (.applied updated)
  | .scalar value => .ok (.scalar (widened value))
  | .scalars first second => .ok (.scalars (widened first) (widened second))
  | .boolean value => .ok (.boolean value)
  | .snapshot _ => .error (.state (.text "snapshot command must use the snapshot operation"))

/-- `apply_adjust_multiple`. -/
def applyAdjustMultiple (handle : WireHandle) (adjustments : List Wire.MixtureAdjustment)
    (clock : Nat → F32) : ServiceM MixtureCommandResponse := do
  let command := .adjustMultiple (coreHandle handle) (adjustments.map coreAdjustment)
  match ← onWorld (DogmosWorld.applyCommand command clock) with
  | .applied updated => return .applied updated
  | _ => throw (.state (.text "adjust-multiple command returned an unexpected result"))

/-- The first branch of `apply_mixture_command`: a reaction runs in a transaction of its own. -/
def react (handle target : WireHandle) (threshold : Option ScalarValue) (answers : Answers) :
    ServiceM MixtureCommandResponse := do
  let transactionId ← beginReactionTransaction
  let eventLimit ← Exec.check ServiceState.eventLimit
  match ← Exec.check fun s =>
      .ok (s.reserveWorldEventEnqueueCapacity eventLimit .reaction transactionId) with
  | .error error => do
    modify fun s => s.removeReactionTransaction transactionId
    throw error
  | .ok _ => do
    match ← Exec.attempt (onWorld (DogmosWorld.reactMixture (coreHandle handle)
        (coreGameplayHandle target) (threshold.map narrowed) eventLimit answers.clock)) with
    | .error error => do
      modify fun s => { s with reactionCallbacks := s.reactionCallbacks.erase transactionId }
      throw error
    | .ok progress => do
      let _ ← enqueueWorldEvents eventLimit answers.reactTicks .reaction transactionId
      finishReactionTransaction transactionId (!progress.pending)
      return .reactionProgress progress.flags progress.workItems progress.pending transactionId

/-- `apply_mixture_command`. -/
def applyMixtureCommand (request : MixtureCommandRequest) (answers : Answers) :
    ServiceM MixtureCommandResponse := do
  match request with
  | .react handle target threshold => react handle target threshold answers
  | _ =>
    match coreCommand request with
    | none => throw (.state (.text "direct reaction handled above"))
    | some command => do
      let result ← onWorld (DogmosWorld.applyCommand command answers.clock)
      Exec.check fun _ => commandResponse result

/-- `apply_continuation_command`. -/
def applyContinuationCommand (token : Wire.ContinuationToken) (command : MixtureCommandRequest)
    (answers : Answers) : ServiceM MixtureCommandResponse := do
  let _ ← requireContinuation token answers.nowTicks
  applyMixtureCommand command answers

/-- `apply_continuation_adjust_multiple`. -/
def applyContinuationAdjustMultiple (token : Wire.ContinuationToken) (handle : WireHandle)
    (adjustments : List Wire.MixtureAdjustment) (answers : Answers) :
    ServiceM MixtureCommandResponse := do
  let _ ← requireContinuation token answers.nowTicks
  applyAdjustMultiple handle adjustments answers.clock

/-- `resume_continuation_with_result_at`. -/
def resumeContinuation (token : Wire.ContinuationToken) (reactionResult : UInt32)
    (answers : Answers) : ServiceM MixtureCommandResponse := do
  let continuation ← requireContinuation token answers.nowTicks
  let eventLimit ← Exec.check ServiceState.eventLimit
  let scope := callbackScope continuation.transactionId
  Exec.check fun s =>
    s.reserveWorldEventEnqueueCapacity eventLimit scope continuation.transactionId
  let progress ← onWorld (DogmosWorld.resumeReactionWithResult continuation.coreToken
    reactionResult eventLimit answers.clock)
  modify fun s => (s.forgetContinuation token.id).removeQueuedContinuation token.id
  let _ ← enqueueWorldEvents eventLimit answers.nowTicks scope continuation.transactionId
  if continuation.transactionId ≠ 0 then
    finishReactionTransaction continuation.transactionId (!progress.pending)
  return .reactionProgress progress.flags progress.workItems progress.pending
    continuation.transactionId

/-- `cancel_continuation_at`. -/
def cancelContinuation (token : Wire.ContinuationToken) (nowTicks : UInt64) : ServiceM Unit := do
  let continuation ← requireContinuation token nowTicks
  onWorld (DogmosWorld.cancelReaction continuation.coreToken)
  modify fun s => s.dropContinuation token.id continuation.transactionId

/-! ## Stages -/

/-- `StageResult`. -/
structure StageResult where
  workItems : UInt32
  callbackEvents : UInt32
  pending : Bool
  remainingEstimate : UInt32
  producedEqualizeSeeds : UInt32
  producedGroupSeeds : UInt32
  producedHeatSeeds : UInt32
deriving DecidableEq

/-- `process_stage_chunk_cancellable`. -/
def processStageChunk (request : Wire.SimulationStageRequest) (answers : Answers) :
    ServiceM StageResult := do
  let eventLimit ← Exec.check ServiceState.eventLimit
  Exec.check fun s => s.reserveWorldEventEnqueueCapacity eventLimit .general 0
  let chunk : StageChunkRequest F64 :=
    { stage := simulationStage request.stage
      frontierEpoch := request.frontierEpoch
      stageEpoch := request.stageEpoch
      workLimit := request.workLimit
      secondsPerTick := request.secondsPerTick.val }
  let result ← onWorld (DogmosWorld.processStageChunk chunk eventLimit answers.shouldCancel)
  let callbackEvents ← enqueueWorldEvents eventLimit answers.nowTicks .general 0
  return {
    workItems := result.workItems
    callbackEvents
    pending := result.pending
    remainingEstimate := result.remainingEstimate
    producedEqualizeSeeds := result.producedEqualizeSeeds
    producedGroupSeeds := result.producedGroupSeeds
    producedHeatSeeds := result.producedHeatSeeds }

/-! ## Requests -/

/-- The methods of the service that may change it. -/
inductive Request where
  | recordProtocolError
  | recordRequestTimeout
  | beginFrontier (epoch : UInt64) (expectedCount : UInt32)
  | appendFrontier (epoch : UInt64) (offset : UInt32) (handles : List WireHandle)
  | commitFrontier (epoch : UInt64)
  | addFrontier (epoch : UInt64) (handles : List WireHandle)
  | removeFrontier (epoch : UInt64) (handles : List WireHandle)
  | enqueueDiagnosticCallbacks (count : UInt32)
  | drainCallbacks (scope : Wire.CallbackScope) (transactionId : UInt64) (maxEvents : UInt32)
      (outputLen : Nat)
  | installGases (entries : List Wire.GasMetadataRegistration)
  | installReactions (entries : List Wire.ReactionMetadataRegistration)
  | applyLifecycle (mutations : List Wire.LifecycleMutation)
  | applyAdjacency (mutations : List Wire.AdjacencyMutation)
  | applyTurfLifecycle (mutations : List Wire.TurfLifecycleMutation)
  | applyTurfAdjacency (mutations : List Wire.TurfAdjacencyMutation)
  | applyTurfHeat (mutations : List Wire.TurfHeatMutation)
  | applyTurfHeatAdjacency (mutations : List Wire.TurfHeatAdjacencyMutation)
  | applyMixtureState (mutations : List Wire.MixtureStateMutation)
  | beginMixtureStateUpload (expectedCount maximum : UInt32)
  | appendMixtureStateUpload (uploadId : UInt64) (offset : UInt32)
      (mutations : List Wire.MixtureStateMutation)
  | commitMixtureStateUpload (uploadId : UInt64)
  | abortMixtureStateUpload (uploadId : UInt64)
  | reconcilePipenet (handles : List WireHandle)
  | adjustMultiple (handle : WireHandle) (adjustments : List Wire.MixtureAdjustment)
  | mixtureCommand (command : MixtureCommandRequest)
  | continuationCommand (token : Wire.ContinuationToken) (command : MixtureCommandRequest)
  | continuationAdjustMultiple (token : Wire.ContinuationToken) (handle : WireHandle)
      (adjustments : List Wire.MixtureAdjustment)
  | resumeContinuation (token : Wire.ContinuationToken) (reactionResult : UInt32)
  | cancelContinuation (token : Wire.ContinuationToken)
  | processStageChunk (request : Wire.SimulationStageRequest)

/-- What a request returns. -/
inductive Reply where
  | done
  | count (count : UInt32)
  | uploadId (id : UInt64)
  | batch (payload : Bytes)
  | command (response : MixtureCommandResponse)
  | stage (result : StageResult)
  | snapshots (snapshots : List Wire.PipenetReconcileSnapshot)

/-- The method of a request. -/
def exec (request : Request) (answers : Answers) : ServiceM Reply :=
  match request with
  | .recordProtocolError => do
    modify ServiceState.recordProtocolError
    return .done
  | .recordRequestTimeout => do
    modify ServiceState.recordRequestTimeout
    return .done
  | .beginFrontier epoch expectedCount =>
    (fun _ => .done) <$> onWorld (DogmosWorld.beginFrontier epoch expectedCount answers.reserve)
  | .appendFrontier epoch offset handles =>
    .count <$> onWorld
      (DogmosWorld.appendFrontier epoch offset (handles.map coreTurfHandle) answers.reserve)
  | .commitFrontier epoch => .count <$> onWorld (DogmosWorld.commitFrontier epoch)
  | .addFrontier epoch handles =>
    .count <$> onWorld (DogmosWorld.addFrontier epoch (handles.map coreTurfHandle))
  | .removeFrontier epoch handles =>
    .count <$> onWorld (DogmosWorld.removeFrontier epoch (handles.map coreTurfHandle))
  | .enqueueDiagnosticCallbacks count =>
    .count <$> enqueueDiagnosticCallbacks count answers.nowTicks
  | .drainCallbacks scope transactionId maxEvents outputLen =>
    .batch <$> drainCallbacks scope transactionId maxEvents outputLen answers.nowTicks
  | .installGases entries => .count <$> onWorld (DogmosWorld.installGases (entries.map coreGas))
  | .installReactions entries =>
    .count <$> onWorld (DogmosWorld.installReactions (entries.map coreReaction))
  | .applyLifecycle mutations => .count <$> applyLifecycle mutations
  | .applyAdjacency mutations =>
    .count <$> onWorld (DogmosWorld.applyAdjacency (mutations.map coreAdjacencyMutation))
  | .applyTurfLifecycle mutations => .count <$> applyTurfLifecycle mutations
  | .applyTurfAdjacency mutations => .count <$> applyTurfAdjacency mutations
  | .applyTurfHeat mutations =>
    .count <$> onWorld (DogmosWorld.applyTurfHeat (mutations.map coreTurfHeatMutation))
  | .applyTurfHeatAdjacency mutations =>
    .count <$> onWorld (DogmosWorld.applyTurfHeatAdjacency
      (mutations.map coreTurfHeatAdjacencyMutation))
  | .applyMixtureState mutations => .count <$> applyMixtureState mutations
  | .beginMixtureStateUpload expectedCount maximum =>
    .uploadId <$> beginMixtureStateUpload expectedCount maximum
  | .appendMixtureStateUpload uploadId offset mutations =>
    .count <$> appendMixtureStateUpload uploadId offset mutations
  | .commitMixtureStateUpload uploadId => .count <$> commitMixtureStateUpload uploadId
  | .abortMixtureStateUpload uploadId =>
    (fun _ => .done) <$> abortMixtureStateUpload uploadId
  | .reconcilePipenet handles => .snapshots <$> reconcilePipenet handles
  | .adjustMultiple handle adjustments =>
    .command <$> applyAdjustMultiple handle adjustments answers.clock
  | .mixtureCommand command => .command <$> applyMixtureCommand command answers
  | .continuationCommand token command =>
    .command <$> applyContinuationCommand token command answers
  | .continuationAdjustMultiple token handle adjustments =>
    .command <$> applyContinuationAdjustMultiple token handle adjustments answers
  | .resumeContinuation token reactionResult =>
    .command <$> resumeContinuation token reactionResult answers
  | .cancelContinuation token => (fun _ => .done) <$> cancelContinuation token answers.nowTicks
  | .processStageChunk request => .stage <$> processStageChunk request answers

/-- The state a request leaves, whether it was served or rejected. -/
def step (s : ServiceState) (call : Request × Answers) : ServiceState :=
  (exec call.1 call.2).final s

/-- A service as `new_for_world` makes it. -/
def Initial (s : ServiceState) : Prop :=
  ∃ mixtureSlotBytes turfSlotBytes maxWorldBytes maxCallbackEvents maxPendingContinuations
    maxReactionTransactions worldGeneration,
    s = .newForWorld mixtureSlotBytes turfSlotBytes maxWorldBytes maxCallbackEvents
      maxPendingContinuations maxReactionTransactions worldGeneration

/-- The states of all runs from a new service. -/
abbrev Reachable (s : ServiceState) : Prop := System.Reachable Initial step s

end Service

end Dogmos
