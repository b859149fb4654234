import Dogmos.Wire.Events

/-!
# Requests of one record

The requests whose payload is a single record of fixed length: a handle, an identifier, the
start of an upload or of a frontier, and one stage of a simulation.

* `safe_decodeHandleRequest`, `safe_decodeWordRequest` — the requests that carry one handle or one
  word.
* `MixtureStateUploadBeginRequest.safe_decode`, `FrontierBeginRequest.safe_decode` and
  `SimulationStageRequest.safe_decode` — no payload makes a decoder panic.
-/

namespace Dogmos.Wire

open Bytes

def maxStageWorkItems : UInt32 := 4096

def mixtureStateUploadBeginRequestLen : Nat := 8

def frontierBeginRequestLen : Nat := 16

def simulationStageRequestLen : Nat := 40

/-! ## One handle -/

/-- The decoder of a request that carries one handle. -/
def decodeHandleRequest {α : Type} (request : WireHandle → α) (input : Bytes) : Decoded α := do
  requireExactLen input 8
  pure (request (← WireHandle.decode input))

/-- `MixtureSnapshotRequest`. -/
structure MixtureSnapshotRequest where
  handle : WireHandle
deriving DecidableEq

/-- `MixtureSnapshotRequest::decode`. -/
def MixtureSnapshotRequest.decode : Bytes → Decoded MixtureSnapshotRequest :=
  decodeHandleRequest MixtureSnapshotRequest.mk

/-- `TurfHeatSnapshotRequest`. -/
structure TurfHeatSnapshotRequest where
  turf : WireHandle
deriving DecidableEq

/-- `TurfHeatSnapshotRequest::decode`. -/
def TurfHeatSnapshotRequest.decode : Bytes → Decoded TurfHeatSnapshotRequest :=
  decodeHandleRequest TurfHeatSnapshotRequest.mk

section Handle

variable {α : Type} {request : WireHandle → α}

theorem safe_decodeHandleRequest (input : Bytes) : Safe (decodeHandleRequest request input) := by
  unfold decodeHandleRequest
  refine safe_requireExactLen_bind fun _ => ?_
  exact safe_bind (WireHandle.safe_decode input) fun _ _ => safe_ok _

end Handle

/-! ## One word -/

/-- The decoder of a request that carries one word of 64 bits. -/
def decodeWordRequest {α : Type} (check : UInt64 → Except ProtocolError Unit) (request : UInt64 → α)
    (input : Bytes) : Decoded α := do
  requireExactLen input 8
  let word ← readU64 input 0
  lift (check word)
  pure (request word)

/-- `FrontierCommitRequest`. -/
structure FrontierCommitRequest where
  epoch : UInt64
deriving DecidableEq

/-- `FrontierCommitRequest::decode`. -/
def FrontierCommitRequest.decode : Bytes → Decoded FrontierCommitRequest :=
  decodeWordRequest (fun _ => .ok ()) FrontierCommitRequest.mk

/-- `MixtureStateUploadCommitRequest`. -/
structure MixtureStateUploadCommitRequest where
  uploadId : UInt64
deriving DecidableEq

/-- `MixtureStateUploadCommitRequest::decode`. -/
def MixtureStateUploadCommitRequest.decode : Bytes → Decoded MixtureStateUploadCommitRequest :=
  decodeWordRequest validateMixtureStateUploadId MixtureStateUploadCommitRequest.mk

/-- `MixtureStateUploadAbortRequest`. -/
structure MixtureStateUploadAbortRequest where
  uploadId : UInt64
deriving DecidableEq

/-- `MixtureStateUploadAbortRequest::decode`. -/
def MixtureStateUploadAbortRequest.decode : Bytes → Decoded MixtureStateUploadAbortRequest :=
  decodeWordRequest validateMixtureStateUploadId MixtureStateUploadAbortRequest.mk

section Word

variable {α : Type} {check : UInt64 → Except ProtocolError Unit} {request : UInt64 → α}

theorem safe_decodeWordRequest (input : Bytes) : Safe (decodeWordRequest check request input) := by
  unfold decodeWordRequest
  refine safe_requireExactLen_bind fun hlength => ?_
  refine safe_bind (safe_readU64 (by omega)) fun _ _ => ?_
  exact safe_bind (safe_lift _) fun _ _ => safe_ok _

end Word

/-! ## Starts -/

/-- `MixtureStateUploadBeginRequest`. -/
structure MixtureStateUploadBeginRequest where
  expectedCount : UInt32
deriving DecidableEq

namespace MixtureStateUploadBeginRequest

/-- `MixtureStateUploadBeginRequest::decode`. -/
def decode (input : Bytes) : Decoded MixtureStateUploadBeginRequest := do
  requireExactLen input mixtureStateUploadBeginRequestLen
  let expectedCount ← readU32 input 0
  rejectIf (expectedCount = 0) (.invalidMixtureStateUploadCount 0)
  let reserved ← readU32 input 4
  rejectIf (reserved ≠ 0) (.reservedMixtureStateUploadField reserved)
  pure ⟨expectedCount⟩

theorem safe_decode (input : Bytes) : Safe (decode input) := by
  unfold decode mixtureStateUploadBeginRequestLen
  refine safe_requireExactLen_bind fun hlength => ?_
  refine safe_bind (safe_readU32 (by omega)) fun _ _ => safe_rejectIf_bind fun _ => ?_
  exact safe_bind (safe_readU32 (by omega)) fun _ _ => safe_rejectIf_bind fun _ => safe_ok _

end MixtureStateUploadBeginRequest

/-- `FrontierBeginRequest`. -/
structure FrontierBeginRequest where
  epoch : UInt64
  expectedCount : UInt32
deriving DecidableEq

namespace FrontierBeginRequest

/-- `FrontierBeginRequest::decode`. -/
def decode (input : Bytes) : Decoded FrontierBeginRequest := do
  requireExactLen input frontierBeginRequestLen
  let reserved ← readU32 input 12
  rejectIf (reserved ≠ 0) (.reservedFrontierField reserved)
  pure { epoch := ← readU64 input 0, expectedCount := ← readU32 input 8 }

theorem safe_decode (input : Bytes) : Safe (decode input) := by
  unfold decode frontierBeginRequestLen
  refine safe_requireExactLen_bind fun hlength => ?_
  refine safe_bind (safe_readU32 (by omega)) fun _ _ => safe_rejectIf_bind fun _ => ?_
  refine safe_bind (safe_readU64 (by omega)) fun _ _ => ?_
  exact safe_bind (safe_readU32 (by omega)) fun _ _ => safe_ok _

end FrontierBeginRequest

/-! ## Stages -/

/-- `SimulationStage`. -/
inductive SimulationStage where
  | processExcitedGroups
  | processTurfEqualize
  | processTurfHeat
  | processTurfs
  | processReactions
deriving DecidableEq

namespace SimulationStage

/-- `SimulationStage::try_from`. -/
def tryFrom (value : UInt32) : Except ProtocolError SimulationStage :=
  if value = 1 then .ok processExcitedGroups
  else if value = 2 then .ok processTurfEqualize
  else if value = 3 then .ok processTurfHeat
  else if value = 4 then .ok processTurfs
  else if value = 5 then .ok processReactions
  else .error (.unknownSimulationStage value)

end SimulationStage

/-- `SimulationStageRequest`. -/
structure SimulationStageRequest where
  stage : SimulationStage
  frontierEpoch : UInt64
  stageEpoch : UInt64
  workLimit : UInt32
  secondsPerTick : ScalarValue
deriving DecidableEq

namespace SimulationStageRequest

/-- `SimulationStageRequest::decode`. -/
def decode (input : Bytes) : Decoded SimulationStageRequest := do
  requireExactLen input simulationStageRequestLen
  let firstReserved ← readU32 input 4
  let secondReserved ← readU32 input 28
  rejectIf (firstReserved ≠ 0 ∨ secondReserved ≠ 0)
    (.reservedSimulationStageField (firstReserved ||| secondReserved))
  let workLimit ← readU32 input 24
  rejectIf (workLimit = 0 ∨ maxStageWorkItems < workLimit) (.invalidStageWorkLimit workLimit)
  pure {
    stage := ← lift (SimulationStage.tryFrom (← readU32 input 0))
    frontierEpoch := ← readU64 input 8
    stageEpoch := ← readU64 input 16
    workLimit
    secondsPerTick := ← readScalar input 32 }

theorem safe_decode (input : Bytes) : Safe (decode input) := by
  unfold decode simulationStageRequestLen
  refine safe_requireExactLen_bind fun hlength => ?_
  refine safe_bind (safe_readU32 (by omega)) fun _ _ => ?_
  refine safe_bind (safe_readU32 (by omega)) fun _ _ => safe_rejectIf_bind fun _ => ?_
  refine safe_bind (safe_readU32 (by omega)) fun _ _ => safe_rejectIf_bind fun _ => ?_
  refine safe_bind (safe_readU32 (by omega)) fun _ _ => safe_bind (safe_lift _) fun _ _ => ?_
  refine safe_bind (safe_readU64 (by omega)) fun _ _ => ?_
  refine safe_bind (safe_readU64 (by omega)) fun _ _ => ?_
  exact safe_bind (safe_readScalar (by omega)) fun _ _ => safe_ok _

end SimulationStageRequest

end Dogmos.Wire
