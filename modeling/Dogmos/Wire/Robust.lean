import Dogmos.Wire.Canonical
import Dogmos.Wire.Handshake
import Dogmos.Wire.ReactionMetadata

/-!
# Requests from anywhere

The service decodes what a peer sends it.  No decoder it applies leaves its input, whatever
the bytes, the limit and the width of a length on the target are; the lengths that the
checks compute fit the target; and a decoder into a buffer that reports an error leaves the
buffer as it was.

* `RequestDecoders` — the decoders of the service, each without a read out of range.
* `LengthChecks` — the products and sums of the length checks.
* `KeepsBuffer` — a decoder into a buffer and its errors.
* `requests_robust` — all of this, for every input.
-/

namespace Dogmos.Wire

open Bytes

/-- The decoders of the service stay in the input: each returns a value or rejects it. -/
structure RequestDecoders (usizeBits : Nat) (input : Bytes) (maximum : UInt32) : Prop where
  header : Safe (ProtocolHeader.decode input)
  handshake : Safe (HandshakePayload.decode input)
  callbackBatch : Safe (CallbackBatchRequest.decode input)
  mixtureSnapshot : Safe (MixtureSnapshotRequest.decode input)
  pipenetReconcile : Safe (decodePipenetReconcileRequest usizeBits input maximum)
  turfHeatSnapshot : Safe (TurfHeatSnapshotRequest.decode input)
  mixtureCommand : Safe (MixtureCommandRequest.decode input)
  adjustMultiple : Safe (decodeAdjustMultipleRequest usizeBits input)
  continuationCommand : Safe (ContinuationCommandRequest.decode input)
  continuationAdjust : Safe (decodeContinuationAdjustMultipleRequest usizeBits input)
  continuationResume : Safe (ContinuationResumeRequest.decode input)
  continuationCancel : Safe (ContinuationToken.decode input)
  gasMetadata : Safe (decodeGasMetadataBatch usizeBits input)
  reactionMetadata : Safe (decodeReactionMetadataBatch usizeBits input)
  lifecycle : Safe (decodeLifecycleBatch usizeBits input maximum)
  mixtureState : Safe (decodeMixtureStateBatch usizeBits input maximum)
  uploadBegin : Safe (MixtureStateUploadBeginRequest.decode input)
  uploadAppend : Safe (MixtureStateUploadAppendRequest.decode usizeBits input maximum)
  uploadCommit : Safe (MixtureStateUploadCommitRequest.decode input)
  uploadAbort : Safe (MixtureStateUploadAbortRequest.decode input)
  adjacency : Safe (decodeAdjacencyBatch usizeBits input maximum)
  turfLifecycle : Safe (decodeTurfLifecycleBatch usizeBits input maximum)
  turfAdjacency : Safe (decodeTurfAdjacencyBatch usizeBits input maximum)
  turfHeat : Safe (decodeTurfHeatBatch usizeBits input maximum)
  turfHeatAdjacency : Safe (decodeTurfHeatAdjacencyBatch usizeBits input maximum)
  simulationStage : Safe (SimulationStageRequest.decode input)
  frontierBegin : Safe (FrontierBeginRequest.decode input)
  frontierCommit : Safe (FrontierCommitRequest.decode input)

/-- What the length checks compute fits the target, and what they accept is as long as they
computed. -/
structure LengthChecks (usizeBits : Nat) (input : Bytes) : Prop where
  payload : ∀ {header count recordLen expected : Nat},
    payloadLength usizeBits header count recordLen input = .ok expected →
      expected = header + count * recordLen ∧ expected < 2 ^ usizeBits
  counted : ∀ {recordLen : Nat} {maximum count : UInt32},
    validateCountedPayload usizeBits input recordLen maximum = .ok count →
      count ≤ maximum ∧ input.length = 4 + count.toNat * recordLen ∧ input.length < 2 ^ usizeBits
  frontier : ∀ {headerLen countOffset : Nat} {count : UInt32},
    frontierChecks headerLen countOffset input = .ok count →
      count.toNat ≤ maxFrontierAppendHandles ∧ input.length = headerLen + count.toNat * 8

/-- A decoder into a buffer stays in its input, and its errors leave the buffer. -/
def KeepsBuffer {α β : Type} (decode : Into β α) : Prop :=
  ∀ buffer, Safe (decode buffer).1 ∧
    ∀ fault, (decode buffer).1 = .error fault → (decode buffer).2 = buffer

section Inputs

variable {usizeBits : Nat} {input : Bytes} {maximum : UInt32}

theorem keepsBuffer_of_error {α β : Type} {decode : Into β α}
    (h : ∀ {buffer fault}, (decode buffer).1 = .error fault →
      fault ≠ .panic ∧ (decode buffer).2 = buffer) : KeepsBuffer decode :=
  fun _ => ⟨fun hpanic => (h hpanic).1 rfl, fun _ hfault => (h hfault).2⟩

theorem safe_decodeMixtureStateBatch :
    Safe (decodeMixtureStateBatch usizeBits input maximum) := by
  unfold decodeMixtureStateBatch
  refine safe_bind (safe_validateCounted fun _ => safe_stateCheck) fun count hcount => ?_
  have hlength := validateCounted_length hcount
  obtain ⟨bs, hslice, hbs⟩ :=
    slice_ok (ε := ProtocolError) (show 4 ≤ input.length by omega) (Nat.le_refl _)
  rw [hslice, bind_ok]
  exact safe_decodeMixtureStateRecords (by omega)

theorem safe_decodeGasMetadataBatch : Safe (decodeGasMetadataBatch usizeBits input) :=
  safe_decodeCounted fun _ => safe_recordAt GasMetadataRegistration.safe_decode

theorem safe_decodeReactionMetadataBatch : Safe (decodeReactionMetadataBatch usizeBits input) :=
  safe_decodeCounted fun _ => safe_recordAt ReactionMetadataRegistration.safe_decode

theorem requestDecoders : RequestDecoders usizeBits input maximum where
  header := ProtocolHeader.safe_decode input
  handshake := HandshakePayload.safe_decode input
  callbackBatch := CallbackBatchRequest.safe_decode input
  mixtureSnapshot := safe_decodeHandleRequest input
  pipenetReconcile := safe_decodePipenetReconcileRequest
  turfHeatSnapshot := safe_decodeHandleRequest input
  mixtureCommand := MixtureCommandRequest.safe_decode input
  adjustMultiple := safe_decodeAdjustMultipleRequest
  continuationCommand := ContinuationCommandRequest.safe_decode input
  continuationAdjust := safe_decodeContinuationAdjustMultipleRequest
  continuationResume := ContinuationResumeRequest.safe_decode input
  continuationCancel := ContinuationToken.safe_decode input
  gasMetadata := safe_decodeGasMetadataBatch
  reactionMetadata := safe_decodeReactionMetadataBatch
  lifecycle := safe_decodeLifecycleBatch
  mixtureState := safe_decodeMixtureStateBatch
  uploadBegin := MixtureStateUploadBeginRequest.safe_decode input
  uploadAppend := MixtureStateUploadAppendRequest.safe_decode
  uploadCommit := safe_decodeWordRequest input
  uploadAbort := safe_decodeWordRequest input
  adjacency := safe_decodeAdjacencyBatch
  turfLifecycle := safe_decodeTurfLifecycleBatch
  turfAdjacency := safe_decodeTurfAdjacencyBatch
  turfHeat := safe_decodeTurfHeatBatch
  turfHeatAdjacency := safe_decodeTurfHeatAdjacencyBatch
  simulationStage := SimulationStageRequest.safe_decode input
  frontierBegin := FrontierBeginRequest.safe_decode input
  frontierCommit := safe_decodeWordRequest input

theorem lengthChecks : LengthChecks usizeBits input where
  payload := payloadLength_eq_ok.1
  counted := by
    intro recordLen maximum count h
    obtain ⟨bs, rfl, hbs, hbound, hbits⟩ := validateCountedPayload_eq_ok.1 h
    exact ⟨hbound, by rw [List.length_append, length_le32, hbs], hbits⟩
  frontier := by
    intro headerLen countOffset count h
    obtain ⟨-, front, body, handles, rfl, hfront, hall, hcount, -, hbound, -⟩ :=
      frontierChecks_eq_ok.1 h
    rw [List.length_append, hfront, handleFormat.length_all hall, hcount]
    exact ⟨by omega, rfl⟩

end Inputs

/-- Every input is decoded or rejected by the decoders of the service, without a read, a
product or a sum out of range, and a rejected input leaves the buffer of its decoder. -/
theorem requests_robust (usizeBits : Nat) (input : Bytes) (maximum : UInt32) :
    RequestDecoders usizeBits input maximum ∧ LengthChecks usizeBits input ∧
      KeepsBuffer (decodeFrontierAppendInto input) ∧
      KeepsBuffer (decodeFrontierMutateInto input) ∧
      KeepsBuffer (decodeMixtureSnapshotBatchRequestInto usizeBits input maximum) :=
  ⟨requestDecoders, lengthChecks, keepsBuffer_of_error frontierAppend_error,
    keepsBuffer_of_error frontierMutate_error, keepsBuffer_of_error snapshotRequest_error⟩

end Dogmos.Wire
