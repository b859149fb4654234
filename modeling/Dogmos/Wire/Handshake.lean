import Dogmos.Wire.Header
import Dogmos.Wire.Requests

/-!
# The handshake

The first payload of a session: a token, the identity of the build, the capacities of the
service and the world it serves.  Its length is fixed, and its decoder checks each field.

* `HandshakePayload.decode_eq_ok` — the decoder accepts the bytes of valid handshakes only.
-/

namespace Dogmos.Wire

open Bytes

def handshakePayloadLen : Nat := 176

def maxCallbackEvents : UInt32 := 1024 * 1024

def maxPendingContinuations : UInt32 := 65536

/-! ## Arrays of bytes -/

/-- `copy_from_slice` into an array of `n` bytes. -/
def readArray (n : Nat) (input : Bytes) (offset : Nat) : Decoded (Vector UInt8 n) := do
  let bs ← slice input offset (offset + n)
  if h : bs.toArray.size = n then pure ⟨bs.toArray, h⟩ else .error .panic

section Arrays

variable {n offset : Nat} {p : Bytes}

@[simp] theorem readArray_block (v : Vector UInt8 n) (rest : Bytes) :
    readArray n (v.toList ++ rest) 0 = .ok v := by
  unfold readArray
  rw [Nat.zero_add, slice_block rest v.length_toList, bind_ok, dif_pos (by simp)]
  rfl

theorem readArray_skip (rest : Bytes) (h : p.length ≤ offset) :
    readArray n (p ++ rest) offset = readArray n rest (offset - p.length) := by
  unfold readArray
  rw [slice_skip rest h (Nat.le_add_right ..), Nat.sub_add_comm h]

theorem exists_array_append {bs : Bytes} (h : n ≤ bs.length) :
    ∃ (v : Vector UInt8 n) (rest : Bytes), bs = v.toList ++ rest ∧ rest.length + n = bs.length := by
  obtain ⟨q, rest, rfl, hq, hrest⟩ := exists_append h
  exact ⟨⟨q.toArray, hq⟩, rest, rfl, hrest⟩

end Arrays

/-! ## The payload -/

/-- `BuildIdentity`. -/
structure BuildIdentity where
  abiVersion : UInt16
  protocolVersion : UInt16
  sourceRevision : Vector UInt8 20
  featureFingerprint : Vector UInt8 32
  executableDigest : Vector UInt8 32
deriving DecidableEq

/-- `CapacityLimits`. -/
structure CapacityLimits where
  maxControlPayload : UInt32
  maxBatchOperations : UInt32
  maxCallbackEvents : UInt32
  maxPendingContinuations : UInt32
  maxFrontierHandles : UInt32
  maxStageWorkItems : UInt32
  maxReactionTransactions : UInt32
  reserved : UInt32
  maxWorldBytes : UInt64
deriving DecidableEq

/-- `HandshakePayload`. -/
structure HandshakePayload where
  authToken : Vector UInt8 32
  identity : BuildIdentity
  capacities : CapacityLimits
  processId : UInt32
  worldGeneration : UInt32
  worldNonce : UInt64
deriving DecidableEq

namespace HandshakePayload

/-- `HandshakePayload::encode`. -/
def encode (payload : HandshakePayload) : Bytes :=
  let output := put (zeros handshakePayloadLen) 0 payload.authToken.toList
  let output := put output 32 (le16 payload.identity.abiVersion)
  let output := put output 34 (le16 payload.identity.protocolVersion)
  let output := put output 36 payload.identity.sourceRevision.toList
  let output := put output 56 payload.identity.featureFingerprint.toList
  let output := put output 88 payload.identity.executableDigest.toList
  let output := put output 120 (le32 payload.capacities.maxControlPayload)
  let output := put output 124 (le32 payload.capacities.maxBatchOperations)
  let output := put output 128 (le32 payload.capacities.maxCallbackEvents)
  let output := put output 132 (le32 payload.capacities.maxPendingContinuations)
  let output := put output 136 (le32 payload.capacities.maxFrontierHandles)
  let output := put output 140 (le32 payload.capacities.maxStageWorkItems)
  let output := put output 144 (le32 payload.capacities.maxReactionTransactions)
  let output := put output 148 (le32 payload.capacities.reserved)
  let output := put output 152 (le64 payload.capacities.maxWorldBytes)
  let output := put output 160 (le32 payload.processId)
  let output := put output 164 (le32 payload.worldGeneration)
  put output 168 (le64 payload.worldNonce)

/-- `HandshakePayload::validate`. -/
def validate (payload : HandshakePayload) : Except ProtocolError Unit := do
  let capacities := payload.capacities
  failIf (payload.authToken = .replicate 32 0) .emptyAuthenticationToken
  failIf (payload.identity.abiVersion ≠ dogmosAbiVersion)
    (.unsupportedAbiVersion payload.identity.abiVersion)
  failIf (payload.identity.protocolVersion ≠ dogmosProtocolVersion)
    (.unsupportedProtocolVersion payload.identity.protocolVersion)
  failIf (payload.identity.sourceRevision = .replicate 20 0) .emptySourceRevision
  failIf (payload.identity.featureFingerprint = .replicate 32 0) .emptyFeatureFingerprint
  failIf (payload.identity.executableDigest = .replicate 32 0) .emptyExecutableDigest
  failIf (payload.processId = 0) .invalidProcessId
  failIf (capacities.maxControlPayload = 0 ∨ maxControlPayload < capacities.maxControlPayload)
    (.invalidControlCapacity capacities.maxControlPayload maxControlPayload)
  failIf (capacities.maxCallbackEvents = 0 ∨ maxCallbackEvents < capacities.maxCallbackEvents)
    (.invalidCallbackCapacity capacities.maxCallbackEvents maxCallbackEvents)
  failIf (capacities.maxPendingContinuations = 0 ∨
      maxPendingContinuations < capacities.maxPendingContinuations)
    (.invalidContinuationCapacity capacities.maxPendingContinuations maxPendingContinuations)
  failIf (capacities.reserved ≠ 0) (.reservedCapacityField capacities.reserved)
  failIf (capacities.maxFrontierHandles = 0) (.invalidCapacityLimit "max_frontier_handles")
  failIf (capacities.maxStageWorkItems = 0 ∨ maxStageWorkItems < capacities.maxStageWorkItems)
    (.invalidCapacityLimit "max_stage_work_items")
  failIf (capacities.maxReactionTransactions = 0) (.invalidCapacityLimit "max_reaction_transactions")

/-- The reads of `HandshakePayload::decode`. -/
def readFields (input : Bytes) : Decoded HandshakePayload := do
  pure {
    authToken := ← readArray 32 input 0
    identity := {
      abiVersion := ← readU16 input 32
      protocolVersion := ← readU16 input 34
      sourceRevision := ← readArray 20 input 36
      featureFingerprint := ← readArray 32 input 56
      executableDigest := ← readArray 32 input 88 }
    capacities := {
      maxControlPayload := ← readU32 input 120
      maxBatchOperations := ← readU32 input 124
      maxCallbackEvents := ← readU32 input 128
      maxPendingContinuations := ← readU32 input 132
      maxFrontierHandles := ← readU32 input 136
      maxStageWorkItems := ← readU32 input 140
      maxReactionTransactions := ← readU32 input 144
      reserved := ← readU32 input 148
      maxWorldBytes := ← readU64 input 152 }
    processId := ← readU32 input 160
    worldGeneration := ← readU32 input 164
    worldNonce := ← readU64 input 168 }

/-- `HandshakePayload::decode`. -/
def decode (input : Bytes) : Decoded HandshakePayload := do
  rejectIf (input.length ≠ handshakePayloadLen)
    (.invalidHandshakeLength (UInt32.ofNat handshakePayloadLen) (UInt32.ofNat input.length))
  let payload ← readFields input
  lift payload.validate
  pure payload

theorem encode_eq (payload : HandshakePayload) :
    payload.encode = payload.authToken.toList ++ (le16 payload.identity.abiVersion ++
      (le16 payload.identity.protocolVersion ++ (payload.identity.sourceRevision.toList ++
      (payload.identity.featureFingerprint.toList ++ (payload.identity.executableDigest.toList ++
      (le32 payload.capacities.maxControlPayload ++ (le32 payload.capacities.maxBatchOperations ++
      (le32 payload.capacities.maxCallbackEvents ++
      (le32 payload.capacities.maxPendingContinuations ++
      (le32 payload.capacities.maxFrontierHandles ++ (le32 payload.capacities.maxStageWorkItems ++
      (le32 payload.capacities.maxReactionTransactions ++ (le32 payload.capacities.reserved ++
      (le64 payload.capacities.maxWorldBytes ++ (le32 payload.processId ++
      (le32 payload.worldGeneration ++ le64 payload.worldNonce)))))))))))))))) := by
  simp [encode, put_append, put_zeros, handshakePayloadLen]

theorem length_encode (payload : HandshakePayload) :
    payload.encode.length = handshakePayloadLen := by
  simp [encode_eq, handshakePayloadLen]

theorem readFields_encode (payload : HandshakePayload) :
    readFields payload.encode = .ok payload := by
  unfold readFields
  rw [encode_eq]
  simp [readArray_skip, readU16_skip, readU32_skip, readU64_skip]

/-- Every string of the length of a handshake is the bytes of one. -/
theorem exists_encode {bs : Bytes} (h : bs.length = handshakePayloadLen) :
    ∃ payload : HandshakePayload, payload.encode = bs := by
  unfold handshakePayloadLen at h
  obtain ⟨token, bs, rfl, h₁⟩ := exists_array_append (show 32 ≤ bs.length by omega)
  obtain ⟨abi, bs, rfl, h₂⟩ := exists_le16_append (show 2 ≤ bs.length by omega)
  obtain ⟨protocol, bs, rfl, h₃⟩ := exists_le16_append (show 2 ≤ bs.length by omega)
  obtain ⟨revision, bs, rfl, h₄⟩ := exists_array_append (show 20 ≤ bs.length by omega)
  obtain ⟨fingerprint, bs, rfl, h₅⟩ := exists_array_append (show 32 ≤ bs.length by omega)
  obtain ⟨digest, bs, rfl, h₆⟩ := exists_array_append (show 32 ≤ bs.length by omega)
  obtain ⟨control, bs, rfl, h₇⟩ := exists_le32_append (show 4 ≤ bs.length by omega)
  obtain ⟨operations, bs, rfl, h₈⟩ := exists_le32_append (show 4 ≤ bs.length by omega)
  obtain ⟨events, bs, rfl, h₉⟩ := exists_le32_append (show 4 ≤ bs.length by omega)
  obtain ⟨continuations, bs, rfl, h₁₀⟩ := exists_le32_append (show 4 ≤ bs.length by omega)
  obtain ⟨handles, bs, rfl, h₁₁⟩ := exists_le32_append (show 4 ≤ bs.length by omega)
  obtain ⟨items, bs, rfl, h₁₂⟩ := exists_le32_append (show 4 ≤ bs.length by omega)
  obtain ⟨transactions, bs, rfl, h₁₃⟩ := exists_le32_append (show 4 ≤ bs.length by omega)
  obtain ⟨reserved, bs, rfl, h₁₄⟩ := exists_le32_append (show 4 ≤ bs.length by omega)
  obtain ⟨world, bs, rfl, h₁₅⟩ := exists_le64_append (show 8 ≤ bs.length by omega)
  obtain ⟨process, bs, rfl, h₁₆⟩ := exists_le32_append (show 4 ≤ bs.length by omega)
  obtain ⟨generation, bs, rfl, h₁₇⟩ := exists_le32_append (show 4 ≤ bs.length by omega)
  obtain ⟨nonce, bs, rfl, h₁₈⟩ := exists_le64_append (show 8 ≤ bs.length by omega)
  obtain rfl : bs = [] := List.eq_nil_of_length_eq_zero (by omega)
  refine ⟨⟨token, ⟨abi, protocol, revision, fingerprint, digest⟩, ⟨control, operations, events,
    continuations, handles, items, transactions, reserved, world⟩, process, generation, nonce⟩, ?_⟩
  rw [encode_eq, List.append_nil]

/-- The decoder accepts the bytes of the payloads that pass the checks. -/
theorem decode_eq_ok {payload : HandshakePayload} {bs : Bytes} :
    decode bs = .ok payload ↔ payload.validate = .ok () ∧ bs = payload.encode := by
  unfold decode
  simp only [bind_eq_ok, rejectIf_eq_ok, not_not, lift_eq_ok, pure_eq, Except.ok.injEq]
  constructor
  · rintro ⟨_, hlength, payload₁, hread, _, hvalid, rfl⟩
    obtain ⟨payload₂, hbs⟩ := exists_encode hlength
    rw [← hbs, readFields_encode, Except.ok.injEq] at hread
    subst hread
    exact ⟨hvalid, hbs.symm⟩
  · rintro ⟨hvalid, hbs⟩
    refine ⟨(), ?_, payload, ?_, (), hvalid, rfl⟩
    · rw [hbs, length_encode]
    · rw [hbs, readFields_encode]

theorem safe_decode (input : Bytes) : Safe (decode input) := by
  unfold decode
  refine safe_rejectIf_bind fun hlength => ?_
  obtain ⟨payload, hbs⟩ := exists_encode (not_not.1 hlength)
  rw [← hbs, readFields_encode, bind_ok]
  exact safe_bind (safe_lift _) fun _ _ => safe_ok _

end HandshakePayload

end Dogmos.Wire
