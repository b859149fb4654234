import Dogmos.Wire.Commands
import Dogmos.Wire.Uploads

/-!
# Continuation tokens

A token names a stopped reaction; the requests that carry one put it in front of the bytes of
another request.

* `continuationToken_codec` — a token is its bytes, and its bytes are never blank
  (`ContinuationToken.not_blank`).
* `continuationCommand_codec`, `continuationResume_codec`, `continuationAdjust_eq_ok` — the
  requests that carry a token.
-/

namespace Dogmos.Wire

open Bytes

def continuationTokenLen : Nat := 24

def continuationCommandRequestLen : Nat := continuationTokenLen + mixtureCommandRequestLen

def continuationResumeRequestLen : Nat := continuationTokenLen + 8

/-- `ContinuationToken`. -/
structure ContinuationToken where
  worldGeneration : UInt32
  id : UInt64
  deadlineTicks : UInt64
deriving DecidableEq

namespace ContinuationToken

/-- `ContinuationToken::encode`. -/
def encode (token : ContinuationToken) : Encoded := do
  failIf (token.id = 0) .invalidContinuationId
  failIf (token.deadlineTicks = 0) .invalidContinuationDeadline
  let output := put (zeros continuationTokenLen) 0 (le32 token.worldGeneration)
  let output := put output 8 (le64 token.id)
  pure (put output 16 (le64 token.deadlineTicks))

/-- `ContinuationToken::decode`. -/
def decode (input : Bytes) : Decoded ContinuationToken := do
  requireExactLen input continuationTokenLen
  let reserved ← readU32 input 4
  rejectIf (reserved ≠ 0) (.reservedContinuationField reserved)
  let token := { worldGeneration := ← readU32 input 0, id := ← readU64 input 8,
                 deadlineTicks := ← readU64 input 16 }
  let _ ← lift token.encode
  pure token

/-- The bytes of a token. -/
def bytes (token : ContinuationToken) : Bytes :=
  le32 token.worldGeneration ++ (le32 0 ++ (le64 token.id ++ le64 token.deadlineTicks))

/-- A token that the wire carries. -/
def Valid (token : ContinuationToken) : Prop := token.id ≠ 0 ∧ token.deadlineTicks ≠ 0

@[simp] theorem length_bytes (token : ContinuationToken) : token.bytes.length = 24 := by
  simp [bytes]

theorem encode_eq_ok {token : ContinuationToken} {bs : Bytes} :
    token.encode = .ok bs ↔ token.Valid ∧ bs = token.bytes := by
  have hput : put (put (put (zeros continuationTokenLen) 0 (le32 token.worldGeneration)) 8
      (le64 token.id)) 16 (le64 token.deadlineTicks) = token.bytes := by
    simp [bytes, put_append, put_zeros, put_zeros_gap, continuationTokenLen, le32_zero]
  unfold encode Valid
  simp only [bind_eq_ok, failIf_eq_ok, hput, pure_eq, Except.ok.injEq]
  constructor
  · rintro ⟨_, hid, _, hdeadline, rfl⟩
    exact ⟨⟨hid, hdeadline⟩, rfl⟩
  · rintro ⟨⟨hid, hdeadline⟩, rfl⟩
    exact ⟨(), hid, (), hdeadline, rfl⟩

theorem decode_eq_ok {token : ContinuationToken} {bs : Bytes} :
    decode bs = .ok token ↔ token.Valid ∧ bs = token.bytes := by
  unfold decode
  simp only [bind_eq_ok, requireExactLen_eq_ok, rejectIf_eq_ok, not_not, lift_eq_ok, encode_eq_ok,
    pure_eq, Except.ok.injEq]
  constructor
  · rintro ⟨_, hlength, reserved, hreserved, _, rfl, generation, hgeneration, id, hid, deadline,
      hdeadline, _, ⟨hvalid, rfl⟩, rfl⟩
    unfold continuationTokenLen at hlength
    obtain ⟨generation', bs, rfl, h₁⟩ := exists_le32_append (show 4 ≤ bs.length by omega)
    obtain ⟨reserved', bs, rfl, h₂⟩ := exists_le32_append (show 4 ≤ bs.length by omega)
    obtain ⟨id', bs, rfl, h₃⟩ := exists_le64_append (show 8 ≤ bs.length by omega)
    obtain ⟨deadline', bs, rfl, h₄⟩ := exists_le64_append (show 8 ≤ bs.length by omega)
    obtain rfl : bs = [] := List.eq_nil_of_length_eq_zero (by omega)
    simp only [readU32_block, readU32_skip, readU64_skip, readU64_block, length_le32, length_le64,
      Nat.reduceLeDiff, Nat.reduceSub, Except.ok.injEq] at hreserved hgeneration hid hdeadline
    subst hreserved hgeneration hid hdeadline
    exact ⟨hvalid, by simp [bytes]⟩
  · rintro ⟨hvalid, rfl⟩
    refine ⟨(), length_bytes token, 0, ?_, (), rfl, token.worldGeneration, ?_, token.id, ?_,
      token.deadlineTicks, ?_, _, ⟨hvalid, rfl⟩, rfl⟩ <;>
      simp [bytes, readU32_skip, readU64_skip]

/-- A token shows: its bytes are not blank. -/
theorem not_blank {token : ContinuationToken} (h : token.Valid) : isBlank token.bytes = false := by
  simp [bytes, h.1]

end ContinuationToken

/-- A token is its bytes. -/
theorem continuationToken_codec : Codec ContinuationToken.encode ContinuationToken.decode :=
  ⟨fun h => ContinuationToken.decode_eq_ok.2 (ContinuationToken.encode_eq_ok.1 h),
    fun h => ContinuationToken.encode_eq_ok.2 (ContinuationToken.decode_eq_ok.1 h)⟩

theorem ContinuationToken.safe_decode (input : Bytes) : Safe (ContinuationToken.decode input) := by
  unfold ContinuationToken.decode continuationTokenLen
  refine safe_requireExactLen_bind fun hlength => ?_
  refine safe_bind (safe_readU32 (by omega)) fun reserved _ => safe_rejectIf_bind fun _ => ?_
  refine safe_bind (safe_readU32 (by omega)) fun _ _ => ?_
  refine safe_bind (safe_readU64 (by omega)) fun _ _ => ?_
  refine safe_bind (safe_readU64 (by omega)) fun _ _ => ?_
  exact safe_bind (safe_lift _) fun _ _ => safe_ok _

/-! ## Requests that carry a token -/

/-- `ContinuationCommandRequest`. -/
structure ContinuationCommandRequest where
  token : ContinuationToken
  command : MixtureCommandRequest
deriving DecidableEq

namespace ContinuationCommandRequest

/-- `ContinuationCommandRequest::encode`; the two parts fill the buffer. -/
def encode (request : ContinuationCommandRequest) : Encoded := do
  let token ← request.token.encode
  let command ← request.command.encode
  pure (token ++ command)

/-- `ContinuationCommandRequest::decode`. -/
def decode (input : Bytes) : Decoded ContinuationCommandRequest := do
  requireExactLen input continuationCommandRequestLen
  let token ← ContinuationToken.decode (← slice input 0 continuationTokenLen)
  let command ← MixtureCommandRequest.decode (← slice input continuationTokenLen input.length)
  pure ⟨token, command⟩

end ContinuationCommandRequest

/-- `ContinuationResumeRequest`. -/
structure ContinuationResumeRequest where
  token : ContinuationToken
  reactionResult : UInt32
deriving DecidableEq

namespace ContinuationResumeRequest

/-- `ContinuationResumeRequest::encode`. -/
def encode (request : ContinuationResumeRequest) : Encoded := do
  failIf (request.reactionResult &&& ~~~reactionFlagMask ≠ 0)
    (.invalidReactionFlags request.reactionResult)
  let output := put (zeros continuationResumeRequestLen) 0 (← request.token.encode)
  pure (put output continuationTokenLen (le32 request.reactionResult))

/-- `ContinuationResumeRequest::decode`. -/
def decode (input : Bytes) : Decoded ContinuationResumeRequest := do
  requireExactLen input continuationResumeRequestLen
  let reserved ← readU32 input (continuationTokenLen + 4)
  rejectIf (reserved ≠ 0) (.reservedContinuationField reserved)
  let token ← ContinuationToken.decode (← slice input 0 continuationTokenLen)
  let request := { token, reactionResult := ← readU32 input continuationTokenLen }
  let _ ← lift request.encode
  pure request

end ContinuationResumeRequest

/-- `encode_continuation_adjust_multiple_request`. -/
def encodeContinuationAdjustMultipleRequest (token : ContinuationToken) (handle : WireHandle)
    (adjustments : List MixtureAdjustment) : Encoded := do
  let nested ← encodeAdjustMultipleRequest handle adjustments
  let token ← token.encode
  pure (token ++ nested)

/-- `decode_continuation_adjust_multiple_request`. -/
def decodeContinuationAdjustMultipleRequest (usizeBits : Nat) (input : Bytes) :
    Decoded (ContinuationToken × WireHandle × List MixtureAdjustment) := do
  rejectIf (input.length < continuationTokenLen)
    (.invalidPayloadLength (UInt32.ofNat continuationTokenLen) (UInt32.ofNat input.length))
  let token ← ContinuationToken.decode (← slice input 0 continuationTokenLen)
  let (handle, adjustments) ← decodeAdjustMultipleRequest usizeBits
    (← slice input continuationTokenLen input.length)
  pure (token, handle, adjustments)

/-! ### A token and the rest of a request -/

section Requests

variable {token : ContinuationToken} {bs rest : Bytes}

/-- The part of a request in front of which a token stands. -/
theorem slice_token (hp : bs.length = continuationTokenLen) :
    slice (ε := ProtocolError) (bs ++ rest) 0 continuationTokenLen = .ok bs ∧
      slice (ε := ProtocolError) (bs ++ rest) continuationTokenLen (bs ++ rest).length = .ok rest :=
  ⟨slice_block rest hp, slice_rest rest hp⟩

theorem length_encode_token (h : token.encode = .ok bs) : bs.length = continuationTokenLen := by
  obtain ⟨-, rfl⟩ := ContinuationToken.encode_eq_ok.1 h
  exact ContinuationToken.length_bytes token

/-- A token in front of a command is its bytes in front of those of the command. -/
theorem continuationCommand_codec :
    Codec ContinuationCommandRequest.encode ContinuationCommandRequest.decode where
  decode_encode := by
    intro request bs h
    obtain ⟨p, hp, h⟩ := bind_eq_ok.1 h
    obtain ⟨q, hq, h⟩ := bind_eq_ok.1 h
    cases h
    have hlength : (p ++ q).length = continuationCommandRequestLen := by
      have hcommand := mixtureCommandRequest_codec.decode_encode hq
      obtain ⟨_, hexact, -⟩ := bind_eq_ok.1 hcommand
      rw [List.length_append, length_encode_token hp, requireExactLen_eq_ok.1 hexact]
      rfl
    obtain ⟨hfront, hrest⟩ := @slice_token _ q (length_encode_token hp)
    rw [hlength] at hrest
    unfold ContinuationCommandRequest.decode
    simp only [hfront, hrest, bind_ok, continuationToken_codec.decode_encode hp,
      mixtureCommandRequest_codec.decode_encode hq, requireExactLen, hlength, rejectIf_neg, ne_eq,
      not_true_eq_false, not_false_eq_true, pure_eq]
  encode_decode := by
    intro request bs h
    obtain ⟨_, hexact, h⟩ := bind_eq_ok.1 h
    have hlength := requireExactLen_eq_ok.1 hexact
    unfold continuationCommandRequestLen at hlength
    obtain ⟨p, q, rfl, hp, -⟩ := exists_append (show continuationTokenLen ≤ bs.length by omega)
    obtain ⟨hfront, hrest⟩ := @slice_token _ q hp
    simp only [hfront, hrest, bind_ok, bind_eq_ok, pure_eq, Except.ok.injEq] at h
    obtain ⟨token, htoken, command, hcommand, rfl⟩ := h
    exact bind_eq_ok.2 ⟨p, continuationToken_codec.encode_decode htoken,
      bind_eq_ok.2 ⟨q, mixtureCommandRequest_codec.encode_decode hcommand, rfl⟩⟩

theorem ContinuationResumeRequest.encode_eq_ok {request : ContinuationResumeRequest} {bs : Bytes} :
    request.encode = .ok bs ↔
      request.reactionResult &&& ~~~reactionFlagMask = 0 ∧ request.token.Valid ∧
        bs = request.token.bytes ++ (le32 request.reactionResult ++ le32 0) := by
  have hput : put (put (zeros continuationResumeRequestLen) 0 request.token.bytes)
      continuationTokenLen (le32 request.reactionResult) =
      request.token.bytes ++ (le32 request.reactionResult ++ le32 0) := by
    simp [put_append, put_zeros, continuationResumeRequestLen, continuationTokenLen, le32_zero]
  unfold ContinuationResumeRequest.encode
  simp only [bind_eq_ok, failIf_eq_ok, not_not, ContinuationToken.encode_eq_ok, pure_eq,
    Except.ok.injEq]
  constructor
  · rintro ⟨_, hflags, _, ⟨hvalid, rfl⟩, rfl⟩
    exact ⟨hflags, hvalid, hput⟩
  · rintro ⟨hflags, hvalid, rfl⟩
    exact ⟨(), hflags, _, ⟨hvalid, rfl⟩, hput⟩

/-- A token in front of a result is its bytes in front of those of the result. -/
theorem continuationResume_codec :
    Codec ContinuationResumeRequest.encode ContinuationResumeRequest.decode where
  decode_encode := by
    intro request bs h
    obtain ⟨hflags, hvalid, rfl⟩ := ContinuationResumeRequest.encode_eq_ok.1 h
    have hfront : slice (ε := ProtocolError)
        (request.token.bytes ++ (le32 request.reactionResult ++ le32 0)) 0 24 =
          .ok request.token.bytes := slice_block _ (ContinuationToken.length_bytes _)
    have htoken := ContinuationToken.decode_eq_ok.2 ⟨hvalid, rfl⟩
    unfold ContinuationResumeRequest.decode
    simp only [hfront, htoken, h, bind_ok, requireExactLen, readU32_skip, readU32_block, readU32_all,
      continuationTokenLen, continuationResumeRequestLen, List.length_append, length_le32,
      ContinuationToken.length_bytes, rejectIf_neg, ne_eq, not_true_eq_false, not_false_eq_true,
      Nat.reduceAdd, Nat.reduceLeDiff, Nat.reduceSub, lift_ok, pure_eq]
  encode_decode := by
    intro request bs h
    obtain ⟨_, hexact, h⟩ := bind_eq_ok.1 h
    obtain ⟨reserved, hread, h⟩ := bind_eq_ok.1 h
    obtain ⟨_, hreserved, h⟩ := bind_eq_ok.1 h
    obtain ⟨p, hp, h⟩ := bind_eq_ok.1 h
    obtain ⟨token, htoken, h⟩ := bind_eq_ok.1 h
    obtain ⟨result, hresult, h⟩ := bind_eq_ok.1 h
    obtain ⟨bs', hencode, h⟩ := bind_eq_ok.1 h
    cases h
    have hlength := requireExactLen_eq_ok.1 hexact
    unfold continuationResumeRequestLen continuationTokenLen at hlength
    obtain ⟨p', bs, rfl, hp', h₁⟩ := exists_append (show 24 ≤ bs.length by omega)
    obtain ⟨result', bs, rfl, h₂⟩ := exists_le32_append (show 4 ≤ bs.length by omega)
    obtain ⟨reserved', bs, rfl, h₃⟩ := exists_le32_append (show 4 ≤ bs.length by omega)
    obtain rfl : bs = [] := List.eq_nil_of_length_eq_zero (by omega)
    have hfront : slice (ε := ProtocolError) (p' ++ (le32 result' ++ (le32 reserved' ++ []))) 0
        continuationTokenLen = .ok p' := slice_block _ hp'
    rw [hfront, Except.ok.injEq] at hp
    subst hp
    simp only [continuationTokenLen, readU32_skip, hp', readU32_block, length_le32,
      Nat.reduceAdd, Nat.reduceLeDiff, Nat.reduceSub, Except.ok.injEq] at hread hresult
    subst hread hresult
    rw [rejectIf_eq_ok, not_not] at hreserved
    obtain ⟨hvalid, rfl⟩ := ContinuationToken.decode_eq_ok.1 htoken
    have hencoded := lift_eq_ok.1 hencode
    obtain ⟨hflags, -, -⟩ := ContinuationResumeRequest.encode_eq_ok.1 hencoded
    exact ContinuationResumeRequest.encode_eq_ok.2
      ⟨hflags, hvalid, by rw [hreserved, List.append_nil]⟩

/-- Adjustments that are encoded are few. -/
theorem length_encodeAdjustMultiple {handle : WireHandle} {adjustments : List MixtureAdjustment}
    (h : encodeAdjustMultipleRequest handle adjustments = .ok bs) : bs.length < 2 ^ 32 := by
  obtain ⟨hbound, count, body, rfl, -, hall⟩ := encodeAdjustMultiple_eq_ok.1 h
  have hbody := adjustmentFormat.length_all hall
  unfold wireGasSlots at hbound
  unfold mixtureAdjustmentLen at hbody
  rw [List.length_append, List.length_append, length_encode_handle, length_le32]
  omega

/-- A token in front of adjustments is its bytes in front of theirs. -/
theorem continuationAdjust_eq_ok {usizeBits : Nat} {handle : WireHandle}
    {adjustments : List MixtureAdjustment} (hbits : 32 ≤ usizeBits) :
    decodeContinuationAdjustMultipleRequest usizeBits bs = .ok (token, handle, adjustments) ↔
      encodeContinuationAdjustMultipleRequest token handle adjustments = .ok bs := by
  unfold decodeContinuationAdjustMultipleRequest encodeContinuationAdjustMultipleRequest
  simp only [bind_eq_ok, rejectIf_eq_ok, pure_eq, Except.ok.injEq, Prod.mk.injEq, Prod.exists]
  constructor
  · rintro ⟨_, hlength, p, hp, token, htoken, q, hq, handle, adjustments, hread, rfl, rfl, rfl⟩
    obtain ⟨p', q', rfl, hp', -⟩ := exists_append (Nat.not_lt.1 hlength)
    obtain ⟨hfront, hrest⟩ := @slice_token _ q' hp'
    rw [hfront, Except.ok.injEq] at hp
    rw [hrest, Except.ok.injEq] at hq
    subst hp hq
    exact ⟨q', (decodeAdjustMultiple_eq_ok.1 hread).1, p', continuationToken_codec.encode_decode htoken,
      rfl⟩
  · rintro ⟨q, hq, p, hp, rfl⟩
    obtain ⟨hfront, hrest⟩ := @slice_token _ q (length_encode_token hp)
    have hlength : ¬(p ++ q).length < continuationTokenLen := by
      rw [List.length_append, length_encode_token hp]
      omega
    have haddressable : q.length < 2 ^ usizeBits :=
      Nat.lt_of_lt_of_le (length_encodeAdjustMultiple hq) (Nat.pow_le_pow_right (by decide) hbits)
    exact ⟨(), hlength, p, hfront, token, continuationToken_codec.decode_encode hp, q, hrest, handle,
      adjustments, decodeAdjustMultiple_eq_ok.2 ⟨hq, haddressable⟩, rfl, rfl, rfl⟩

end Requests

/-! ## Decoders stay in their input -/

theorem ContinuationCommandRequest.safe_decode (input : Bytes) :
    Safe (ContinuationCommandRequest.decode input) := by
  unfold ContinuationCommandRequest.decode continuationCommandRequestLen
  refine safe_requireExactLen_bind fun hlength => ?_
  refine safe_bind (safe_slice (Nat.zero_le _) (by omega)) fun _ _ => ?_
  refine safe_bind (ContinuationToken.safe_decode _) fun _ _ => ?_
  refine safe_bind (safe_slice (by omega) (Nat.le_refl _)) fun _ _ => ?_
  exact safe_bind (MixtureCommandRequest.safe_decode _) fun _ _ => safe_ok _

theorem ContinuationResumeRequest.safe_decode (input : Bytes) :
    Safe (ContinuationResumeRequest.decode input) := by
  unfold ContinuationResumeRequest.decode continuationResumeRequestLen
  refine safe_requireExactLen_bind fun hlength => ?_
  refine safe_bind (safe_readU32 (by omega)) fun _ _ => safe_rejectIf_bind fun _ => ?_
  refine safe_bind (safe_slice (Nat.zero_le _) (by omega)) fun _ _ => ?_
  refine safe_bind (ContinuationToken.safe_decode _) fun _ _ => ?_
  refine safe_bind (safe_readU32 (by omega)) fun _ _ => ?_
  exact safe_bind (safe_lift _) fun _ _ => safe_ok _

theorem safe_decodeContinuationAdjustMultipleRequest {usizeBits : Nat} {input : Bytes} :
    Safe (decodeContinuationAdjustMultipleRequest usizeBits input) := by
  unfold decodeContinuationAdjustMultipleRequest
  refine safe_rejectIf_bind fun hlength => ?_
  refine safe_bind (safe_slice (Nat.zero_le _) (Nat.not_lt.1 hlength)) fun _ _ => ?_
  refine safe_bind (ContinuationToken.safe_decode _) fun _ _ => ?_
  refine safe_bind (safe_slice (Nat.not_lt.1 hlength) (Nat.le_refl _)) fun _ _ => ?_
  exact safe_bind safe_decodeAdjustMultipleRequest fun _ _ => safe_ok _

end Dogmos.Wire
