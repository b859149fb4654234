import Dogmos.Wire.States

/-!
# Uploads of states and adjustments of gases

The requests whose records follow a longer header: a part of an upload of states, and
the adjustments of several gases of one mixture.

* `MixtureStateUploadAppendRequest.decode_eq_ok` — a part is accepted whatever the
  reserved words of its records are.
* `adjustMultiple_decode_eq_ok` — adjustments are accepted in one spelling only.
-/

namespace Dogmos.Wire

open Bytes

/-! ## Parts of an upload -/

def mixtureStateUploadAppendHeaderLen : Nat := 16

/-- `validate_mixture_state_upload_id`. -/
def validateMixtureStateUploadId (uploadId : UInt64) : Except ProtocolError Unit :=
  failIf (uploadId = 0) .invalidMixtureStateUploadId

/-- `checked_mixture_state_upload_count`. -/
def checkedMixtureStateUploadCount (count : Nat) : Except ProtocolError UInt32 := do
  failIf (count = 0) (.invalidMixtureStateUploadCount 0)
  failIf (2 ^ 32 ≤ count) (.operationCountExceeded 0xFFFFFFFF 0xFFFFFFFF)
  pure (UInt32.ofNat count)

/-- `MixtureStateUploadAppendRequest`. -/
structure MixtureStateUploadAppendRequest where
  uploadId : UInt64
  offset : UInt32
  mutations : List MixtureStateMutation
deriving DecidableEq

namespace MixtureStateUploadAppendRequest

/-- `MixtureStateUploadAppendRequest::encode`. -/
def encode (request : MixtureStateUploadAppendRequest) : Encoded := do
  validateMixtureStateUploadId request.uploadId
  let count ← checkedMixtureStateUploadCount request.mutations.length
  let body ← encodeAll MixtureStateMutation.encode request.mutations
  pure (le64 request.uploadId ++ (le32 request.offset ++ (le32 count ++ body)))

/-- `MixtureStateUploadAppendRequest::decode`. -/
def decode (usizeBits : Nat) (input : Bytes) (maximum : UInt32) :
    Decoded MixtureStateUploadAppendRequest := do
  rejectIf (input.length < mixtureStateUploadAppendHeaderLen)
    (.invalidPayloadLength (UInt32.ofNat mixtureStateUploadAppendHeaderLen)
      (UInt32.ofNat input.length))
  let uploadId ← readU64 input 0
  lift (validateMixtureStateUploadId uploadId)
  let count ← readU32 input 12
  rejectIf (count = 0) (.invalidMixtureStateUploadCount 0)
  rejectIf (maximum < count) (.operationCountExceeded count maximum)
  let expected ← payloadLength usizeBits mixtureStateUploadAppendHeaderLen count.toNat
    mixtureStateMutationLen input
  requireExactLen input expected
  let offset ← readU32 input 8
  let body ← slice input mixtureStateUploadAppendHeaderLen input.length
  pure ⟨uploadId, offset, ← decodeMixtureStateRecords body count⟩

/-- The bytes of a part whose records are described by `carries`. -/
def Carries (carries : MixtureStateMutation → Bytes → Prop)
    (request : MixtureStateUploadAppendRequest) (bs : Bytes) : Prop :=
  request.uploadId ≠ 0 ∧ request.mutations ≠ [] ∧ ∃ (count : UInt32) (body : Bytes),
    bs = le64 request.uploadId ++ (le32 request.offset ++ (le32 count ++ body)) ∧
      count.toNat = request.mutations.length ∧ CarriesAll carries request.mutations body

theorem slice_header {id : UInt64} {offset count : UInt32} (body : Bytes) :
    slice (ε := ProtocolError) (le64 id ++ (le32 offset ++ (le32 count ++ body))) 16
      (le64 id ++ (le32 offset ++ (le32 count ++ body))).length = .ok body := by
  have hheader : (le64 id ++ (le32 offset ++ le32 count)).length = 16 := by simp
  simpa only [List.append_assoc] using slice_rest (ε := ProtocolError) body hheader

theorem encode_eq_ok {request : MixtureStateUploadAppendRequest} {bs : Bytes} :
    request.encode = .ok bs ↔ request.Carries (MixtureStateMutation.Carries 0) bs := by
  unfold encode Carries validateMixtureStateUploadId checkedMixtureStateUploadCount
  simp only [bind_eq_ok, failIf_eq_ok, pure_eq, Except.ok.injEq, encodeAll_eq_ok,
    MixtureStateMutation.encode_eq_ok, List.length_eq_zero_iff]
  constructor
  · rintro ⟨_, hid, count, ⟨_, hempty, _, hbound, rfl⟩, body, hbody, rfl⟩
    exact ⟨hid, hempty, _, body, rfl, UInt32.toNat_ofNat_of_lt' (Nat.not_le.1 hbound), hbody⟩
  · rintro ⟨hid, hempty, count, body, rfl, hcount, hbody⟩
    have hbound : ¬2 ^ 32 ≤ request.mutations.length := by
      rw [← hcount]
      exact Nat.not_le.2 count.toNat_lt
    exact ⟨(), hid, count, ⟨(), hempty, (), hbound, by rw [← hcount, UInt32.ofNat_toNat]⟩, body,
      hbody, rfl⟩

/-- What an upload accepts: the reserved words of the records are not looked at. -/
theorem decode_eq_ok {usizeBits : Nat} {request : MixtureStateUploadAppendRequest} {input : Bytes}
    {maximum : UInt32} :
    decode usizeBits input maximum = .ok request ↔
      request.Carries (fun entry r => ∃ reserved, entry.Carries reserved r) input ∧
        request.mutations.length ≤ maximum.toNat ∧ input.length < 2 ^ usizeBits := by
  unfold decode Carries validateMixtureStateUploadId mixtureStateUploadAppendHeaderLen
  simp only [bind_eq_ok, rejectIf_eq_ok, lift_eq_ok, failIf_eq_ok, payloadLength_eq_ok,
    requireExactLen_eq_ok, pure_eq, Except.ok.injEq]
  constructor
  · rintro ⟨_, hheader, id, hid, _, hnonzero, count, hcount, _, hempty, _, hmaximum, expected,
      ⟨rfl, hbits⟩, _, hlength, offset, hoffset, body, hbody, mutations, hmutations, rfl⟩
    obtain ⟨id', bs, rfl, h₁⟩ := exists_le64_append (show 8 ≤ input.length by omega)
    obtain ⟨offset', bs, rfl, h₂⟩ := exists_le32_append (show 4 ≤ bs.length by omega)
    obtain ⟨count', bs, rfl, h₃⟩ := exists_le32_append (show 4 ≤ bs.length by omega)
    simp only [readU64_block, readU32_skip, readU32_block, length_le64, length_le32,
      Nat.reduceLeDiff, Nat.reduceSub, Except.ok.injEq] at hid hoffset hcount
    subst hid hoffset hcount
    have hbs : bs.length = count'.toNat * mixtureStateMutationLen := by omega
    obtain rfl : bs = body := by
      rw [slice_header] at hbody
      exact Except.ok.inj hbody
    obtain ⟨hall, hlen⟩ := (decodeMixtureStateRecords_eq_ok hbs).1 hmutations
    have hpositive : mutations ≠ [] := by
      rintro rfl
      exact hempty (UInt32.toNat_inj.1 hlen.symm)
    refine ⟨⟨hnonzero, hpositive, count', bs, rfl, hlen.symm, hall⟩, ?_, by omega⟩
    rw [hlen]
    exact UInt32.le_iff_toNat_le.1 (UInt32.not_lt.1 hmaximum)
  · rintro ⟨⟨hid, hempty, count, body, rfl, hcount, hall⟩, hmaximum, hbits⟩
    have hbody : body.length = count.toNat * mixtureStateMutationLen := by
      rw [stateFormat.length_all hall, hcount]
    have hlength : (le64 request.uploadId ++ (le32 request.offset ++ (le32 count ++ body))).length =
        16 + count.toNat * mixtureStateMutationLen := by
      simp only [List.length_append, length_le64, length_le32, hbody]
      omega
    have hcountPositive : count ≠ 0 := by
      rintro rfl
      exact hempty (List.eq_nil_of_length_eq_zero hcount.symm)
    have hle : ¬maximum < count := UInt32.not_lt.2 (UInt32.le_iff_toNat_le.2 (hcount ▸ hmaximum))
    refine ⟨(), by omega, request.uploadId, readU64_block _ _, (), hid, count, ?_, (),
      hcountPositive, (), hle, _, ⟨rfl, by omega⟩, (), hlength, request.offset, ?_, body,
      slice_header body,
      request.mutations,
      (decodeMixtureStateRecords_eq_ok hbody).2 ⟨hall, hcount.symm⟩, rfl⟩
    · simp [readU32_skip]
    · simp [readU32_skip]

end MixtureStateUploadAppendRequest

theorem safe_decodeMixtureStateRecords {count : UInt32} {bs : Bytes}
    (h : bs.length = count.toNat * mixtureStateMutationLen) :
    Safe (decodeMixtureStateRecords bs count) := by
  have hfits : bs.length = 0 + count.toNat * mixtureStateMutationLen := by omega
  refine safe_records fun i _ hi => ?_
  have hrecord := record_fits hfits hi
  rw [Nat.zero_add] at hrecord
  exact safe_stateRecord hrecord

theorem MixtureStateUploadAppendRequest.safe_decode {usizeBits : Nat} {input : Bytes}
    {maximum : UInt32} : Safe (MixtureStateUploadAppendRequest.decode usizeBits input maximum) := by
  unfold MixtureStateUploadAppendRequest.decode mixtureStateUploadAppendHeaderLen
  refine safe_rejectIf_bind fun hheader => ?_
  refine safe_bind (safe_readU64 (by omega)) fun uploadId _ => ?_
  refine safe_bind (safe_lift _) fun _ _ => ?_
  refine safe_bind (safe_readU32 (by omega)) fun count _ => ?_
  refine safe_rejectIf_bind fun _ => safe_rejectIf_bind fun _ => ?_
  refine safe_bind safe_payloadLength fun expected hexpected => ?_
  obtain ⟨rfl, -⟩ := payloadLength_eq_ok.1 hexpected
  refine safe_requireExactLen_bind fun hlength => ?_
  refine safe_bind (safe_readU32 (by omega)) fun offset _ => ?_
  refine safe_bind (safe_slice (by omega) (by omega)) fun body hbody => ?_
  obtain ⟨body', hbody', hlength'⟩ := slice_ok (ε := ProtocolError) (show 16 ≤ input.length by omega)
    (Nat.le_refl input.length)
  rw [hbody] at hbody'
  cases hbody'
  exact safe_bind (safe_decodeMixtureStateRecords (by omega)) fun _ _ => safe_ok _

/-! ## Adjustments of several gases -/

def mixtureAdjustMultipleHeaderLen : Nat := 12

def mixtureAdjustmentLen : Nat := 16

/-- `MixtureAdjustment`. -/
structure MixtureAdjustment where
  gasId : UInt16
  delta : ScalarValue
deriving DecidableEq

/-- One record of `encode_adjust_multiple_request`, in a blank buffer. -/
def MixtureAdjustment.encode (adjustment : MixtureAdjustment) : Encoded := do
  let output := put (zeros mixtureAdjustmentLen) 0 (le16 adjustment.gasId)
  pure (put output 8 (← adjustment.delta.encode))

/-- `encode_adjust_multiple_request`. -/
def encodeAdjustMultipleRequest (handle : WireHandle) (adjustments : List MixtureAdjustment) :
    Encoded := do
  failIf (2 ^ 32 ≤ adjustments.length)
    (.operationCountExceeded 0xFFFFFFFF (UInt32.ofNat wireGasSlots))
  let count := UInt32.ofNat adjustments.length
  failIf (UInt32.ofNat wireGasSlots < count)
    (.operationCountExceeded count (UInt32.ofNat wireGasSlots))
  let body ← encodeAll MixtureAdjustment.encode adjustments
  pure (handle.encode ++ (le32 count ++ body))

def adjustmentRecord (input : Bytes) (offset : Nat) : Decoded MixtureAdjustment := do
  let reserved ← readU16 input (offset + 2)
  let reserved' ← readU32 input (offset + 4)
  rejectIf (reserved ≠ 0 ∨ reserved' ≠ 0) .reservedMixtureAdjustmentField
  pure ⟨← readU16 input offset, ← readScalar input (offset + 8)⟩

/-- `decode_adjust_multiple_request`. -/
def decodeAdjustMultipleRequest (usizeBits : Nat) (input : Bytes) :
    Decoded (WireHandle × List MixtureAdjustment) := do
  rejectIf (input.length < mixtureAdjustMultipleHeaderLen)
    (.invalidPayloadLength (UInt32.ofNat mixtureAdjustMultipleHeaderLen)
      (UInt32.ofNat input.length))
  let handle ← readHandle input 0
  let count ← readU32 input 8
  rejectIf (UInt32.ofNat wireGasSlots < count)
    (.operationCountExceeded count (UInt32.ofNat wireGasSlots))
  let expected ← payloadLength usizeBits mixtureAdjustMultipleHeaderLen count.toNat
    mixtureAdjustmentLen input
  requireExactLen input expected
  let adjustments ← records (fun index => adjustmentRecord input
    (mixtureAdjustMultipleHeaderLen + index * mixtureAdjustmentLen)) 0 count.toNat
  pure (handle, adjustments)

theorem MixtureAdjustment.encode_eq_ok {adjustment : MixtureAdjustment} {bs : Bytes} :
    adjustment.encode = .ok bs ↔ adjustment.delta.Finite ∧
      bs = le16 adjustment.gasId ++ (le16 0 ++ (le32 0 ++ adjustment.delta.bytes)) := by
  unfold MixtureAdjustment.encode
  have hput : put (put (zeros mixtureAdjustmentLen) 0 (le16 adjustment.gasId)) 8
      adjustment.delta.bytes =
        le16 adjustment.gasId ++ (le16 0 ++ (le32 0 ++ adjustment.delta.bytes)) := by
    simp [put_append, put_zeros, put_zeros_gap, mixtureAdjustmentLen, le16_zero, le32_zero]
    rfl
  simp only [bind_eq_ok, ScalarValue.encode_eq_ok, pure_eq, Except.ok.injEq]
  constructor
  · rintro ⟨_, ⟨hdelta, rfl⟩, rfl⟩
    exact ⟨hdelta, hput⟩
  · rintro ⟨hdelta, rfl⟩
    exact ⟨_, ⟨hdelta, rfl⟩, hput⟩

theorem adjustmentFormat : RecordFormat mixtureAdjustmentLen
    (fun adjustment bs => MixtureAdjustment.encode adjustment = .ok bs) adjustmentRecord where
  length := by
    intro adjustment bs h
    obtain ⟨-, rfl⟩ := MixtureAdjustment.encode_eq_ok.1 h
    simp [mixtureAdjustmentLen]
  decode_iff := by
    intro adjustment bs h
    unfold mixtureAdjustmentLen at h
    rw [MixtureAdjustment.encode_eq_ok]
    obtain ⟨gasId, bs, rfl, h₁⟩ := exists_le16_append (show 2 ≤ bs.length by omega)
    obtain ⟨reserved, bs, rfl, h₂⟩ := exists_le16_append (show 2 ≤ bs.length by omega)
    obtain ⟨reserved', q, rfl, h₃⟩ := exists_le32_append (show 4 ≤ bs.length by omega)
    have hq : q.length = 8 := by omega
    unfold adjustmentRecord
    simp only [Nat.zero_add, readU16_block, readU16_skip, readU32_block, readU32_skip,
      readScalar_skip, readScalar_all hq, length_le16, length_le32, Nat.reduceLeDiff,
      Nat.reduceSub, bind_ok, bind_eq_ok, rejectIf_eq_ok, not_or, not_not,
      ScalarValue.decode_eq_ok hq, pure_eq, Except.ok.injEq, le16_append_inj, le32_append_inj]
    constructor
    · rintro ⟨_, ⟨rfl, rfl⟩, v, ⟨hv, rfl⟩, rfl⟩
      exact ⟨hv, rfl, rfl, rfl, rfl⟩
    · rintro ⟨hv, rfl, rfl, rfl, rfl⟩
      exact ⟨(), ⟨rfl, rfl⟩, _, ⟨hv, rfl⟩, rfl⟩
  shift := by
    intro bs p rest h
    unfold mixtureAdjustmentLen at h
    unfold adjustmentRecord
    simp only [readU16_shift_zero, readU16_shift, readU32_shift, readScalar_shift, h,
      Nat.reduceLeDiff, Nat.reduceAdd, Nat.zero_add]

/-- What was encoded is a header and the records. -/
theorem encodeAdjustMultiple_eq_ok {handle : WireHandle} {adjustments : List MixtureAdjustment}
    {bs : Bytes} :
    encodeAdjustMultipleRequest handle adjustments = .ok bs ↔
      adjustments.length ≤ wireGasSlots ∧ ∃ (count : UInt32) (body : Bytes),
        bs = handle.encode ++ (le32 count ++ body) ∧ count.toNat = adjustments.length ∧
          CarriesAll (fun a r => MixtureAdjustment.encode a = .ok r) adjustments body := by
  unfold encodeAdjustMultipleRequest
  simp only [bind_eq_ok, failIf_eq_ok, pure_eq, Except.ok.injEq, encodeAll_eq_ok, UInt32.lt_iff_toNat_lt]
  constructor
  · rintro ⟨_, hbound, _, hcount, body, hbody, rfl⟩
    rw [UInt32.toNat_ofNat_of_lt' (Nat.not_le.1 hbound)] at hcount
    exact ⟨Nat.not_lt.1 hcount, _, body, rfl, UInt32.toNat_ofNat_of_lt' (Nat.not_le.1 hbound), hbody⟩
  · rintro ⟨hbound, count, body, rfl, hcount, hbody⟩
    have hsmall : adjustments.length < 2 ^ 32 := by
      rw [← hcount]
      exact count.toNat_lt
    refine ⟨(), Nat.not_le.2 hsmall, (), ?_, body, hbody, by rw [← hcount, UInt32.ofNat_toNat]⟩
    rw [UInt32.toNat_ofNat_of_lt' hsmall]
    exact Nat.not_lt.2 hbound

/-- Adjustments are accepted in one spelling only. -/
theorem decodeAdjustMultiple_eq_ok {usizeBits : Nat} {input : Bytes} {handle : WireHandle}
    {adjustments : List MixtureAdjustment} :
    decodeAdjustMultipleRequest usizeBits input = .ok (handle, adjustments) ↔
      encodeAdjustMultipleRequest handle adjustments = .ok input ∧ input.length < 2 ^ usizeBits := by
  rw [encodeAdjustMultiple_eq_ok]
  unfold decodeAdjustMultipleRequest mixtureAdjustMultipleHeaderLen
  simp only [bind_eq_ok, rejectIf_eq_ok, payloadLength_eq_ok, requireExactLen_eq_ok, pure_eq,
    Except.ok.injEq, Prod.mk.injEq, UInt32.lt_iff_toNat_lt]
  constructor
  · rintro ⟨_, hheader, handle', hhandle, count, hcount, _, hbound, expected, ⟨rfl, hbits⟩, _, hlength,
      adjustments', hrecords, rfl, rfl⟩
    obtain ⟨handle'', bs, rfl, h₁⟩ := exists_handle_append (show 8 ≤ input.length by omega)
    obtain ⟨count', bs, rfl, h₂⟩ := exists_le32_append (show 4 ≤ bs.length by omega)
    simp only [readHandle_block, readU32_skip, readU32_block, length_encode_handle,
      Nat.reduceLeDiff, Nat.reduceSub, Except.ok.injEq] at hhandle hcount
    subst hhandle hcount
    have hbs : bs.length = count'.toNat * mixtureAdjustmentLen := by omega
    have hfront : (handle''.encode ++ le32 count').length = 12 := by simp
    have hall := @RecordFormat.records_all _ _ _ _ _ adjustmentFormat _ adjustments' _
      (handle''.encode ++ le32 count') hbs
    rw [hfront, List.append_assoc] at hall
    obtain ⟨hall, hlen⟩ := hall.1 hrecords
    exact ⟨⟨hlen ▸ Nat.not_lt.1 hbound, count', bs, rfl, hlen.symm, hall⟩, by omega⟩
  · rintro ⟨⟨hbound, count, body, rfl, hcount, hall⟩, hbits⟩
    have hbody : body.length = count.toNat * mixtureAdjustmentLen := by
      rw [adjustmentFormat.length_all hall, hcount]
    have hlength : (handle.encode ++ (le32 count ++ body)).length =
        12 + count.toNat * mixtureAdjustmentLen := by
      simp only [List.length_append, length_encode_handle, length_le32, hbody]
      omega
    have hfront : (handle.encode ++ le32 count).length = 12 := by simp
    have hrecords := @RecordFormat.records_all _ _ _ _ _ adjustmentFormat _ adjustments _
      (handle.encode ++ le32 count) hbody
    rw [hfront, List.append_assoc] at hrecords
    refine ⟨(), by omega, handle, readHandle_block _ _, count, ?_, (), ?_, _, ⟨rfl, by omega⟩, (),
      hlength, adjustments, hrecords.2 ⟨hall, hcount.symm⟩, rfl, rfl⟩
    · simp [readU32_skip]
    · rw [hcount]
      exact Nat.not_lt.2 hbound

theorem safe_decodeAdjustMultipleRequest {usizeBits : Nat} {input : Bytes} :
    Safe (decodeAdjustMultipleRequest usizeBits input) := by
  unfold decodeAdjustMultipleRequest mixtureAdjustMultipleHeaderLen
  refine safe_rejectIf_bind fun hheader => ?_
  refine safe_bind (safe_readHandle (by omega)) fun handle _ => ?_
  refine safe_bind (safe_readU32 (by omega)) fun count _ => ?_
  refine safe_rejectIf_bind fun _ => ?_
  refine safe_bind safe_payloadLength fun expected hexpected => ?_
  obtain ⟨rfl, -⟩ := payloadLength_eq_ok.1 hexpected
  refine safe_requireExactLen_bind fun hlength => ?_
  refine safe_bind (safe_records fun i _ hi => ?_) fun _ _ => safe_ok _
  have hrecord := record_fits hlength hi
  unfold mixtureAdjustmentLen at hrecord ⊢
  refine safe_bind (safe_readU16 (by omega)) fun _ _ => ?_
  refine safe_bind (safe_readU32 (by omega)) fun _ _ => safe_rejectIf_bind fun _ => ?_
  refine safe_bind (safe_readU16 (by omega)) fun _ _ => ?_
  exact safe_bind (safe_readScalar (by omega)) fun _ _ => safe_ok _

end Dogmos.Wire
