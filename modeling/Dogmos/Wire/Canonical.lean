import Dogmos.Wire.Frontiers

/-!
# Which payloads are canonical

Every batch format accepts canonical payloads only, save one: a part of an upload of states
is read without a look at the reserved words of its records.

* `CountedFormats` — what the formats promise.
* `uploadAppend_agrees_iff` — a part of an upload is read like the direct batch of its
  records exactly when its states have blank reserved words.
-/

namespace Dogmos.Wire

open Bytes

/-! ## Reserved words of states -/

/-- The reserved words of the records of a string. -/
def ReservedWordsBlank (body : Bytes) : Prop :=
  ∀ i, i * mixtureStateMutationLen + mixtureStateMutationLen ≤ body.length →
    readU32 (ε := ProtocolError) body (i * mixtureStateMutationLen + 12) = .ok 0

/-- The records of a string are states: their numbers are finite. -/
def CarriesStates (entries : List MixtureStateMutation) (body : Bytes) : Prop :=
  CarriesAll (fun entry r => ∃ reserved, MixtureStateMutation.Carries reserved entry r) entries body

theorem MixtureStateMutation.Carries.reserved {reserved : UInt32} {entry : MixtureStateMutation}
    {r : Bytes} (h : entry.Carries reserved r) (rest : Bytes) :
    readU32 (ε := ProtocolError) (r ++ rest) 12 = .ok reserved := by
  obtain ⟨-, gases, -, rfl⟩ := h
  simp [readU32_skip]

theorem carriesStates_blank {entries : List MixtureStateMutation} {body : Bytes} :
    CarriesStates entries body ∧ ReservedWordsBlank body ↔
      CarriesAll (MixtureStateMutation.Carries 0) entries body := by
  induction entries generalizing body with
  | nil =>
    constructor
    · exact fun h => h.1
    · intro h
      have hbody : body = [] := h
      subst hbody
      exact ⟨rfl, fun i hi => absurd hi (by simp [mixtureStateMutationLen])⟩
  | cons entry rest ih =>
    constructor
    · rintro ⟨⟨r, more, rfl, ⟨reserved, hr⟩, hmore⟩, hblank⟩
      have hlength := hr.length
      have hfirst := hblank 0 (by rw [List.length_append, hlength]; omega)
      rw [Nat.zero_mul, Nat.zero_add, hr.reserved more, Except.ok.injEq] at hfirst
      subst hfirst
      refine ⟨r, more, rfl, hr, ih.1 ⟨hmore, fun i hi => ?_⟩⟩
      have hnext := hblank (i + 1) (by rw [List.length_append, hlength, Nat.succ_mul]; omega)
      rwa [readU32_skip more (by rw [hlength, Nat.succ_mul]; omega), hlength, Nat.succ_mul,
        Nat.add_right_comm, Nat.add_sub_cancel] at hnext
    · rintro ⟨r, more, rfl, hr, hmore⟩
      obtain ⟨hstates, hblank⟩ := ih.2 hmore
      have hlength := hr.length
      refine ⟨⟨r, more, rfl, ⟨0, hr⟩, hstates⟩, fun i hi => ?_⟩
      cases i with
      | zero =>
        rw [Nat.zero_mul, Nat.zero_add]
        exact hr.reserved more
      | succ i =>
        rw [List.length_append, hlength, Nat.succ_mul] at hi
        rw [readU32_skip more (by rw [hlength, Nat.succ_mul]; omega), hlength, Nat.succ_mul,
          Nat.add_right_comm, Nat.add_sub_cancel]
        exact hblank i (by omega)

/-! ## A part of an upload and the direct batch of its records -/

section Upload

variable {usizeBits : Nat} {uploadId : UInt64} {offset count maximum : UInt32} {body : Bytes}
  {entries : List MixtureStateMutation}

/-- A part of an upload. -/
def uploadPart (uploadId : UInt64) (offset count : UInt32) (body : Bytes) : Bytes :=
  le64 uploadId ++ (le32 offset ++ (le32 count ++ body))

theorem uploadPart_eq_ok (hid : uploadId ≠ 0) (hcount : count ≠ 0)
    (hbits : (uploadPart uploadId offset count body).length < 2 ^ usizeBits) :
    MixtureStateUploadAppendRequest.decode usizeBits (uploadPart uploadId offset count body)
        maximum = .ok ⟨uploadId, offset, entries⟩ ↔
      entries.length = count.toNat ∧ count ≤ maximum ∧ CarriesStates entries body := by
  rw [MixtureStateUploadAppendRequest.decode_eq_ok]
  unfold MixtureStateUploadAppendRequest.Carries uploadPart
  simp only [le64_append_inj, le32_append_inj]
  constructor
  · rintro ⟨⟨-, -, count', body', ⟨-, -, rfl, rfl⟩, hlength, hall⟩, hmaximum, -⟩
    exact ⟨hlength.symm, UInt32.le_iff_toNat_le.2 (hlength ▸ hmaximum), hall⟩
  · rintro ⟨hlength, hmaximum, hall⟩
    refine ⟨⟨hid, ?_, count, body, ⟨trivial, trivial, rfl, rfl⟩, hlength.symm, hall⟩,
      hlength ▸ UInt32.le_iff_toNat_le.1 hmaximum, hbits⟩
    rintro rfl
    exact hcount (UInt32.toNat_inj.1 hlength.symm)

theorem directBatch_eq_ok (hbits : (le32 count ++ body).length < 2 ^ usizeBits) :
    decodeMixtureStateBatch usizeBits (le32 count ++ body) maximum = .ok entries ↔
      entries.length = count.toNat ∧ count ≤ maximum ∧
        CarriesAll (MixtureStateMutation.Carries 0) entries body := by
  constructor
  · intro h
    obtain ⟨hpayload, -⟩ := (mixtureStateBatch usizeBits).canonical h
    obtain ⟨count', body', hbytes, hcount, hall⟩ := hpayload.layout
    rw [le32_append_inj] at hbytes
    obtain ⟨rfl, rfl⟩ := hbytes
    exact ⟨hcount.symm, UInt32.le_iff_toNat_le.2 (hcount ▸ hpayload.bound), hall⟩
  · rintro ⟨hlength, hmaximum, hall⟩
    refine (mixtureStateBatch usizeBits).decode_encode ?_
      (hlength ▸ UInt32.le_iff_toNat_le.1 hmaximum) hbits
    refine encodeCounted_eq_ok.2 ⟨count, body, rfl, hlength.symm, ?_⟩
    exact carriesAll_mono (fun _ _ => MixtureStateMutation.encode_eq_ok.2) hall

/-- A part of an upload is accepted only as it is encoded, and exactly when the direct batch
accepts its records, with the same states. -/
def UploadAgrees (usizeBits : Nat) (uploadId : UInt64) (offset count maximum : UInt32)
    (body : Bytes) : Prop :=
  (∀ entries, MixtureStateUploadAppendRequest.decode usizeBits
      (uploadPart uploadId offset count body) maximum = .ok ⟨uploadId, offset, entries⟩ →
    (MixtureStateUploadAppendRequest.encode ⟨uploadId, offset, entries⟩ =
      .ok (uploadPart uploadId offset count body)) ∧ ReservedWordsBlank body) ∧
  ∀ entries, MixtureStateUploadAppendRequest.decode usizeBits
      (uploadPart uploadId offset count body) maximum = .ok ⟨uploadId, offset, entries⟩ ↔
    decodeMixtureStateBatch usizeBits (le32 count ++ body) maximum = .ok entries

theorem uploadAppend_agrees_iff (hid : uploadId ≠ 0) (hcount : count ≠ 0)
    (hbits : (uploadPart uploadId offset count body).length < 2 ^ usizeBits) :
    UploadAgrees usizeBits uploadId offset count maximum body ↔
      (count ≤ maximum → (∃ entries, entries.length = count.toNat ∧ CarriesStates entries body) →
        ReservedWordsBlank body) := by
  have hdirect : (le32 count ++ body).length < 2 ^ usizeBits := by
    unfold uploadPart at hbits
    simp only [List.length_append] at hbits ⊢
    omega
  unfold UploadAgrees
  simp only [uploadPart_eq_ok hid hcount hbits, directBatch_eq_ok hdirect, ← carriesStates_blank]
  constructor
  · rintro ⟨hcanonical, -⟩ hmaximum ⟨entries, hlength, hstates⟩
    exact (hcanonical entries ⟨hlength, hmaximum, hstates⟩).2
  · intro hblank
    refine ⟨?_, fun entries => ?_⟩
    · rintro entries ⟨hlength, hmaximum, hstates⟩
      have hwords := hblank hmaximum ⟨entries, hlength, hstates⟩
      refine ⟨MixtureStateUploadAppendRequest.encode_eq_ok.2 ⟨hid, ?_, count, body, rfl,
        hlength.symm, carriesStates_blank.1 ⟨hstates, hwords⟩⟩, hwords⟩
      rintro rfl
      exact hcount (UInt32.toNat_inj.1 hlength.symm)
    · constructor
      · rintro ⟨hlength, hmaximum, hstates⟩
        exact ⟨hlength, hmaximum, hstates, hblank hmaximum ⟨entries, hlength, hstates⟩⟩
      · rintro ⟨hlength, hmaximum, hstates, -⟩
        exact ⟨hlength, hmaximum, hstates⟩

end Upload

/-! ## What the formats promise -/

theorem adjustMultiple_length {handle : WireHandle} {adjustments : List MixtureAdjustment}
    {input : Bytes} (h : encodeAdjustMultipleRequest handle adjustments = .ok input) :
    input.length = 12 + adjustments.length * mixtureAdjustmentLen := by
  obtain ⟨-, count, body, rfl, -, hall⟩ := encodeAdjustMultiple_eq_ok.1 h
  simp only [List.length_append, length_encode_handle, length_le32,
    adjustmentFormat.length_all hall]
  omega

theorem frontierAppend_length {request : FrontierAppendRequest} {input : Bytes}
    (h : request.encode = .ok input) : input.length = 16 + request.handles.length * 8 := by
  unfold FrontierAppendRequest.encode at h
  simp only [bind_eq_ok, pure_eq, encodeAll_handles, Except.ok.injEq] at h
  obtain ⟨_, -, body, hall, rfl⟩ := h
  simp only [List.length_append, length_le64, length_le32, handleFormat.length_all hall]
  omega

theorem frontierMutate_length {request : FrontierMutateRequest} {input : Bytes}
    (h : request.encode = .ok input) : input.length = 12 + request.handles.length * 8 := by
  unfold FrontierMutateRequest.encode at h
  simp only [bind_eq_ok, pure_eq, encodeAll_handles, Except.ok.injEq] at h
  obtain ⟨_, -, body, hall, rfl⟩ := h
  simp only [List.length_append, length_le64, length_le32, handleFormat.length_all hall]
  omega

theorem uploadAppend_decode_encode {usizeBits : Nat} {request : MixtureStateUploadAppendRequest}
    {bs : Bytes} {maximum : UInt32} (h : request.encode = .ok bs)
    (hbound : request.mutations.length ≤ maximum.toNat) (hbits : bs.length < 2 ^ usizeBits) :
    MixtureStateUploadAppendRequest.decode usizeBits bs maximum = .ok request := by
  obtain ⟨hid, hempty, count, body, hbytes, hcount, hall⟩ :=
    MixtureStateUploadAppendRequest.encode_eq_ok.1 h
  exact MixtureStateUploadAppendRequest.decode_eq_ok.2 ⟨⟨hid, hempty, count, body, hbytes, hcount,
    carriesAll_mono (fun _ _ hr => ⟨0, hr⟩) hall⟩, hbound, hbits⟩

/-- What the formats promise whatever the input: what was encoded is decoded again, and what is
accepted is canonical (a part of an upload promises the first half only). -/
structure CountedFormats (usizeBits : Nat) : Prop where
  lifecycle : BatchFormat usizeBits lifecycleMutationLen
    (fun entry r => LifecycleMutation.encode entry = .ok r) encodeLifecycleBatch
    (decodeLifecycleBatch usizeBits)
  turfLifecycle : BatchFormat usizeBits turfLifecycleMutationLen
    (fun entry r => TurfLifecycleMutation.encode entry = .ok r) encodeTurfLifecycleBatch
    (decodeTurfLifecycleBatch usizeBits)
  adjacency : BatchFormat usizeBits adjacencyMutationLen
    (fun entry r => AdjacencyMutation.encode entry = .ok r) encodeAdjacencyBatch
    (decodeAdjacencyBatch usizeBits)
  turfAdjacency : BatchFormat usizeBits turfAdjacencyMutationLen
    (fun entry r => TurfAdjacencyMutation.encode entry = .ok r) encodeTurfAdjacencyBatch
    (decodeTurfAdjacencyBatch usizeBits)
  turfHeat : BatchFormat usizeBits turfHeatMutationLen TurfHeatMutation.Carries
    encodeTurfHeatBatch (decodeTurfHeatBatch usizeBits)
  turfHeatAdjacency : BatchFormat usizeBits turfHeatAdjacencyMutationLen
    (fun entry r => TurfHeatAdjacencyMutation.encode entry = .ok r) encodeTurfHeatAdjacencyBatch
    (decodeTurfHeatAdjacencyBatch usizeBits)
  mixtureState : BatchFormat usizeBits mixtureStateMutationLen (MixtureStateMutation.Carries 0)
    encodeMixtureStateBatch (decodeMixtureStateBatch usizeBits)
  reconcileRequest : BatchFormat usizeBits 8 (fun handle r => r = WireHandle.encode handle)
    encodePipenetReconcileRequest (decodePipenetReconcileRequest usizeBits)
  snapshotRequest : ∀ (input : Bytes) (maximum : UInt32) (buffer handles : List WireHandle),
    decodeMixtureSnapshotBatchRequestInto usizeBits input maximum buffer = (.ok (), handles) ↔
      decodePipenetReconcileRequest usizeBits input maximum = .ok handles
  reconcileResponse : ∀ (input : Bytes) (maximum : UInt32) (entries : List PipenetReconcileSnapshot),
    decodePipenetReconcileResponse usizeBits input maximum = .ok entries →
      encodePipenetReconcileResponse entries = .ok input ∧ entries.length ≤ maximum.toNat ∧
        input.length = 4 + entries.length * pipenetReconcileSnapshotLen
  snapshotResponse : ∀ (input : Bytes) (maximum : UInt32)
    (buffer entries : List PipenetReconcileSnapshot),
    decodeMixtureSnapshotBatchResponseInto usizeBits input maximum buffer = (.ok (), entries) ↔
      decodePipenetReconcileResponse usizeBits input maximum = .ok entries
  uploadAppend : ∀ (request : MixtureStateUploadAppendRequest) (bs : Bytes) (maximum : UInt32),
    request.encode = .ok bs → request.mutations.length ≤ maximum.toNat →
      bs.length < 2 ^ usizeBits →
        MixtureStateUploadAppendRequest.decode usizeBits bs maximum = .ok request
  adjustMultiple : ∀ (input : Bytes) (handle : WireHandle) (adjustments : List MixtureAdjustment),
    (decodeAdjustMultipleRequest usizeBits input = .ok (handle, adjustments) ↔
      encodeAdjustMultipleRequest handle adjustments = .ok input ∧ input.length < 2 ^ usizeBits) ∧
    (encodeAdjustMultipleRequest handle adjustments = .ok input →
      input.length = 12 + adjustments.length * mixtureAdjustmentLen)
  frontierAppend : ∀ (input : Bytes) (buffer handles : List WireHandle)
    (header : FrontierAppendHeader),
    (decodeFrontierAppendInto input buffer = (.ok header, handles) ↔
      FrontierAppendRequest.encode ⟨header.epoch, header.offset, handles⟩ = .ok input ∧
        header.count.toNat = handles.length) ∧
    (FrontierAppendRequest.encode ⟨header.epoch, header.offset, handles⟩ = .ok input →
      input.length = 16 + handles.length * 8)
  frontierMutate : ∀ (input : Bytes) (buffer handles : List WireHandle)
    (header : FrontierMutateHeader),
    (decodeFrontierMutateInto input buffer = (.ok header, handles) ↔
      FrontierMutateRequest.encode ⟨header.epoch, handles⟩ = .ok input ∧
        header.count.toNat = handles.length) ∧
    (FrontierMutateRequest.encode ⟨header.epoch, handles⟩ = .ok input →
      input.length = 12 + handles.length * 8)

theorem countedFormats (usizeBits : Nat) : CountedFormats usizeBits where
  lifecycle := lifecycleBatch usizeBits
  turfLifecycle := turfLifecycleBatch usizeBits
  adjacency := adjacencyBatch usizeBits
  turfAdjacency := turfAdjacencyBatch usizeBits
  turfHeat := turfHeatBatch usizeBits
  turfHeatAdjacency := turfHeatAdjacencyBatch usizeBits
  mixtureState := mixtureStateBatch usizeBits
  reconcileRequest := pipenetReconcileRequest usizeBits
  snapshotRequest := fun _ _ _ _ => snapshotRequest_into
  reconcileResponse := fun _ _ _ h => reconcileResponse_canonical h
  snapshotResponse := fun _ _ _ _ => snapshotResponse_into
  uploadAppend := fun _ _ _ => uploadAppend_decode_encode
  adjustMultiple := fun _ _ _ => ⟨decodeAdjustMultiple_eq_ok, adjustMultiple_length⟩
  frontierAppend := fun _ _ _ _ => ⟨frontierAppend_eq_ok, frontierAppend_length⟩
  frontierMutate := fun _ _ _ _ => ⟨frontierMutate_eq_ok, frontierMutate_length⟩

/-- A response comes back as it was exactly when its numbers are those of the narrow format. -/
theorem reconcileResponse_round_trip_iff {usizeBits : Nat} {entries : List PipenetReconcileSnapshot}
    {bs : Bytes} {maximum : UInt32} (h : encodePipenetReconcileResponse entries = .ok bs)
    (hbound : entries.length ≤ maximum.toNat) (hbits : bs.length < 2 ^ usizeBits) :
    decodePipenetReconcileResponse usizeBits bs maximum = .ok entries ↔
      ∀ entry ∈ entries, entry.compact = entry := by
  rw [reconcileResponse_decode_encode h hbound hbits, Except.ok.injEq]
  have hmap : entries.map PipenetReconcileSnapshot.compact = entries ↔
      entries.map PipenetReconcileSnapshot.compact = entries.map id := by rw [List.map_id]
  rw [hmap, List.map_inj_left]
  rfl

/-- **Batches are canonical, save for the reserved words of an upload.**  The formats undo each
other; a response of snapshots comes back if its numbers are narrow; and a part of an upload is
read like the direct batch of its records if and only if its states have blank reserved words. -/
theorem counted_batches_canonical_iff (usizeBits : Nat) :
    CountedFormats usizeBits ∧
    (∀ (entries : List PipenetReconcileSnapshot) (bs : Bytes) (maximum : UInt32),
      encodePipenetReconcileResponse entries = .ok bs → entries.length ≤ maximum.toNat →
      bs.length < 2 ^ usizeBits →
      (decodePipenetReconcileResponse usizeBits bs maximum = .ok entries ↔
        ∀ entry ∈ entries, entry.compact = entry)) ∧
    ∀ (uploadId : UInt64) (offset count maximum : UInt32) (body : Bytes),
      uploadId ≠ 0 → count ≠ 0 → (uploadPart uploadId offset count body).length < 2 ^ usizeBits →
      (UploadAgrees usizeBits uploadId offset count maximum body ↔
        (count ≤ maximum → (∃ entries, entries.length = count.toNat ∧ CarriesStates entries body) →
          ReservedWordsBlank body)) :=
  ⟨countedFormats usizeBits, fun _ _ _ h hbound hbits => reconcileResponse_round_trip_iff h hbound hbits,
    fun _ _ _ _ _ hid hcount hbits => uploadAppend_agrees_iff hid hcount hbits⟩

/-- A state whose reserved word is one. -/
def strayState : Bytes := put (zeros mixtureStateMutationLen) 12 (le32 1)

/-- The state with a reserved word is a part of an upload, and no direct batch. -/
theorem upload_ignores_reserved_word :
    (∃ entries : List MixtureStateMutation,
      MixtureStateUploadAppendRequest.decode 64 (uploadPart 1 0 1 strayState) 1 =
        .ok ⟨1, 0, entries⟩ ∧
      MixtureStateUploadAppendRequest.encode ⟨1, 0, entries⟩ ≠ .ok (uploadPart 1 0 1 strayState)) ∧
    decodeMixtureStateBatch 64 (le32 1 ++ strayState) 1 =
      .error (.rejects (.reservedMixtureStateField 1)) := by
  refine ⟨⟨[⟨⟨0, 0⟩, 0, .zero, .zero, Vector.replicate wireGasSlots .zero⟩], ?_, ?_⟩, ?_⟩
  · decide +kernel
  · decide +kernel
  · decide +kernel

end Dogmos.Wire
