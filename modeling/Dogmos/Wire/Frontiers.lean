import Dogmos.Wire.Snapshots

/-!
# Decoders into a buffer

The decoders of frontier payloads and of batched snapshots write into a buffer of their
caller.  On the side of the service all checks come before the buffer is cleared, so an
error leaves it as it was (`refill_error`).

* `frontierAppend_decode_encode`, `frontierAppend_canonical` — a part of a frontier is its
  bytes; the handles are distinct on both sides (`uniqueHandles_eq_ok`).
* `snapshotRequest_into` — a snapshot request is read like a reconcile request.
* `decodeMixtureSnapshotBatchResponseInto` — the one decoder of a client; it clears first.
-/

namespace Dogmos.Wire

open Bytes

/-! ## Filling a buffer -/

/-- What a decoder returns and the buffer it leaves. -/
abbrev Into (β α : Type) := List β → Decoded α × List β

section Fill

variable {α β γ : Type}

/-- The loop that pushes records. -/
def fill (record : Nat → Decoded β) : Nat → Nat → Into β Unit
  | _, 0, buffer => (.ok (), buffer)
  | index, count + 1, buffer =>
    match record index with
    | .ok a => fill record (index + 1) count (buffer ++ [a])
    | .error fault => (.error fault, buffer)

/-- Checks, a cleared buffer, records, and a header. -/
def refill (checks : Decoded γ) (count : γ → Nat) (record : γ → Nat → Decoded β)
    (header : γ → Decoded α) : Into β α := fun buffer =>
  match checks with
  | .error fault => (.error fault, buffer)
  | .ok c =>
    match fill (record c) 0 (count c) [] with
    | (.error fault, buffer) => (.error fault, buffer)
    | (.ok (), buffer) => (header c, buffer)

theorem fill_eq_ok {record : Nat → Decoded β} {index count : Nat} {out buffer : List β} {u : Unit} :
    fill record index count buffer = (.ok u, out) ↔
      ∃ as, records record index count = .ok as ∧ out = buffer ++ as := by
  induction count generalizing index buffer with
  | zero => simp [fill, records, eq_comm]
  | succ count ih =>
    unfold fill records
    rcases ha : record index with fault | a
    · simp [bind, Except.bind]
    · simp only [ih, bind_ok, bind_eq_ok, pure_eq, Except.ok.injEq, List.append_assoc,
        List.singleton_append]
      constructor
      · rintro ⟨rest, hrest, rfl⟩
        exact ⟨a :: rest, ⟨rest, hrest, rfl⟩, rfl⟩
      · rintro ⟨_, ⟨rest, hrest, rfl⟩, rfl⟩
        exact ⟨rest, hrest, rfl⟩

variable {checks : Decoded γ} {count : γ → Nat} {record : γ → Nat → Decoded β}
  {header : γ → Decoded α} {buffer : List β}

theorem refill_ok {c : γ} {as : List β} (hchecks : checks = .ok c)
    (h : records (record c) 0 (count c) = .ok as) :
    refill checks count record header buffer = (header c, as) := by
  unfold refill
  rw [hchecks]
  have hfill : fill (record c) 0 (count c) [] = (.ok (), as) := fill_eq_ok.2 ⟨as, h, rfl⟩
  simp [hfill]

/-- A decoder into a buffer goes through the checks, the records and the header. -/
theorem refill_eq_ok {a : α} {as : List β} :
    refill checks count record header buffer = (.ok a, as) ↔
      ∃ c, checks = .ok c ∧ records (record c) 0 (count c) = .ok as ∧ header c = .ok a := by
  constructor
  · intro h
    unfold refill at h
    rcases hchecks : checks with fault | c
    · simp only [hchecks] at h
      cases h
    · simp only [hchecks] at h
      rcases hfill : fill (record c) 0 (count c) [] with ⟨fault | u, out⟩
      · simp only [hfill] at h
        cases h
      · obtain ⟨as', has', rfl⟩ := fill_eq_ok.1 hfill
        simp only [hfill, Prod.mk.injEq] at h
        obtain ⟨hheader, rfl⟩ := h
        exact ⟨c, rfl, has', hheader⟩
  · rintro ⟨c, hchecks, has, hheader⟩
    rw [refill_ok hchecks has, hheader]

/-- Where the checks make sure that the rest goes through, an error is one of the checks and
leaves the buffer. -/
theorem refill_error {fault : Fault ProtocolError}
    (hpasses : ∀ c, checks = .ok c →
      (∃ as, records (record c) 0 (count c) = .ok as) ∧ ∃ a, header c = .ok a)
    (h : (refill checks count record header buffer).1 = .error fault) :
    checks = .error fault ∧ (refill checks count record header buffer).2 = buffer := by
  rcases hchecks : checks with error | c
  · simp only [refill, hchecks] at h
    cases h
    exact ⟨rfl, rfl⟩
  · obtain ⟨⟨as, has⟩, a, ha⟩ := hpasses c hchecks
    rw [refill_ok hchecks has, ha] at h
    cases h

end Fill

/-! ## Frontier payloads -/

def maxFrontierAppendHandles : Nat := 512

def frontierAppendHeaderLen : Nat := 16

def frontierMutateHeaderLen : Nat := 12

/-- `validate_frontier_handles`. -/
def validateFrontierHandles (handles : List WireHandle) : Except ProtocolError Unit := do
  let count := UInt32.ofNat (min handles.length (2 ^ 32 - 1))
  failIf (handles = [] ∨ maxFrontierAppendHandles < handles.length)
    (.invalidFrontierAppendCount count)
  checkUnique id (fun handle => .duplicateFrontierHandle handle) [] handles

/-- `FrontierAppendRequest`. -/
structure FrontierAppendRequest where
  epoch : UInt64
  offset : UInt32
  handles : List WireHandle
deriving DecidableEq

/-- `FrontierAppendRequest::encode`. -/
def FrontierAppendRequest.encode (request : FrontierAppendRequest) : Encoded := do
  validateFrontierHandles request.handles
  let count := UInt32.ofNat request.handles.length
  let body ← encodeAll (fun handle => pure handle.encode) request.handles
  pure (le64 request.epoch ++ (le32 request.offset ++ (le32 count ++ body)))

/-- `FrontierAppendHeader`. -/
structure FrontierAppendHeader where
  epoch : UInt64
  offset : UInt32
  count : UInt32
deriving DecidableEq

/-- `FrontierMutateRequest`. -/
structure FrontierMutateRequest where
  epoch : UInt64
  handles : List WireHandle
deriving DecidableEq

/-- `FrontierMutateRequest::encode`. -/
def FrontierMutateRequest.encode (request : FrontierMutateRequest) : Encoded := do
  validateFrontierHandles request.handles
  let count := UInt32.ofNat request.handles.length
  let body ← encodeAll (fun handle => pure handle.encode) request.handles
  pure (le64 request.epoch ++ (le32 count ++ body))

/-- `FrontierMutateHeader`. -/
structure FrontierMutateHeader where
  epoch : UInt64
  count : UInt32
deriving DecidableEq

/-- The checks of one handle against those before it. -/
def uniqueHandle (input : Bytes) (headerLen index : Nat) : Decoded Unit := do
  let handle ← readHandle input (headerLen + index * 8)
  checkRecords (fun previousIndex => do
    let previous ← readHandle input (headerLen + previousIndex * 8)
    rejectIf (handle = previous) (.duplicateFrontierHandle handle)) 0 index

/-- The checks of a frontier payload with its count at an offset of a header. -/
def frontierChecks (headerLen countOffset : Nat) (input : Bytes) : Decoded UInt32 := do
  rejectIf (input.length < headerLen)
    (.invalidPayloadLength (UInt32.ofNat headerLen) (UInt32.ofNat input.length))
  let count ← readU32 input countOffset
  rejectIf (count = 0 ∨ maxFrontierAppendHandles < count.toNat) (.invalidFrontierAppendCount count)
  -- at most 512 handles: the sum fits every target
  requireExactLen input (headerLen + count.toNat * 8)
  checkRecords (uniqueHandle input headerLen) 0 count.toNat
  pure count

/-- The header of a part of a frontier. -/
def readAppendHeader (input : Bytes) (count : UInt32) : Decoded FrontierAppendHeader := do
  pure ⟨← readU64 input 0, ← readU32 input 8, count⟩

/-- `decode_frontier_append_into`. -/
def decodeFrontierAppendInto (input : Bytes) : Into WireHandle FrontierAppendHeader :=
  refill (frontierChecks frontierAppendHeaderLen 12 input) UInt32.toNat
    (fun _ index => readHandle input (frontierAppendHeaderLen + index * 8)) (readAppendHeader input)

/-- The header of a change of a frontier. -/
def readMutateHeader (input : Bytes) (count : UInt32) : Decoded FrontierMutateHeader := do
  pure ⟨← readU64 input 0, count⟩

/-- `decode_frontier_mutate_into`. -/
def decodeFrontierMutateInto (input : Bytes) : Into WireHandle FrontierMutateHeader :=
  refill (frontierChecks frontierMutateHeaderLen 8 input) UInt32.toNat
    (fun _ index => readHandle input (frontierMutateHeaderLen + index * 8)) (readMutateHeader input)

/-! ## Snapshot batches -/

/-- `decode_mixture_snapshot_batch_request_into`. -/
def decodeMixtureSnapshotBatchRequestInto (usizeBits : Nat) (input : Bytes) (maximum : UInt32) :
    Into WireHandle Unit :=
  refill (validateCountedPayload usizeBits input 8 maximum) UInt32.toNat
    (fun _ index => readHandle input (4 + index * 8)) fun _ => .ok ()

/-- `decode_mixture_snapshot_batch_response_into`. -/
def decodeMixtureSnapshotBatchResponseInto (usizeBits : Nat) (input : Bytes) (maximum : UInt32) :
    Into PipenetReconcileSnapshot Unit :=
  refill (validateCountedPayload usizeBits input pipenetReconcileSnapshotLen maximum)
    (fun _ => (input.length - 4) / pipenetReconcileSnapshotLen)
    (fun _ index => snapshotRecord input (4 + index * pipenetReconcileSnapshotLen)) fun _ => .ok ()

/-! ## Handles behind a header -/

section Handles

variable {front body input : Bytes} {headerLen count : Nat} {handles : List WireHandle}

theorem exists_handles (h : body.length = count * 8) :
    ∃ handles : List WireHandle,
      CarriesAll (fun handle bs => bs = WireHandle.encode handle) handles body ∧
        handles.length = count := by
  induction count generalizing body with
  | zero => exact ⟨[], List.eq_nil_of_length_eq_zero (by omega), rfl⟩
  | succ count ih =>
    obtain ⟨handle, rest, rfl, hrest⟩ := exists_handle_append (show 8 ≤ body.length by omega)
    obtain ⟨handles, hall, hlength⟩ := ih (show rest.length = count * 8 by omega)
    exact ⟨handle :: handles, ⟨_, rest, rfl, rfl, hall⟩, congrArg (· + 1) hlength⟩

theorem readHandles_eq_ok (hfront : front.length = headerLen) (hbody : body.length = count * 8) :
    records (fun index => readHandle (front ++ body) (headerLen + index * 8)) 0 count =
        .ok handles ↔
      CarriesAll (fun handle bs => bs = WireHandle.encode handle) handles body ∧
        handles.length = count := by
  subst hfront
  exact handleFormat.records_all front hbody

/-- The checks of the handles say that they are distinct. -/
theorem uniqueHandles_eq_ok
    (h : records (fun index => readHandle input (headerLen + index * 8)) 0 count = .ok handles) :
    checkRecords (uniqueHandle input headerLen) 0 count = .ok () ↔ handles.Nodup := by
  obtain ⟨hlength, hread⟩ := records_eq_ok.1 h
  rw [checkRecords_eq_ok, List.Nodup, List.pairwise_iff_getElem]
  have hone : ∀ i (hi : i < handles.length), uniqueHandle input headerLen (0 + i) = .ok () ↔
      ∀ j (hj : j < i), handles[i] ≠ handles[j] := by
    intro i hi
    unfold uniqueHandle
    simp only [hread i hi, bind_ok, checkRecords_eq_ok]
    constructor
    · intro hall j hj
      have hj' := hall j (by omega)
      rw [hread j (by omega), bind_ok, rejectIf_eq_ok] at hj'
      exact hj'
    · intro hall j hj
      rw [hread j (by omega), bind_ok, rejectIf_eq_ok]
      exact hall j (by omega)
  constructor
  · intro hall i j hi hj hij heq
    exact (hone j hj).1 (hall j (hlength ▸ hj)) i hij heq.symm
  · intro hall i hi
    have hi : i < handles.length := hlength ▸ hi
    exact (hone i hi).2 fun j hj heq => hall j i (by omega) hi hj heq.symm

theorem frontierChecks_eq_ok {countOffset : Nat} {n : UInt32} :
    frontierChecks headerLen countOffset input = .ok n ↔
      readU32 (ε := ProtocolError) input countOffset = .ok n ∧
        ∃ (front body : Bytes) (handles : List WireHandle), input = front ++ body ∧
          front.length = headerLen ∧
          CarriesAll (fun handle bs => bs = WireHandle.encode handle) handles body ∧
          handles.length = n.toNat ∧ handles ≠ [] ∧
          handles.length ≤ maxFrontierAppendHandles ∧ handles.Nodup := by
  unfold frontierChecks
  simp only [bind_eq_ok, rejectIf_eq_ok, not_or, Nat.not_lt, requireExactLen_eq_ok, pure_eq,
    Except.ok.injEq]
  constructor
  · rintro ⟨_, hheader, m, hread, _, ⟨hm, hbound⟩, _, hlength, _, hchecks, rfl⟩
    obtain ⟨front, body, rfl, hfront, hbody⟩ := exists_append hheader
    have hbody : body.length = m.toNat * 8 := by omega
    obtain ⟨handles, hall, hcount⟩ := exists_handles hbody
    have hnodup := (uniqueHandles_eq_ok ((readHandles_eq_ok hfront hbody).2 ⟨hall, hcount⟩)).1 hchecks
    refine ⟨hread, front, body, handles, rfl, hfront, hall, hcount, ?_, by omega, hnodup⟩
    rintro rfl
    exact hm (UInt32.toNat_inj.1 hcount.symm)
  · rintro ⟨hread, front, body, handles, rfl, hfront, hall, hcount, hempty, hbound, hnodup⟩
    have hbody : body.length = n.toNat * 8 := by rw [handleFormat.length_all hall, hcount]
    have hchecks := (uniqueHandles_eq_ok ((readHandles_eq_ok hfront hbody).2 ⟨hall, hcount⟩)).2 hnodup
    have hlength : (front ++ body).length = headerLen + n.toNat * 8 := by
      rw [List.length_append, hfront, hbody]
    refine ⟨(), by omega, n, hread, (), ⟨?_, by omega⟩, (), hlength, (), hchecks, rfl⟩
    rintro rfl
    exact hempty (List.eq_nil_of_length_eq_zero hcount)

/-- After the checks the handles are there. -/
theorem readHandles_of_checks {countOffset : Nat} {n : UInt32}
    (h : frontierChecks headerLen countOffset input = .ok n) :
    ∃ handles, records (fun index => readHandle input (headerLen + index * 8)) 0 n.toNat =
      .ok handles := by
  obtain ⟨-, front, body, handles, rfl, hfront, hall, hcount, -⟩ := frontierChecks_eq_ok.1 h
  have hbody : body.length = n.toNat * 8 := by rw [handleFormat.length_all hall, hcount]
  exact ⟨handles, (readHandles_eq_ok hfront hbody).2 ⟨hall, hcount⟩⟩

theorem validateFrontierHandles_eq_ok {u : Unit} :
    validateFrontierHandles handles = .ok u ↔
      handles ≠ [] ∧ handles.length ≤ maxFrontierAppendHandles ∧ handles.Nodup := by
  unfold validateFrontierHandles
  simp only [bind_eq_ok, failIf_eq_ok, not_or, Nat.not_lt, checkUnique_eq_ok, List.map_id]
  constructor
  · rintro ⟨_, ⟨hempty, hbound⟩, hnodup, -⟩
    exact ⟨hempty, hbound, hnodup⟩
  · rintro ⟨hempty, hbound, hnodup⟩
    exact ⟨(), ⟨hempty, hbound⟩, hnodup, fun _ _ hmem => by cases hmem⟩

theorem encodeAll_handles :
    encodeAll (fun handle => .ok (WireHandle.encode handle)) handles =
        (.ok body : Except ProtocolError Bytes) ↔
      CarriesAll (fun handle bs => bs = WireHandle.encode handle) handles body := by
  rw [encodeAll_eq_ok]
  exact carriesAll_congr fun _ _ => ⟨fun h => (Except.ok.inj h).symm, fun h => by rw [h]⟩

end Handles

/-- A part of a frontier is decoded to the handles it was encoded from, and is accepted in one
spelling only. -/
theorem frontierAppend_eq_ok {input : Bytes} {buffer handles : List WireHandle}
    {header : FrontierAppendHeader} :
    decodeFrontierAppendInto input buffer = (.ok header, handles) ↔
      FrontierAppendRequest.encode ⟨header.epoch, header.offset, handles⟩ = .ok input ∧
        header.count.toNat = handles.length := by
  unfold decodeFrontierAppendInto readAppendHeader FrontierAppendRequest.encode
  rw [refill_eq_ok]
  simp only [bind_eq_ok, validateFrontierHandles_eq_ok, encodeAll_handles, pure_eq, Except.ok.injEq,
    frontierChecks_eq_ok]
  constructor
  · rintro ⟨n, ⟨hcount, front, body, handles', rfl, hfront, hall, hlength, hempty, hbound, hnodup⟩,
      hrecords, epoch, hepoch, offset, hoffset, rfl⟩
    have hbody : body.length = n.toNat * 8 := by rw [handleFormat.length_all hall, hlength]
    obtain rfl : handles' = handles := by
      have hread := (readHandles_eq_ok hfront hbody).2 ⟨hall, hlength⟩
      exact Except.ok.inj (hread.symm.trans hrecords)
    unfold frontierAppendHeaderLen at hfront
    obtain ⟨epoch', front, rfl, h₁⟩ := exists_le64_append (show 8 ≤ front.length by omega)
    obtain ⟨offset', front, rfl, h₂⟩ := exists_le32_append (show 4 ≤ front.length by omega)
    obtain ⟨n', front, rfl, h₃⟩ := exists_le32_append (show 4 ≤ front.length by omega)
    obtain rfl : front = [] := List.eq_nil_of_length_eq_zero (by omega)
    simp only [List.append_nil, List.append_assoc, readU64_block, readU32_skip, readU32_block,
      length_le64, length_le32, Nat.reduceLeDiff, Nat.reduceSub,
      Except.ok.injEq] at hcount hepoch hoffset
    subst hcount hepoch hoffset
    refine ⟨⟨(), ⟨hempty, hbound, hnodup⟩, body, hall, ?_⟩, hlength.symm⟩
    rw [hlength, UInt32.ofNat_toNat]
    simp only [List.append_nil, List.append_assoc]
  · rintro ⟨⟨_, ⟨hempty, hbound, hnodup⟩, body, hall, rfl⟩, hlength⟩
    have hcount : UInt32.ofNat handles.length = header.count := by
      rw [← hlength, UInt32.ofNat_toNat]
    rw [hcount]
    have hbody : body.length = header.count.toNat * 8 := by
      rw [handleFormat.length_all hall, hlength]
    have hfront : (le64 header.epoch ++ (le32 header.offset ++ le32 header.count)).length =
        frontierAppendHeaderLen := by
      simp [frontierAppendHeaderLen]
    have hsplit : le64 header.epoch ++ (le32 header.offset ++ (le32 header.count ++ body)) =
        (le64 header.epoch ++ (le32 header.offset ++ le32 header.count)) ++ body := by
      simp only [List.append_assoc]
    refine ⟨header.count, ⟨by simp [readU32_skip], _, body, handles, hsplit, hfront, hall,
      hlength.symm, hempty, hbound, hnodup⟩, ?_, header.epoch, by simp, header.offset,
      by simp [readU32_skip], rfl⟩
    rw [hsplit]
    exact (readHandles_eq_ok hfront hbody).2 ⟨hall, hlength.symm⟩

/-- The same for what is added to a frontier or removed from it. -/
theorem frontierMutate_eq_ok {input : Bytes} {buffer handles : List WireHandle}
    {header : FrontierMutateHeader} :
    decodeFrontierMutateInto input buffer = (.ok header, handles) ↔
      FrontierMutateRequest.encode ⟨header.epoch, handles⟩ = .ok input ∧
        header.count.toNat = handles.length := by
  unfold decodeFrontierMutateInto readMutateHeader FrontierMutateRequest.encode
  rw [refill_eq_ok]
  simp only [bind_eq_ok, validateFrontierHandles_eq_ok, encodeAll_handles, pure_eq, Except.ok.injEq,
    frontierChecks_eq_ok]
  constructor
  · rintro ⟨n, ⟨hcount, front, body, handles', rfl, hfront, hall, hlength, hempty, hbound, hnodup⟩,
      hrecords, epoch, hepoch, rfl⟩
    have hbody : body.length = n.toNat * 8 := by rw [handleFormat.length_all hall, hlength]
    obtain rfl : handles' = handles := by
      have hread := (readHandles_eq_ok hfront hbody).2 ⟨hall, hlength⟩
      exact Except.ok.inj (hread.symm.trans hrecords)
    unfold frontierMutateHeaderLen at hfront
    obtain ⟨epoch', front, rfl, h₁⟩ := exists_le64_append (show 8 ≤ front.length by omega)
    obtain ⟨n', front, rfl, h₂⟩ := exists_le32_append (show 4 ≤ front.length by omega)
    obtain rfl : front = [] := List.eq_nil_of_length_eq_zero (by omega)
    simp only [List.append_nil, List.append_assoc, readU64_block, readU32_skip, readU32_block,
      length_le64, Nat.reduceLeDiff, Nat.reduceSub, Except.ok.injEq] at hcount hepoch
    subst hcount hepoch
    refine ⟨⟨(), ⟨hempty, hbound, hnodup⟩, body, hall, ?_⟩, hlength.symm⟩
    rw [hlength, UInt32.ofNat_toNat]
    simp only [List.append_nil, List.append_assoc]
  · rintro ⟨⟨_, ⟨hempty, hbound, hnodup⟩, body, hall, rfl⟩, hlength⟩
    have hcount : UInt32.ofNat handles.length = header.count := by
      rw [← hlength, UInt32.ofNat_toNat]
    rw [hcount]
    have hbody : body.length = header.count.toNat * 8 := by
      rw [handleFormat.length_all hall, hlength]
    have hfront : (le64 header.epoch ++ le32 header.count).length = frontierMutateHeaderLen := by
      simp [frontierMutateHeaderLen]
    have hsplit : le64 header.epoch ++ (le32 header.count ++ body) =
        (le64 header.epoch ++ le32 header.count) ++ body := by
      simp only [List.append_assoc]
    refine ⟨header.count, ⟨by simp [readU32_skip], _, body, handles, hsplit, hfront, hall,
      hlength.symm, hempty, hbound, hnodup⟩, ?_, header.epoch, by simp, rfl⟩
    rw [hsplit]
    exact (readHandles_eq_ok hfront hbody).2 ⟨hall, hlength.symm⟩

/-! ## Snapshot batches -/

section Snapshots

variable {usizeBits : Nat} {input : Bytes} {maximum : UInt32}

/-- A snapshot request is read like a reconcile request. -/
theorem snapshotRequest_into {buffer handles : List WireHandle} :
    decodeMixtureSnapshotBatchRequestInto usizeBits input maximum buffer = (.ok (), handles) ↔
      decodePipenetReconcileRequest usizeBits input maximum = .ok handles := by
  unfold decodeMixtureSnapshotBatchRequestInto decodePipenetReconcileRequest decodeCounted
  rw [refill_eq_ok]
  simp only [bind_eq_ok, and_true]

/-- A snapshot response is read like a reconcile response. -/
theorem snapshotResponse_into {buffer entries : List PipenetReconcileSnapshot} :
    decodeMixtureSnapshotBatchResponseInto usizeBits input maximum buffer = (.ok (), entries) ↔
      decodePipenetReconcileResponse usizeBits input maximum = .ok entries := by
  unfold decodeMixtureSnapshotBatchResponseInto decodePipenetReconcileResponse decodeCounted
  rw [refill_eq_ok]
  simp only [bind_eq_ok, and_true]
  refine exists_congr fun count => and_congr_right fun hcount => ?_
  obtain ⟨bs, rfl, hbs, -⟩ := validateCountedPayload_eq_ok.1 hcount
  have hchunks : ((le32 count ++ bs).length - 4) / pipenetReconcileSnapshotLen = count.toNat := by
    rw [List.length_append, length_le32, Nat.add_sub_cancel_left, hbs]
    exact Nat.mul_div_cancel _ (by decide)
  rw [hchunks]

end Snapshots

/-! ## Errors leave the buffer -/

section Errors

variable {usizeBits : Nat} {input : Bytes} {maximum : UInt32} {headerLen countOffset : Nat}
  {buffer : List WireHandle} {fault : Fault ProtocolError}

theorem safe_frontierChecks (h : countOffset + 4 ≤ headerLen) :
    Safe (frontierChecks headerLen countOffset input) := by
  unfold frontierChecks
  refine safe_rejectIf_bind fun hheader => ?_
  refine safe_bind (safe_readU32 (by omega)) fun count _ => safe_rejectIf_bind fun _ => ?_
  refine safe_requireExactLen_bind fun hlength => ?_
  refine safe_bind (safe_checkRecords fun i _ hi => ?_) fun _ _ => safe_ok _
  refine safe_bind (safe_readHandle (by omega)) fun handle _ => ?_
  refine safe_checkRecords fun j _ hj => ?_
  exact safe_bind (safe_readHandle (by omega)) fun previous _ => safe_rejectIf

theorem frontierChecks_length {n : UInt32}
    (h : frontierChecks headerLen countOffset input = .ok n) : headerLen ≤ input.length := by
  obtain ⟨-, front, body, handles, rfl, hfront, -⟩ := frontierChecks_eq_ok.1 h
  rw [List.length_append, hfront]
  exact Nat.le_add_right ..

theorem readAppendHeader_ok {n : UInt32}
    (h : frontierChecks frontierAppendHeaderLen 12 input = .ok n) :
    ∃ header, readAppendHeader input n = .ok header := by
  have hlength := frontierChecks_length h
  unfold frontierAppendHeaderLen at hlength
  obtain ⟨epoch, hepoch⟩ := readU64_ok (ε := ProtocolError) (show 0 + 8 ≤ input.length by omega)
  obtain ⟨offset, hoffset⟩ := readU32_ok (ε := ProtocolError) (show 8 + 4 ≤ input.length by omega)
  exact ⟨⟨epoch, offset, n⟩, bind_eq_ok.2 ⟨epoch, hepoch, bind_eq_ok.2 ⟨offset, hoffset, rfl⟩⟩⟩

theorem readMutateHeader_ok {n : UInt32}
    (h : frontierChecks frontierMutateHeaderLen 8 input = .ok n) :
    ∃ header, readMutateHeader input n = .ok header := by
  have hlength := frontierChecks_length h
  unfold frontierMutateHeaderLen at hlength
  obtain ⟨epoch, hepoch⟩ := readU64_ok (ε := ProtocolError) (show 0 + 8 ≤ input.length by omega)
  exact ⟨⟨epoch, n⟩, bind_eq_ok.2 ⟨epoch, hepoch, rfl⟩⟩

/-- A part of a frontier that is rejected leaves the buffer, and the decoder stays in its
input. -/
theorem frontierAppend_error (h : (decodeFrontierAppendInto input buffer).1 = .error fault) :
    fault ≠ .panic ∧ (decodeFrontierAppendInto input buffer).2 = buffer := by
  obtain ⟨hchecks, hbuffer⟩ :=
    refill_error (fun _ hn => ⟨readHandles_of_checks hn, readAppendHeader_ok hn⟩) h
  refine ⟨?_, hbuffer⟩
  rintro rfl
  exact safe_frontierChecks (by decide) hchecks

/-- The same for what is added to a frontier or removed from it. -/
theorem frontierMutate_error (h : (decodeFrontierMutateInto input buffer).1 = .error fault) :
    fault ≠ .panic ∧ (decodeFrontierMutateInto input buffer).2 = buffer := by
  obtain ⟨hchecks, hbuffer⟩ :=
    refill_error (fun _ hn => ⟨readHandles_of_checks hn, readMutateHeader_ok hn⟩) h
  refine ⟨?_, hbuffer⟩
  rintro rfl
  exact safe_frontierChecks (by decide) hchecks

theorem readHandles_of_count {n : UInt32}
    (h : validateCountedPayload usizeBits input 8 maximum = .ok n) :
    ∃ handles, records (fun index => readHandle input (4 + index * 8)) 0 n.toNat = .ok handles := by
  obtain ⟨bs, rfl, hbs, -⟩ := validateCountedPayload_eq_ok.1 h
  obtain ⟨handles, hall, hcount⟩ := exists_handles hbs
  exact ⟨handles, (readHandles_eq_ok (length_le32 n) hbs).2 ⟨hall, hcount⟩⟩

/-- The same for a snapshot request. -/
theorem snapshotRequest_error
    (h : (decodeMixtureSnapshotBatchRequestInto usizeBits input maximum buffer).1 = .error fault) :
    fault ≠ .panic ∧
      (decodeMixtureSnapshotBatchRequestInto usizeBits input maximum buffer).2 = buffer := by
  obtain ⟨hchecks, hbuffer⟩ := refill_error (fun _ hn => ⟨readHandles_of_count hn, (), rfl⟩) h
  refine ⟨?_, hbuffer⟩
  rintro rfl
  exact safe_validateCountedPayload hchecks

end Errors

end Dogmos.Wire
