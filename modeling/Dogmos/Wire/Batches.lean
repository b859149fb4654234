import Dogmos.Wire.Format

/-!
# Batches of registrations, edges and heat states

Each batch is a count and that many records of one length.  A record is described by
what it carries: the fields in order, the reserved words blank, the numbers finite.

* `lifecycleFormat`, `turfLifecycleFormat`, `adjacencyFormat`, `turfAdjacencyFormat`,
  `turfHeatFormat`, `turfHeatAdjacencyFormat` — a decoder accepts what carries a record.
* `TurfHeatMutation.Carries` — the numbers of an absent heat state are zero, of either
  sign; the one place where a record has more than one spelling.
* `lifecycleBatch` and its siblings — the batches undo what was encoded.
-/

namespace Dogmos.Wire

open Bytes

/-! ## Handles and numbers as records -/

/-- A handle at an offset. -/
def readHandle (input : Bytes) (offset : Nat) : Decoded WireHandle := do
  WireHandle.decode (← slice input offset (offset + 8))

/-- A number at an offset. -/
def readScalar (input : Bytes) (offset : Nat) : Decoded ScalarValue := do
  ScalarValue.decode (← slice input offset (offset + 8))

section Fields

variable {p bs rest input : Bytes} {k offset : Nat}

@[simp] theorem readHandle_block (handle : WireHandle) (rest : Bytes) :
    readHandle (handle.encode ++ rest) 0 = .ok handle := by
  unfold readHandle
  rw [Nat.zero_add, slice_block rest (length_encode_handle handle)]
  exact WireHandle.decode_encode handle

@[simp] theorem readHandle_all (handle : WireHandle) : readHandle handle.encode 0 = .ok handle := by
  simpa using readHandle_block handle []

theorem readHandle_skip (rest : Bytes) (h : p.length ≤ offset) :
    readHandle (p ++ rest) offset = readHandle rest (offset - p.length) := by
  unfold readHandle
  rw [slice_skip rest h (Nat.le_add_right ..), Nat.sub_add_comm h]

theorem readHandle_shift (p rest : Bytes) (h : k + 8 ≤ bs.length) :
    readHandle (p ++ (bs ++ rest)) (p.length + k) = readHandle bs k := by
  unfold readHandle
  rw [Nat.add_assoc, slice_shift p rest (Nat.le_add_right ..) h]

theorem readHandle_shift_zero (p rest : Bytes) (h : 8 ≤ bs.length) :
    readHandle (p ++ (bs ++ rest)) p.length = readHandle bs 0 :=
  readHandle_shift (k := 0) p rest h

theorem safe_readHandle (h : offset + 8 ≤ input.length) : Safe (readHandle input offset) :=
  safe_bind (safe_slice (Nat.le_add_right ..) h) fun _ _ => WireHandle.safe_decode _

theorem readScalar_block {q : Bytes} (rest : Bytes) (h : q.length = 8) :
    readScalar (q ++ rest) 0 = ScalarValue.decode q := by
  unfold readScalar
  rw [Nat.zero_add, slice_block rest h]
  rfl

theorem readScalar_all {q : Bytes} (h : q.length = 8) : readScalar q 0 = ScalarValue.decode q := by
  unfold readScalar
  rw [Nat.zero_add, slice_all h]
  rfl

theorem readScalar_skip (rest : Bytes) (h : p.length ≤ offset) :
    readScalar (p ++ rest) offset = readScalar rest (offset - p.length) := by
  unfold readScalar
  rw [slice_skip rest h (Nat.le_add_right ..), Nat.sub_add_comm h]

theorem readScalar_shift (p rest : Bytes) (h : k + 8 ≤ bs.length) :
    readScalar (p ++ (bs ++ rest)) (p.length + k) = readScalar bs k := by
  unfold readScalar
  rw [Nat.add_assoc, slice_shift p rest (Nat.le_add_right ..) h]

theorem safe_readScalar (h : offset + 8 ≤ input.length) : Safe (readScalar input offset) :=
  safe_bind (safe_slice (Nat.le_add_right ..) h) fun _ _ => ScalarValue.safe_decode _

theorem handleFormat : RecordFormat 8 (fun handle bs => bs = WireHandle.encode handle) readHandle where
  length := by
    rintro handle _ rfl
    exact length_encode_handle handle
  decode_iff := by
    intro handle bs h
    unfold readHandle
    rw [Nat.zero_add, slice_all h]
    exact WireHandle.decode_eq_ok h
  shift := by
    intro bs p rest h
    exact readHandle_shift_zero p rest (Nat.le_of_eq h.symm)

end Fields

/-! ## Lifecycle of mixtures and turfs -/

/-- `LifecycleAction`. -/
inductive LifecycleAction where
  | register
  | unregister
deriving DecidableEq

namespace LifecycleAction

/-- `action as u32`. -/
def toU32 : LifecycleAction → UInt32
  | .register => 1
  | .unregister => 2

/-- `LifecycleAction::try_from`. -/
def tryFrom (value : UInt32) : Except ProtocolError LifecycleAction :=
  if value = 1 then .ok .register
  else if value = 2 then .ok .unregister
  else .error (.unknownLifecycleAction value)

theorem tryFrom_eq_ok {value : UInt32} {action : LifecycleAction} :
    tryFrom value = .ok action ↔ value = action.toU32 := by
  unfold tryFrom toU32
  split
  · subst value
    cases action <;> simp
  split
  · subst value
    cases action <;> simp
  · cases action <;> simp [*]

end LifecycleAction

def lifecycleMutationLen : Nat := 12

/-- `LifecycleMutation`. -/
structure LifecycleMutation where
  action : LifecycleAction
  handle : WireHandle
deriving DecidableEq

def LifecycleMutation.encode (entry : LifecycleMutation) : Encoded :=
  pure (le32 entry.action.toU32 ++ entry.handle.encode)

/-- `encode_lifecycle_batch`. -/
def encodeLifecycleBatch (entries : List LifecycleMutation) : Encoded :=
  encodeCounted LifecycleMutation.encode entries

def lifecycleRecord (input : Bytes) (offset : Nat) : Decoded LifecycleMutation := do
  let action ← lift (LifecycleAction.tryFrom (← readU32 input offset))
  pure ⟨action, ← readHandle input (offset + 4)⟩

def lifecycleCheck (input : Bytes) (offset : Nat) : Decoded Unit := do
  let _ ← lift (LifecycleAction.tryFrom (← readU32 input offset))
  let _ ← readHandle input (offset + 4)
  pure ()

/-- `validate_lifecycle_batch`. -/
def validateLifecycleBatch (usizeBits : Nat) (input : Bytes) (maximum : UInt32) :
    Decoded UInt32 :=
  validateCounted usizeBits lifecycleMutationLen lifecycleCheck input maximum

/-- `decode_lifecycle_batch`. -/
def decodeLifecycleBatch (usizeBits : Nat) (input : Bytes) (maximum : UInt32) :
    Decoded (List LifecycleMutation) := do
  let count ← validateLifecycleBatch usizeBits input maximum
  records (fun index => lifecycleRecord input (4 + index * lifecycleMutationLen)) 0 count.toNat

def turfLifecycleMutationLen : Nat := 24

/-- `TurfLifecycleMutation`. -/
structure TurfLifecycleMutation where
  action : LifecycleAction
  turf : WireHandle
  mixture : Option WireHandle
deriving DecidableEq

def TurfLifecycleMutation.encode (entry : TurfLifecycleMutation) : Encoded := do
  failIf (entry.action = .unregister ∧ entry.mixture.isSome) .unexpectedUnregisterMixture
  pure (le32 entry.action.toU32 ++ (entry.turf.encode ++ (le32 (boolWord entry.mixture.isSome) ++
    (entry.mixture.getD .blank).encode)))

/-- `encode_turf_lifecycle_batch`. -/
def encodeTurfLifecycleBatch (entries : List TurfLifecycleMutation) : Encoded :=
  encodeCounted TurfLifecycleMutation.encode entries

def turfLifecycleRecord (input : Bytes) (offset : Nat) : Decoded TurfLifecycleMutation := do
  let action ← lift (LifecycleAction.tryFrom (← readU32 input offset))
  let turf ← readHandle input (offset + 4)
  let present ← lift (decodeBoolean (← readU32 input (offset + 12)))
  let mixture ← readHandle input (offset + 16)
  rejectIf (present = false ∧ mixture ≠ .blank) .nonZeroAbsentHandle
  rejectIf (action = .unregister ∧ present) .unexpectedUnregisterMixture
  pure ⟨action, turf, if present then some mixture else none⟩

/-- `decode_turf_lifecycle_batch`. -/
def decodeTurfLifecycleBatch (usizeBits : Nat) (input : Bytes) (maximum : UInt32) :
    Decoded (List TurfLifecycleMutation) :=
  decodeCounted usizeBits turfLifecycleMutationLen turfLifecycleRecord input maximum

/-! ## Edges -/

def adjacencyMutationLen : Nat := 24

/-- `AdjacencyMutation`. -/
structure AdjacencyMutation where
  left : WireHandle
  right : WireHandle
  conductivity : ScalarValue
deriving DecidableEq

def AdjacencyMutation.encode (entry : AdjacencyMutation) : Encoded := do
  pure (entry.left.encode ++ (entry.right.encode ++ (← entry.conductivity.encode)))

/-- `encode_adjacency_batch`. -/
def encodeAdjacencyBatch (entries : List AdjacencyMutation) : Encoded :=
  encodeCounted AdjacencyMutation.encode entries

def adjacencyRecord (input : Bytes) (offset : Nat) : Decoded AdjacencyMutation := do
  pure ⟨← readHandle input offset, ← readHandle input (offset + 8), ← readScalar input (offset + 16)⟩

def adjacencyCheck (input : Bytes) (offset : Nat) : Decoded Unit := do
  let _ ← readHandle input offset
  let _ ← readHandle input (offset + 8)
  let _ ← readScalar input (offset + 16)
  pure ()

/-- `validate_adjacency_batch`. -/
def validateAdjacencyBatch (usizeBits : Nat) (input : Bytes) (maximum : UInt32) :
    Decoded UInt32 :=
  validateCounted usizeBits adjacencyMutationLen adjacencyCheck input maximum

/-- `decode_adjacency_batch`. -/
def decodeAdjacencyBatch (usizeBits : Nat) (input : Bytes) (maximum : UInt32) :
    Decoded (List AdjacencyMutation) := do
  let count ← validateAdjacencyBatch usizeBits input maximum
  records (fun index => adjacencyRecord input (4 + index * adjacencyMutationLen)) 0 count.toNat

def turfAdjacencyMutationLen : Nat := 24

/-- `TurfAdjacencyMutation`. -/
structure TurfAdjacencyMutation where
  left : WireHandle
  right : WireHandle
  connected : Bool
  firelock : Bool
deriving DecidableEq

/-- The pair of turfs of an edge, in order. -/
def TurfAdjacencyMutation.edge (entry : TurfAdjacencyMutation) : UInt32 × UInt32 :=
  if entry.left.slot ≤ entry.right.slot then (entry.left.slot, entry.right.slot)
  else (entry.right.slot, entry.left.slot)

/-- `validate_unique_turf_adjacency`. -/
def validateUniqueTurfAdjacency (entries : List TurfAdjacencyMutation) :
    Except ProtocolError Unit :=
  checkUnique TurfAdjacencyMutation.edge
    (fun entry => .duplicateTurfAdjacency entry.edge.1 entry.edge.2) [] entries

def TurfAdjacencyMutation.encode (entry : TurfAdjacencyMutation) : Encoded := do
  failIf (entry.firelock ∧ entry.connected = false) .firelockOnDisconnectedEdge
  pure (entry.left.encode ++ (entry.right.encode ++ (le32 (boolWord entry.connected) ++
    le32 (boolWord entry.firelock))))

/-- `encode_turf_adjacency_batch`. -/
def encodeTurfAdjacencyBatch (entries : List TurfAdjacencyMutation) : Encoded := do
  let count ← checkedEncodeCount entries.length
  validateUniqueTurfAdjacency entries
  pure (le32 count ++ (← encodeAll TurfAdjacencyMutation.encode entries))

def turfAdjacencyRecord (input : Bytes) (offset : Nat) : Decoded TurfAdjacencyMutation := do
  let connected ← lift (decodeBoolean (← readU32 input (offset + 16)))
  let firelock ← lift (decodeBoolean (← readU32 input (offset + 20)))
  rejectIf (firelock ∧ connected = false) .firelockOnDisconnectedEdge
  pure ⟨← readHandle input offset, ← readHandle input (offset + 8), connected, firelock⟩

/-- `decode_turf_adjacency_batch`. -/
def decodeTurfAdjacencyBatch (usizeBits : Nat) (input : Bytes) (maximum : UInt32) :
    Decoded (List TurfAdjacencyMutation) := do
  let entries ← decodeCounted usizeBits turfAdjacencyMutationLen turfAdjacencyRecord input maximum
  lift (validateUniqueTurfAdjacency entries)
  pure entries

/-! ## Heat states -/

/-- `TurfHeatState`. -/
structure TurfHeatState where
  temperature : ScalarValue
  thermalConductivity : ScalarValue
  heatCapacity : ScalarValue
  adjacentToSpace : Bool
deriving DecidableEq

def turfHeatMutationLen : Nat := 40

/-- `TurfHeatMutation`. -/
structure TurfHeatMutation where
  turf : WireHandle
  state : Option TurfHeatState
deriving DecidableEq

/-- The flags of a heat state. -/
def heatFlags : Option TurfHeatState → UInt32
  | none => 0
  | some state => (1 : UInt32) ||| (boolWord state.adjacentToSpace <<< 1)

/-- The numbers of a heat state. -/
def heatScalars : Option TurfHeatState → ScalarValue × ScalarValue × ScalarValue
  | none => (.zero, .zero, .zero)
  | some state => (state.temperature, state.thermalConductivity, state.heatCapacity)

def TurfHeatMutation.encode (entry : TurfHeatMutation) : Encoded := do
  let (temperature, conductivity, capacity) := heatScalars entry.state
  let temperature ← temperature.encode
  let conductivity ← conductivity.encode
  let capacity ← capacity.encode
  pure (entry.turf.encode ++ (le32 (heatFlags entry.state) ++ (le32 0 ++ (temperature ++
    (conductivity ++ capacity)))))

/-- `encode_turf_heat_batch`. -/
def encodeTurfHeatBatch (entries : List TurfHeatMutation) : Encoded :=
  encodeCounted TurfHeatMutation.encode entries

def turfHeatRecord (input : Bytes) (offset : Nat) : Decoded TurfHeatMutation := do
  let flags ← readU32 input (offset + 8)
  rejectIf (flags &&& ~~~3 ≠ 0) (.unknownTurfHeatFlags flags)
  let reserved ← readU32 input (offset + 12)
  rejectIf (reserved ≠ 0) (.reservedTurfHeatField reserved)
  let present : Bool := flags &&& 1 ≠ 0
  let adjacentToSpace : Bool := flags &&& 2 ≠ 0
  rejectIf (adjacentToSpace ∧ present = false) (.unknownTurfHeatFlags flags)
  let temperature ← readScalar input (offset + 16)
  let thermalConductivity ← readScalar input (offset + 24)
  let heatCapacity ← readScalar input (offset + 32)
  rejectIf (present = false ∧ (¬temperature.IsZero ∨ ¬thermalConductivity.IsZero ∨
    ¬heatCapacity.IsZero))
    .nonZeroAbsentTurfHeatState
  let turf ← readHandle input offset
  pure ⟨turf, if present then some ⟨temperature, thermalConductivity, heatCapacity, adjacentToSpace⟩
    else none⟩

/-- `decode_turf_heat_batch`. -/
def decodeTurfHeatBatch (usizeBits : Nat) (input : Bytes) (maximum : UInt32) :
    Decoded (List TurfHeatMutation) :=
  decodeCounted usizeBits turfHeatMutationLen turfHeatRecord input maximum

def turfHeatAdjacencyMutationLen : Nat := 24

/-- `TurfHeatAdjacencyMutation`. -/
structure TurfHeatAdjacencyMutation where
  left : WireHandle
  right : WireHandle
  connected : Bool
deriving DecidableEq

def TurfHeatAdjacencyMutation.encode (entry : TurfHeatAdjacencyMutation) : Encoded :=
  pure (entry.left.encode ++ (entry.right.encode ++ (le32 (boolWord entry.connected) ++ le32 0)))

/-- `encode_turf_heat_adjacency_batch`. -/
def encodeTurfHeatAdjacencyBatch (entries : List TurfHeatAdjacencyMutation) : Encoded :=
  encodeCounted TurfHeatAdjacencyMutation.encode entries

def turfHeatAdjacencyRecord (input : Bytes) (offset : Nat) : Decoded TurfHeatAdjacencyMutation := do
  let connected ← lift (decodeBoolean (← readU32 input (offset + 16)))
  let reserved ← readU32 input (offset + 20)
  rejectIf (reserved ≠ 0) (.reservedTurfHeatField reserved)
  pure ⟨← readHandle input offset, ← readHandle input (offset + 8), connected⟩

/-- `decode_turf_heat_adjacency_batch`. -/
def decodeTurfHeatAdjacencyBatch (usizeBits : Nat) (input : Bytes) (maximum : UInt32) :
    Decoded (List TurfHeatAdjacencyMutation) :=
  decodeCounted usizeBits turfHeatAdjacencyMutationLen turfHeatAdjacencyRecord input maximum

/-! ## What a record carries -/

theorem lifecycleFormat :
    RecordFormat lifecycleMutationLen (fun entry bs => LifecycleMutation.encode entry = .ok bs)
      fun input offset => lifecycleCheck input offset >>= fun _ => lifecycleRecord input offset where
  length := by
    intro entry bs h
    cases h
    simp [lifecycleMutationLen]
  decode_iff := by
    intro entry bs h
    unfold lifecycleMutationLen at h
    obtain ⟨action, bs, rfl, h₁⟩ := exists_le32_append (show 4 ≤ bs.length by omega)
    obtain ⟨handle, bs, rfl, h₂⟩ := exists_handle_append (show 8 ≤ bs.length by omega)
    obtain rfl : bs = [] := List.eq_nil_of_length_eq_zero (by omega)
    unfold lifecycleCheck lifecycleRecord LifecycleMutation.encode
    simp only [List.append_nil, Nat.zero_add, readU32_block, readHandle_skip, length_le32,
      Nat.reduceLeDiff, Nat.reduceSub, readHandle_all, bind_ok, bind_eq_ok, lift_eq_ok,
      LifecycleAction.tryFrom_eq_ok, pure_eq, Except.ok.injEq, le32_append_inj,
      WireHandle.encode_inj]
    constructor
    · rintro ⟨_, ⟨_, rfl, _⟩, a, haction, rfl⟩
      exact ⟨haction.symm, rfl⟩
    · rintro ⟨rfl, rfl⟩
      exact ⟨(), ⟨_, rfl, trivial⟩, _, rfl, rfl⟩
  shift := by
    intro bs p rest h
    unfold lifecycleMutationLen at h
    unfold lifecycleCheck lifecycleRecord
    simp only [readU32_shift_zero, readHandle_shift, h, Nat.reduceLeDiff, Nat.reduceAdd,
      Nat.zero_add]

theorem turfLifecycleFormat :
    RecordFormat turfLifecycleMutationLen
      (fun entry bs => TurfLifecycleMutation.encode entry = .ok bs) turfLifecycleRecord where
  length := by
    intro entry bs h
    unfold TurfLifecycleMutation.encode at h
    simp only [bind_eq_ok, pure_eq, Except.ok.injEq] at h
    obtain ⟨_, -, rfl⟩ := h
    simp [turfLifecycleMutationLen]
  decode_iff := by
    intro entry bs h
    unfold turfLifecycleMutationLen at h
    obtain ⟨action, bs, rfl, h₁⟩ := exists_le32_append (show 4 ≤ bs.length by omega)
    obtain ⟨turf, bs, rfl, h₂⟩ := exists_handle_append (show 8 ≤ bs.length by omega)
    obtain ⟨present, bs, rfl, h₃⟩ := exists_le32_append (show 4 ≤ bs.length by omega)
    obtain ⟨mixture, bs, rfl, h₄⟩ := exists_handle_append (show 8 ≤ bs.length by omega)
    obtain rfl : bs = [] := List.eq_nil_of_length_eq_zero (by omega)
    unfold turfLifecycleRecord TurfLifecycleMutation.encode
    simp only [List.append_nil, Nat.zero_add, readU32_block, readU32_skip, readHandle_skip,
      readHandle_block, length_le32, length_encode_handle, Nat.reduceLeDiff, Nat.reduceSub,
      readHandle_all, bind_ok, bind_eq_ok, lift_eq_ok, LifecycleAction.tryFrom_eq_ok,
      decodeBoolean_eq_ok, rejectIf_eq_ok, failIf_eq_ok, pure_eq, Except.ok.injEq,
      le32_append_inj, WireHandle.encode_append_inj, WireHandle.encode_inj]
    constructor
    · rintro ⟨a, rfl, b, rfl, _, hblank, _, hregister, rfl⟩
      cases b
      · simp_all
      · simp_all
    · rintro ⟨_, hregister, rfl, rfl, rfl, rfl⟩
      refine ⟨entry.action, rfl, entry.mixture.isSome, rfl, ?_⟩
      obtain ⟨action, turf, mixture⟩ := entry
      cases mixture
      · simp
      · simpa using hregister
  shift := by
    intro bs p rest h
    unfold turfLifecycleMutationLen at h
    unfold turfLifecycleRecord
    simp only [readU32_shift_zero, readU32_shift, readHandle_shift, h, Nat.reduceLeDiff,
      Nat.reduceAdd, Nat.zero_add]

theorem adjacencyFormat :
    RecordFormat adjacencyMutationLen (fun entry bs => AdjacencyMutation.encode entry = .ok bs)
      fun input offset => adjacencyCheck input offset >>= fun _ => adjacencyRecord input offset where
  length := by
    intro entry bs h
    unfold AdjacencyMutation.encode at h
    simp only [bind_eq_ok, ScalarValue.encode_eq_ok, pure_eq, Except.ok.injEq] at h
    obtain ⟨_, ⟨_, rfl⟩, rfl⟩ := h
    simp [adjacencyMutationLen]
  decode_iff := by
    intro entry bs h
    unfold adjacencyMutationLen at h
    obtain ⟨left, bs, rfl, h₁⟩ := exists_handle_append (show 8 ≤ bs.length by omega)
    obtain ⟨right, q, rfl, h₂⟩ := exists_handle_append (show 8 ≤ bs.length by omega)
    have hq : q.length = 8 := by omega
    unfold adjacencyCheck adjacencyRecord AdjacencyMutation.encode
    simp only [Nat.zero_add, readHandle_block, readHandle_skip, readScalar_skip, readScalar_all hq,
      length_encode_handle, Nat.reduceLeDiff, Nat.reduceSub, bind_ok, bind_eq_ok,
      ScalarValue.decode_eq_ok hq, ScalarValue.encode_eq_ok, pure_eq, Except.ok.injEq,
      WireHandle.encode_append_inj]
    constructor
    · rintro ⟨_, _, v, ⟨hv, rfl⟩, rfl⟩
      exact ⟨_, ⟨hv, rfl⟩, rfl, rfl, rfl⟩
    · rintro ⟨_, ⟨hv, rfl⟩, rfl, rfl, rfl⟩
      exact ⟨(), ⟨_, ⟨hv, rfl⟩, trivial⟩, _, ⟨hv, rfl⟩, rfl⟩
  shift := by
    intro bs p rest h
    unfold adjacencyMutationLen at h
    unfold adjacencyCheck adjacencyRecord
    simp only [readHandle_shift_zero, readHandle_shift, readScalar_shift, h, Nat.reduceLeDiff,
      Nat.reduceAdd, Nat.zero_add]

theorem turfAdjacencyFormat :
    RecordFormat turfAdjacencyMutationLen
      (fun entry bs => TurfAdjacencyMutation.encode entry = .ok bs) turfAdjacencyRecord where
  length := by
    intro entry bs h
    unfold TurfAdjacencyMutation.encode at h
    simp only [bind_eq_ok, pure_eq, Except.ok.injEq] at h
    obtain ⟨_, -, rfl⟩ := h
    simp [turfAdjacencyMutationLen]
  decode_iff := by
    intro entry bs h
    unfold turfAdjacencyMutationLen at h
    obtain ⟨left, bs, rfl, h₁⟩ := exists_handle_append (show 8 ≤ bs.length by omega)
    obtain ⟨right, bs, rfl, h₂⟩ := exists_handle_append (show 8 ≤ bs.length by omega)
    obtain ⟨connected, bs, rfl, h₃⟩ := exists_le32_append (show 4 ≤ bs.length by omega)
    obtain ⟨firelock, bs, rfl, h₄⟩ := exists_le32_append (show 4 ≤ bs.length by omega)
    obtain rfl : bs = [] := List.eq_nil_of_length_eq_zero (by omega)
    unfold turfAdjacencyRecord TurfAdjacencyMutation.encode
    simp only [List.append_nil, Nat.zero_add, readHandle_block, readHandle_skip, readU32_block,
      readU32_skip, readU32_all, length_le32, length_encode_handle, Nat.reduceLeDiff,
      Nat.reduceSub, bind_ok, bind_eq_ok, lift_eq_ok, decodeBoolean_eq_ok, rejectIf_eq_ok,
      failIf_eq_ok, pure_eq, Except.ok.injEq, le32_append_inj, le32_inj,
      WireHandle.encode_append_inj]
    constructor
    · rintro ⟨c, rfl, f, rfl, _, hfirelock, rfl⟩
      exact ⟨(), hfirelock, rfl, rfl, rfl, rfl⟩
    · rintro ⟨_, hfirelock, rfl, rfl, rfl, rfl⟩
      exact ⟨_, rfl, _, rfl, (), hfirelock, rfl⟩
  shift := by
    intro bs p rest h
    unfold turfAdjacencyMutationLen at h
    unfold turfAdjacencyRecord
    simp only [readHandle_shift_zero, readHandle_shift, readU32_shift, h, Nat.reduceLeDiff,
      Nat.reduceAdd, Nat.zero_add]

theorem turfHeatAdjacencyFormat :
    RecordFormat turfHeatAdjacencyMutationLen
      (fun entry bs => TurfHeatAdjacencyMutation.encode entry = .ok bs)
      turfHeatAdjacencyRecord where
  length := by
    intro entry bs h
    cases h
    simp [turfHeatAdjacencyMutationLen]
  decode_iff := by
    intro entry bs h
    unfold turfHeatAdjacencyMutationLen at h
    obtain ⟨left, bs, rfl, h₁⟩ := exists_handle_append (show 8 ≤ bs.length by omega)
    obtain ⟨right, bs, rfl, h₂⟩ := exists_handle_append (show 8 ≤ bs.length by omega)
    obtain ⟨connected, bs, rfl, h₃⟩ := exists_le32_append (show 4 ≤ bs.length by omega)
    obtain ⟨reserved, bs, rfl, h₄⟩ := exists_le32_append (show 4 ≤ bs.length by omega)
    obtain rfl : bs = [] := List.eq_nil_of_length_eq_zero (by omega)
    unfold turfHeatAdjacencyRecord TurfHeatAdjacencyMutation.encode
    simp only [List.append_nil, Nat.zero_add, readHandle_block, readHandle_skip, readU32_block,
      readU32_skip, readU32_all, length_le32, length_encode_handle, Nat.reduceLeDiff,
      Nat.reduceSub, bind_ok, bind_eq_ok, lift_eq_ok, decodeBoolean_eq_ok, rejectIf_eq_ok,
      not_not, pure_eq, Except.ok.injEq, le32_append_inj, le32_inj, WireHandle.encode_append_inj]
    constructor
    · rintro ⟨c, rfl, _, rfl, rfl⟩
      exact ⟨rfl, rfl, rfl, rfl⟩
    · rintro ⟨rfl, rfl, rfl, rfl⟩
      exact ⟨_, rfl, (), rfl, rfl⟩
  shift := by
    intro bs p rest h
    unfold turfHeatAdjacencyMutationLen at h
    unfold turfHeatAdjacencyRecord
    simp only [readHandle_shift_zero, readHandle_shift, readU32_shift, h, Nat.reduceLeDiff,
      Nat.reduceAdd, Nat.zero_add]

/-- The bytes of a heat state; the numbers of an absent one are zeros of either sign. -/
def TurfHeatMutation.Carries (entry : TurfHeatMutation) (bs : Bytes) : Prop :=
  ∃ t k c : ScalarValue, (t.Finite ∧ k.Finite ∧ c.Finite) ∧
    bs = entry.turf.encode ++ (le32 (heatFlags entry.state) ++ (le32 0 ++ (t.bytes ++
      (k.bytes ++ c.bytes)))) ∧
    match entry.state with
    | none => t.IsZero ∧ k.IsZero ∧ c.IsZero
    | some state => t = state.temperature ∧ k = state.thermalConductivity ∧ c = state.heatCapacity

theorem TurfHeatMutation.carries_of_encode {entry : TurfHeatMutation} {bs : Bytes}
    (h : entry.encode = .ok bs) : entry.Carries bs := by
  unfold TurfHeatMutation.encode at h
  simp only [bind_eq_ok, ScalarValue.encode_eq_ok, pure_eq, Except.ok.injEq] at h
  obtain ⟨_, ⟨ht, rfl⟩, _, ⟨hk, rfl⟩, _, ⟨hc, rfl⟩, rfl⟩ := h
  refine ⟨_, _, _, ⟨ht, hk, hc⟩, rfl, ?_⟩
  cases entry.state with
  | none => decide +kernel
  | some state => exact ⟨rfl, rfl, rfl⟩

/-- Flags of a mask. -/
theorem toNat_lt_of_mask {flags mask : UInt32} {k : Nat} (hmask : mask.toNat = 2 ^ k - 1)
    (h : flags &&& ~~~mask = 0) : flags.toNat < 2 ^ k := by
  have hlow : flags = flags &&& mask := by
    have hsplit : flags &&& (mask ||| ~~~mask) = flags &&& mask ||| flags &&& ~~~mask :=
      UInt32.toBitVec_inj.1 BitVec.and_or_distrib_left
    rwa [UInt32.or_not_self, UInt32.and_neg_one, h, UInt32.or_zero] at hsplit
  have hbits : (flags &&& mask).toNat = flags.toNat % 2 ^ k := by
    rw [UInt32.toNat_and, hmask]
    exact Nat.and_two_pow_sub_one_eq_mod flags.toNat k
  rw [← hlow] at hbits
  rw [hbits]
  exact Nat.mod_lt _ (Nat.two_pow_pos k)

theorem heatFlags_cases {flags : UInt32} (h : flags &&& ~~~3 = 0) :
    flags = 0 ∨ flags = 1 ∨ flags = 2 ∨ flags = 3 := by
  have hlt : flags.toNat < 2 ^ 2 := toNat_lt_of_mask rfl h
  have hcases : flags.toNat = 0 ∨ flags.toNat = 1 ∨ flags.toNat = 2 ∨ flags.toNat = 3 := by omega
  simp only [← UInt32.toNat_inj]
  exact hcases

/-- The bits of the flags of a heat state. -/
theorem heat_bits : (1 : UInt32) &&& 2 = 0 ∧ (2 : UInt32) &&& 1 = 0 ∧ (3 : UInt32) &&& 1 = 1 ∧
    (3 : UInt32) &&& 2 = 2 ∧ (1 : UInt32) ||| ((1 : UInt32) <<< 1) = 3 ∧ (1 : UInt32) &&& ~~~3 = 0 ∧
    (3 : UInt32) &&& ~~~3 = 0 := by
  decide

theorem turfHeatFormat :
    RecordFormat turfHeatMutationLen TurfHeatMutation.Carries turfHeatRecord where
  length := by
    rintro entry _ ⟨t, k, c, -, rfl, -⟩
    simp [turfHeatMutationLen]
  decode_iff := by
    intro entry bs h
    unfold turfHeatMutationLen at h
    obtain ⟨turf, bs, rfl, h₁⟩ := exists_handle_append (show 8 ≤ bs.length by omega)
    obtain ⟨flags, bs, rfl, h₂⟩ := exists_le32_append (show 4 ≤ bs.length by omega)
    obtain ⟨reserved, bs, rfl, h₃⟩ := exists_le32_append (show 4 ≤ bs.length by omega)
    obtain ⟨p, bs, rfl, hp, h₄⟩ := exists_append (show 8 ≤ bs.length by omega)
    obtain ⟨q, r, rfl, hq, h₅⟩ := exists_append (show 8 ≤ bs.length by omega)
    have hr : r.length = 8 := by omega
    unfold turfHeatRecord TurfHeatMutation.Carries
    simp only [Nat.zero_add, readHandle_block, readU32_block, readU32_skip, readScalar_skip,
      readScalar_block _ hp, readScalar_block _ hq, readScalar_all hr, length_le32,
      length_encode_handle, hp, hq, Nat.reduceLeDiff, Nat.reduceSub, bind_ok, bind_eq_ok,
      rejectIf_eq_ok, not_not, ScalarValue.decode_eq_ok hp, ScalarValue.decode_eq_ok hq,
      ScalarValue.decode_eq_ok hr, pure_eq, Except.ok.injEq, le32_append_inj,
      WireHandle.encode_append_inj]
    constructor
    · rintro ⟨_, hflags, _, rfl, _, hspace, t, ⟨ht, rfl⟩, k, ⟨hk, rfl⟩, c, ⟨hc, rfl⟩, _, hzero, rfl⟩
      refine ⟨t, k, c, ⟨ht, hk, hc⟩, ⟨rfl, ?_, rfl, rfl⟩, ?_⟩
      · rcases heatFlags_cases hflags with rfl | rfl | rfl | rfl <;>
          simp_all [heatFlags, boolWord, heat_bits]
      · rcases heatFlags_cases hflags with rfl | rfl | rfl | rfl <;> simp_all [heat_bits]
    · rintro ⟨t, k, c, ⟨ht, hk, hc⟩, ⟨rfl, rfl, rfl, hbytes⟩, hstate⟩
      rw [append_inj_iff (by simp [hp]), append_inj_iff (by simp [hq])] at hbytes
      obtain ⟨rfl, rfl, rfl⟩ := hbytes
      refine ⟨(), ?_, (), rfl, (), ?_, t, ⟨ht, rfl⟩, k, ⟨hk, rfl⟩, c, ⟨hc, rfl⟩, (), ?_, ?_⟩
      all_goals
        obtain ⟨turf, state⟩ := entry
        cases state with
        | none => simp_all [heatFlags]
        | some state =>
          obtain ⟨_, _, _, space⟩ := state
          cases space <;> simp_all [heatFlags, boolWord, heat_bits]
  shift := by
    intro bs p rest h
    unfold turfHeatMutationLen at h
    unfold turfHeatRecord
    simp only [readHandle_shift_zero, readU32_shift, readScalar_shift, h, Nat.reduceLeDiff,
      Nat.reduceAdd, Nat.zero_add]

/-! ## Batches -/

section

variable (usizeBits : Nat)

theorem lifecycleBatch : BatchFormat usizeBits lifecycleMutationLen
    (fun entry bs => LifecycleMutation.encode entry = .ok bs) encodeLifecycleBatch
    (decodeLifecycleBatch usizeBits) :=
  batchFormat_validated lifecycleFormat id

theorem turfLifecycleBatch : BatchFormat usizeBits turfLifecycleMutationLen
    (fun entry bs => TurfLifecycleMutation.encode entry = .ok bs) encodeTurfLifecycleBatch
    (decodeTurfLifecycleBatch usizeBits) :=
  batchFormat turfLifecycleFormat id

theorem adjacencyBatch : BatchFormat usizeBits adjacencyMutationLen
    (fun entry bs => AdjacencyMutation.encode entry = .ok bs) encodeAdjacencyBatch
    (decodeAdjacencyBatch usizeBits) :=
  batchFormat_validated adjacencyFormat id

/-- The pairs of turfs of a batch of edges are checked on both sides. -/
theorem turfAdjacencyBatch : BatchFormat usizeBits turfAdjacencyMutationLen
    (fun entry bs => TurfAdjacencyMutation.encode entry = .ok bs) encodeTurfAdjacencyBatch
    (decodeTurfAdjacencyBatch usizeBits) := by
  have hplain : BatchFormat usizeBits turfAdjacencyMutationLen
      (fun entry bs => TurfAdjacencyMutation.encode entry = .ok bs)
      (encodeCounted TurfAdjacencyMutation.encode)
      (decodeCounted usizeBits turfAdjacencyMutationLen turfAdjacencyRecord) :=
    batchFormat turfAdjacencyFormat id
  constructor
  · intro entries bs maximum hbs hbound hbits
    unfold encodeTurfAdjacencyBatch at hbs
    obtain ⟨count, hcount, hbs⟩ := bind_eq_ok.1 hbs
    obtain ⟨_, hunique, hbs⟩ := bind_eq_ok.1 hbs
    have hentries := hplain.decode_encode (bind_eq_ok.2 ⟨count, hcount, hbs⟩) hbound hbits
    exact bind_eq_ok.2 ⟨entries, hentries, bind_eq_ok.2 ⟨(), lift_eq_ok.2 hunique, rfl⟩⟩
  · intro entries bs maximum hbs
    obtain ⟨entries', hentries, hbs⟩ := bind_eq_ok.1 hbs
    obtain ⟨_, -, hbs⟩ := bind_eq_ok.1 hbs
    cases hbs
    exact hplain.canonical hentries

theorem turfHeatBatch : BatchFormat usizeBits turfHeatMutationLen TurfHeatMutation.Carries
    encodeTurfHeatBatch (decodeTurfHeatBatch usizeBits) :=
  batchFormat turfHeatFormat TurfHeatMutation.carries_of_encode

theorem turfHeatAdjacencyBatch : BatchFormat usizeBits turfHeatAdjacencyMutationLen
    (fun entry bs => TurfHeatAdjacencyMutation.encode entry = .ok bs) encodeTurfHeatAdjacencyBatch
    (decodeTurfHeatAdjacencyBatch usizeBits) :=
  batchFormat turfHeatAdjacencyFormat id

end

/-! ## Decoders stay in their input -/

section Safety

variable {usizeBits : Nat} {input : Bytes} {maximum : UInt32} {offset : Nat}

theorem safe_lifecycleCheck (h : offset + 12 ≤ input.length) :
    Safe (lifecycleCheck input offset) :=
  safe_bind (safe_readU32 (by omega)) fun _ _ => safe_bind (safe_lift _) fun _ _ =>
    safe_bind (safe_readHandle (by omega)) fun _ _ => safe_ok _

theorem safe_lifecycleRecord (h : offset + 12 ≤ input.length) :
    Safe (lifecycleRecord input offset) :=
  safe_bind (safe_readU32 (by omega)) fun _ _ => safe_bind (safe_lift _) fun _ _ =>
    safe_bind (safe_readHandle (by omega)) fun _ _ => safe_ok _

theorem safe_turfLifecycleRecord (h : offset + 24 ≤ input.length) :
    Safe (turfLifecycleRecord input offset) := by
  refine safe_bind (safe_readU32 (by omega)) fun _ _ => safe_bind (safe_lift _) fun _ _ => ?_
  refine safe_bind (safe_readHandle (by omega)) fun _ _ => ?_
  refine safe_bind (safe_readU32 (by omega)) fun _ _ => safe_bind (safe_lift _) fun _ _ => ?_
  refine safe_bind (safe_readHandle (by omega)) fun _ _ => ?_
  exact safe_rejectIf_bind fun _ => safe_rejectIf_bind fun _ => safe_ok _

theorem safe_adjacencyCheck (h : offset + 24 ≤ input.length) :
    Safe (adjacencyCheck input offset) :=
  safe_bind (safe_readHandle (by omega)) fun _ _ => safe_bind (safe_readHandle (by omega)) fun _ _ =>
    safe_bind (safe_readScalar (by omega)) fun _ _ => safe_ok _

theorem safe_adjacencyRecord (h : offset + 24 ≤ input.length) :
    Safe (adjacencyRecord input offset) :=
  safe_bind (safe_readHandle (by omega)) fun _ _ => safe_bind (safe_readHandle (by omega)) fun _ _ =>
    safe_bind (safe_readScalar (by omega)) fun _ _ => safe_ok _

theorem safe_turfAdjacencyRecord (h : offset + 24 ≤ input.length) :
    Safe (turfAdjacencyRecord input offset) := by
  refine safe_bind (safe_readU32 (by omega)) fun _ _ => safe_bind (safe_lift _) fun _ _ => ?_
  refine safe_bind (safe_readU32 (by omega)) fun _ _ => safe_bind (safe_lift _) fun _ _ => ?_
  refine safe_rejectIf_bind fun _ => ?_
  refine safe_bind (safe_readHandle (by omega)) fun _ _ => ?_
  exact safe_bind (safe_readHandle (by omega)) fun _ _ => safe_ok _

theorem safe_turfHeatRecord (h : offset + 40 ≤ input.length) :
    Safe (turfHeatRecord input offset) := by
  refine safe_bind (safe_readU32 (by omega)) fun _ _ => safe_rejectIf_bind fun _ => ?_
  refine safe_bind (safe_readU32 (by omega)) fun _ _ => safe_rejectIf_bind fun _ => ?_
  refine safe_rejectIf_bind fun _ => ?_
  refine safe_bind (safe_readScalar (by omega)) fun _ _ => ?_
  refine safe_bind (safe_readScalar (by omega)) fun _ _ => ?_
  refine safe_bind (safe_readScalar (by omega)) fun _ _ => safe_rejectIf_bind fun _ => ?_
  exact safe_bind (safe_readHandle (by omega)) fun _ _ => safe_ok _

theorem safe_turfHeatAdjacencyRecord (h : offset + 24 ≤ input.length) :
    Safe (turfHeatAdjacencyRecord input offset) := by
  refine safe_bind (safe_readU32 (by omega)) fun _ _ => safe_bind (safe_lift _) fun _ _ => ?_
  refine safe_bind (safe_readU32 (by omega)) fun _ _ => safe_rejectIf_bind fun _ => ?_
  refine safe_bind (safe_readHandle (by omega)) fun _ _ => ?_
  exact safe_bind (safe_readHandle (by omega)) fun _ _ => safe_ok _

theorem safe_decodeLifecycleBatch : Safe (decodeLifecycleBatch usizeBits input maximum) :=
  safe_validated (fun _ => safe_lifecycleCheck) fun _ => safe_lifecycleRecord

theorem safe_decodeTurfLifecycleBatch : Safe (decodeTurfLifecycleBatch usizeBits input maximum) :=
  safe_decodeCounted fun _ => safe_turfLifecycleRecord

theorem safe_decodeAdjacencyBatch : Safe (decodeAdjacencyBatch usizeBits input maximum) :=
  safe_validated (fun _ => safe_adjacencyCheck) fun _ => safe_adjacencyRecord

theorem safe_decodeTurfAdjacencyBatch : Safe (decodeTurfAdjacencyBatch usizeBits input maximum) :=
  safe_bind (safe_decodeCounted fun _ => safe_turfAdjacencyRecord) fun _ _ =>
    safe_bind (safe_lift _) fun _ _ => safe_ok _

theorem safe_decodeTurfHeatBatch : Safe (decodeTurfHeatBatch usizeBits input maximum) :=
  safe_decodeCounted fun _ => safe_turfHeatRecord

theorem safe_decodeTurfHeatAdjacencyBatch :
    Safe (decodeTurfHeatAdjacencyBatch usizeBits input maximum) :=
  safe_decodeCounted fun _ => safe_turfHeatAdjacencyRecord

end Safety

end Dogmos.Wire
