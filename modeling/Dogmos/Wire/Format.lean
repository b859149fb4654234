import Dogmos.Lib.Bytes
import Dogmos.Lib.FloatBits

/-!
# The formats of the protocol

What the formats share: the errors, numbers and handles on the wire, booleans, and
the header of a counted payload.

A decoder reads at offsets it computes itself, so it can leave its input
(`Fault.panic`); a byte count is a number of the target, `usizeBits` wide.
-/

namespace Dogmos

open Bytes

/-! ## Constants -/

def maxControlPayload : UInt32 := 1024 * 1024

/-- `MAX_GAS_SLOTS` on the wire. -/
def wireGasSlots : Nat := 32

def reactionFlagMask : UInt32 := 7

/-- `WireHandle`. -/
structure WireHandle where
  slot : UInt32
  generation : UInt32
deriving DecidableEq

/-! ## Errors -/

/-- `ProtocolError`. -/
inductive ProtocolError where
  | truncatedHeader (actual : UInt32)
  | truncatedHandle (actual : UInt32)
  | truncatedScalar (actual : UInt32)
  | invalidMagic (actual : UInt32)
  | unsupportedProtocolVersion (actual : UInt16)
  | invalidHeaderLength (actual : UInt16)
  | unknownOperationKind (actual : UInt16)
  | unknownFlags (flags : UInt16)
  | reservedField (actual : UInt32)
  | payloadTooLarge (actual maximum : UInt32)
  | truncatedPayload (expectedFrameLen actualFrameLen : UInt32)
  | trailingBytes (expectedFrameLen actualFrameLen : UInt32)
  | errorFlagWithoutResponse
  | nonFiniteScalar
  | invalidPayloadLength (expected actual : UInt32)
  | gasCountExceeded (actual maximum : UInt32)
  | operationCountExceeded (actual maximum : UInt32)
  | unknownLifecycleAction (actual : UInt32)
  | reservedMixtureStateField (actual : UInt32)
  | invalidMixtureStateUploadId
  | invalidMixtureStateUploadCount (count : UInt32)
  | unknownSimulationStage (actual : UInt32)
  | invalidFrontierAppendCount (count : UInt32)
  | duplicateFrontierHandle (handle : WireHandle)
  | unknownCallbackScope (actual : UInt16)
  | invalidCallbackTransaction (scope : UInt16) (transactionId : UInt64)
  | reservedCallbackBatchField (actual : UInt16)
  | reservedCallbackEventField (actual : UInt32)
  | unknownCallbackEventKind (actual : UInt16)
  | unknownCallbackFlags (flags : UInt16)
  | unknownCallbackAux (kind : UInt16) (actual : UInt32)
  | missingContinuationToken
  | unexpectedContinuationToken
  | invalidBoolean (actual : UInt32)
  | nonZeroAbsentHandle
  | unexpectedUnregisterMixture
  | firelockOnDisconnectedEdge
  | duplicateTurfAdjacency (left right : UInt32)
  | unknownTurfHeatFlags (flags : UInt32)
  | reservedTurfHeatField (actual : UInt32)
  | nonZeroAbsentTurfHeatState
  | unknownMixtureCommand (actual : UInt16)
  | unknownMixtureCommandFlags (kind flags : UInt16)
  | reservedMixtureCommandField
  | reservedMixtureAdjustmentField
  | reservedContinuationField (actual : UInt32)
  | invalidContinuationId
  | invalidContinuationDeadline
  | invalidReactionFlags (flags : UInt32)
  | invalidReactionProfileThreshold
  | unknownMixtureCommandResponse (actual : UInt32)
  | metadataStringTooLong (actual maximum : UInt32)
  | invalidMetadataUtf8
  | unknownGasFireRole (actual : UInt16)
  | unknownFireProducts (actual : UInt32)
  | unknownMetadataFlags (flags : UInt32)
  | nonZeroMetadataPadding
  | unknownReactionExecution (actual : UInt16)
  | unknownServiceProcessFlags (flags : UInt32)
  | reservedServiceTelemetryField (actual : UInt32)
  | nonZeroUnavailableServiceProcessMetric
  | reservedFrontierField (actual : UInt32)
  | reservedMixtureStateUploadField (actual : UInt32)
  | reservedSimulationStageField (actual : UInt32)
  | invalidStageWorkLimit (actual : UInt32)
  | invalidHandshakeLength (expected actual : UInt32)
  | emptyAuthenticationToken
  | unsupportedAbiVersion (actual : UInt16)
  | emptySourceRevision
  | emptyFeatureFingerprint
  | emptyExecutableDigest
  | invalidProcessId
  | invalidControlCapacity (actual maximum : UInt32)
  | invalidCallbackCapacity (actual maximum : UInt32)
  | invalidContinuationCapacity (actual maximum : UInt32)
  | reservedCapacityField (actual : UInt32)
  | invalidCapacityLimit (field : String)
deriving DecidableEq

/-- What a decoder of the protocol returns. -/
abbrev Decoded (α : Type) := Checked ProtocolError α

/-- What an encoder of the protocol returns. -/
abbrev Encoded := Except ProtocolError Bytes

/-- The decoder returns an error. -/
def reject {α : Type} (error : ProtocolError) : Decoded α := .error (.rejects error)

/-- The decoder returns an error when a condition holds. -/
def rejectIf (c : Prop) [Decidable c] (error : ProtocolError) : Decoded Unit :=
  if c then reject error else .ok ()

/-- A check that is made when a condition holds. -/
def whenever (c : Prop) [Decidable c] (check : Decoded Unit) : Decoded Unit :=
  if c then check else .ok ()

/-- `rejectIf` for what cannot leave an input. -/
def failIf (c : Prop) [Decidable c] (error : ProtocolError) : Except ProtocolError Unit :=
  if c then .error error else .ok ()

/-- What cannot leave an input, inside a decoder. -/
def lift {α : Type} : Except ProtocolError α → Decoded α
  | .ok a => .ok a
  | .error error => reject error

/-- The length of an input as errors report it. -/
def reportedLength (input : Bytes) : UInt32 := UInt32.ofNat (min input.length (2 ^ 32 - 1))

/-! ## Numbers and handles -/

/-- `ScalarValue`. -/
structure ScalarValue where
  val : F64
deriving DecidableEq

namespace ScalarValue

/-- `ScalarValue::encode`. -/
def encode (value : ScalarValue) : Encoded := do
  failIf (FloatFormat.isFinite value.val = false) .nonFiniteScalar
  pure (le64 value.val.toBits)

/-- `ScalarValue::decode`. -/
def decode (input : Bytes) : Decoded ScalarValue := do
  rejectIf (input.length < 8) (.truncatedScalar (UInt32.ofNat input.length))
  let value := Float.Model.ofBits (← readU64 input 0)
  rejectIf (FloatFormat.isFinite value = false) .nonFiniteScalar
  pure ⟨value⟩

/-- `ScalarValue(0.0)`. -/
def zero : ScalarValue := ⟨Float.Model.ofBits 0⟩

/-- A number that the wire carries. -/
def Finite (value : ScalarValue) : Prop := FloatFormat.isFinite value.val = true

instance (value : ScalarValue) : Decidable value.Finite := inferInstanceAs (Decidable (_ = _))

/-- A number that compares equal to zero. -/
def IsZero (value : ScalarValue) : Prop := (value.val == 0.0) = true

instance (value : ScalarValue) : Decidable value.IsZero := inferInstanceAs (Decidable (_ = _))

/-- A number as the narrow format holds it. -/
def compact (value : ScalarValue) : ScalarValue := ⟨widen (narrow value.val : F32)⟩

/-- A number of the narrow format. -/
def Narrow (value : ScalarValue) : Prop :=
  ∃ x : F32, FloatFormat.isFinite x = true ∧ value = ⟨widen x⟩

/-- A number of the narrow format and its bytes. -/
def CompactCarries (value : ScalarValue) (bs : Bytes) : Prop :=
  ∃ x : F32, FloatFormat.isFinite x = true ∧ value = ⟨widen x⟩ ∧ bs = le32 x.toBits

/-- The bytes of a number. -/
def bytes (value : ScalarValue) : Bytes := le64 value.val.toBits

end ScalarValue

namespace WireHandle

/-- `WireHandle::encode`. -/
def encode (handle : WireHandle) : Bytes :=
  put (put (zeros 8) 0 (le32 handle.slot)) 4 (le32 handle.generation)

/-- `WireHandle::decode`. -/
def decode (input : Bytes) : Decoded WireHandle := do
  rejectIf (input.length < 8) (.truncatedHandle (UInt32.ofNat input.length))
  pure { slot := ← readU32 input 0, generation := ← readU32 input 4 }

/-- The handle of an absent mixture. -/
def blank : WireHandle := ⟨0, 0⟩

end WireHandle

/-- `encode_compact_scalar`. -/
def encodeCompactScalar (value : ScalarValue) : Encoded := do
  let compact : F32 := narrow value.val
  failIf (FloatFormat.isFinite value.val = false ∨ FloatFormat.isFinite compact = false)
    .nonFiniteScalar
  pure (le32 compact.toBits)

/-- `decode_compact_scalar`. -/
def decodeCompactScalar (input : Bytes) (offset : Nat) : Decoded ScalarValue := do
  let value := Float32.Model.ofBits (← readU32 input offset)
  rejectIf (FloatFormat.isFinite value = false) .nonFiniteScalar
  pure ⟨widen value⟩

/-- `decode_boolean`. -/
def decodeBoolean (value : UInt32) : Except ProtocolError Bool :=
  if value = 0 then .ok false
  else if value = 1 then .ok true
  else .error (.invalidBoolean value)

/-- `u32::from` of a boolean. -/
def boolWord (b : Bool) : UInt32 := if b then 1 else 0

/-! ## Lengths and counts -/

/-- `require_exact_len`. -/
def requireExactLen (input : Bytes) (expected : Nat) : Decoded Unit :=
  rejectIf (input.length ≠ expected)
    (.invalidPayloadLength (UInt32.ofNat expected) (reportedLength input))

/-- `validate_gas_count`. -/
def validateGasCount (gasCount : UInt32) : Except ProtocolError Unit :=
  failIf (UInt32.ofNat wireGasSlots < gasCount)
    (.gasCountExceeded gasCount (UInt32.ofNat wireGasSlots))

/-- `checked_encode_count`. -/
def checkedEncodeCount (count : Nat) : Except ProtocolError UInt32 := do
  failIf (2 ^ 32 ≤ count) (.operationCountExceeded 0xFFFFFFFF 0xFFFFFFFF)
  pure (UInt32.ofNat count)

/-- `a.checked_mul(b)` on `usize`. -/
def checkedMul (usizeBits a b : Nat) : Option Nat :=
  if a * b < 2 ^ usizeBits then some (a * b) else none

/-- `a.checked_add(b)` on `usize`. -/
def checkedAdd (usizeBits a b : Nat) : Option Nat :=
  if a + b < 2 ^ usizeBits then some (a + b) else none

/-- The length of a payload of `count` records behind a header, where it fits the target. -/
def payloadLength (usizeBits header count recordLen : Nat) (input : Bytes) : Decoded Nat :=
  match (checkedMul usizeBits count recordLen).bind (checkedAdd usizeBits header) with
  | some expected => .ok expected
  | none => reject (.invalidPayloadLength 0xFFFFFFFF (reportedLength input))

/-- `validate_counted_payload`. -/
def validateCountedPayload (usizeBits : Nat) (input : Bytes) (recordLen : Nat)
    (maximum : UInt32) : Decoded UInt32 := do
  rejectIf (input.length < 4) (.invalidPayloadLength 4 (UInt32.ofNat input.length))
  let count ← readU32 input 0
  rejectIf (maximum < count) (.operationCountExceeded count maximum)
  let expected ← payloadLength usizeBits 4 count.toNat recordLen input
  requireExactLen input expected
  pure count

/-- A payload of a count and that many records. -/
def encodeCounted {α : Type} (encode : α → Encoded) (entries : List α) : Encoded := do
  let count ← checkedEncodeCount entries.length
  pure (le32 count ++ (← encodeAll encode entries))

/-- The same for a decoder; `record` reads one record at an offset. -/
def decodeCounted {α : Type} (usizeBits recordLen : Nat) (record : Bytes → Nat → Decoded α)
    (input : Bytes) (maximum : UInt32) : Decoded (List α) := do
  let count ← validateCountedPayload usizeBits input recordLen maximum
  records (fun index => record input (4 + index * recordLen)) 0 count.toNat

/-- A decoder of a counted payload that looks at all records first. -/
def validateCounted (usizeBits recordLen : Nat) (check : Bytes → Nat → Decoded Unit)
    (input : Bytes) (maximum : UInt32) : Decoded UInt32 := do
  let count ← validateCountedPayload usizeBits input recordLen maximum
  checkRecords (fun index => check input (4 + index * recordLen)) 0 count.toNat
  pure count

/-- A check that no key comes twice; `seen` are the keys that came before. -/
def checkUnique {α κ : Type} [DecidableEq κ] (key : α → κ) (error : α → ProtocolError) :
    List κ → List α → Except ProtocolError Unit
  | _, [] => .ok ()
  | seen, a :: rest =>
    if key a ∈ seen then .error (error a) else checkUnique key error (key a :: seen) rest

/-! ## Rules for decoders -/

section Rules

variable {α β : Type} {c : Prop} [Decidable c] {error : ProtocolError}

@[simp] theorem lift_eq_ok {m : Except ProtocolError α} {a : α} : lift m = .ok a ↔ m = .ok a := by
  cases m <;> simp [lift, reject]

@[simp] theorem lift_ok (a : α) : lift (.ok a) = .ok a := rfl

@[simp] theorem rejectIf_eq_ok {u : Unit} : rejectIf c error = .ok u ↔ ¬c := by
  unfold rejectIf reject
  split <;> simp [*]

@[simp] theorem failIf_eq_ok {u : Unit} : failIf c error = .ok u ↔ ¬c := by
  unfold failIf
  split <;> simp [*]

@[simp] theorem whenever_eq_ok {check : Decoded Unit} {u : Unit} :
    whenever c check = .ok u ↔ (c → check = .ok ()) := by
  unfold whenever
  split <;> simp [*]

theorem rejectIf_neg (h : ¬c) : rejectIf c error = .ok () := if_neg h

/-- A decoder that stays in its input. -/
def Safe (m : Decoded α) : Prop := m ≠ .error .panic

theorem safe_ok (a : α) : Safe (.ok a) := fun h => by cases h

theorem safe_reject : Safe (reject error : Decoded α) := fun h => by cases h

theorem safe_rejectIf : Safe (rejectIf c error) := by
  unfold rejectIf
  split
  · exact safe_reject
  · exact safe_ok ()

theorem safe_lift (m : Except ProtocolError α) : Safe (lift m) := by
  cases m with
  | error error => exact safe_reject
  | ok a => exact safe_ok a

theorem safe_bind {m : Decoded α} {f : α → Decoded β} (hm : Safe m)
    (hf : ∀ a, m = .ok a → Safe (f a)) : Safe (m >>= f) := by
  cases m with
  | ok a => exact hf a rfl
  | error fault =>
    intro h
    cases fault with
    | rejects error => cases h
    | panic => exact hm rfl

theorem safe_whenever {check : Decoded Unit} (h : Safe check) : Safe (whenever c check) := by
  unfold whenever
  split
  · exact h
  · exact safe_ok ()

theorem safe_rejectIf_bind {f : Unit → Decoded β} (hf : ¬c → Safe (f ())) :
    Safe (rejectIf c error >>= f) :=
  safe_bind safe_rejectIf fun _ h => hf (rejectIf_eq_ok.1 h)

theorem safe_slice {input : Bytes} {start stop : Nat} (hstart : start ≤ stop)
    (hstop : stop ≤ input.length) : Safe (slice input start stop) := by
  obtain ⟨bs, hslice, -⟩ := slice_ok (ε := ProtocolError) hstart hstop
  rw [hslice]
  exact safe_ok bs

theorem safe_map {m : Decoded α} (h : Safe m) (f : α → β) : Safe (m.map f) := by
  cases m with
  | ok a => exact safe_ok (f a)
  | error fault =>
    intro hpanic
    cases fault with
    | rejects error => cases hpanic
    | panic => exact h rfl

theorem safe_readU16 {input : Bytes} {offset : Nat} (h : offset + 2 ≤ input.length) :
    Safe (readU16 input offset) := safe_map (safe_slice (Nat.le_add_right ..) h) _

theorem safe_readU32 {input : Bytes} {offset : Nat} (h : offset + 4 ≤ input.length) :
    Safe (readU32 input offset) := safe_map (safe_slice (Nat.le_add_right ..) h) _

theorem safe_readU64 {input : Bytes} {offset : Nat} (h : offset + 8 ≤ input.length) :
    Safe (readU64 input offset) := safe_map (safe_slice (Nat.le_add_right ..) h) _

theorem safe_records {record : Nat → Decoded α} :
    ∀ {count index : Nat}, (∀ i, index ≤ i → i < index + count → Safe (record i)) →
      Safe (records record index count)
  | 0, _, _ => safe_ok []
  | count + 1, index, h =>
    safe_bind (h index (Nat.le_refl _) (by omega)) fun _ _ =>
      safe_bind (safe_records fun i hi hlt => h i (by omega) (by omega)) fun _ _ => safe_ok _

theorem safe_checkRecords {check : Nat → Decoded Unit} :
    ∀ {count index : Nat}, (∀ i, index ≤ i → i < index + count → Safe (check i)) →
      Safe (checkRecords check index count)
  | 0, _, _ => safe_ok ()
  | count + 1, index, h =>
    safe_bind (h index (Nat.le_refl _) (by omega)) fun _ _ =>
      safe_checkRecords fun i hi hlt => h i (by omega) (by omega)

theorem safe_recordVector {record : Nat → Decoded α} :
    ∀ {count : Nat}, (∀ i, i < count → Safe (record i)) → Safe (recordVector record count)
  | 0, _ => safe_ok #v[]
  | count + 1, h =>
    safe_bind (safe_recordVector fun i hi => h i (by omega)) fun _ _ =>
      safe_bind (h count (Nat.lt_succ_self _)) fun _ _ => safe_ok _

end Rules

/-! ## Strict formats -/

/-- A decoder undoes its encoder, accepts nothing else and never leaves its input; what it
accepts it accepts neither cut nor extended. -/
structure StrictCodec {β : Type} (encode : β → Encoded) (decode : Bytes → Decoded β) : Prop where
  codec : Codec encode decode
  safe : ∀ bs : Bytes, Safe (decode bs)
  inconsistent : ∀ bs : Bytes, (∀ b, encode b ≠ .ok bs) → ∃ error, decode bs = reject error
  truncated : ∀ {b : β} {bs : Bytes}, decode bs = .ok b → ∀ n < bs.length,
    ∃ error, decode (bs.take n) = reject error
  extended : ∀ {b : β} {bs : Bytes}, decode bs = .ok b → ∀ more ≠ ([] : Bytes),
    ∃ error, decode (bs ++ more) = reject error

/-- What is not accepted is rejected. -/
theorem rejected_of_safe {β : Type} {m : Decoded β} (h : Safe m) (hnot : ∀ b, m ≠ .ok b) :
    ∃ error, m = reject error := by
  cases m with
  | ok b => exact absurd rfl (hnot b)
  | error fault =>
    cases fault with
    | rejects error => exact ⟨error, rfl⟩
    | panic => exact absurd rfl h

/-! ## What the shared parts do -/

theorem ScalarValue.encode_eq_ok {value : ScalarValue} {bs : Bytes} :
    value.encode = .ok bs ↔ value.Finite ∧ bs = value.bytes := by
  unfold ScalarValue.encode ScalarValue.Finite ScalarValue.bytes
  simp only [bind_eq_ok, failIf_eq_ok, pure_eq, Except.ok.injEq, Bool.not_eq_false]
  constructor
  · rintro ⟨_, hfinite, rfl⟩
    exact ⟨hfinite, rfl⟩
  · rintro ⟨hfinite, rfl⟩
    exact ⟨(), hfinite, rfl⟩

@[simp] theorem length_bytes (value : ScalarValue) : value.bytes.length = 8 := length_le64 _

theorem ScalarValue.decode_eq_ok {value : ScalarValue} {bs : Bytes} (h : bs.length = 8) :
    ScalarValue.decode bs = .ok value ↔ value.Finite ∧ bs = value.bytes := by
  obtain ⟨x, rest, rfl, hrest⟩ := exists_le64_append (Nat.le_of_eq h.symm)
  obtain rfl : rest = [] := List.eq_nil_of_length_eq_zero (by omega)
  unfold ScalarValue.decode ScalarValue.Finite ScalarValue.bytes
  simp only [bind_eq_ok, rejectIf_eq_ok, pure_eq, List.append_nil, readU64_all, length_le64,
    Except.ok.injEq, Bool.not_eq_false]
  constructor
  · rintro ⟨_, -, _, rfl, _, hfinite, rfl⟩
    exact ⟨hfinite, by rw [F64.toBits_ofBits hfinite]⟩
  · rintro ⟨hfinite, hbytes⟩
    have hx : x = value.val.toBits := by rw [← ofLe64_le64 x, hbytes, ofLe64_le64]
    subst hx
    have hvalue := F64.ofBits_toBits hfinite
    exact ⟨(), by omega, _, rfl, (), by rw [hvalue, hfinite], by rw [hvalue]⟩

theorem ScalarValue.decode_bytes {value : ScalarValue} (h : value.Finite) :
    ScalarValue.decode value.bytes = .ok value :=
  (ScalarValue.decode_eq_ok (length_bytes value)).2 ⟨h, rfl⟩

theorem ScalarValue.isBlank_bytes {value : ScalarValue} (h : value.Finite) :
    isBlank value.bytes = decide (value = .zero) := by
  rw [ScalarValue.bytes, isBlank_le64, decide_eq_decide]
  constructor
  · intro hbits
    have hvalue := F64.ofBits_toBits h
    rw [hbits] at hvalue
    exact congrArg ScalarValue.mk hvalue.symm
  · rintro rfl
    decide +kernel

theorem ScalarValue.safe_decode (input : Bytes) : Safe (ScalarValue.decode input) := by
  unfold ScalarValue.decode
  refine safe_rejectIf_bind fun hlength => ?_
  refine safe_bind (safe_readU64 (by omega)) fun value _ => ?_
  exact safe_rejectIf_bind fun _ => safe_ok _

theorem WireHandle.encode_eq (handle : WireHandle) :
    handle.encode = le32 handle.slot ++ le32 handle.generation := by
  unfold WireHandle.encode
  simp [put_append, put_zeros]

@[simp] theorem length_encode_handle (handle : WireHandle) : handle.encode.length = 8 := by
  simp [WireHandle.encode_eq]

@[simp] theorem WireHandle.encode_inj {handle handle' : WireHandle} :
    handle.encode = handle'.encode ↔ handle = handle' := by
  rw [WireHandle.encode_eq, WireHandle.encode_eq, le32_append_inj, le32_inj]
  cases handle
  cases handle'
  simp

@[simp] theorem WireHandle.encode_append_inj {handle handle' : WireHandle} {r s : Bytes} :
    handle.encode ++ r = handle'.encode ++ s ↔ handle = handle' ∧ r = s := by
  rw [append_inj_iff (by simp), WireHandle.encode_inj]

@[simp] theorem WireHandle.decode_encode (handle : WireHandle) :
    WireHandle.decode handle.encode = .ok handle := by
  unfold WireHandle.decode
  rw [rejectIf_neg (by simp), WireHandle.encode_eq]
  simp [readU32_skip]

theorem WireHandle.decode_eq_ok {handle : WireHandle} {bs : Bytes} (h : bs.length = 8) :
    WireHandle.decode bs = .ok handle ↔ bs = handle.encode := by
  constructor
  · intro hdecode
    obtain ⟨slot, rest, rfl, hrest⟩ := exists_le32_append (show 4 ≤ bs.length by omega)
    obtain ⟨generation, rest', rfl, hrest'⟩ := exists_le32_append (show 4 ≤ rest.length by omega)
    obtain rfl : rest' = [] := List.eq_nil_of_length_eq_zero (by omega)
    have hwhole := WireHandle.decode_encode ⟨slot, generation⟩
    rw [WireHandle.encode_eq] at hwhole ⊢
    rw [List.append_nil, hwhole] at hdecode
    cases hdecode
    simp
  · rintro rfl
    exact WireHandle.decode_encode handle

theorem exists_handle_append {bs : Bytes} (h : 8 ≤ bs.length) :
    ∃ (handle : WireHandle) (rest : Bytes),
      bs = handle.encode ++ rest ∧ rest.length + 8 = bs.length := by
  obtain ⟨slot, rest, rfl, hrest⟩ := exists_le32_append (show 4 ≤ bs.length by omega)
  obtain ⟨generation, rest', rfl, hrest'⟩ := exists_le32_append (show 4 ≤ rest.length by omega)
  exact ⟨⟨slot, generation⟩, rest', by rw [WireHandle.encode_eq, List.append_assoc], by omega⟩

@[simp] theorem isBlank_encode_handle (handle : WireHandle) :
    isBlank handle.encode = decide (handle = .blank) := by
  rw [WireHandle.encode_eq, isBlank_append, isBlank_le32, isBlank_le32, ← Bool.decide_and,
    decide_eq_decide]
  cases handle
  simp [WireHandle.blank]

theorem WireHandle.safe_decode (input : Bytes) : Safe (WireHandle.decode input) := by
  unfold WireHandle.decode
  refine safe_rejectIf_bind fun hlength => ?_
  refine safe_bind (safe_readU32 (by omega)) fun slot _ => ?_
  exact safe_bind (safe_readU32 (by omega)) fun generation _ => safe_ok _

theorem decodeBoolean_eq_ok {value : UInt32} {b : Bool} :
    decodeBoolean value = .ok b ↔ value = boolWord b := by
  unfold decodeBoolean boolWord
  split
  · subst value
    cases b <;> simp
  split
  · subst value
    cases b <;> simp
  · cases b <;> simp [*]

theorem requireExactLen_eq_ok {input : Bytes} {expected : Nat} {u : Unit} :
    requireExactLen input expected = .ok u ↔ input.length = expected := by
  unfold requireExactLen
  rw [rejectIf_eq_ok, not_not]

theorem safe_requireExactLen_bind {β : Type} {input : Bytes} {expected : Nat}
    {f : Unit → Decoded β} (hf : input.length = expected → Safe (f ())) :
    Safe (requireExactLen input expected >>= f) :=
  safe_rejectIf_bind fun h => hf (not_not.1 h)

/-! ## Counted payloads -/

theorem payloadLength_eq_ok {usizeBits header count recordLen expected : Nat} {input : Bytes} :
    payloadLength usizeBits header count recordLen input = .ok expected ↔
      expected = header + count * recordLen ∧ expected < 2 ^ usizeBits := by
  unfold payloadLength checkedMul checkedAdd
  by_cases hmul : count * recordLen < 2 ^ usizeBits
  · by_cases hadd : header + count * recordLen < 2 ^ usizeBits
    · simp only [if_pos hmul, Option.bind_some, if_pos hadd, Except.ok.injEq]
      constructor
      · rintro rfl
        exact ⟨rfl, hadd⟩
      · exact fun h => h.1.symm
    · simp only [if_pos hmul, Option.bind_some, if_neg hadd, reject]
      constructor
      · intro h
        cases h
      · rintro ⟨rfl, h⟩
        exact absurd h hadd
  · simp only [if_neg hmul, Option.bind_none, reject]
    constructor
    · intro h
      cases h
    · rintro ⟨rfl, h⟩
      exact absurd (Nat.lt_of_le_of_lt (Nat.le_add_left ..) h) hmul

theorem safe_payloadLength {usizeBits header count recordLen : Nat} {input : Bytes} :
    Safe (payloadLength usizeBits header count recordLen input) := by
  unfold payloadLength
  split
  · exact safe_ok _
  · exact safe_reject

theorem validateCountedPayload_eq_ok {usizeBits recordLen : Nat} {input : Bytes}
    {maximum count : UInt32} :
    validateCountedPayload usizeBits input recordLen maximum = .ok count ↔
      ∃ bs : Bytes, input = le32 count ++ bs ∧ bs.length = count.toNat * recordLen ∧
        count ≤ maximum ∧ input.length < 2 ^ usizeBits := by
  unfold validateCountedPayload
  simp only [bind_eq_ok, rejectIf_eq_ok, payloadLength_eq_ok, requireExactLen_eq_ok, pure_eq,
    Except.ok.injEq]
  constructor
  · rintro ⟨_, hfour, c, hread, _, hmaximum, expected, ⟨rfl, hbits⟩, _, hlength, rfl⟩
    obtain ⟨c', bs, rfl, hbs⟩ := exists_le32_append (Nat.not_lt.1 hfour)
    rw [readU32_block, Except.ok.injEq] at hread
    subst hread
    exact ⟨bs, rfl, by omega, UInt32.not_lt.1 hmaximum, by omega⟩
  · rintro ⟨bs, rfl, hbs, hmaximum, hbits⟩
    rw [List.length_append, length_le32] at hbits ⊢
    exact ⟨(), by omega, count, readU32_block count bs, (), UInt32.not_lt.2 hmaximum, _,
      ⟨rfl, by omega⟩, (), by omega, rfl⟩

theorem safe_validateCountedPayload {usizeBits recordLen : Nat} {input : Bytes}
    {maximum : UInt32} : Safe (validateCountedPayload usizeBits input recordLen maximum) := by
  unfold validateCountedPayload
  refine safe_rejectIf_bind fun hlength => ?_
  refine safe_bind (safe_readU32 (by omega)) fun count _ => ?_
  refine safe_rejectIf_bind fun _ => ?_
  refine safe_bind safe_payloadLength fun expected _ => ?_
  exact safe_requireExactLen_bind fun _ => safe_ok _

theorem checkedEncodeCount_eq_ok {n : Nat} {count : UInt32} :
    checkedEncodeCount n = .ok count ↔ n = count.toNat := by
  unfold checkedEncodeCount
  simp only [bind_eq_ok, failIf_eq_ok, pure_eq, Except.ok.injEq]
  constructor
  · rintro ⟨_, hn, rfl⟩
    exact (UInt32.toNat_ofNat_of_lt' (Nat.not_le.1 hn)).symm
  · rintro rfl
    exact ⟨(), Nat.not_le.2 count.toNat_lt, UInt32.ofNat_toNat⟩

section Counted

variable {α : Type} {usizeBits len : Nat} {carries : α → Bytes → Prop}
  {record : Bytes → Nat → Decoded α} {check : Bytes → Nat → Decoded Unit}
  {input : Bytes} {maximum : UInt32}

/-- What a payload with a count in front has to be to carry a list. -/
structure CountedPayload (usizeBits : Nat) (carries : α → Bytes → Prop) (maximum : UInt32)
    (entries : List α) (input : Bytes) : Prop where
  layout : ∃ (count : UInt32) (bs : Bytes), input = le32 count ++ bs ∧
    count.toNat = entries.length ∧ CarriesAll carries entries bs
  bound : entries.length ≤ maximum.toNat
  addressable : input.length < 2 ^ usizeBits

/-- A decoder accepts the payloads that carry a list. -/
theorem decodeCounted_eq_ok (h : RecordFormat len carries record) {entries : List α} :
    decodeCounted usizeBits len record input maximum = .ok entries ↔
      CountedPayload usizeBits carries maximum entries input := by
  unfold decodeCounted
  simp only [bind_eq_ok, validateCountedPayload_eq_ok]
  constructor
  · rintro ⟨count, ⟨bs, rfl, hbs, hmaximum, hbits⟩, hrecords⟩
    obtain ⟨hall, hlength⟩ := (h.records_all (le32 count) hbs).1 hrecords
    exact ⟨⟨count, bs, rfl, hlength.symm, hall⟩, hlength ▸ UInt32.le_iff_toNat_le.1 hmaximum, hbits⟩
  · rintro ⟨⟨count, bs, rfl, hcount, hall⟩, hbound, hbits⟩
    have hbs : bs.length = count.toNat * len := by rw [h.length_all hall, hcount]
    exact ⟨count, ⟨bs, rfl, hbs, UInt32.le_iff_toNat_le.2 (hcount ▸ hbound), hbits⟩,
      (h.records_all (le32 count) hbs).2 ⟨hall, hcount.symm⟩⟩

/-- The last byte of a record lies in the payload. -/
theorem record_fits {start i count total : Nat} (htotal : total = start + count * len)
    (hi : i < 0 + count) : start + i * len + len ≤ total := by
  have hstep : i * len + len ≤ count * len := by
    rw [← Nat.succ_mul]
    exact Nat.mul_le_mul_right len (by omega)
  omega

theorem safe_decodeCounted (h : ∀ offset, offset + len ≤ input.length → Safe (record input offset)) :
    Safe (decodeCounted usizeBits len record input maximum) := by
  refine safe_bind safe_validateCountedPayload fun count hcount => ?_
  obtain ⟨bs, rfl, hbs, -⟩ := validateCountedPayload_eq_ok.1 hcount
  refine safe_records fun i _ hi => h _ (record_fits ?_ hi)
  rw [List.length_append, length_le32, hbs]

theorem safe_validateCounted (h : ∀ offset, offset + len ≤ input.length → Safe (check input offset)) :
    Safe (validateCounted usizeBits len check input maximum) := by
  refine safe_bind safe_validateCountedPayload fun count hcount => ?_
  obtain ⟨bs, rfl, hbs, -⟩ := validateCountedPayload_eq_ok.1 hcount
  refine safe_bind (safe_checkRecords fun i _ hi => h _ (record_fits ?_ hi)) fun _ _ => safe_ok _
  rw [List.length_append, length_le32, hbs]

theorem validateCounted_length {count : UInt32}
    (h : validateCounted usizeBits len check input maximum = .ok count) :
    input.length = 4 + count.toNat * len := by
  obtain ⟨count', hcount, h⟩ := bind_eq_ok.1 h
  obtain ⟨_, -, h⟩ := bind_eq_ok.1 h
  cases h
  obtain ⟨bs, rfl, hbs, -⟩ := validateCountedPayload_eq_ok.1 hcount
  rw [List.length_append, length_le32, hbs]

theorem safe_validated (hcheck : ∀ offset, offset + len ≤ input.length → Safe (check input offset))
    (hrecord : ∀ offset, offset + len ≤ input.length → Safe (record input offset)) :
    Safe (do
      let count ← validateCounted usizeBits len check input maximum
      records (fun index => record input (4 + index * len)) 0 count.toNat) :=
  safe_bind (safe_validateCounted hcheck) fun _ hcount => safe_records fun _ _ hi =>
    hrecord _ (record_fits (validateCounted_length hcount) hi)

/-- A decoder that looks at all records first reads what it looked at. -/
theorem validateCounted_records {entries : List α} :
    (∃ count, validateCounted usizeBits len check input maximum = .ok count ∧
      records (fun index => record input (4 + index * len)) 0 count.toNat = .ok entries) ↔
      decodeCounted usizeBits len (fun bs offset => check bs offset >>= fun _ => record bs offset)
        input maximum = .ok entries := by
  unfold validateCounted decodeCounted
  simp only [bind_eq_ok, pure_eq, Except.ok.injEq, ← checkRecords_records]
  constructor
  · rintro ⟨_, ⟨count, hcount, _, hcheck, rfl⟩, hrecords⟩
    exact ⟨count, hcount, hcheck, hrecords⟩
  · rintro ⟨count, hcount, hcheck, hrecords⟩
    exact ⟨count, ⟨count, hcount, (), hcheck, rfl⟩, hrecords⟩

/-- What was encoded is the payload of the list. -/
theorem encodeCounted_eq_ok {encode : α → Encoded} {entries : List α} {bs : Bytes} :
    encodeCounted encode entries = .ok bs ↔
      ∃ (count : UInt32) (body : Bytes), bs = le32 count ++ body ∧
        count.toNat = entries.length ∧ CarriesAll (fun a r => encode a = .ok r) entries body := by
  unfold encodeCounted
  simp only [bind_eq_ok, checkedEncodeCount_eq_ok, encodeAll_eq_ok, pure_eq, Except.ok.injEq]
  constructor
  · rintro ⟨count, hcount, body, hall, rfl⟩
    exact ⟨count, body, rfl, hcount.symm, hall⟩
  · rintro ⟨count, body, rfl, hcount, hall⟩
    exact ⟨count, hcount.symm, body, hall, rfl⟩

/-- What a batch format promises: a list that fits is decoded again, and what is accepted is a
count within the limit and that many canonical records. -/
structure BatchFormat (usizeBits len : Nat) (carries : α → Bytes → Prop)
    (encode : List α → Encoded) (decode : Bytes → UInt32 → Decoded (List α)) : Prop where
  decode_encode : ∀ {entries : List α} {bs : Bytes} {maximum : UInt32}, encode entries = .ok bs →
    entries.length ≤ maximum.toNat → bs.length < 2 ^ usizeBits → decode bs maximum = .ok entries
  canonical : ∀ {entries : List α} {bs : Bytes} {maximum : UInt32}, decode bs maximum = .ok entries →
    CountedPayload usizeBits carries maximum entries bs ∧ bs.length = 4 + entries.length * len

theorem CountedPayload.length (h : RecordFormat len carries record) {entries : List α}
    (hpayload : CountedPayload usizeBits carries maximum entries input) :
    input.length = 4 + entries.length * len := by
  obtain ⟨count, bs, rfl, -, hall⟩ := hpayload.layout
  rw [List.length_append, length_le32, h.length_all hall]

theorem CountedPayload.of_encode {encode : α → Encoded}
    (hencode : ∀ {a : α} {bs : Bytes}, encode a = .ok bs → carries a bs) {entries : List α}
    (h : encodeCounted encode entries = .ok input) (hbound : entries.length ≤ maximum.toNat)
    (hbits : input.length < 2 ^ usizeBits) :
    CountedPayload usizeBits carries maximum entries input := by
  obtain ⟨count, body, rfl, hcount, hall⟩ := encodeCounted_eq_ok.1 h
  exact ⟨⟨count, body, rfl, hcount, carriesAll_mono (fun _ _ => hencode) hall⟩, hbound, hbits⟩

theorem batchFormat {encode : α → Encoded} (h : RecordFormat len carries record)
    (hencode : ∀ {a : α} {bs : Bytes}, encode a = .ok bs → carries a bs) :
    BatchFormat usizeBits len carries (encodeCounted encode) (decodeCounted usizeBits len record) where
  decode_encode := by
    intro entries bs maximum hbs hbound hbits
    exact (decodeCounted_eq_ok h).2 (.of_encode hencode hbs hbound hbits)
  canonical := by
    intro entries bs maximum hbs
    have hpayload := (decodeCounted_eq_ok h).1 hbs
    exact ⟨hpayload, hpayload.length h⟩

/-- The same for a decoder that looks at all records first. -/
theorem batchFormat_validated {encode : α → Encoded}
    (h : RecordFormat len carries fun bs offset => check bs offset >>= fun _ => record bs offset)
    (hencode : ∀ {a : α} {bs : Bytes}, encode a = .ok bs → carries a bs) :
    BatchFormat usizeBits len carries (encodeCounted encode) fun input maximum => do
      let count ← validateCounted usizeBits len check input maximum
      records (fun index => record input (4 + index * len)) 0 count.toNat where
  decode_encode := by
    intro entries bs maximum hbs hbound hbits
    exact bind_eq_ok.2 (validateCounted_records.2 ((batchFormat h hencode).decode_encode hbs hbound hbits))
  canonical := by
    intro entries bs maximum hbs
    exact (batchFormat h hencode).canonical (validateCounted_records.1 (bind_eq_ok.1 hbs))

end Counted

theorem checkUnique_eq_ok {α κ : Type} [DecidableEq κ] {key : α → κ} {error : α → ProtocolError}
    {seen : List κ} {as : List α} {u : Unit} :
    checkUnique key error seen as = .ok u ↔ (as.map key).Nodup ∧ ∀ a ∈ as, key a ∉ seen := by
  induction as generalizing seen with
  | nil => simp [checkUnique]
  | cons a rest ih =>
    unfold checkUnique
    by_cases hseen : key a ∈ seen
    · simp [hseen]
    · rw [if_neg hseen, ih, List.map_cons, List.nodup_cons]
      constructor
      · rintro ⟨hnodup, hrest⟩
        refine ⟨⟨?_, hnodup⟩, ?_⟩
        · intro hmem
          obtain ⟨b, hb, hkey⟩ := List.mem_map.1 hmem
          exact hrest b hb (hkey ▸ List.mem_cons_self)
        · intro b hb
          rcases List.mem_cons.1 hb with rfl | hb
          · exact hseen
          · exact fun hmem => hrest b hb (List.mem_cons_of_mem _ hmem)
      · rintro ⟨⟨hfresh, hnodup⟩, hall⟩
        refine ⟨hnodup, fun b hb hmem => ?_⟩
        rcases List.mem_cons.1 hmem with hkey | hmem
        · exact hfresh (hkey ▸ List.mem_map_of_mem hb)
        · exact hall b (List.mem_cons_of_mem _ hb) hmem

/-! ## Narrow numbers -/

theorem encodeCompactScalar_eq_ok {value : ScalarValue} {bs : Bytes} :
    encodeCompactScalar value = .ok bs ↔
      value.Finite ∧ FloatFormat.isFinite (narrow value.val : F32) = true ∧
        bs = le32 (narrow value.val : F32).toBits := by
  unfold encodeCompactScalar ScalarValue.Finite
  simp only [bind_eq_ok, failIf_eq_ok, not_or, Bool.not_eq_false, pure_eq, Except.ok.injEq]
  constructor
  · rintro ⟨_, ⟨hvalue, hnarrow⟩, rfl⟩
    exact ⟨hvalue, hnarrow, rfl⟩
  · rintro ⟨hvalue, hnarrow, rfl⟩
    exact ⟨(), ⟨hvalue, hnarrow⟩, rfl⟩

/-- What is written for a number is that number in the narrow format. -/
theorem compactCarries_of_encode {value : ScalarValue} {bs : Bytes}
    (h : encodeCompactScalar value = .ok bs) : value.compact.CompactCarries bs := by
  obtain ⟨-, hnarrow, rfl⟩ := encodeCompactScalar_eq_ok.1 h
  exact ⟨narrow value.val, hnarrow, rfl, rfl⟩

/-- A number of the narrow format is written as it is. -/
theorem compactCarries_iff {value : ScalarValue} {bs : Bytes} :
    value.CompactCarries bs ↔ encodeCompactScalar value = .ok bs ∧ value.compact = value := by
  constructor
  · rintro ⟨x, hx, rfl, rfl⟩
    have hback : narrow (widen x) = x := narrow_widen hx
    refine ⟨encodeCompactScalar_eq_ok.2 ⟨isFinite_widen hx, ?_, ?_⟩, ?_⟩
    · rw [hback, hx]
    · rw [hback]
    · unfold ScalarValue.compact
      rw [hback]
  · rintro ⟨hencode, hcompact⟩
    rw [← hcompact]
    exact compactCarries_of_encode hencode

theorem decodeCompactScalar_eq_ok {value : ScalarValue} {bs : Bytes} (h : bs.length = 4) :
    decodeCompactScalar bs 0 = .ok value ↔ value.CompactCarries bs := by
  obtain ⟨x, rest, rfl, hrest⟩ := exists_le32_append (Nat.le_of_eq h.symm)
  obtain rfl : rest = [] := List.eq_nil_of_length_eq_zero (by omega)
  unfold decodeCompactScalar ScalarValue.CompactCarries
  simp only [List.append_nil, readU32_all, bind_ok, bind_eq_ok, rejectIf_eq_ok, Bool.not_eq_false,
    pure_eq, Except.ok.injEq]
  constructor
  · rintro ⟨_, hfinite, rfl⟩
    exact ⟨_, hfinite, rfl, by rw [F32.toBits_ofBits hfinite]⟩
  · rintro ⟨y, hy, rfl, hbytes⟩
    rw [le32_inj] at hbytes
    subst hbytes
    have hback := F32.ofBits_toBits hy
    exact ⟨(), by rw [hback, hy], by rw [hback]⟩

section

variable {p bs : Bytes} {offset : Nat}

theorem decodeCompactScalar_block (rest : Bytes) (h : p.length = 4) :
    decodeCompactScalar (p ++ rest) 0 = decodeCompactScalar p 0 := by
  unfold decodeCompactScalar
  rw [readU32_front rest (by omega)]

theorem decodeCompactScalar_skip (rest : Bytes) (h : p.length ≤ offset) :
    decodeCompactScalar (p ++ rest) offset = decodeCompactScalar rest (offset - p.length) := by
  unfold decodeCompactScalar
  rw [readU32_skip rest h]

end

theorem compactFormat : RecordFormat 4 ScalarValue.CompactCarries decodeCompactScalar where
  length := by
    rintro value _ ⟨x, -, -, rfl⟩
    exact length_le32 _
  decode_iff := decodeCompactScalar_eq_ok
  shift := by
    intro bs p rest h
    unfold decodeCompactScalar
    rw [readU32_shift_zero p rest (Nat.le_of_eq h.symm)]

end Dogmos
