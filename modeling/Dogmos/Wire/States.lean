import Dogmos.Wire.Batches

/-!
# Mixture states, adjustments and snapshots

A state of a mixture travels in a direct batch or in the parts of an upload.  Both read
the same records with `stateRecord`; only the direct batch looks at the reserved word of
each record first (`stateCheck`).

* `MixtureStateMutation.Carries` — the bytes of a state with some reserved word.
* `decodeMixtureStateBatch_eq_ok`, `uploadAppend_decode_eq_ok` — what the two decoders
  accept: they differ in the reserved words.
* `MixtureSnapshot.compact` — a snapshot as a compact record holds it: the numbers are
  those of the narrow format.
-/

namespace Dogmos.Wire

open Bytes

/-! ## Numbers in a row -/

/-- A number and its bytes. -/
def ScalarCarries (value : ScalarValue) (bs : Bytes) : Prop := value.Finite ∧ bs = value.bytes

theorem scalarFormat : RecordFormat 8 ScalarCarries readScalar where
  length := by
    rintro value _ ⟨-, rfl⟩
    exact length_bytes value
  decode_iff := by
    intro value bs h
    rw [readScalar_all h]
    exact ScalarValue.decode_eq_ok h
  shift := by
    intro bs p rest h
    exact readScalar_shift (k := 0) p rest (Nat.le_of_eq h.symm)

theorem encodeAll_scalars {values : List ScalarValue} {bs : Bytes} :
    encodeAll ScalarValue.encode values = .ok bs ↔ CarriesAll ScalarCarries values bs := by
  rw [encodeAll_eq_ok]
  exact carriesAll_congr fun _ _ => ScalarValue.encode_eq_ok

/-- A row of numbers behind some bytes. -/
theorem scalarRow_eq_ok {front bs : Bytes} {start count : Nat} {values : Vector ScalarValue count}
    (hfront : front.length = start) (hbs : bs.length = count * 8) :
    recordVector (fun i => readScalar (front ++ bs) (start + i * 8)) count = .ok values ↔
      CarriesAll ScalarCarries values.toList bs := by
  subst hfront
  rw [recordVector_iff_records, scalarFormat.records_all front hbs]
  simp

theorem recordVector_congr {α : Type} {f g : Nat → Decoded α} :
    ∀ {count : Nat}, (∀ i, i < count → f i = g i) → recordVector f count = recordVector g count
  | 0, _ => rfl
  | count + 1, h => by
    unfold recordVector
    rw [recordVector_congr fun i hi => h i (Nat.lt_succ_of_lt hi), h count (Nat.lt_succ_self _)]

/-! ## States -/

def mixtureStateMutationLen : Nat := 32 + wireGasSlots * 8

/-- `MixtureStateMutation`. -/
structure MixtureStateMutation where
  handle : WireHandle
  expectedRevision : UInt32
  temperature : ScalarValue
  volume : ScalarValue
  gases : Vector ScalarValue wireGasSlots
deriving DecidableEq

/-- One turn of the loop of `encode_mixture_state_records`. -/
def MixtureStateMutation.encode (entry : MixtureStateMutation) : Encoded := do
  let temperature ← entry.temperature.encode
  let volume ← entry.volume.encode
  let gases ← encodeAll ScalarValue.encode entry.gases.toList
  pure (entry.handle.encode ++ (le32 entry.expectedRevision ++ (le32 0 ++ (temperature ++
    (volume ++ gases)))))

/-- `encode_mixture_state_batch`. -/
def encodeMixtureStateBatch (entries : List MixtureStateMutation) : Encoded :=
  encodeCounted MixtureStateMutation.encode entries

/-- One turn of the loop of `decode_mixture_state_records`. -/
def stateRecord (input : Bytes) (offset : Nat) : Decoded MixtureStateMutation := do
  let gases ← recordVector (fun gasIndex => readScalar input (offset + 32 + gasIndex * 8))
    wireGasSlots
  let handle ← readHandle input offset
  let expectedRevision ← readU32 input (offset + 8)
  let temperature ← readScalar input (offset + 16)
  let volume ← readScalar input (offset + 24)
  pure ⟨handle, expectedRevision, temperature, volume, gases⟩

/-- `decode_mixture_state_records`. -/
def decodeMixtureStateRecords (input : Bytes) (count : UInt32) :
    Decoded (List MixtureStateMutation) :=
  records (fun index => stateRecord input (index * mixtureStateMutationLen)) 0 count.toNat

/-- One turn of the loop of `validate_mixture_state_batch`. -/
def stateCheck (input : Bytes) (offset : Nat) : Decoded Unit := do
  let _ ← readHandle input offset
  let reserved ← readU32 input (offset + 12)
  rejectIf (reserved ≠ 0) (.reservedMixtureStateField reserved)
  let _ ← readScalar input (offset + 16)
  let _ ← readScalar input (offset + 24)
  let _ ← recordVector (fun gasIndex => readScalar input (offset + 32 + gasIndex * 8)) wireGasSlots
  pure ()

/-- `validate_mixture_state_batch`. -/
def validateMixtureStateBatch (usizeBits : Nat) (input : Bytes) (maximum : UInt32) :
    Decoded UInt32 :=
  validateCounted usizeBits mixtureStateMutationLen stateCheck input maximum

/-- `decode_mixture_state_batch`. -/
def decodeMixtureStateBatch (usizeBits : Nat) (input : Bytes) (maximum : UInt32) :
    Decoded (List MixtureStateMutation) := do
  let count ← validateMixtureStateBatch usizeBits input maximum
  decodeMixtureStateRecords (← slice input 4 input.length) count

/-- The bytes of a state with some reserved word. -/
def MixtureStateMutation.Carries (reserved : UInt32) (entry : MixtureStateMutation) (bs : Bytes) :
    Prop :=
  (entry.temperature.Finite ∧ entry.volume.Finite) ∧
    ∃ gases : Bytes, CarriesAll ScalarCarries entry.gases.toList gases ∧
      bs = entry.handle.encode ++ (le32 entry.expectedRevision ++ (le32 reserved ++
        (entry.temperature.bytes ++ (entry.volume.bytes ++ gases))))

theorem MixtureStateMutation.encode_eq_ok {entry : MixtureStateMutation} {bs : Bytes} :
    entry.encode = .ok bs ↔ entry.Carries 0 bs := by
  unfold MixtureStateMutation.encode MixtureStateMutation.Carries
  simp only [bind_eq_ok, ScalarValue.encode_eq_ok, encodeAll_scalars, pure_eq, Except.ok.injEq]
  constructor
  · rintro ⟨_, ⟨ht, rfl⟩, _, ⟨hv, rfl⟩, gases, hgases, rfl⟩
    exact ⟨⟨ht, hv⟩, gases, hgases, rfl⟩
  · rintro ⟨⟨ht, hv⟩, gases, hgases, rfl⟩
    exact ⟨_, ⟨ht, rfl⟩, _, ⟨hv, rfl⟩, gases, hgases, rfl⟩

theorem MixtureStateMutation.Carries.length {reserved : UInt32} {entry : MixtureStateMutation}
    {bs : Bytes} (h : entry.Carries reserved bs) : bs.length = mixtureStateMutationLen := by
  obtain ⟨-, gases, hgases, rfl⟩ := h
  have hlength := scalarFormat.length_all hgases
  rw [Vector.length_toList] at hlength
  simp [mixtureStateMutationLen, hlength, wireGasSlots]

/-- A string of the length of a state, split into its fields. -/
theorem exists_state_fields {bs : Bytes} (h : bs.length = mixtureStateMutationLen) :
    ∃ (handle : WireHandle) (revision reserved : UInt32) (p q gases : Bytes),
      bs = handle.encode ++ (le32 revision ++ (le32 reserved ++ (p ++ (q ++ gases)))) ∧
        p.length = 8 ∧ q.length = 8 ∧ gases.length = wireGasSlots * 8 := by
  unfold mixtureStateMutationLen wireGasSlots at h
  obtain ⟨handle, bs, rfl, h₁⟩ := exists_handle_append (show 8 ≤ bs.length by omega)
  obtain ⟨revision, bs, rfl, h₂⟩ := exists_le32_append (show 4 ≤ bs.length by omega)
  obtain ⟨reserved, bs, rfl, h₃⟩ := exists_le32_append (show 4 ≤ bs.length by omega)
  obtain ⟨p, bs, rfl, hp, h₄⟩ := exists_append (show 8 ≤ bs.length by omega)
  obtain ⟨q, gases, rfl, hq, h₅⟩ := exists_append (show 8 ≤ bs.length by omega)
  exact ⟨handle, revision, reserved, p, q, gases, rfl, hp, hq, by unfold wireGasSlots; omega⟩

section Fields

variable {handle : WireHandle} {revision reserved : UInt32} {p q gases : Bytes}

/-- The gases of a state. -/
theorem state_gases {values : Vector ScalarValue wireGasSlots} (hp : p.length = 8)
    (hq : q.length = 8) (hgases : gases.length = wireGasSlots * 8) :
    recordVector (fun i => readScalar (handle.encode ++ (le32 revision ++ (le32 reserved ++
        (p ++ (q ++ gases))))) (32 + i * 8)) wireGasSlots = .ok values ↔
      CarriesAll ScalarCarries values.toList gases := by
  have hfront : (handle.encode ++ (le32 revision ++ (le32 reserved ++ (p ++ q)))).length = 32 := by
    simp [hp, hq]
  have hrow := @scalarRow_eq_ok _ _ _ _ values hfront hgases
  simpa only [List.append_assoc] using hrow

theorem stateRecord_fields {entry : MixtureStateMutation} (hp : p.length = 8) (hq : q.length = 8)
    (hgases : gases.length = wireGasSlots * 8) :
    stateRecord (handle.encode ++ (le32 revision ++ (le32 reserved ++ (p ++ (q ++ gases))))) 0 =
        .ok entry ↔
      entry.Carries reserved
        (handle.encode ++ (le32 revision ++ (le32 reserved ++ (p ++ (q ++ gases))))) := by
  unfold stateRecord MixtureStateMutation.Carries
  simp only [Nat.zero_add, bind_eq_ok, state_gases hp hq hgases, readHandle_block, readU32_block,
    readU32_skip, readScalar_skip, readScalar_block _ hp, readScalar_block _ hq, length_le32,
    length_encode_handle, hp, Nat.reduceLeDiff, Nat.reduceSub, bind_ok,
    ScalarValue.decode_eq_ok hp, ScalarValue.decode_eq_ok hq, pure_eq, Except.ok.injEq,
    le32_append_inj, WireHandle.encode_append_inj]
  constructor
  · rintro ⟨values, hvalues, t, ⟨ht, rfl⟩, v, ⟨hv, rfl⟩, rfl⟩
    exact ⟨⟨ht, hv⟩, gases, hvalues, rfl, rfl, trivial, rfl⟩
  · rintro ⟨⟨ht, hv⟩, gases', hvalues, rfl, rfl, -, hbytes⟩
    rw [append_inj_iff (by simp [hp]), append_inj_iff (by simp [hq])] at hbytes
    obtain ⟨rfl, rfl, rfl⟩ := hbytes
    exact ⟨_, hvalues, _, ⟨ht, rfl⟩, _, ⟨hv, rfl⟩, rfl⟩

theorem stateCheck_fields (hp : p.length = 8) (hq : q.length = 8)
    (hgases : gases.length = wireGasSlots * 8) :
    stateCheck (handle.encode ++ (le32 revision ++ (le32 reserved ++ (p ++ (q ++ gases))))) 0 =
        .ok () ↔
      reserved = 0 ∧ ∃ entry : MixtureStateMutation, entry.Carries reserved
        (handle.encode ++ (le32 revision ++ (le32 reserved ++ (p ++ (q ++ gases))))) := by
  unfold stateCheck MixtureStateMutation.Carries
  simp only [Nat.zero_add, bind_eq_ok, state_gases hp hq hgases, readHandle_block, readU32_block,
    readU32_skip, readScalar_skip, readScalar_block _ hp, readScalar_block _ hq, length_le32,
    length_encode_handle, hp, Nat.reduceLeDiff, Nat.reduceSub, bind_ok, rejectIf_eq_ok,
    not_not, ScalarValue.decode_eq_ok hp, ScalarValue.decode_eq_ok hq, pure_eq,
    le32_append_inj, WireHandle.encode_append_inj]
  constructor
  · rintro ⟨_, hreserved, t, ⟨ht, rfl⟩, v, ⟨hv, rfl⟩, values, hvalues, -⟩
    exact ⟨hreserved, ⟨handle, revision, t, v, values⟩, ⟨ht, hv⟩, gases, hvalues, rfl, rfl, trivial,
      rfl⟩
  · rintro ⟨hreserved, entry, ⟨ht, hv⟩, gases', hvalues, rfl, rfl, -, hbytes⟩
    rw [append_inj_iff (by simp [hp]), append_inj_iff (by simp [hq])] at hbytes
    obtain ⟨rfl, rfl, rfl⟩ := hbytes
    exact ⟨(), hreserved, _, ⟨ht, rfl⟩, _, ⟨hv, rfl⟩, _, hvalues, trivial⟩

end Fields

theorem stateRecord_shift {bs : Bytes} (p rest : Bytes) (h : bs.length = mixtureStateMutationLen) :
    stateRecord (p ++ (bs ++ rest)) p.length = stateRecord bs 0 := by
  unfold mixtureStateMutationLen wireGasSlots at h
  have hgases : ∀ i, i < wireGasSlots →
      readScalar (p ++ (bs ++ rest)) (p.length + 32 + i * 8) = readScalar bs (32 + i * 8) := by
    intro i hi
    unfold wireGasSlots at hi
    rw [Nat.add_assoc, readScalar_shift p rest (by omega)]
  unfold stateRecord
  simp only [recordVector_congr hgases, readHandle_shift_zero, readU32_shift, readScalar_shift, h,
    Nat.reduceLeDiff, Nat.reduceAdd, Nat.reduceMul, Nat.zero_add]

theorem stateCheck_shift {bs : Bytes} (p rest : Bytes) (h : bs.length = mixtureStateMutationLen) :
    stateCheck (p ++ (bs ++ rest)) p.length = stateCheck bs 0 := by
  unfold mixtureStateMutationLen wireGasSlots at h
  have hgases : ∀ i, i < wireGasSlots →
      readScalar (p ++ (bs ++ rest)) (p.length + 32 + i * 8) = readScalar bs (32 + i * 8) := by
    intro i hi
    unfold wireGasSlots at hi
    rw [Nat.add_assoc, readScalar_shift p rest (by omega)]
  unfold stateCheck
  simp only [recordVector_congr hgases, readHandle_shift_zero, readU32_shift, readScalar_shift, h,
    Nat.reduceLeDiff, Nat.reduceAdd, Nat.reduceMul, Nat.zero_add]

/-- Reading a record does not look at its reserved word. -/
theorem stateFormat : RecordFormat mixtureStateMutationLen
    (fun entry bs => ∃ reserved, MixtureStateMutation.Carries reserved entry bs) stateRecord where
  length := by
    rintro entry bs ⟨reserved, h⟩
    exact h.length
  decode_iff := by
    intro entry bs h
    obtain ⟨handle, revision, reserved, p, q, gases, rfl, hp, hq, hgases⟩ := exists_state_fields h
    rw [stateRecord_fields hp hq hgases]
    constructor
    · exact fun hcarries => ⟨reserved, hcarries⟩
    · rintro ⟨reserved', hvalues, gases', hgases', hbytes⟩
      simp only [WireHandle.encode_append_inj, le32_append_inj] at hbytes
      obtain ⟨rfl, rfl, rfl, hbytes⟩ := hbytes
      exact ⟨hvalues, gases', hgases', by rw [hbytes]⟩
  shift := stateRecord_shift

/-- A record whose reserved word was looked at. -/
theorem checkedStateFormat : RecordFormat mixtureStateMutationLen (MixtureStateMutation.Carries 0)
    fun input offset => stateCheck input offset >>= fun _ => stateRecord input offset where
  length := MixtureStateMutation.Carries.length
  decode_iff := by
    intro entry bs h
    obtain ⟨handle, revision, reserved, p, q, gases, rfl, hp, hq, hgases⟩ := exists_state_fields h
    simp only [bind_eq_ok, stateCheck_fields hp hq hgases, stateRecord_fields hp hq hgases]
    constructor
    · rintro ⟨_, ⟨rfl, -⟩, hcarries⟩
      exact hcarries
    · intro hcarries
      have hreserved : reserved = 0 := by
        obtain ⟨-, gases', -, hbytes⟩ := hcarries
        simp only [WireHandle.encode_append_inj, le32_append_inj] at hbytes
        exact hbytes.2.2.1
      subst hreserved
      exact ⟨(), ⟨rfl, entry, hcarries⟩, hcarries⟩
  shift := by
    intro bs p rest h
    simp only [stateCheck_shift p rest h, stateRecord_shift p rest h]

/-- The records behind a header are read at their own offsets. -/
theorem decodeMixtureStateRecords_eq_ok {count : UInt32} {bs : Bytes}
    {entries : List MixtureStateMutation} (h : bs.length = count.toNat * mixtureStateMutationLen) :
    decodeMixtureStateRecords bs count = .ok entries ↔
      CarriesAll (fun entry r => ∃ reserved, MixtureStateMutation.Carries reserved entry r) entries bs ∧
        entries.length = count.toNat := by
  unfold decodeMixtureStateRecords
  have hall := @RecordFormat.records_all _ _ _ _ _ stateFormat _ entries _ [] h
  simpa only [List.nil_append, List.length_nil, Nat.zero_add] using hall

/-- The direct batch is a batch of canonical records. -/
theorem mixtureStateBatch (usizeBits : Nat) :
    BatchFormat usizeBits mixtureStateMutationLen (MixtureStateMutation.Carries 0)
      encodeMixtureStateBatch (decodeMixtureStateBatch usizeBits) := by
  have hsame : ∀ (input : Bytes) (maximum : UInt32) (entries : List MixtureStateMutation),
      decodeMixtureStateBatch usizeBits input maximum = .ok entries ↔
        (do
          let count ← validateCounted usizeBits mixtureStateMutationLen stateCheck input maximum
          records (fun index => stateRecord input (4 + index * mixtureStateMutationLen)) 0
            count.toNat) = .ok entries := by
    intro input maximum entries
    unfold decodeMixtureStateBatch validateMixtureStateBatch
    simp only [bind_eq_ok]
    refine exists_congr fun count => and_congr_right fun hcount => ?_
    have hlength := validateCounted_length hcount
    obtain ⟨p, bs, rfl, hp, hbs⟩ := exists_append (show 4 ≤ input.length by omega)
    have hbs : bs.length = count.toNat * mixtureStateMutationLen := by omega
    have hslice : slice (ε := ProtocolError) (p ++ bs) 4 (p ++ bs).length = .ok bs :=
      slice_rest bs hp
    have hrecords := @RecordFormat.records_all _ _ _ _ _ stateFormat _ entries _ p hbs
    rw [hp] at hrecords
    rw [hrecords]
    constructor
    · rintro ⟨bs', hbs', hread⟩
      rw [hslice] at hbs'
      cases hbs'
      exact (decodeMixtureStateRecords_eq_ok hbs).1 hread
    · exact fun hread => ⟨bs, hslice, (decodeMixtureStateRecords_eq_ok hbs).2 hread⟩
  have hbatch : BatchFormat usizeBits mixtureStateMutationLen (MixtureStateMutation.Carries 0)
      (encodeCounted MixtureStateMutation.encode) (fun input maximum => do
        let count ← validateCounted usizeBits mixtureStateMutationLen stateCheck input maximum
        records (fun index => stateRecord input (4 + index * mixtureStateMutationLen)) 0
          count.toNat) :=
    batchFormat_validated checkedStateFormat MixtureStateMutation.encode_eq_ok.1
  constructor
  · intro entries bs maximum hbs hbound hbits
    exact (hsame _ _ _).2 (hbatch.decode_encode hbs hbound hbits)
  · intro entries bs maximum hbs
    exact hbatch.canonical ((hsame _ _ _).1 hbs)

/-! ## Decoders stay in their input -/

theorem safe_stateRecord {input : Bytes} {offset : Nat}
    (h : offset + mixtureStateMutationLen ≤ input.length) : Safe (stateRecord input offset) := by
  unfold mixtureStateMutationLen wireGasSlots at h
  unfold stateRecord wireGasSlots
  refine safe_bind (safe_recordVector fun i hi => safe_readScalar (by omega)) fun _ _ => ?_
  refine safe_bind (safe_readHandle (by omega)) fun _ _ => ?_
  refine safe_bind (safe_readU32 (by omega)) fun _ _ => ?_
  refine safe_bind (safe_readScalar (by omega)) fun _ _ => ?_
  exact safe_bind (safe_readScalar (by omega)) fun _ _ => safe_ok _

theorem safe_stateCheck {input : Bytes} {offset : Nat}
    (h : offset + mixtureStateMutationLen ≤ input.length) : Safe (stateCheck input offset) := by
  unfold mixtureStateMutationLen wireGasSlots at h
  unfold stateCheck wireGasSlots
  refine safe_bind (safe_readHandle (by omega)) fun _ _ => ?_
  refine safe_bind (safe_readU32 (by omega)) fun _ _ => safe_rejectIf_bind fun _ => ?_
  refine safe_bind (safe_readScalar (by omega)) fun _ _ => ?_
  refine safe_bind (safe_readScalar (by omega)) fun _ _ => ?_
  exact safe_bind (safe_recordVector fun i hi => safe_readScalar (by omega)) fun _ _ => safe_ok _

end Dogmos.Wire
