import Dogmos.Wire.Uploads

/-!
# Compact snapshots

The records of a pipenet reconciliation and of a batched snapshot read.  A compact record
holds the numbers of a mixture in the narrow format, so what comes back is the snapshot
rounded to it (`MixtureSnapshot.compact`); a snapshot of narrow numbers comes back as it was.

* `snapshotFormat` — a record is accepted in one spelling only.
* `reconcileResponse_decode_encode` — a response of snapshots comes back compact.
-/

namespace Dogmos.Wire

open Bytes

/-! ## Lists of handles -/

/-- `encode_pipenet_reconcile_request`. -/
def encodePipenetReconcileRequest (handles : List WireHandle) : Encoded :=
  encodeCounted (fun handle => pure handle.encode) handles

/-- `decode_pipenet_reconcile_request`. -/
def decodePipenetReconcileRequest (usizeBits : Nat) (input : Bytes) (maximum : UInt32) :
    Decoded (List WireHandle) :=
  decodeCounted usizeBits 8 readHandle input maximum

/-- A list of handles is its bytes. -/
theorem pipenetReconcileRequest (usizeBits : Nat) :
    BatchFormat usizeBits 8 (fun handle bs => bs = WireHandle.encode handle)
      encodePipenetReconcileRequest (decodePipenetReconcileRequest usizeBits) :=
  batchFormat handleFormat fun h => (Except.ok.inj h).symm

theorem safe_decodePipenetReconcileRequest {usizeBits : Nat} {input : Bytes} {maximum : UInt32} :
    Safe (decodePipenetReconcileRequest usizeBits input maximum) :=
  safe_decodeCounted fun _ => safe_readHandle

/-! ## Records -/

/-- `MixtureSnapshot`. -/
structure MixtureSnapshot where
  revision : UInt32
  gasCount : UInt32
  temperature : ScalarValue
  volume : ScalarValue
  minimumHeatCapacity : ScalarValue
  totalMoles : ScalarValue
  pressure : ScalarValue
  heatCapacity : ScalarValue
  immutable : Bool
  gases : Vector ScalarValue wireGasSlots
deriving DecidableEq

def pipenetReconcileSnapshotLen : Nat := 8 + 36 + wireGasSlots * 4

namespace MixtureSnapshot

/-- The numbers of a snapshot other than the gases, in the order of a compact record. -/
def scalars (snapshot : MixtureSnapshot) : List ScalarValue :=
  [snapshot.temperature, snapshot.volume, snapshot.minimumHeatCapacity, snapshot.totalMoles,
    snapshot.pressure, snapshot.heatCapacity]

/-- `encode_pipenet_reconcile_snapshot`. -/
def encodeCompact (snapshot : MixtureSnapshot) : Encoded := do
  validateGasCount snapshot.gasCount
  let scalars ← encodeAll encodeCompactScalar snapshot.scalars
  let gases ← encodeAll encodeCompactScalar snapshot.gases.toList
  pure (le32 snapshot.revision ++ (le32 snapshot.gasCount ++ (scalars ++
    (le32 (boolWord snapshot.immutable) ++ gases))))

/-- `decode_pipenet_reconcile_snapshot`. -/
def decodeCompact (input : Bytes) : Decoded MixtureSnapshot := do
  requireExactLen input (pipenetReconcileSnapshotLen - 8)
  let gasCount ← readU32 input 4
  lift (validateGasCount gasCount)
  let gases ← recordVector (fun index => decodeCompactScalar input (36 + index * 4)) wireGasSlots
  let revision ← readU32 input 0
  let temperature ← decodeCompactScalar input 8
  let volume ← decodeCompactScalar input 12
  let minimumHeatCapacity ← decodeCompactScalar input 16
  let totalMoles ← decodeCompactScalar input 20
  let pressure ← decodeCompactScalar input 24
  let heatCapacity ← decodeCompactScalar input 28
  let immutable ← lift (decodeBoolean (← readU32 input 32))
  pure ⟨revision, gasCount, temperature, volume, minimumHeatCapacity, totalMoles, pressure,
    heatCapacity, immutable, gases⟩

/-- A snapshot as a compact record holds it. -/
def compact (snapshot : MixtureSnapshot) : MixtureSnapshot :=
  { snapshot with
    temperature := snapshot.temperature.compact
    volume := snapshot.volume.compact
    minimumHeatCapacity := snapshot.minimumHeatCapacity.compact
    totalMoles := snapshot.totalMoles.compact
    pressure := snapshot.pressure.compact
    heatCapacity := snapshot.heatCapacity.compact
    gases := snapshot.gases.map ScalarValue.compact }

/-- The bytes of a snapshot of narrow numbers. -/
def CompactCarries (snapshot : MixtureSnapshot) (bs : Bytes) : Prop :=
  snapshot.gasCount ≤ UInt32.ofNat wireGasSlots ∧ ∃ scalars gases : Bytes,
    CarriesAll ScalarValue.CompactCarries snapshot.scalars scalars ∧
      CarriesAll ScalarValue.CompactCarries snapshot.gases.toList gases ∧
      bs = le32 snapshot.revision ++ (le32 snapshot.gasCount ++ (scalars ++
        (le32 (boolWord snapshot.immutable) ++ gases)))

theorem encodeCompact_eq_ok {snapshot : MixtureSnapshot} {bs : Bytes} :
    snapshot.encodeCompact = .ok bs ↔
      snapshot.gasCount ≤ UInt32.ofNat wireGasSlots ∧ ∃ scalars gases : Bytes,
        CarriesAll (fun v r => encodeCompactScalar v = .ok r) snapshot.scalars scalars ∧
          CarriesAll (fun v r => encodeCompactScalar v = .ok r) snapshot.gases.toList gases ∧
          bs = le32 snapshot.revision ++ (le32 snapshot.gasCount ++ (scalars ++
            (le32 (boolWord snapshot.immutable) ++ gases))) := by
  unfold encodeCompact validateGasCount
  simp only [bind_eq_ok, failIf_eq_ok, UInt32.not_lt, encodeAll_eq_ok, pure_eq, Except.ok.injEq]
  constructor
  · rintro ⟨_, hcount, scalars, hscalars, gases, hgases, rfl⟩
    exact ⟨hcount, scalars, gases, hscalars, hgases, rfl⟩
  · rintro ⟨hcount, scalars, gases, hscalars, hgases, rfl⟩
    exact ⟨(), hcount, scalars, hscalars, gases, hgases, rfl⟩

/-- What is written for a snapshot is its compact form. -/
theorem compactCarries_of_encode {snapshot : MixtureSnapshot} {bs : Bytes}
    (h : snapshot.encodeCompact = .ok bs) : snapshot.compact.CompactCarries bs := by
  obtain ⟨hcount, scalars, gases, hscalars, hgases, rfl⟩ := encodeCompact_eq_ok.1 h
  refine ⟨hcount, scalars, gases, ?_, ?_, rfl⟩
  · have hmap : snapshot.compact.scalars = snapshot.scalars.map ScalarValue.compact := rfl
    rw [hmap, carriesAll_map]
    exact carriesAll_mono (fun _ _ => Dogmos.compactCarries_of_encode) hscalars
  · have hmap : snapshot.compact.gases.toList = snapshot.gases.toList.map ScalarValue.compact :=
      Vector.toList_map
    rw [hmap, carriesAll_map]
    exact carriesAll_mono (fun _ _ => Dogmos.compactCarries_of_encode) hgases

/-- A compact snapshot is written as it is. -/
theorem encode_of_compactCarries {snapshot : MixtureSnapshot} {bs : Bytes}
    (h : snapshot.CompactCarries bs) : snapshot.encodeCompact = .ok bs := by
  obtain ⟨hcount, scalars, gases, hscalars, hgases, rfl⟩ := h
  exact encodeCompact_eq_ok.2 ⟨hcount, scalars, gases,
    carriesAll_mono (fun _ _ hv => (compactCarries_iff.1 hv).1) hscalars,
    carriesAll_mono (fun _ _ hv => (compactCarries_iff.1 hv).1) hgases, rfl⟩

end MixtureSnapshot

/-- The gases of a compact record. -/
theorem compactRow_eq_ok {front bs : Bytes} {start count : Nat} {values : Vector ScalarValue count}
    (hfront : front.length = start) (hbs : bs.length = count * 4) :
    recordVector (fun i => decodeCompactScalar (front ++ bs) (start + i * 4)) count = .ok values ↔
      CarriesAll ScalarValue.CompactCarries values.toList bs := by
  subst hfront
  rw [recordVector_iff_records, compactFormat.records_all front hbs]
  simp

/-- The bytes of the numbers of a snapshot, one by one. -/
theorem carriesAll_scalars {snapshot : MixtureSnapshot} {bs : Bytes} :
    CarriesAll ScalarValue.CompactCarries snapshot.scalars bs ↔ ∃ p₁ p₂ p₃ p₄ p₅ p₆ : Bytes,
      bs = p₁ ++ (p₂ ++ (p₃ ++ (p₄ ++ (p₅ ++ p₆)))) ∧ snapshot.temperature.CompactCarries p₁ ∧
        snapshot.volume.CompactCarries p₂ ∧ snapshot.minimumHeatCapacity.CompactCarries p₃ ∧
        snapshot.totalMoles.CompactCarries p₄ ∧ snapshot.pressure.CompactCarries p₅ ∧
        snapshot.heatCapacity.CompactCarries p₆ := by
  unfold MixtureSnapshot.scalars
  constructor
  · rintro ⟨p₁, _, rfl, h₁, p₂, _, rfl, h₂, p₃, _, rfl, h₃, p₄, _, rfl, h₄, p₅, _, rfl, h₅, p₆, _, rfl,
      h₆, rfl⟩
    exact ⟨p₁, p₂, p₃, p₄, p₅, p₆, by rw [List.append_nil], h₁, h₂, h₃, h₄, h₅, h₆⟩
  · rintro ⟨p₁, p₂, p₃, p₄, p₅, p₆, rfl, h₁, h₂, h₃, h₄, h₅, h₆⟩
    exact ⟨p₁, _, rfl, h₁, p₂, _, rfl, h₂, p₃, _, rfl, h₃, p₄, _, rfl, h₄, p₅, _, rfl, h₅, p₆, [],
      (List.append_nil p₆).symm, h₆, rfl⟩

/-- A decoder on a string that is split into the fields of a snapshot. -/
theorem decodeCompact_fields {revision gasCount immutable : UInt32} {gases : Bytes}
    {p₁ p₂ p₃ p₄ p₅ p₆ : Bytes} {snapshot : MixtureSnapshot} (h₁ : p₁.length = 4)
    (h₂ : p₂.length = 4) (h₃ : p₃.length = 4) (h₄ : p₄.length = 4) (h₅ : p₅.length = 4)
    (h₆ : p₆.length = 4) (hgases : gases.length = wireGasSlots * 4) :
    MixtureSnapshot.decodeCompact (le32 revision ++ (le32 gasCount ++ (p₁ ++ (p₂ ++ (p₃ ++ (p₄ ++
        (p₅ ++ (p₆ ++ (le32 immutable ++ gases))))))))) = .ok snapshot ↔
      gasCount ≤ UInt32.ofNat wireGasSlots ∧
        CarriesAll ScalarValue.CompactCarries snapshot.gases.toList gases ∧
        snapshot.revision = revision ∧ snapshot.gasCount = gasCount ∧
        snapshot.temperature.CompactCarries p₁ ∧ snapshot.volume.CompactCarries p₂ ∧
        snapshot.minimumHeatCapacity.CompactCarries p₃ ∧ snapshot.totalMoles.CompactCarries p₄ ∧
        snapshot.pressure.CompactCarries p₅ ∧ snapshot.heatCapacity.CompactCarries p₆ ∧
        immutable = boolWord snapshot.immutable := by
  have hrow : ∀ values : Vector ScalarValue wireGasSlots, recordVector (fun index =>
      decodeCompactScalar (le32 revision ++ (le32 gasCount ++ (p₁ ++ (p₂ ++ (p₃ ++ (p₄ ++
        (p₅ ++ (p₆ ++ (le32 immutable ++ gases))))))))) (36 + index * 4)) wireGasSlots = .ok values ↔
      CarriesAll ScalarValue.CompactCarries values.toList gases := by
    intro values
    have hfront : (le32 revision ++ (le32 gasCount ++ (p₁ ++ (p₂ ++ (p₃ ++ (p₄ ++ (p₅ ++ (p₆ ++
        le32 immutable)))))))).length = 36 := by
      simp [h₁, h₂, h₃, h₄, h₅, h₆]
    have hrow := @compactRow_eq_ok _ _ _ _ values hfront hgases
    simpa only [List.append_assoc] using hrow
  unfold MixtureSnapshot.decodeCompact requireExactLen pipenetReconcileSnapshotLen validateGasCount
  rw [rejectIf_neg (by simp [h₁, h₂, h₃, h₄, h₅, h₆, hgases, wireGasSlots])]
  simp only [bind_ok, bind_eq_ok, hrow, lift_eq_ok, failIf_eq_ok, UInt32.not_lt, readU32_block,
    readU32_skip, decodeCompactScalar_skip, decodeCompactScalar_block _ h₁,
    decodeCompactScalar_block _ h₂, decodeCompactScalar_block _ h₃, decodeCompactScalar_block _ h₄,
    decodeCompactScalar_block _ h₅, decodeCompactScalar_block _ h₆, decodeCompactScalar_eq_ok h₁,
    decodeCompactScalar_eq_ok h₂, decodeCompactScalar_eq_ok h₃, decodeCompactScalar_eq_ok h₄,
    decodeCompactScalar_eq_ok h₅, decodeCompactScalar_eq_ok h₆, decodeBoolean_eq_ok, length_le32,
    h₁, h₂, h₃, h₄, h₅, h₆, Nat.reduceLeDiff, Nat.reduceSub, pure_eq, Except.ok.injEq]
  constructor
  · rintro ⟨_, hcount, values, hvalues, t, ht, v, hv, c, hc, m, hm, q, hq, k, hk, b, rfl, rfl⟩
    exact ⟨hcount, hvalues, rfl, rfl, ht, hv, hc, hm, hq, hk, rfl⟩
  · rintro ⟨hcount, hvalues, rfl, rfl, ht, hv, hc, hm, hq, hk, rfl⟩
    exact ⟨(), hcount, _, hvalues, _, ht, _, hv, _, hc, _, hm, _, hq, _, hk, _, rfl, rfl⟩

/-- A compact record is accepted in one spelling only. -/
theorem decodeCompact_eq_ok {snapshot : MixtureSnapshot} {bs : Bytes} :
    MixtureSnapshot.decodeCompact bs = .ok snapshot ↔ snapshot.CompactCarries bs := by
  unfold MixtureSnapshot.CompactCarries
  simp only [carriesAll_scalars]
  constructor
  · intro h
    obtain ⟨_, hlength, -⟩ := bind_eq_ok.1 h
    have hlength := requireExactLen_eq_ok.1 hlength
    unfold pipenetReconcileSnapshotLen wireGasSlots at hlength
    obtain ⟨revision, bs, rfl, _⟩ := exists_le32_append (show 4 ≤ bs.length by omega)
    obtain ⟨gasCount, bs, rfl, _⟩ := exists_le32_append (show 4 ≤ bs.length by omega)
    obtain ⟨p₁, bs, rfl, h₁, _⟩ := exists_append (show 4 ≤ bs.length by omega)
    obtain ⟨p₂, bs, rfl, h₂, _⟩ := exists_append (show 4 ≤ bs.length by omega)
    obtain ⟨p₃, bs, rfl, h₃, _⟩ := exists_append (show 4 ≤ bs.length by omega)
    obtain ⟨p₄, bs, rfl, h₄, _⟩ := exists_append (show 4 ≤ bs.length by omega)
    obtain ⟨p₅, bs, rfl, h₅, _⟩ := exists_append (show 4 ≤ bs.length by omega)
    obtain ⟨p₆, bs, rfl, h₆, _⟩ := exists_append (show 4 ≤ bs.length by omega)
    obtain ⟨immutable, gases, rfl, _⟩ := exists_le32_append (show 4 ≤ bs.length by omega)
    have hgases : gases.length = wireGasSlots * 4 := by
      unfold wireGasSlots
      omega
    obtain ⟨hcount, hvalues, rfl, rfl, ht, hv, hc, hm, hq, hk, rfl⟩ :=
      (decodeCompact_fields h₁ h₂ h₃ h₄ h₅ h₆ hgases).1 h
    exact ⟨hcount, _, gases, ⟨p₁, p₂, p₃, p₄, p₅, p₆, rfl, ht, hv, hc, hm, hq, hk⟩, hvalues,
      by simp only [List.append_assoc]⟩
  · rintro ⟨hcount, _, gases, ⟨p₁, p₂, p₃, p₄, p₅, p₆, rfl, ht, hv, hc, hm, hq, hk⟩, hvalues, rfl⟩
    have hgases := compactFormat.length_all hvalues
    rw [Vector.length_toList] at hgases
    simp only [List.append_assoc]
    exact (decodeCompact_fields (compactFormat.length ht) (compactFormat.length hv)
      (compactFormat.length hc) (compactFormat.length hm) (compactFormat.length hq)
      (compactFormat.length hk) hgases).2 ⟨hcount, hvalues, rfl, rfl, ht, hv, hc, hm, hq, hk, rfl⟩

theorem MixtureSnapshot.CompactCarries.length {snapshot : MixtureSnapshot} {bs : Bytes}
    (h : snapshot.CompactCarries bs) : bs.length = pipenetReconcileSnapshotLen - 8 := by
  obtain ⟨_, hlength, -⟩ := bind_eq_ok.1 (decodeCompact_eq_ok.2 h)
  exact requireExactLen_eq_ok.1 hlength

/-! ## Responses -/

/-- `PipenetReconcileSnapshot`, and `MixtureSnapshotRecord`. -/
structure PipenetReconcileSnapshot where
  handle : WireHandle
  snapshot : MixtureSnapshot
deriving DecidableEq

namespace PipenetReconcileSnapshot

def encode (entry : PipenetReconcileSnapshot) : Encoded := do
  pure (entry.handle.encode ++ (← entry.snapshot.encodeCompact))

def compact (entry : PipenetReconcileSnapshot) : PipenetReconcileSnapshot :=
  { entry with snapshot := entry.snapshot.compact }

/-- The bytes of a handle and a compact snapshot. -/
def Carries (entry : PipenetReconcileSnapshot) (bs : Bytes) : Prop :=
  ∃ r : Bytes, entry.snapshot.CompactCarries r ∧ bs = entry.handle.encode ++ r

theorem carries_of_encode {entry : PipenetReconcileSnapshot} {bs : Bytes}
    (h : entry.encode = .ok bs) : entry.compact.Carries bs := by
  obtain ⟨r, hr, h⟩ := bind_eq_ok.1 h
  cases h
  exact ⟨r, MixtureSnapshot.compactCarries_of_encode hr, rfl⟩

theorem encode_of_carries {entry : PipenetReconcileSnapshot} {bs : Bytes} (h : entry.Carries bs) :
    entry.encode = .ok bs := by
  obtain ⟨r, hr, rfl⟩ := h
  exact bind_eq_ok.2 ⟨r, MixtureSnapshot.encode_of_compactCarries hr, rfl⟩

end PipenetReconcileSnapshot

/-- `encode_pipenet_reconcile_response`. -/
def encodePipenetReconcileResponse (entries : List PipenetReconcileSnapshot) : Encoded :=
  encodeCounted PipenetReconcileSnapshot.encode entries

def snapshotRecord (input : Bytes) (offset : Nat) : Decoded PipenetReconcileSnapshot := do
  let handle ← readHandle input offset
  pure ⟨handle, ← MixtureSnapshot.decodeCompact
    (← slice input (offset + 8) (offset + pipenetReconcileSnapshotLen))⟩

/-- `decode_pipenet_reconcile_response`. -/
def decodePipenetReconcileResponse (usizeBits : Nat) (input : Bytes) (maximum : UInt32) :
    Decoded (List PipenetReconcileSnapshot) :=
  decodeCounted usizeBits pipenetReconcileSnapshotLen snapshotRecord input maximum

theorem snapshotFormat : RecordFormat pipenetReconcileSnapshotLen PipenetReconcileSnapshot.Carries
    snapshotRecord where
  length := by
    rintro entry _ ⟨r, hr, rfl⟩
    have hlength := hr.length
    rw [List.length_append, length_encode_handle, hlength]
    rfl
  decode_iff := by
    intro entry bs h
    unfold pipenetReconcileSnapshotLen wireGasSlots at h
    obtain ⟨handle, r, rfl, hr⟩ := exists_handle_append (show 8 ≤ bs.length by omega)
    have hr : r.length = 164 := by omega
    unfold snapshotRecord PipenetReconcileSnapshot.Carries pipenetReconcileSnapshotLen wireGasSlots
    simp only [Nat.zero_add, readHandle_block, slice_skip, slice_all, length_encode_handle, hr,
      Nat.reduceLeDiff, Nat.reduceSub, Nat.reduceAdd, Nat.reduceMul, bind_ok, bind_eq_ok,
      decodeCompact_eq_ok, pure_eq, Except.ok.injEq, WireHandle.encode_append_inj]
    constructor
    · rintro ⟨snapshot, hsnapshot, rfl⟩
      exact ⟨r, hsnapshot, rfl, rfl⟩
    · rintro ⟨_, hsnapshot, rfl, rfl⟩
      exact ⟨_, hsnapshot, rfl⟩
  shift := by
    intro bs p rest h
    unfold pipenetReconcileSnapshotLen wireGasSlots at h
    unfold snapshotRecord pipenetReconcileSnapshotLen wireGasSlots
    simp only [readHandle_shift_zero, slice_shift, h, Nat.reduceLeDiff, Nat.reduceAdd,
      Nat.reduceMul, Nat.zero_add]

/-- A response comes back as compact records hold it. -/
theorem reconcileResponse_decode_encode {usizeBits : Nat} {entries : List PipenetReconcileSnapshot}
    {bs : Bytes} {maximum : UInt32} (h : encodePipenetReconcileResponse entries = .ok bs)
    (hbound : entries.length ≤ maximum.toNat) (hbits : bs.length < 2 ^ usizeBits) :
    decodePipenetReconcileResponse usizeBits bs maximum =
      .ok (entries.map PipenetReconcileSnapshot.compact) := by
  obtain ⟨count, body, rfl, hcount, hall⟩ := encodeCounted_eq_ok.1 h
  refine (decodeCounted_eq_ok snapshotFormat).2 ⟨⟨count, body, rfl, ?_, ?_⟩, ?_, hbits⟩
  · rw [List.length_map, hcount]
  · rw [carriesAll_map]
    exact carriesAll_mono (fun _ _ => PipenetReconcileSnapshot.carries_of_encode) hall
  · rwa [List.length_map]

/-- What is accepted as a response is what is written for it. -/
theorem reconcileResponse_canonical {usizeBits : Nat} {entries : List PipenetReconcileSnapshot}
    {bs : Bytes} {maximum : UInt32}
    (h : decodePipenetReconcileResponse usizeBits bs maximum = .ok entries) :
    encodePipenetReconcileResponse entries = .ok bs ∧ entries.length ≤ maximum.toNat ∧
      bs.length = 4 + entries.length * pipenetReconcileSnapshotLen := by
  have hpayload := (decodeCounted_eq_ok snapshotFormat).1 h
  obtain ⟨count, body, rfl, hcount, hall⟩ := hpayload.layout
  exact ⟨encodeCounted_eq_ok.2 ⟨count, body, rfl, hcount,
    carriesAll_mono (fun _ _ => PipenetReconcileSnapshot.encode_of_carries) hall⟩, hpayload.bound,
    hpayload.length snapshotFormat⟩

end Dogmos.Wire
