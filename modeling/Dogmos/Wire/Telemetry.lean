import Dogmos.Wire.Events
import Dogmos.Wire.Snapshots

/-!
# Telemetry

The record of the counters of a service.  Its encoder writes every value it is given; its
decoder accepts known flags, known stages and measures that are available.

* `ServiceTelemetry.decode_eq_ok` — a record is accepted exactly when it is written for a
  valid snapshot.
* `event_formats` — which formats of events, tokens and snapshots undo each other.
-/

namespace Dogmos.Wire

open Bytes

def serviceTelemetryLen : Nat := 368

def callbackEventKindCount : Nat := 8

/-- `ServiceTelemetry`. -/
structure ServiceTelemetry where
  callbackDepth : UInt32
  callbackCapacity : UInt32
  callbackHighWater : UInt32
  continuationDepth : UInt32
  continuationCapacity : UInt32
  continuationHighWater : UInt32
  oldestCallbackAgeTicks : UInt64
  callbackEnqueued : UInt64
  callbackDrained : UInt64
  callbackRejected : UInt64
  continuationTimeouts : UInt64
  requestTimeouts : UInt64
  protocolErrors : UInt64
  callbackEnqueuedByKind : Vector UInt64 callbackEventKindCount
  callbackDrainedByKind : Vector UInt64 callbackEventKindCount
  callbackRejectedByKind : Vector UInt64 callbackEventKindCount
  serviceProcessAvailableFlags : UInt32
  serviceRssBytes : UInt64
  serviceCpuTotalMilliseconds : UInt64
  generalCallbackDepth : UInt32
  reactionCallbackDepth : UInt32
  reactionTransactionDepth : UInt32
  reactionTransactionHighWater : UInt32
  frontierCount : UInt32
  stageKind : UInt32
  frontierUploadBytes : UInt64
  stageEpoch : UInt64
  stageCursor : UInt32
  stageRemaining : UInt32
  topologyRevision : UInt64
  reusableWorksetBytes : UInt64
  packedTopologyBytes : UInt64
deriving DecidableEq

/-- `encode_counters`. -/
def encodeCounters (counters : Vector UInt64 callbackEventKindCount) : Bytes :=
  counters.toList.flatMap le64

/-- `decode_counters`. -/
def decodeCounters (input : Bytes) : Decoded (Vector UInt64 callbackEventKindCount) :=
  recordVector (fun index => readU64 input (index * 8)) callbackEventKindCount

namespace ServiceTelemetry

/-- `ServiceTelemetry::encode`. -/
def encode (telemetry : ServiceTelemetry) : Bytes :=
  let output := zeros serviceTelemetryLen
  let output := put output 0 (le32 telemetry.callbackDepth)
  let output := put output 4 (le32 telemetry.callbackCapacity)
  let output := put output 8 (le32 telemetry.callbackHighWater)
  let output := put output 12 (le32 telemetry.continuationDepth)
  let output := put output 16 (le32 telemetry.continuationCapacity)
  let output := put output 20 (le32 telemetry.continuationHighWater)
  let output := put output 24 (le64 telemetry.oldestCallbackAgeTicks)
  let output := put output 32 (le64 telemetry.callbackEnqueued)
  let output := put output 40 (le64 telemetry.callbackDrained)
  let output := put output 48 (le64 telemetry.callbackRejected)
  let output := put output 56 (le64 telemetry.continuationTimeouts)
  let output := put output 64 (le64 telemetry.requestTimeouts)
  let output := put output 72 (le64 telemetry.protocolErrors)
  let output := put output 80 (encodeCounters telemetry.callbackEnqueuedByKind)
  let output := put output 144 (encodeCounters telemetry.callbackDrainedByKind)
  let output := put output 208 (encodeCounters telemetry.callbackRejectedByKind)
  let output := put output 272 (le32 telemetry.serviceProcessAvailableFlags)
  let output := put output 280 (le64 telemetry.serviceRssBytes)
  let output := put output 288 (le64 telemetry.serviceCpuTotalMilliseconds)
  let output := put output 296 (le32 telemetry.generalCallbackDepth)
  let output := put output 300 (le32 telemetry.reactionCallbackDepth)
  let output := put output 304 (le32 telemetry.reactionTransactionDepth)
  let output := put output 308 (le32 telemetry.reactionTransactionHighWater)
  let output := put output 312 (le32 telemetry.frontierCount)
  let output := put output 316 (le32 telemetry.stageKind)
  let output := put output 320 (le64 telemetry.frontierUploadBytes)
  let output := put output 328 (le64 telemetry.stageEpoch)
  let output := put output 336 (le32 telemetry.stageCursor)
  let output := put output 340 (le32 telemetry.stageRemaining)
  let output := put output 344 (le64 telemetry.topologyRevision)
  let output := put output 352 (le64 telemetry.reusableWorksetBytes)
  put output 360 (le64 telemetry.packedTopologyBytes)

/-- `ServiceTelemetry::decode`. -/
def decode (input : Bytes) : Decoded ServiceTelemetry := do
  rejectIf (input.length ≠ serviceTelemetryLen)
    (.invalidPayloadLength (UInt32.ofNat serviceTelemetryLen) (UInt32.ofNat input.length))
  let flags ← readU32 input 272
  rejectIf (flags &&& ~~~3 ≠ 0) (.unknownServiceProcessFlags flags)
  let reserved ← readU32 input 276
  rejectIf (reserved ≠ 0) (.reservedServiceTelemetryField reserved)
  let serviceRssBytes ← readU64 input 280
  let serviceCpuTotalMilliseconds ← readU64 input 288
  let stageKind ← readU32 input 316
  rejectIf (5 < stageKind) (.unknownSimulationStage stageKind)
  rejectIf (flags &&& 1 = 0 ∧ serviceRssBytes ≠ 0 ∨
    flags &&& 2 = 0 ∧ serviceCpuTotalMilliseconds ≠ 0) .nonZeroUnavailableServiceProcessMetric
  pure {
    callbackDepth := ← readU32 input 0
    callbackCapacity := ← readU32 input 4
    callbackHighWater := ← readU32 input 8
    continuationDepth := ← readU32 input 12
    continuationCapacity := ← readU32 input 16
    continuationHighWater := ← readU32 input 20
    oldestCallbackAgeTicks := ← readU64 input 24
    callbackEnqueued := ← readU64 input 32
    callbackDrained := ← readU64 input 40
    callbackRejected := ← readU64 input 48
    continuationTimeouts := ← readU64 input 56
    requestTimeouts := ← readU64 input 64
    protocolErrors := ← readU64 input 72
    callbackEnqueuedByKind := ← decodeCounters (← slice input 80 144)
    callbackDrainedByKind := ← decodeCounters (← slice input 144 208)
    callbackRejectedByKind := ← decodeCounters (← slice input 208 272)
    serviceProcessAvailableFlags := flags
    serviceRssBytes, serviceCpuTotalMilliseconds
    generalCallbackDepth := ← readU32 input 296
    reactionCallbackDepth := ← readU32 input 300
    reactionTransactionDepth := ← readU32 input 304
    reactionTransactionHighWater := ← readU32 input 308
    frontierCount := ← readU32 input 312
    stageKind
    frontierUploadBytes := ← readU64 input 320
    stageEpoch := ← readU64 input 328
    stageCursor := ← readU32 input 336
    stageRemaining := ← readU32 input 340
    topologyRevision := ← readU64 input 344
    reusableWorksetBytes := ← readU64 input 352
    packedTopologyBytes := ← readU64 input 360 }

/-- A snapshot that the decoder accepts. -/
structure Valid (telemetry : ServiceTelemetry) : Prop where
  flags : telemetry.serviceProcessAvailableFlags &&& ~~~3 = 0
  stageKind : telemetry.stageKind ≤ 5
  rss : telemetry.serviceProcessAvailableFlags &&& 1 = 0 → telemetry.serviceRssBytes = 0
  cpu : telemetry.serviceProcessAvailableFlags &&& 2 = 0 →
    telemetry.serviceCpuTotalMilliseconds = 0

end ServiceTelemetry

/-! ## Counters -/

theorem counterFormat : RecordFormat 8 (fun (counter : UInt64) bs => bs = le64 counter)
    (readU64 (ε := ProtocolError)) where
  length := by
    rintro counter _ rfl
    exact length_le64 counter
  decode_iff := by
    intro counter bs h
    obtain ⟨x, rest, rfl, hrest⟩ := exists_le64_append (Nat.le_of_eq h.symm)
    obtain rfl : rest = [] := List.eq_nil_of_length_eq_zero (by omega)
    simp
  shift := by
    intro bs p rest h
    unfold readU64
    rw [slice_shift_zero p rest (Nat.le_of_eq h.symm), Nat.zero_add]

theorem encodeCounters_carries {counters : List UInt64} {bs : Bytes} :
    CarriesAll (fun (counter : UInt64) r => r = le64 counter) counters bs ↔
      bs = counters.flatMap le64 := by
  induction counters generalizing bs with
  | nil => rfl
  | cons counter rest ih =>
    simp only [CarriesAll, ih, List.flatMap_cons]
    constructor
    · rintro ⟨_, _, rfl, rfl, rfl⟩
      rfl
    · rintro rfl
      exact ⟨_, _, rfl, rfl, rfl⟩

theorem decodeCounters_eq_ok {counters : Vector UInt64 callbackEventKindCount} {bs : Bytes}
    (h : bs.length = callbackEventKindCount * 8) :
    decodeCounters bs = .ok counters ↔ encodeCounters counters = bs := by
  unfold decodeCounters encodeCounters
  have hread := @RecordFormat.records_all _ _ _ _ _ counterFormat _ counters.toList _ [] h
  simp only [List.nil_append, List.length_nil, Nat.zero_add] at hread
  rw [recordVector_iff_records, hread, encodeCounters_carries]
  simp [eq_comm]

@[simp] theorem length_encodeCounters (counters : Vector UInt64 callbackEventKindCount) :
    (encodeCounters counters).length = 64 := by
  have hlength := counterFormat.length_all (encodeCounters_carries.2 (rfl :
    encodeCounters counters = counters.toList.flatMap le64))
  rw [hlength, Vector.length_toList]
  rfl

theorem encodeCounters_inj {counters counters' : Vector UInt64 callbackEventKindCount}
    (h : encodeCounters counters' = encodeCounters counters) : counters' = counters := by
  have hcounters := (decodeCounters_eq_ok (length_encodeCounters counters)).2 h
  have hsame := (decodeCounters_eq_ok (length_encodeCounters counters)).2 rfl
  exact Except.ok.inj (hcounters.symm.trans hsame)

theorem exists_counterList {n : Nat} :
    ∀ {bs : Bytes}, bs.length = n * 8 → ∃ l : List UInt64, l.length = n ∧ l.flatMap le64 = bs := by
  induction n with
  | zero =>
    intro bs h
    obtain rfl : bs = [] := List.eq_nil_of_length_eq_zero (by simpa using h)
    exact ⟨[], rfl, rfl⟩
  | succ n ih =>
    intro bs h
    obtain ⟨x, rest, rfl, hrest⟩ := exists_le64_append (show 8 ≤ bs.length by omega)
    obtain ⟨l, hl, rfl⟩ := @ih rest (by omega)
    exact ⟨x :: l, by rw [List.length_cons, hl], rfl⟩

theorem exists_counters_append {bs : Bytes} (h : 64 ≤ bs.length) :
    ∃ (counters : Vector UInt64 callbackEventKindCount) (rest : Bytes),
      bs = encodeCounters counters ++ rest ∧ rest.length + 64 = bs.length := by
  obtain ⟨p, rest, rfl, hp, hrest⟩ := exists_append h
  obtain ⟨l, hl, rfl⟩ := @exists_counterList callbackEventKindCount _ hp
  exact ⟨⟨l.toArray, hl⟩, rest, rfl, hrest⟩

/-! ## The record -/

namespace ServiceTelemetry

/-- The record of a snapshot with some reserved word. -/
def layout (telemetry : ServiceTelemetry) (reserved : UInt32) : Bytes :=
  le32 telemetry.callbackDepth ++ (le32 telemetry.callbackCapacity ++
  (le32 telemetry.callbackHighWater ++ (le32 telemetry.continuationDepth ++
  (le32 telemetry.continuationCapacity ++ (le32 telemetry.continuationHighWater ++
  (le64 telemetry.oldestCallbackAgeTicks ++ (le64 telemetry.callbackEnqueued ++
  (le64 telemetry.callbackDrained ++ (le64 telemetry.callbackRejected ++
  (le64 telemetry.continuationTimeouts ++ (le64 telemetry.requestTimeouts ++
  (le64 telemetry.protocolErrors ++ (encodeCounters telemetry.callbackEnqueuedByKind ++
  (encodeCounters telemetry.callbackDrainedByKind ++
  (encodeCounters telemetry.callbackRejectedByKind ++
  (le32 telemetry.serviceProcessAvailableFlags ++ (le32 reserved ++
  (le64 telemetry.serviceRssBytes ++ (le64 telemetry.serviceCpuTotalMilliseconds ++
  (le32 telemetry.generalCallbackDepth ++ (le32 telemetry.reactionCallbackDepth ++
  (le32 telemetry.reactionTransactionDepth ++ (le32 telemetry.reactionTransactionHighWater ++
  (le32 telemetry.frontierCount ++ (le32 telemetry.stageKind ++
  (le64 telemetry.frontierUploadBytes ++ (le64 telemetry.stageEpoch ++
  (le32 telemetry.stageCursor ++ (le32 telemetry.stageRemaining ++
  (le64 telemetry.topologyRevision ++ (le64 telemetry.reusableWorksetBytes ++
  le64 telemetry.packedTopologyBytes)))))))))))))))))))))))))))))))

theorem encode_eq (telemetry : ServiceTelemetry) : telemetry.encode = telemetry.layout 0 := by
  simp [encode, layout, put_append, put_zeros, put_zeros_gap, serviceTelemetryLen, le32_zero]

theorem length_layout (telemetry : ServiceTelemetry) (reserved : UInt32) :
    (telemetry.layout reserved).length = serviceTelemetryLen := by
  simp [layout, serviceTelemetryLen]

/-- Every string of the length of a record is the record of some snapshot. -/
theorem exists_layout {bs : Bytes} (h : bs.length = serviceTelemetryLen) :
    ∃ (telemetry : ServiceTelemetry) (reserved : UInt32), bs = telemetry.layout reserved := by
  unfold serviceTelemetryLen at h
  obtain ⟨callbackDepth, bs, rfl, _⟩ := exists_le32_append (show 4 ≤ bs.length by omega)
  obtain ⟨callbackCapacity, bs, rfl, _⟩ := exists_le32_append (show 4 ≤ bs.length by omega)
  obtain ⟨callbackHighWater, bs, rfl, _⟩ := exists_le32_append (show 4 ≤ bs.length by omega)
  obtain ⟨continuationDepth, bs, rfl, _⟩ := exists_le32_append (show 4 ≤ bs.length by omega)
  obtain ⟨continuationCapacity, bs, rfl, _⟩ := exists_le32_append (show 4 ≤ bs.length by omega)
  obtain ⟨continuationHighWater, bs, rfl, _⟩ := exists_le32_append (show 4 ≤ bs.length by omega)
  obtain ⟨oldestCallbackAgeTicks, bs, rfl, _⟩ := exists_le64_append (show 8 ≤ bs.length by omega)
  obtain ⟨callbackEnqueued, bs, rfl, _⟩ := exists_le64_append (show 8 ≤ bs.length by omega)
  obtain ⟨callbackDrained, bs, rfl, _⟩ := exists_le64_append (show 8 ≤ bs.length by omega)
  obtain ⟨callbackRejected, bs, rfl, _⟩ := exists_le64_append (show 8 ≤ bs.length by omega)
  obtain ⟨continuationTimeouts, bs, rfl, _⟩ := exists_le64_append (show 8 ≤ bs.length by omega)
  obtain ⟨requestTimeouts, bs, rfl, _⟩ := exists_le64_append (show 8 ≤ bs.length by omega)
  obtain ⟨protocolErrors, bs, rfl, _⟩ := exists_le64_append (show 8 ≤ bs.length by omega)
  obtain ⟨callbackEnqueuedByKind, bs, rfl, _⟩ :=
    exists_counters_append (show 64 ≤ bs.length by omega)
  obtain ⟨callbackDrainedByKind, bs, rfl, _⟩ :=
    exists_counters_append (show 64 ≤ bs.length by omega)
  obtain ⟨callbackRejectedByKind, bs, rfl, _⟩ :=
    exists_counters_append (show 64 ≤ bs.length by omega)
  obtain ⟨serviceProcessAvailableFlags, bs, rfl, _⟩ :=
    exists_le32_append (show 4 ≤ bs.length by omega)
  obtain ⟨reserved, bs, rfl, _⟩ := exists_le32_append (show 4 ≤ bs.length by omega)
  obtain ⟨serviceRssBytes, bs, rfl, _⟩ := exists_le64_append (show 8 ≤ bs.length by omega)
  obtain ⟨serviceCpuTotalMilliseconds, bs, rfl, _⟩ :=
    exists_le64_append (show 8 ≤ bs.length by omega)
  obtain ⟨generalCallbackDepth, bs, rfl, _⟩ := exists_le32_append (show 4 ≤ bs.length by omega)
  obtain ⟨reactionCallbackDepth, bs, rfl, _⟩ := exists_le32_append (show 4 ≤ bs.length by omega)
  obtain ⟨reactionTransactionDepth, bs, rfl, _⟩ := exists_le32_append (show 4 ≤ bs.length by omega)
  obtain ⟨reactionTransactionHighWater, bs, rfl, _⟩ :=
    exists_le32_append (show 4 ≤ bs.length by omega)
  obtain ⟨frontierCount, bs, rfl, _⟩ := exists_le32_append (show 4 ≤ bs.length by omega)
  obtain ⟨stageKind, bs, rfl, _⟩ := exists_le32_append (show 4 ≤ bs.length by omega)
  obtain ⟨frontierUploadBytes, bs, rfl, _⟩ := exists_le64_append (show 8 ≤ bs.length by omega)
  obtain ⟨stageEpoch, bs, rfl, _⟩ := exists_le64_append (show 8 ≤ bs.length by omega)
  obtain ⟨stageCursor, bs, rfl, _⟩ := exists_le32_append (show 4 ≤ bs.length by omega)
  obtain ⟨stageRemaining, bs, rfl, _⟩ := exists_le32_append (show 4 ≤ bs.length by omega)
  obtain ⟨topologyRevision, bs, rfl, _⟩ := exists_le64_append (show 8 ≤ bs.length by omega)
  obtain ⟨reusableWorksetBytes, bs, rfl, _⟩ := exists_le64_append (show 8 ≤ bs.length by omega)
  obtain ⟨packedTopologyBytes, bs, rfl, _⟩ := exists_le64_append (show 8 ≤ bs.length by omega)
  obtain rfl : bs = [] := List.eq_nil_of_length_eq_zero (by omega)
  refine ⟨⟨callbackDepth, callbackCapacity, callbackHighWater, continuationDepth,
    continuationCapacity, continuationHighWater, oldestCallbackAgeTicks, callbackEnqueued,
    callbackDrained, callbackRejected, continuationTimeouts, requestTimeouts, protocolErrors,
    callbackEnqueuedByKind, callbackDrainedByKind, callbackRejectedByKind,
    serviceProcessAvailableFlags, serviceRssBytes, serviceCpuTotalMilliseconds,
    generalCallbackDepth, reactionCallbackDepth, reactionTransactionDepth,
    reactionTransactionHighWater, frontierCount, stageKind, frontierUploadBytes, stageEpoch,
    stageCursor, stageRemaining, topologyRevision, reusableWorksetBytes, packedTopologyBytes⟩, reserved, ?_⟩
  unfold layout
  rw [List.append_nil]

theorem decode_layout {telemetry telemetry' : ServiceTelemetry} {reserved : UInt32} :
    decode (telemetry.layout reserved) = .ok telemetry' ↔
      (reserved = 0 ∧ telemetry.Valid) ∧ telemetry = telemetry' := by
  have hcounters : ∀ c c' : Vector UInt64 callbackEventKindCount,
      decodeCounters (encodeCounters c) = .ok c' ↔ c' = c := by
    intro c c'
    rw [decodeCounters_eq_ok (length_encodeCounters c)]
    exact ⟨encodeCounters_inj, fun h => by rw [h]⟩
  unfold decode
  rw [rejectIf_neg (not_not.2 (length_layout telemetry reserved))]
  simp only [layout, slice_skip, slice_block, readU32_skip, readU64_skip, readU32_block,
    readU64_block, readU64_all, length_le32, length_le64, length_encodeCounters, Nat.reduceLeDiff,
    Nat.reduceSub, bind_ok, bind_eq_ok, rejectIf_eq_ok, not_not, hcounters, pure_eq,
    Except.ok.injEq]
  constructor
  · rintro ⟨_, hflags, _, hreserved, _, hstage, _, hmetrics, _, rfl, _, rfl, _, rfl, rfl⟩
    rw [not_or, not_and, not_and, not_not, not_not] at hmetrics
    exact ⟨⟨hreserved, hflags, UInt32.not_lt.1 hstage, hmetrics.1, hmetrics.2⟩, rfl⟩
  · rintro ⟨⟨hreserved, hflags, hstage, hrss, hcpu⟩, rfl⟩
    refine ⟨(), hflags, (), hreserved, (), UInt32.not_lt.2 hstage, (), ?_, _, rfl, _, rfl, _, rfl, rfl⟩
    rw [not_or, not_and, not_and, not_not, not_not]
    exact ⟨hrss, hcpu⟩

/-- A record is accepted exactly when it is written for a valid snapshot. -/
theorem decode_eq_ok {telemetry : ServiceTelemetry} {bs : Bytes} :
    decode bs = .ok telemetry ↔ telemetry.encode = bs ∧ telemetry.Valid := by
  constructor
  · intro h
    obtain ⟨_, hlength, -⟩ := bind_eq_ok.1 h
    obtain ⟨telemetry', reserved, rfl⟩ := exists_layout (not_not.1 (rejectIf_eq_ok.1 hlength))
    obtain ⟨⟨rfl, hvalid⟩, rfl⟩ := decode_layout.1 h
    exact ⟨encode_eq _, hvalid⟩
  · rintro ⟨rfl, hvalid⟩
    rw [encode_eq]
    exact decode_layout.2 ⟨⟨rfl, hvalid⟩, rfl⟩

end ServiceTelemetry

/-! ## Which events, requests and snapshots survive -/

/-- An event that its record can hold. -/
structure CallbackEvent.Valid (event : CallbackEvent) : Prop where
  transaction : event.transactionId = 0 ↔ event.scope = .general
  flags : event.flags = 0
  aux : validateCallbackAux event.kind event.aux = .ok ()
  continuation : event.continuation.isSome = true ↔ event.kind = .runDmReaction
  token : ∀ token ∈ event.continuation, token.Valid
  values : ∀ value ∈ event.values.toList, value.Finite

theorem validateCallbackTransaction_eq_ok {scope : CallbackScope} {transactionId : UInt64}
    {u : Unit} : validateCallbackTransaction scope transactionId = .ok u ↔
      (transactionId = 0 ↔ scope = .general) := by
  unfold validateCallbackTransaction
  rw [failIf_eq_ok]
  cases scope <;> simp

theorem validateContinuation_eq_ok {kind : CallbackEventKind} {present : Bool} {u : Unit} :
    validateContinuation kind present = .ok u ↔ (present = true ↔ kind = .runDmReaction) := by
  unfold validateContinuation
  by_cases hkind : kind = .runDmReaction <;> cases present <;> simp [hkind]

/-- Every valid event has a record, whatever its kind and scope. -/
theorem CallbackEvent.encodable_iff {event : CallbackEvent} :
    (∃ bs, event.encode = .ok bs) ↔ event.Valid := by
  have hrow : (∃ row, CarriesAll ScalarCarries event.values.toList row) ↔
      ∀ value ∈ event.values.toList, value.Finite := by
    rw [exists_carriesAll]
    exact forall₂_congr fun value _ => ⟨fun ⟨_, h⟩ => h.1, fun h => ⟨_, h, rfl⟩⟩
  constructor
  · rintro ⟨bs, h⟩
    obtain ⟨htransaction, hflags, haux, hcontinuation, hvalid, row, hvalues, -⟩ :=
      CallbackEvent.encode_eq_ok.1 h
    exact ⟨validateCallbackTransaction_eq_ok.1 htransaction, hflags, haux,
      validateContinuation_eq_ok.1 hcontinuation, hvalid, hrow.1 ⟨row, hvalues⟩⟩
  · rintro ⟨htransaction, hflags, haux, hcontinuation, hvalid, hvalues⟩
    obtain ⟨row, hvalues⟩ := hrow.2 hvalues
    exact ⟨_, CallbackEvent.encode_eq_ok.2 ⟨validateCallbackTransaction_eq_ok.2 htransaction, hflags,
      haux, validateContinuation_eq_ok.2 hcontinuation, hvalid, row, hvalues, rfl⟩⟩

/-- A snapshot that a compact record holds without rounding. -/
structure MixtureSnapshot.Narrow (snapshot : MixtureSnapshot) : Prop where
  gasCount : snapshot.gasCount ≤ UInt32.ofNat wireGasSlots
  scalars : ∀ value ∈ snapshot.scalars, value.Narrow
  gases : ∀ value ∈ snapshot.gases.toList, value.Narrow

theorem exists_compactCarries {values : List ScalarValue} :
    (∃ bs, CarriesAll ScalarValue.CompactCarries values bs) ↔ ∀ value ∈ values, value.Narrow := by
  rw [exists_carriesAll]
  refine forall₂_congr fun value _ => ?_
  constructor
  · rintro ⟨_, x, hx, rfl, -⟩
    exact ⟨x, hx, rfl⟩
  · rintro ⟨x, hx, rfl⟩
    exact ⟨_, x, hx, rfl, rfl⟩

/-- A snapshot of narrow numbers has a compact record. -/
theorem MixtureSnapshot.narrow_iff {snapshot : MixtureSnapshot} :
    (∃ bs, snapshot.CompactCarries bs) ↔ snapshot.Narrow := by
  constructor
  · rintro ⟨_, hcount, scalars, gases, hscalars, hgases, -⟩
    exact ⟨hcount, exists_compactCarries.1 ⟨scalars, hscalars⟩,
      exists_compactCarries.1 ⟨gases, hgases⟩⟩
  · rintro ⟨hcount, hscalars, hgases⟩
    obtain ⟨scalars, hscalars⟩ := exists_compactCarries.2 hscalars
    obtain ⟨gases, hgases⟩ := exists_compactCarries.2 hgases
    exact ⟨_, hcount, scalars, gases, hscalars, hgases, rfl⟩

/-- A compact record is accepted exactly when it is written for a snapshot of narrow numbers. -/
theorem MixtureSnapshot.decodeCompact_iff {snapshot : MixtureSnapshot} {bs : Bytes} :
    MixtureSnapshot.decodeCompact bs = .ok snapshot ↔
      snapshot.encodeCompact = .ok bs ∧ snapshot.Narrow := by
  rw [decodeCompact_eq_ok]
  constructor
  · exact fun h => ⟨MixtureSnapshot.encode_of_compactCarries h,
      MixtureSnapshot.narrow_iff.1 ⟨bs, h⟩⟩
  · rintro ⟨hencode, hnarrow⟩
    obtain ⟨bs', hbs'⟩ := MixtureSnapshot.narrow_iff.2 hnarrow
    have hsame := (MixtureSnapshot.encode_of_compactCarries hbs').symm.trans hencode
    rw [Except.ok.injEq] at hsame
    exact hsame ▸ hbs'

/-- A snapshot of narrow numbers is written. -/
theorem MixtureSnapshot.encodable {snapshot : MixtureSnapshot} (h : snapshot.Narrow) :
    ∃ bs, snapshot.encodeCompact = .ok bs := by
  obtain ⟨bs, hbs⟩ := MixtureSnapshot.narrow_iff.2 h
  exact ⟨bs, MixtureSnapshot.encode_of_compactCarries hbs⟩

/-- Events, requests for events, tokens and the requests that carry one are their bytes; compact
records and telemetry are the bytes of narrow and of valid snapshots. -/
structure EventFormats (usizeBits : Nat) : Prop where
  event : Codec CallbackEvent.encode CallbackEvent.decode
  everyEvent : ∀ event : CallbackEvent, (∃ bs, event.encode = .ok bs) ↔ event.Valid
  batchRequest : Codec CallbackBatchRequest.encode CallbackBatchRequest.decode
  batchHeader : ∀ (header : CallbackBatchHeader) (bs : Bytes),
    CallbackBatchHeader.decode bs = .ok header ↔ header.encode = bs
  token : Codec ContinuationToken.encode ContinuationToken.decode
  command : Codec ContinuationCommandRequest.encode ContinuationCommandRequest.decode
  resume : Codec ContinuationResumeRequest.encode ContinuationResumeRequest.decode
  adjustments : ∀ (token : ContinuationToken) (handle : WireHandle)
    (adjustments : List MixtureAdjustment) (bs : Bytes),
    decodeContinuationAdjustMultipleRequest usizeBits bs = .ok (token, handle, adjustments) ↔
      encodeContinuationAdjustMultipleRequest token handle adjustments = .ok bs
  snapshot : ∀ (snapshot : MixtureSnapshot) (bs : Bytes),
    MixtureSnapshot.decodeCompact bs = .ok snapshot ↔
      snapshot.encodeCompact = .ok bs ∧ snapshot.Narrow
  everySnapshot : ∀ snapshot : MixtureSnapshot, snapshot.Narrow →
    ∃ bs, snapshot.encodeCompact = .ok bs
  telemetry : ∀ (telemetry : ServiceTelemetry) (bs : Bytes),
    ServiceTelemetry.decode bs = .ok telemetry ↔ telemetry.encode = bs ∧ telemetry.Valid

/-- A target with numbers of 32 bits or more has these formats. -/
theorem event_formats (usizeBits : Nat) (h : 32 ≤ usizeBits) : EventFormats usizeBits where
  event := callbackEvent_codec
  everyEvent := fun _ => CallbackEvent.encodable_iff
  batchRequest := callbackBatchRequest_codec
  batchHeader := fun _ _ => CallbackBatchHeader.decode_eq_ok
  token := continuationToken_codec
  command := continuationCommand_codec
  resume := continuationResume_codec
  adjustments := fun _ _ _ _ => continuationAdjust_eq_ok h
  snapshot := fun _ _ => MixtureSnapshot.decodeCompact_iff
  everySnapshot := fun _ => MixtureSnapshot.encodable
  telemetry := fun _ _ => ServiceTelemetry.decode_eq_ok

theorem event_formats_32 : EventFormats 32 := event_formats 32 (Nat.le_refl 32)

/-- Telemetry of a stage that no decoder knows. -/
def unknownStageTelemetry : ServiceTelemetry where
  callbackDepth := 0
  callbackCapacity := 0
  callbackHighWater := 0
  continuationDepth := 0
  continuationCapacity := 0
  continuationHighWater := 0
  oldestCallbackAgeTicks := 0
  callbackEnqueued := 0
  callbackDrained := 0
  callbackRejected := 0
  continuationTimeouts := 0
  requestTimeouts := 0
  protocolErrors := 0
  callbackEnqueuedByKind := Vector.replicate _ 0
  callbackDrainedByKind := Vector.replicate _ 0
  callbackRejectedByKind := Vector.replicate _ 0
  serviceProcessAvailableFlags := 0
  serviceRssBytes := 0
  serviceCpuTotalMilliseconds := 0
  generalCallbackDepth := 0
  reactionCallbackDepth := 0
  reactionTransactionDepth := 0
  reactionTransactionHighWater := 0
  frontierCount := 0
  stageKind := 6
  frontierUploadBytes := 0
  stageEpoch := 0
  stageCursor := 0
  stageRemaining := 0
  topologyRevision := 0
  reusableWorksetBytes := 0
  packedTopologyBytes := 0

/-- The encoder of telemetry writes what the decoder does not accept. -/
theorem unknown_stage_rejected :
    ServiceTelemetry.decode unknownStageTelemetry.encode = reject (.unknownSimulationStage 6) ∧
      ¬∀ telemetry : ServiceTelemetry,
        ServiceTelemetry.decode telemetry.encode = .ok telemetry := by
  have hrejected : ServiceTelemetry.decode unknownStageTelemetry.encode =
      reject (.unknownSimulationStage 6) := by decide +kernel
  refine ⟨hrejected, fun hall => ?_⟩
  have haccepted := hall unknownStageTelemetry
  rw [hrejected] at haccepted
  cases haccepted

end Dogmos.Wire
