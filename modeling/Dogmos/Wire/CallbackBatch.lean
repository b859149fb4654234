import Dogmos.Lib.Delivery
import Dogmos.Wire.Telemetry

/-!
# Batches of callbacks in the bridge

The bridge turns a batch of callbacks into one flat list of numbers for DreamMaker: words of 16
bits for what does not fit a binary32, the values themselves as they are.  On the way it checks
that the batch is the one it asked for and that the callbacks are numbered without a gap.

* `decodeProductionCallbackBatch` — the whole of it.
* `decodeProductionCallbackBatch_eq_ok` — which batches of the service it accepts.
-/

namespace Dogmos.Wire

open Bytes

/-! ## Errors and lists -/

/-- `eyre::Report`. -/
inductive Report where
  | message (text : String)
  | protocol (error : ProtocolError)
deriving DecidableEq

/-- What a function of the bridge returns. -/
abbrev Reported (α : Type) := Except Report α

/-- An error of the bridge itself when a condition holds. -/
def reportIf (c : Prop) [Decidable c] (text : String) : Reported Unit :=
  if c then .error (.message text) else .ok ()

/-- `as_chunks`: the whole records of a list. -/
def asChunks {α : Type} (n : Nat) (values : List α) : List (Vector α n) :=
  go (values.length / n) values
where
  go : Nat → List α → List (Vector α n)
    | 0, _ => []
    | count + 1, values =>
      if h : (values.take n).length = n then
        ⟨(values.take n).toArray, h⟩ :: go count (values.drop n)
      else []

/-- A function of the index and the entry, over all entries. -/
def mapEntries {α β : Type} (f : Nat → α → Reported β) : Nat → List α → Reported (List β)
  | _, [] => .ok []
  | index, entry :: rest => do
    let b ← f index entry
    let bs ← mapEntries f (index + 1) rest
    pure (b :: bs)

/-! ## Words -/

/-- `split_u32_words`. -/
def splitU32Words (value : UInt32) : List UInt16 := [value.toUInt16, (value >>> 16).toUInt16]

/-- `split_u64_words`. -/
def splitU64Words (value : UInt64) : List UInt16 :=
  [value.toUInt16, (value >>> 16).toUInt16, (value >>> 32).toUInt16, (value >>> 48).toUInt16]

/-- A word as a number of DreamMaker. -/
def wordNumber (word : UInt16) : F32 := FloatFormat.ofNat word.toNat

/-- `append_u32_words`. -/
def u32Fields (value : UInt32) : List F32 := (splitU32Words value).map wordNumber

/-- `append_u64_words`. -/
def u64Fields (value : UInt64) : List F32 := (splitU64Words value).map wordNumber

/-- `append_continuation_token_fields`. -/
def continuationTokenFields (token : Option ContinuationToken) : List F32 :=
  let token := token.getD ⟨0, 0, 0⟩
  u32Fields token.worldGeneration ++ (u64Fields token.id ++ u64Fields token.deadlineTicks)

/-- `finite_indexed_byond_scalar`. -/
def finiteIndexedByondScalar (value : ScalarValue) (label : String) (index : Nat) : Reported F32 :=
  let value : F32 := narrow value.val
  if FloatFormat.isFinite value = false then
    .error (.message s!"{label} {index} is outside the finite BYOND number range")
  else .ok value

/-! ## Events -/

/-- The number of an event in its scope. -/
def CallbackEvent.number (event : CallbackEvent) : ℕ := event.scopeSequence.toNat

/-- The numbers of one event. -/
def callbackEventFields (event : CallbackEvent) : Reported (List F32) := do
  let values ← mapEntries (fun index value => finiteIndexedByondScalar value "callback value" index)
    0 event.values.toList
  pure (u64Fields event.scopeSequence ++ (u64Fields event.transactionId ++
    (([event.scope.toU16, event.kind.toU16, event.flags].map wordNumber) ++
      (u32Fields event.subject.slot ++ (u32Fields event.subject.generation ++
        (u32Fields event.target.slot ++ (u32Fields event.target.generation ++
          (values ++ (u32Fields event.aux ++
            (wordNumber (if event.continuation.isSome then 1 else 0) ::
              continuationTokenFields event.continuation))))))))))

/-- What a decoder of the bridge returns. -/
abbrev Received (α : Type) := Checked Report α

/-- A report inside a decoder of the bridge. -/
def receive {α : Type} : Reported α → Received α
  | .ok a => .ok a
  | .error report => .error (.rejects report)

/-- A decoder of the protocol inside a decoder of the bridge. -/
def received {α : Type} : Decoded α → Received α
  | .ok a => .ok a
  | .error (.rejects error) => .error (.rejects (.protocol error))
  | .error .panic => .error .panic

@[simp] theorem receive_ok {α : Type} (a : α) : receive (.ok a) = .ok a := rfl

@[simp] theorem received_ok {α : Type} (a : α) : received (.ok a) = .ok a := rfl

/-- The check that an event is numbered behind the one in front of it. -/
def requireContiguous (last : Option UInt64) (sequence : UInt64) : Reported Unit :=
  match last with
  | none => .ok ()
  | some last =>
    if last.toNat + 1 < 2 ^ 64 then
      reportIf (sequence ≠ last + 1) s!"Dogmos callback sequence is not contiguous at {sequence}"
    else .error (.message s!"Dogmos callback sequence overflowed after {last}")

/-- The loop of `decode_production_callback_batch`. -/
def decodeCallbackFields (scope : CallbackScope) (transactionId : UInt64) :
    Option UInt64 → List (Vector UInt8 callbackEventLen) → Received (List F32)
  | _, [] => .ok []
  | last, record :: rest => do
    let event ← received (CallbackEvent.decode record.toList)
    receive (reportIf (event.scope ≠ scope ∨ event.transactionId ≠ transactionId)
      "Dogmos callback response returned the wrong scope or transaction")
    receive (requireContiguous last event.scopeSequence)
    let fields ← receive (callbackEventFields event)
    let more ← decodeCallbackFields scope transactionId (some event.scopeSequence) rest
    pure (fields ++ more)

/-- `decode_production_callback_batch`. -/
def decodeProductionCallbackBatch (response : Bytes) (requestedMax : UInt32)
    (requestedScope : CallbackScope) (requestedTransactionId : UInt64) : Received (List F32) := do
  receive (reportIf (response.length < callbackBatchHeaderLen)
    s!"Dogmos callback response was {response.length} bytes, shorter than its header")
  let header ← received (CallbackBatchHeader.decode (response.take callbackBatchHeaderLen))
  receive (reportIf (requestedMax < header.returned)
    s!"Dogmos callback response returned {header.returned} events after {requestedMax} were requested")
  let expectedLen := callbackBatchHeaderLen + header.returned.toNat * callbackEventLen
  receive (reportIf (response.length ≠ expectedLen)
    s!"Dogmos callback response was {response.length} bytes, expected {expectedLen}")
  let fields ← decodeCallbackFields requestedScope requestedTransactionId none
    (asChunks callbackEventLen (response.drop callbackBatchHeaderLen))
  pure (u32Fields header.returned ++ (u32Fields header.remaining ++ (u32Fields header.capacity ++
    (u32Fields header.highWater ++ (u64Fields header.rejected ++ fields)))))

/-! ## Cutting a batch into records -/

section Chunks

variable {α : Type} {n : ℕ}

@[simp] theorem asChunks_nil : asChunks n ([] : List α) = [] := by
  unfold asChunks
  rw [List.length_nil, Nat.zero_div]
  rfl

/-- The first record is cut off, and the rest is cut the same way. -/
theorem asChunks_append {record rest : List α} (hn : 0 < n) (h : record.length = n) :
    asChunks n (record ++ rest) = ⟨record.toArray, h⟩ :: asChunks n rest := by
  have hcount : (record ++ rest).length / n = rest.length / n + 1 := by
    rw [List.length_append, h, Nat.add_div_left _ hn]
  have htake : (record ++ rest).take n = record := by rw [← h, List.take_left]
  have hdrop : (record ++ rest).drop n = rest := by rw [← h, List.drop_left]
  unfold asChunks
  rw [hcount, asChunks.go, dif_pos (by rw [htake, h]), hdrop]
  simp only [htake]

end Chunks

/-! ## Which batches are accepted -/

/-- The numbers of an event, for an event whose values all fit. -/
def eventNumbers (event : CallbackEvent) : List F32 :=
  u64Fields event.scopeSequence ++ (u64Fields event.transactionId ++
    (([event.scope.toU16, event.kind.toU16, event.flags].map wordNumber) ++
      (u32Fields event.subject.slot ++ (u32Fields event.subject.generation ++
        (u32Fields event.target.slot ++ (u32Fields event.target.generation ++
          (event.values.toList.map (fun value => narrow value.val) ++ (u32Fields event.aux ++
            (wordNumber (if event.continuation.isSome then 1 else 0) ::
              continuationTokenFields event.continuation)))))))))

/-- The values of an event are numbers of DreamMaker. -/
def CallbackEvent.Fits (event : CallbackEvent) : Prop :=
  ∀ value ∈ event.values.toList, FloatFormat.isFinite (narrow value.val : F32) = true

theorem mapEntries_finite {values : List ScalarValue} {label : String} (index : ℕ)
    (h : ∀ value ∈ values, FloatFormat.isFinite (narrow value.val : F32) = true) :
    mapEntries (fun index value => finiteIndexedByondScalar value label index) index values =
      .ok (values.map fun value => narrow value.val) := by
  induction values generalizing index with
  | nil => rfl
  | cons value rest ih =>
    have hvalue : finiteIndexedByondScalar value label index = .ok (narrow value.val) := by
      unfold finiteIndexedByondScalar
      dsimp only
      rw [h value List.mem_cons_self]
      rfl
    rw [mapEntries, hvalue, bind_ok,
      ih (index + 1) fun value hmem => h value (List.mem_cons_of_mem _ hmem)]
    rfl

theorem callbackEventFields_eq {event : CallbackEvent} (h : event.Fits) :
    callbackEventFields event = .ok (eventNumbers event) := by
  unfold callbackEventFields
  rw [mapEntries_finite 0 h]
  rfl

theorem receive_reportIf_eq_ok {c : Prop} [Decidable c] {text : String} {u : Unit} :
    receive (reportIf c text) = .ok u ↔ ¬c := by
  unfold reportIf
  split <;> simp_all [receive]

/-- Behind another event, an event has to have the next number. -/
theorem receive_requireContiguous_eq_ok {last sequence : UInt64} {u : Unit} :
    receive (requireContiguous (some last) sequence) = .ok u ↔
      sequence.toNat = last.toNat + 1 := by
  unfold requireContiguous
  dsimp only
  split
  · rename_i hlt
    have hnext : (last + 1).toNat = last.toNat + 1 := by
      rw [UInt64.toNat_add]
      exact Nat.mod_eq_of_lt hlt
    rw [receive_reportIf_eq_ok, not_not, ← UInt64.toNat_inj, hnext]
  · rename_i hlt
    have := sequence.toNat_lt
    simp only [receive, reduceCtorEq, false_iff]
    omega

section Records

variable {scope : CallbackScope} {transactionId : UInt64} {event : CallbackEvent}
  {events : List CallbackEvent} {records : Bytes} {fields : List F32}

/-- The loop at the record of an event. -/
theorem decodeCallbackFields_cons {record : Vector UInt8 callbackEventLen}
    {rest : List (Vector UInt8 callbackEventLen)} (last : Option UInt64)
    (hdecode : CallbackEvent.decode record.toList = .ok event)
    (hscope : event.scope = scope ∧ event.transactionId = transactionId) (hfits : event.Fits) :
    decodeCallbackFields scope transactionId last (record :: rest) = .ok fields ↔
      receive (requireContiguous last event.scopeSequence) = .ok () ∧
        ∃ more, decodeCallbackFields scope transactionId (some event.scopeSequence) rest =
          .ok more ∧ fields = eventNumbers event ++ more := by
  have hmatches : receive (reportIf (event.scope ≠ scope ∨ event.transactionId ≠ transactionId)
      "Dogmos callback response returned the wrong scope or transaction") = .ok () := by
    rw [receive_reportIf_eq_ok]
    simp [hscope]
  rw [decodeCallbackFields, hdecode]
  simp only [received_ok, bind_ok, hmatches, callbackEventFields_eq hfits, receive_ok, bind_eq_ok,
    pure_eq, Except.ok.injEq]
  constructor
  · rintro ⟨_, hcontiguous, more, hmore, rfl⟩
    exact ⟨hcontiguous, more, hmore, rfl⟩
  · rintro ⟨hcontiguous, more, hmore, rfl⟩
    exact ⟨(), hcontiguous, more, hmore, rfl⟩

theorem length_of_encode {bs : Bytes} (h : event.encode = .ok bs) : bs.length = callbackEventLen := by
  have hdecode := callbackEvent_codec.decode_encode h
  obtain ⟨_, hexact, -⟩ := bind_eq_ok.1 hdecode
  exact requireExactLen_eq_ok.1 hexact

theorem length_encodeAll (hencode : encodeAll CallbackEvent.encode events = .ok records) :
    records.length = events.length * callbackEventLen := by
  induction events generalizing records with
  | nil =>
    cases hencode
    simp
  | cons event rest ih =>
    rw [encodeAll, bind_eq_ok] at hencode
    obtain ⟨bs, hbs, hencode⟩ := hencode
    rw [bind_eq_ok] at hencode
    obtain ⟨more, hmore, heq⟩ := hencode
    cases heq
    rw [List.length_append, length_of_encode hbs, ih hmore, List.length_cons, Nat.succ_mul,
      Nat.add_comm]

/-- **The loop accepts exactly the records whose events are numbered without a gap**, and gives
their numbers. -/
theorem decodeCallbackFields_encodeAll (hencode : encodeAll CallbackEvent.encode events = .ok records)
    (hevents : ∀ event ∈ events, (event.scope = scope ∧ event.transactionId = transactionId) ∧
      event.Fits) (last : UInt64) :
    decodeCallbackFields scope transactionId (some last) (asChunks callbackEventLen records) =
        .ok fields ↔
      Delivery.Consecutive CallbackEvent.number (last.toNat + 1) events ∧
        fields = events.flatMap eventNumbers := by
  induction events generalizing last records fields with
  | nil =>
    cases hencode
    rw [asChunks_nil, decodeCallbackFields]
    simp [eq_comm]
  | cons event rest ih =>
    rw [encodeAll, bind_eq_ok] at hencode
    obtain ⟨bs, hbs, hencode⟩ := hencode
    rw [bind_eq_ok] at hencode
    obtain ⟨more, hmore, heq⟩ := hencode
    cases heq
    obtain ⟨hscope, hfits⟩ := hevents event List.mem_cons_self
    rw [asChunks_append (by decide) (length_of_encode hbs), decodeCallbackFields_cons (some last)
      (callbackEvent_codec.decode_encode hbs) hscope hfits, receive_requireContiguous_eq_ok,
      Delivery.consecutive_cons]
    have hrest : ∀ {fields : List F32}, decodeCallbackFields scope transactionId
        (some event.scopeSequence) (asChunks callbackEventLen more) = .ok fields ↔ _ :=
      ih hmore (fun event hmem => hevents event (List.mem_cons_of_mem _ hmem)) event.scopeSequence
    constructor
    · rintro ⟨hnumber, fields, hfields, rfl⟩
      obtain ⟨hconsecutive, rfl⟩ := hrest.1 hfields
      rw [hnumber] at hconsecutive
      exact ⟨⟨hnumber, hconsecutive⟩, rfl⟩
    · rintro ⟨⟨hnumber, hconsecutive⟩, rfl⟩
      refine ⟨hnumber, _, hrest.2 ⟨?_, rfl⟩, rfl⟩
      rw [show event.scopeSequence.toNat = last.toNat + 1 from hnumber]
      exact hconsecutive

/-- The same for the first record of a batch, which may have any number. -/
theorem decodeCallbackFields_start (hencode : encodeAll CallbackEvent.encode events = .ok records)
    (hevents : ∀ event ∈ events, (event.scope = scope ∧ event.transactionId = transactionId) ∧
      event.Fits) :
    decodeCallbackFields scope transactionId none (asChunks callbackEventLen records) = .ok fields ↔
      (∃ first, Delivery.Consecutive CallbackEvent.number first events) ∧
        fields = events.flatMap eventNumbers := by
  cases events with
  | nil =>
    cases hencode
    rw [asChunks_nil, decodeCallbackFields]
    simp [eq_comm]
  | cons event rest =>
    rw [encodeAll, bind_eq_ok] at hencode
    obtain ⟨bs, hbs, hencode⟩ := hencode
    rw [bind_eq_ok] at hencode
    obtain ⟨more, hmore, heq⟩ := hencode
    cases heq
    obtain ⟨hscope, hfits⟩ := hevents event List.mem_cons_self
    rw [asChunks_append (by decide) (length_of_encode hbs), decodeCallbackFields_cons none
      (callbackEvent_codec.decode_encode hbs) hscope hfits]
    have hrest : ∀ {fields : List F32}, decodeCallbackFields scope transactionId
        (some event.scopeSequence) (asChunks callbackEventLen more) = .ok fields ↔ _ :=
      decodeCallbackFields_encodeAll hmore
        (fun event hmem => hevents event (List.mem_cons_of_mem _ hmem)) event.scopeSequence
    constructor
    · rintro ⟨-, fields, hfields, rfl⟩
      obtain ⟨hconsecutive, rfl⟩ := hrest.1 hfields
      exact ⟨⟨event.number, Delivery.consecutive_cons.2 ⟨rfl, hconsecutive⟩⟩, rfl⟩
    · rintro ⟨⟨first, hconsecutive⟩, rfl⟩
      obtain ⟨rfl, hconsecutive⟩ := Delivery.consecutive_cons.1 hconsecutive
      exact ⟨rfl, _, hrest.2 ⟨hconsecutive, rfl⟩, rfl⟩

end Records

/-- **A batch as the service makes it** is accepted exactly when its events are numbered without a
gap. -/
theorem decodeProductionCallbackBatch_eq_ok {scope : CallbackScope} {transactionId : UInt64}
    {header : CallbackBatchHeader} {events : List CallbackEvent} {records : Bytes}
    {requestedMax : UInt32} {fields : List F32}
    (hencode : encodeAll CallbackEvent.encode events = .ok records)
    (hevents : ∀ event ∈ events, (event.scope = scope ∧ event.transactionId = transactionId) ∧
      event.Fits)
    (hreturned : header.returned.toNat = events.length) (hmax : header.returned ≤ requestedMax) :
    decodeProductionCallbackBatch (header.encode ++ records) requestedMax scope transactionId =
        .ok fields ↔
      (∃ first, Delivery.Consecutive CallbackEvent.number first events) ∧
        fields = u32Fields header.returned ++ (u32Fields header.remaining ++
          (u32Fields header.capacity ++ (u32Fields header.highWater ++
            (u64Fields header.rejected ++ events.flatMap eventNumbers)))) := by
  have hheader : header.encode.length = callbackBatchHeaderLen := by
    rw [CallbackBatchHeader.encode_eq]
    simp [callbackBatchHeaderLen]
  have hlength : (header.encode ++ records).length =
      callbackBatchHeaderLen + header.returned.toNat * callbackEventLen := by
    rw [List.length_append, hheader, length_encodeAll hencode, hreturned]
  have htake : (header.encode ++ records).take callbackBatchHeaderLen = header.encode := by
    rw [← hheader, List.take_left]
  have hdrop : (header.encode ++ records).drop callbackBatchHeaderLen = records := by
    rw [← hheader, List.drop_left]
  have hdecode : received (CallbackBatchHeader.decode header.encode) = .ok header := by
    rw [CallbackBatchHeader.decode_eq_ok.2 rfl, received_ok]
  unfold decodeProductionCallbackBatch
  simp only [htake, hdrop, hdecode, bind_ok, bind_eq_ok, receive_reportIf_eq_ok, hlength,
    decodeCallbackFields_start hencode hevents, pure_eq, Except.ok.injEq]
  constructor
  · rintro ⟨_, -, _, -, _, -, _, ⟨hconsecutive, rfl⟩, rfl⟩
    exact ⟨hconsecutive, rfl⟩
  · rintro ⟨hconsecutive, rfl⟩
    exact ⟨(), by omega, (), UInt32.not_lt.2 hmax, (), not_not.2 rfl, _, ⟨hconsecutive, rfl⟩, rfl⟩

end Dogmos.Wire
