import Dogmos.Wire.Metadata
import Dogmos.Wire.Tokens

/-!
# Callback events

The record of an event has one length.  Its kind says what its auxiliary word may be and
whether a continuation token stands at its end, and its scope whether a transaction does.

* `callbackEvent_codec` — an event is its bytes, with a token and without one.
* `callbackBatchRequest_codec`, `callbackBatchHeader_codec` — what is asked for and what is
  answered.
-/

namespace Dogmos.Wire

open Bytes

def callbackEventLen : Nat := 104

/-! ## Kinds and scopes -/

/-- `CallbackEventKind`. -/
inductive CallbackEventKind where
  | diagnostic
  | reactionFinished
  | pressureDifference
  | decompressionFloorRip
  | firelockConsideration
  | turfDestructionRequest
  | runDmReaction
  | reactionProfiled
deriving DecidableEq

namespace CallbackEventKind

def toU16 : CallbackEventKind → UInt16
  | .diagnostic => 1
  | .reactionFinished => 2
  | .pressureDifference => 3
  | .decompressionFloorRip => 4
  | .firelockConsideration => 5
  | .turfDestructionRequest => 6
  | .runDmReaction => 7
  | .reactionProfiled => 8

def tryFrom (value : UInt16) : Except ProtocolError CallbackEventKind :=
  if value = 1 then .ok .diagnostic
  else if value = 2 then .ok .reactionFinished
  else if value = 3 then .ok .pressureDifference
  else if value = 4 then .ok .decompressionFloorRip
  else if value = 5 then .ok .firelockConsideration
  else if value = 6 then .ok .turfDestructionRequest
  else if value = 7 then .ok .runDmReaction
  else if value = 8 then .ok .reactionProfiled
  else .error (.unknownCallbackEventKind value)

theorem tryFrom_eq_ok {value : UInt16} {kind : CallbackEventKind} :
    tryFrom value = .ok kind ↔ kind.toU16 = value := by
  constructor
  · unfold tryFrom
    intro h
    repeat' split at h
    all_goals cases h
    all_goals exact Eq.symm ‹_›
  · rintro rfl
    cases kind <;> rfl

end CallbackEventKind

/-- `CallbackScope`. -/
inductive CallbackScope where
  | general
  | reaction
deriving DecidableEq

namespace CallbackScope

def toU16 : CallbackScope → UInt16
  | .general => 1
  | .reaction => 2

def tryFrom (value : UInt16) : Except ProtocolError CallbackScope :=
  if value = 1 then .ok .general
  else if value = 2 then .ok .reaction
  else .error (.unknownCallbackScope value)

theorem tryFrom_eq_ok {value : UInt16} {scope : CallbackScope} :
    tryFrom value = .ok scope ↔ scope.toU16 = value := by
  constructor
  · unfold tryFrom
    intro h
    repeat' split at h
    all_goals cases h
    all_goals exact Eq.symm ‹_›
  · rintro rfl
    cases scope <;> rfl

end CallbackScope

/-- `validate_callback_transaction`. -/
def validateCallbackTransaction (scope : CallbackScope) (transactionId : UInt64) :
    Except ProtocolError Unit :=
  let valid : Bool := match scope with
    | .general => transactionId = 0
    | .reaction => transactionId ≠ 0
  failIf (valid = false) (.invalidCallbackTransaction scope.toU16 transactionId)

/-- `validate_callback_aux`: a reaction, a reason, any word or none. -/
def validateCallbackAux (kind : CallbackEventKind) (aux : UInt32) : Except ProtocolError Unit :=
  match kind with
  | .reactionFinished => failIf (aux < 1 ∨ 4 < aux) (.unknownCallbackAux kind.toU16 aux)
  | .turfDestructionRequest => failIf (aux ≠ 1) (.unknownCallbackAux kind.toU16 aux)
  | .runDmReaction | .reactionProfiled => .ok ()
  | .diagnostic | .pressureDifference | .decompressionFloorRip | .firelockConsideration =>
    failIf (aux ≠ 0) (.unknownCallbackAux kind.toU16 aux)

/-- Whether a token has to be there. -/
def validateContinuation (kind : CallbackEventKind) (present : Bool) : Except ProtocolError Unit :=
  if kind = .runDmReaction then failIf (present = false) .missingContinuationToken
  else failIf (present = true) .unexpectedContinuationToken

/-! ## Events -/

/-- `CallbackEvent`. -/
structure CallbackEvent where
  scopeSequence : UInt64
  transactionId : UInt64
  scope : CallbackScope
  kind : CallbackEventKind
  flags : UInt16
  subject : WireHandle
  target : WireHandle
  values : Vector ScalarValue 4
  aux : UInt32
  continuation : Option ContinuationToken
deriving DecidableEq

/-- The token at the end of an event. -/
def putContinuation (output : Bytes) : Option ContinuationToken → Encoded
  | none => pure output
  | some token => do
    pure (put output 80 (← token.encode))

/-- The token of the end of an event, when it is not blank. -/
def decodeContinuation (tail : Bytes) : Decoded (Option ContinuationToken) :=
  if isBlank tail then pure none else some <$> ContinuationToken.decode tail

/-- `CallbackEvent::encode`. -/
def CallbackEvent.encode (event : CallbackEvent) : Encoded := do
  validateCallbackTransaction event.scope event.transactionId
  failIf (event.flags ≠ 0) (.unknownCallbackFlags event.flags)
  validateCallbackAux event.kind event.aux
  validateContinuation event.kind event.continuation.isSome
  let output := zeros callbackEventLen
  let output := put output 0 (le64 event.scopeSequence)
  let output := put output 8 (le64 event.transactionId)
  let output := put output 16 (le16 event.scope.toU16)
  let output := put output 18 (le16 event.kind.toU16)
  let output := put output 20 (le16 event.flags)
  let output := put output 24 event.subject.encode
  let output := put output 32 event.target.encode
  let output := put output 40 (← encodeAll ScalarValue.encode event.values.toList)
  let output := put output 72 (le32 event.aux)
  putContinuation output event.continuation

/-- `CallbackEvent::decode`. -/
def CallbackEvent.decode (input : Bytes) : Decoded CallbackEvent := do
  requireExactLen input callbackEventLen
  let scope ← lift (CallbackScope.tryFrom (← readU16 input 16))
  let transactionId ← readU64 input 8
  lift (validateCallbackTransaction scope transactionId)
  let flags ← readU16 input 20
  rejectIf (flags ≠ 0) (.unknownCallbackFlags flags)
  let reservedShort ← readU16 input 22
  rejectIf (reservedShort ≠ 0) (.reservedCallbackEventField reservedShort.toUInt32)
  let reserved ← readU32 input 76
  rejectIf (reserved ≠ 0) (.reservedCallbackEventField reserved)
  let kind ← lift (CallbackEventKind.tryFrom (← readU16 input 18))
  let aux ← readU32 input 72
  lift (validateCallbackAux kind aux)
  let tail ← slice input 80 104
  lift (validateContinuation kind (!isBlank tail))
  let continuation ← decodeContinuation tail
  let scopeSequence ← readU64 input 0
  let subject ← readHandle input 24
  let target ← readHandle input 32
  let values ← decodeScalars 4 input 40
  pure ⟨scopeSequence, transactionId, scope, kind, flags, subject, target, values, aux, continuation⟩

/-! ### What an event record is -/

/-- The end of an event: a token or blank bytes. -/
def continuationBytes : Option ContinuationToken → Bytes
  | none => zeros continuationTokenLen
  | some token => token.bytes

/-- An event record, field by field. -/
def eventBytes (sequence transactionId : UInt64) (scope kind flags reservedShort : UInt16)
    (subject target : WireHandle) (row : Bytes) (aux reserved : UInt32) (tail : Bytes) : Bytes :=
  le64 sequence ++ (le64 transactionId ++ (le16 scope ++ (le16 kind ++ (le16 flags ++
    (le16 reservedShort ++ (subject.encode ++ (target.encode ++ (row ++ (le32 aux ++
      (le32 reserved ++ tail))))))))))

/-- The bytes of an event. -/
structure CallbackEvent.Carries (event : CallbackEvent) (bs : Bytes) : Prop where
  transaction : validateCallbackTransaction event.scope event.transactionId = .ok ()
  flags : event.flags = 0
  aux : validateCallbackAux event.kind event.aux = .ok ()
  continuation : validateContinuation event.kind event.continuation.isSome = .ok ()
  token : ∀ token ∈ event.continuation, token.Valid
  layout : ∃ row : Bytes, CarriesAll ScalarCarries event.values.toList row ∧
    bs = eventBytes event.scopeSequence event.transactionId event.scope.toU16 event.kind.toU16
      event.flags 0 event.subject event.target row event.aux 0
      (continuationBytes event.continuation)

theorem length_scalars {count : Nat} {v : Vector ScalarValue count} {row : Bytes}
    (h : CarriesAll ScalarCarries v.toList row) : row.length = count * 8 := by
  rw [scalarFormat.length_all h, Vector.length_toList]

/-- The writes of an event without a token, from front to back. -/
theorem event_writes {row : Bytes} (hrow : row.length = 4 * 8) (a b : UInt64) (c d e : UInt16)
    (f g : WireHandle) (h : UInt32) :
    put (put (put (put (put (put (put (put (put (zeros 104) 0 (le64 a)) 8 (le64 b)) 16 (le16 c)) 18
      (le16 d)) 20 (le16 e)) 24 f.encode) 32 g.encode) 40 row) 72 (le32 h) =
    eventBytes a b c d e 0 f g row h 0 (zeros 24) := by
  simp [eventBytes, put_append, put_zeros, put_zeros_gap, hrow, le16_zero, le32_zero]
  rfl

theorem putContinuation_eq_ok {row : Bytes} (hrow : row.length = 4 * 8) {a b : UInt64}
    {c d e : UInt16} {f g : WireHandle} {h : UInt32} {continuation : Option ContinuationToken}
    {bs : Bytes} :
    putContinuation (eventBytes a b c d e 0 f g row h 0 (zeros 24)) continuation = .ok bs ↔
      (∀ token ∈ continuation, token.Valid) ∧
        bs = eventBytes a b c d e 0 f g row h 0 (continuationBytes continuation) := by
  unfold putContinuation continuationBytes
  cases continuation with
  | none => simp [continuationTokenLen, eq_comm]
  | some token =>
    have hput : put (eventBytes a b c d e 0 f g row h 0 (zeros 24)) 80 token.bytes =
        eventBytes a b c d e 0 f g row h 0 token.bytes := by
      simp [eventBytes, put_append, put_zeros, hrow]
    simp only [bind_eq_ok, ContinuationToken.encode_eq_ok, pure_eq, Except.ok.injEq,
      Option.mem_some_iff, forall_eq']
    constructor
    · rintro ⟨_, ⟨hvalid, rfl⟩, rfl⟩
      exact ⟨hvalid, hput⟩
    · rintro ⟨hvalid, rfl⟩
      exact ⟨_, ⟨hvalid, rfl⟩, hput⟩

theorem CallbackEvent.encode_eq_ok {event : CallbackEvent} {bs : Bytes} :
    event.encode = .ok bs ↔ event.Carries bs := by
  have hwrites : ∀ {row : Bytes}, CarriesAll ScalarCarries event.values.toList row → _ :=
    fun {row} hrow => event_writes (length_scalars hrow) event.scopeSequence event.transactionId
      event.scope.toU16 event.kind.toU16 event.flags event.subject event.target event.aux
  unfold CallbackEvent.encode callbackEventLen
  simp only [bind_eq_ok, failIf_eq_ok, not_not, encodeAll_scalars]
  constructor
  · rintro ⟨_, htransaction, _, hflags, _, haux, _, hcontinuation, row, hrow, h⟩
    rw [hwrites hrow, putContinuation_eq_ok (length_scalars hrow)] at h
    exact ⟨htransaction, hflags, haux, hcontinuation, h.1, row, hrow, h.2⟩
  · rintro ⟨htransaction, hflags, haux, hcontinuation, hvalid, row, hrow, rfl⟩
    refine ⟨(), htransaction, (), hflags, (), haux, (), hcontinuation, row, hrow, ?_⟩
    rw [hwrites hrow, putContinuation_eq_ok (length_scalars hrow)]
    exact ⟨hvalid, rfl⟩

/-- A string of the length of an event, split into its fields. -/
theorem exists_event_fields {bs : Bytes} (h : bs.length = callbackEventLen) :
    ∃ (sequence transactionId : UInt64) (scope kind flags reservedShort : UInt16)
      (subject target : WireHandle) (row : Bytes) (aux reserved : UInt32) (tail : Bytes),
      bs = eventBytes sequence transactionId scope kind flags reservedShort subject target row aux
        reserved tail ∧ row.length = 4 * 8 ∧ tail.length = continuationTokenLen := by
  unfold callbackEventLen at h
  unfold continuationTokenLen
  obtain ⟨sequence, bs, rfl, h₁⟩ := exists_le64_append (show 8 ≤ bs.length by omega)
  obtain ⟨transactionId, bs, rfl, h₂⟩ := exists_le64_append (show 8 ≤ bs.length by omega)
  obtain ⟨scope, bs, rfl, h₃⟩ := exists_le16_append (show 2 ≤ bs.length by omega)
  obtain ⟨kind, bs, rfl, h₄⟩ := exists_le16_append (show 2 ≤ bs.length by omega)
  obtain ⟨flags, bs, rfl, h₅⟩ := exists_le16_append (show 2 ≤ bs.length by omega)
  obtain ⟨reservedShort, bs, rfl, h₆⟩ := exists_le16_append (show 2 ≤ bs.length by omega)
  obtain ⟨subject, bs, rfl, h₇⟩ := exists_handle_append (show 8 ≤ bs.length by omega)
  obtain ⟨target, bs, rfl, h₈⟩ := exists_handle_append (show 8 ≤ bs.length by omega)
  obtain ⟨row, bs, rfl, hrow, h₉⟩ := exists_append (show 32 ≤ bs.length by omega)
  obtain ⟨aux, bs, rfl, h₁₀⟩ := exists_le32_append (show 4 ≤ bs.length by omega)
  obtain ⟨reserved, tail, rfl, h₁₁⟩ := exists_le32_append (show 4 ≤ bs.length by omega)
  exact ⟨sequence, transactionId, scope, kind, flags, reservedShort, subject, target, row, aux,
    reserved, tail, rfl, hrow, by omega⟩

section Event

variable {sequence transactionId : UInt64} {scope kind flags reservedShort : UInt16}
  {subject target : WireHandle} {row : Bytes} {aux reserved : UInt32} {tail : Bytes}

/-- The words of an event record. -/
theorem event_words (hrow : row.length = 4 * 8) :
    (readU64 (eventBytes sequence transactionId scope kind flags reservedShort subject target row aux
          reserved tail) 0 = (.ok sequence : Decoded UInt64) ∧
      readU64 (eventBytes sequence transactionId scope kind flags reservedShort subject target row aux
          reserved tail) 8 = (.ok transactionId : Decoded UInt64) ∧
      readU16 (eventBytes sequence transactionId scope kind flags reservedShort subject target row aux
          reserved tail) 16 = (.ok scope : Decoded UInt16) ∧
      readU16 (eventBytes sequence transactionId scope kind flags reservedShort subject target row aux
          reserved tail) 18 = (.ok kind : Decoded UInt16)) ∧
    (readU16 (eventBytes sequence transactionId scope kind flags reservedShort subject target row aux
          reserved tail) 20 = (.ok flags : Decoded UInt16) ∧
      readU16 (eventBytes sequence transactionId scope kind flags reservedShort subject target row aux
          reserved tail) 22 = (.ok reservedShort : Decoded UInt16) ∧
      readU32 (eventBytes sequence transactionId scope kind flags reservedShort subject target row aux
          reserved tail) 72 = (.ok aux : Decoded UInt32) ∧
      readU32 (eventBytes sequence transactionId scope kind flags reservedShort subject target row aux
          reserved tail) 76 = (.ok reserved : Decoded UInt32)) ∧
    readHandle (eventBytes sequence transactionId scope kind flags reservedShort subject target row aux
        reserved tail) 24 = .ok subject ∧
      readHandle (eventBytes sequence transactionId scope kind flags reservedShort subject target row
        aux reserved tail) 32 = .ok target := by
  simp [eventBytes, readU16_skip, readU32_skip, readU64_skip, readHandle_skip, hrow]

theorem event_tail (hrow : row.length = 4 * 8) (htail : tail.length = continuationTokenLen) :
    slice (ε := ProtocolError) (eventBytes sequence transactionId scope kind flags reservedShort
      subject target row aux reserved tail) 80 104 = .ok tail := by
  unfold continuationTokenLen at htail
  simp [eventBytes, slice_skip, hrow, slice_all htail]

theorem event_scalars {v : Vector ScalarValue 4} (hrow : row.length = 4 * 8) :
    decodeScalars 4 (eventBytes sequence transactionId scope kind flags reservedShort subject target
        row aux reserved tail) 40 = .ok v ↔ CarriesAll ScalarCarries v.toList row := by
  have hread := @decodeScalars_eq_ok 4 40
    (le64 sequence ++ (le64 transactionId ++ (le16 scope ++ (le16 kind ++ (le16 flags ++
      (le16 reservedShort ++ (subject.encode ++ target.encode))))))) row
    (le32 aux ++ (le32 reserved ++ tail)) v (by simp) hrow
  simpa only [eventBytes, List.append_assoc] using hread

/-- The end of an event and the token in it. -/
theorem tail_eq_ok {continuation : Option ContinuationToken}
    (htail : tail.length = continuationTokenLen) :
    decodeContinuation tail = .ok continuation ↔
      tail = continuationBytes continuation ∧ ∀ token ∈ continuation, token.Valid := by
  unfold decodeContinuation
  by_cases hblank : isBlank tail = true
  · have hzeros : tail = zeros continuationTokenLen := by
      rw [← htail]
      exact isBlank_iff.1 hblank
    rw [if_pos hblank, pure_eq, Except.ok.injEq]
    constructor
    · rintro rfl
      exact ⟨hzeros, by simp⟩
    · rintro ⟨htail, hvalid⟩
      cases continuation with
      | none => rfl
      | some token =>
        have hshows := ContinuationToken.not_blank (hvalid token rfl)
        rw [htail] at hblank
        exact absurd (hblank.symm.trans hshows) (by decide)
  · rw [if_neg hblank]
    constructor
    · intro h
      cases hdecode : ContinuationToken.decode tail with
      | error fault =>
        rw [hdecode] at h
        cases h
      | ok token =>
        rw [hdecode] at h
        cases h
        obtain ⟨hvalid, htail⟩ := ContinuationToken.decode_eq_ok.1 hdecode
        exact ⟨htail, by simpa using hvalid⟩
    · rintro ⟨rfl, hvalid⟩
      cases continuation with
      | none => exact absurd (isBlank_zeros _) hblank
      | some token =>
        have hdecode := ContinuationToken.decode_eq_ok.2 ⟨hvalid token rfl, rfl⟩
        unfold continuationBytes
        rw [hdecode]
        rfl

theorem isBlank_continuationBytes {continuation : Option ContinuationToken}
    (h : ∀ token ∈ continuation, token.Valid) :
    (!isBlank (continuationBytes continuation)) = continuation.isSome := by
  cases continuation with
  | none => simp [continuationBytes]
  | some token => simp [continuationBytes, ContinuationToken.not_blank (h token rfl)]

/-- The fields of two event records agree where the records do. -/
theorem eventBytes_inj {sequence' transactionId' : UInt64}
    {scope' kind' flags' reservedShort' : UInt16} {subject' target' : WireHandle} {row' : Bytes}
    {aux' reserved' : UInt32} {tail' : Bytes} (hrow : row.length = row'.length) :
    eventBytes sequence transactionId scope kind flags reservedShort subject target row aux reserved
        tail = eventBytes sequence' transactionId' scope' kind' flags' reservedShort' subject' target'
        row' aux' reserved' tail' ↔
      (sequence = sequence' ∧ transactionId = transactionId' ∧ scope = scope' ∧ kind = kind' ∧
        flags = flags' ∧ reservedShort = reservedShort') ∧ subject = subject' ∧ target = target' ∧
        row = row' ∧ aux = aux' ∧ reserved = reserved' ∧ tail = tail' := by
  unfold eventBytes
  simp only [le16_append_inj, le32_append_inj, le64_append_inj, WireHandle.encode_append_inj,
    append_inj_iff hrow]
  constructor
  · rintro ⟨rfl, rfl, rfl, rfl, rfl, rfl, rfl, rfl, rfl, rfl, rfl, rfl⟩
    simp
  · rintro ⟨⟨rfl, rfl, rfl, rfl, rfl, rfl⟩, rfl, rfl, rfl, rfl, rfl, rfl⟩
    simp

theorem decodeEvent_fields {event : CallbackEvent} (hrow : row.length = 4 * 8)
    (htail : tail.length = continuationTokenLen) :
    CallbackEvent.decode (eventBytes sequence transactionId scope kind flags reservedShort subject
        target row aux reserved tail) = .ok event ↔
      event.Carries (eventBytes sequence transactionId scope kind flags reservedShort subject
        target row aux reserved tail) := by
  have hlength : (eventBytes sequence transactionId scope kind flags reservedShort subject target row
      aux reserved tail).length = callbackEventLen := by
    simp [eventBytes, hrow, htail, callbackEventLen, continuationTokenLen]
  unfold CallbackEvent.decode
  simp only [event_words hrow, event_tail hrow htail, bind_ok, bind_eq_ok, requireExactLen_eq_ok,
    hlength, lift_eq_ok, rejectIf_eq_ok, not_not, CallbackScope.tryFrom_eq_ok,
    CallbackEventKind.tryFrom_eq_ok, tail_eq_ok htail, event_scalars hrow, pure_eq, Except.ok.injEq]
  constructor
  · rintro ⟨_, -, s, rfl, _, htransaction, _, rfl, _, rfl, _, rfl, k, rfl, _, haux, _, hcontinuation,
      continuation, ⟨rfl, hvalid⟩, v, hv, rfl⟩
    rw [isBlank_continuationBytes hvalid] at hcontinuation
    exact ⟨htransaction, rfl, haux, hcontinuation, hvalid, row, hv, rfl⟩
  · rintro ⟨htransaction, hflags, haux, hcontinuation, hvalid, row', hrow', hbytes⟩
    rw [eventBytes_inj (hrow.trans (length_scalars hrow').symm)] at hbytes
    obtain ⟨⟨rfl, rfl, rfl, rfl, rfl, rfl⟩, rfl, rfl, rfl, rfl, rfl, rfl⟩ := hbytes
    rw [← isBlank_continuationBytes hvalid] at hcontinuation
    exact ⟨(), trivial, _, rfl, (), htransaction, (), hflags, (), rfl, (), rfl, _, rfl, (), haux, (),
      hcontinuation, _, ⟨rfl, hvalid⟩, _, hrow', rfl⟩

end Event

/-- An event is its bytes, with a token and without one. -/
theorem callbackEvent_codec : Codec CallbackEvent.encode CallbackEvent.decode := by
  have hiff : ∀ {event : CallbackEvent} {bs : Bytes}, bs.length = callbackEventLen →
      (CallbackEvent.decode bs = .ok event ↔ event.encode = .ok bs) := by
    intro event bs h
    obtain ⟨sequence, transactionId, scope, kind, flags, reservedShort, subject, target, row, aux,
      reserved, tail, rfl, hrow, htail⟩ := exists_event_fields h
    rw [CallbackEvent.encode_eq_ok]
    exact decodeEvent_fields hrow htail
  constructor
  · intro event bs h
    refine (hiff ?_).2 h
    obtain ⟨-, -, -, -, -, row, hrow, rfl⟩ := CallbackEvent.encode_eq_ok.1 h
    have hlength := length_scalars hrow
    have htail : (continuationBytes event.continuation).length = continuationTokenLen := by
      cases event.continuation <;> simp [continuationBytes, continuationTokenLen]
    simp [eventBytes, hlength, htail, callbackEventLen, continuationTokenLen]
  · intro event bs h
    obtain ⟨_, hexact, -⟩ := bind_eq_ok.1 h
    exact (hiff (requireExactLen_eq_ok.1 hexact)).1 h

/-! ## Batches of events -/

def callbackBatchRequestLen : Nat := 16

def callbackBatchHeaderLen : Nat := 24

/-- `CallbackBatchRequest`. -/
structure CallbackBatchRequest where
  maxEvents : UInt32
  scope : CallbackScope
  transactionId : UInt64
deriving DecidableEq

namespace CallbackBatchRequest

/-- `CallbackBatchRequest::encode`. -/
def encode (request : CallbackBatchRequest) : Encoded := do
  validateCallbackTransaction request.scope request.transactionId
  let output := put (zeros callbackBatchRequestLen) 0 (le32 request.maxEvents)
  let output := put output 4 (le16 request.scope.toU16)
  pure (put output 8 (le64 request.transactionId))

/-- `CallbackBatchRequest::decode`. -/
def decode (input : Bytes) : Decoded CallbackBatchRequest := do
  requireExactLen input callbackBatchRequestLen
  let reserved ← readU16 input 6
  rejectIf (reserved ≠ 0) (.reservedCallbackBatchField reserved)
  let maxEvents ← readU32 input 0
  let scope ← lift (CallbackScope.tryFrom (← readU16 input 4))
  let transactionId ← readU64 input 8
  lift (validateCallbackTransaction scope transactionId)
  pure ⟨maxEvents, scope, transactionId⟩

theorem encode_eq_ok {request : CallbackBatchRequest} {bs : Bytes} :
    request.encode = .ok bs ↔
      validateCallbackTransaction request.scope request.transactionId = .ok () ∧
        bs = le32 request.maxEvents ++ (le16 request.scope.toU16 ++ (le16 0 ++
          le64 request.transactionId)) := by
  have hput : put (put (put (zeros callbackBatchRequestLen) 0 (le32 request.maxEvents)) 4
      (le16 request.scope.toU16)) 8 (le64 request.transactionId) =
      le32 request.maxEvents ++ (le16 request.scope.toU16 ++ (le16 0 ++
        le64 request.transactionId)) := by
    simp [put_append, put_zeros, put_zeros_gap, callbackBatchRequestLen, le16_zero]
  unfold encode
  simp only [bind_eq_ok, hput, pure_eq, Except.ok.injEq]
  constructor
  · rintro ⟨_, htransaction, rfl⟩
    exact ⟨htransaction, rfl⟩
  · rintro ⟨htransaction, rfl⟩
    exact ⟨(), htransaction, rfl⟩

theorem decode_eq_ok {request : CallbackBatchRequest} {bs : Bytes} :
    decode bs = .ok request ↔ request.encode = .ok bs := by
  rw [encode_eq_ok]
  unfold decode
  simp only [bind_eq_ok, requireExactLen_eq_ok, rejectIf_eq_ok, not_not, lift_eq_ok,
    CallbackScope.tryFrom_eq_ok, pure_eq, Except.ok.injEq]
  constructor
  · rintro ⟨_, hlength, reserved, hreserved, _, rfl, events, hevents, scope, hscope, s, rfl, id, hid,
      _, htransaction, rfl⟩
    unfold callbackBatchRequestLen at hlength
    obtain ⟨events', bs, rfl, h₁⟩ := exists_le32_append (show 4 ≤ bs.length by omega)
    obtain ⟨scope', bs, rfl, h₂⟩ := exists_le16_append (show 2 ≤ bs.length by omega)
    obtain ⟨reserved', bs, rfl, h₃⟩ := exists_le16_append (show 2 ≤ bs.length by omega)
    obtain ⟨id', bs, rfl, h₄⟩ := exists_le64_append (show 8 ≤ bs.length by omega)
    obtain rfl : bs = [] := List.eq_nil_of_length_eq_zero (by omega)
    simp only [readU32_block, readU16_skip, readU16_block, readU64_skip, readU64_block, length_le32,
      length_le16, Nat.reduceLeDiff, Nat.reduceSub, Except.ok.injEq] at hreserved hevents hscope hid
    subst hreserved hevents hscope hid
    exact ⟨htransaction, by rw [List.append_nil]⟩
  · rintro ⟨htransaction, rfl⟩
    refine ⟨(), by simp [callbackBatchRequestLen], 0, ?_, (), rfl, request.maxEvents, ?_,
      request.scope.toU16, ?_, _, rfl, request.transactionId, ?_, (), htransaction, rfl⟩ <;>
      simp [readU16_skip, readU64_skip]

end CallbackBatchRequest

/-- A request for events is its bytes. -/
theorem callbackBatchRequest_codec : Codec CallbackBatchRequest.encode CallbackBatchRequest.decode :=
  ⟨CallbackBatchRequest.decode_eq_ok.2, CallbackBatchRequest.decode_eq_ok.1⟩

/-- `CallbackBatchHeader`. -/
structure CallbackBatchHeader where
  returned : UInt32
  remaining : UInt32
  capacity : UInt32
  highWater : UInt32
  rejected : UInt64
deriving DecidableEq

namespace CallbackBatchHeader

/-- `CallbackBatchHeader::encode`. -/
def encode (header : CallbackBatchHeader) : Bytes :=
  let output := put (zeros callbackBatchHeaderLen) 0 (le32 header.returned)
  let output := put output 4 (le32 header.remaining)
  let output := put output 8 (le32 header.capacity)
  let output := put output 12 (le32 header.highWater)
  put output 16 (le64 header.rejected)

/-- `CallbackBatchHeader::decode`. -/
def decode (input : Bytes) : Decoded CallbackBatchHeader := do
  requireExactLen input callbackBatchHeaderLen
  pure { returned := ← readU32 input 0, remaining := ← readU32 input 4,
         capacity := ← readU32 input 8, highWater := ← readU32 input 12,
         rejected := ← readU64 input 16 }

theorem encode_eq (header : CallbackBatchHeader) :
    header.encode = le32 header.returned ++ (le32 header.remaining ++ (le32 header.capacity ++
      (le32 header.highWater ++ le64 header.rejected))) := by
  simp [encode, put_append, put_zeros, callbackBatchHeaderLen]

theorem decode_eq_ok {header : CallbackBatchHeader} {bs : Bytes} :
    decode bs = .ok header ↔ header.encode = bs := by
  rw [encode_eq]
  unfold decode
  simp only [bind_eq_ok, requireExactLen_eq_ok, pure_eq, Except.ok.injEq]
  constructor
  · rintro ⟨_, hlength, returned, hreturned, remaining, hremaining, capacity, hcapacity, highWater,
      hhighWater, rejected, hrejected, rfl⟩
    unfold callbackBatchHeaderLen at hlength
    obtain ⟨returned', bs, rfl, h₁⟩ := exists_le32_append (show 4 ≤ bs.length by omega)
    obtain ⟨remaining', bs, rfl, h₂⟩ := exists_le32_append (show 4 ≤ bs.length by omega)
    obtain ⟨capacity', bs, rfl, h₃⟩ := exists_le32_append (show 4 ≤ bs.length by omega)
    obtain ⟨highWater', bs, rfl, h₄⟩ := exists_le32_append (show 4 ≤ bs.length by omega)
    obtain ⟨rejected', bs, rfl, h₅⟩ := exists_le64_append (show 8 ≤ bs.length by omega)
    obtain rfl : bs = [] := List.eq_nil_of_length_eq_zero (by omega)
    simp only [readU32_block, readU32_skip, readU64_skip, readU64_block, length_le32,
      Nat.reduceLeDiff, Nat.reduceSub, Except.ok.injEq]
      at hreturned hremaining hcapacity hhighWater hrejected
    subst hreturned hremaining hcapacity hhighWater hrejected
    rw [List.append_nil]
  · rintro rfl
    refine ⟨(), by simp [callbackBatchHeaderLen], _, ?_, _, ?_, _, ?_, _, ?_, _, ?_, rfl⟩ <;>
      simp [readU32_skip, readU64_skip]

end CallbackBatchHeader

/-- The header of an answer is its bytes. -/
theorem callbackBatchHeader_codec :
    Codec (fun header => .ok (CallbackBatchHeader.encode header)) CallbackBatchHeader.decode :=
  ⟨fun h => CallbackBatchHeader.decode_eq_ok.2 (Except.ok.inj h),
    fun h => congrArg Except.ok (CallbackBatchHeader.decode_eq_ok.1 h)⟩

theorem CallbackBatchRequest.safe_decode (input : Bytes) :
    Safe (CallbackBatchRequest.decode input) := by
  unfold CallbackBatchRequest.decode callbackBatchRequestLen
  refine safe_requireExactLen_bind fun hlength => ?_
  refine safe_bind (safe_readU16 (by omega)) fun _ _ => safe_rejectIf_bind fun _ => ?_
  refine safe_bind (safe_readU32 (by omega)) fun _ _ => ?_
  refine safe_bind (safe_readU16 (by omega)) fun _ _ => safe_bind (safe_lift _) fun _ _ => ?_
  refine safe_bind (safe_readU64 (by omega)) fun _ _ => ?_
  exact safe_bind (safe_lift _) fun _ _ => safe_ok _

end Dogmos.Wire
