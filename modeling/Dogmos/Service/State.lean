import Dogmos.Lib.Tally
import Dogmos.Service.Conversions
import Dogmos.Wire.Snapshots

/-!
# The state of the service

Around its world the service keeps what it owes the client: callback events that wait to be
drained, in one general queue and in one queue for each open reaction transaction, and the
continuations of reactions the client has been asked to run.  A continuation is known by an id
that is never given out twice and by a deadline.

The vectors that only save an allocation are left out, and so are the failures of allocation;
the clock is an argument.

* `enqueueWorldEvents` — the events of the world become numbered callbacks, in two halves:
  `prepareCallbackBatch` checks everything and `commitPreparedCallbackBatch` writes.
* `drainCallbacks` — a batch for the client.
* `expireContinuations`, `requireContinuation` — the two places where a deadline is looked at.
-/

namespace Dogmos

namespace Service

/-! ## Data -/

/-- `PendingContinuation`. -/
structure PendingContinuation where
  coreToken : ReactionContinuationToken
  deadlineTicks : UInt64
  turf : Option WireHandle
  mixture : WireHandle
  transactionId : UInt64
deriving DecidableEq

/-- `QueuedCallback`. -/
structure QueuedCallback where
  event : Wire.CallbackEvent
  enqueuedTicks : UInt64
deriving DecidableEq

/-- `ReactionCallbackQueue`. -/
structure ReactionCallbackQueue where
  callbacks : List QueuedCallback
  nextSequence : UInt64
  complete : Bool
deriving DecidableEq

/-- `PendingMixtureStateUpload`. -/
structure PendingMixtureStateUpload where
  id : UInt64
  expectedCount : Nat
  mutations : List Wire.MixtureStateMutation

/-- A counter for each index of `callbackKindIndex`. -/
abbrev KindCounters := Vector UInt64 Wire.callbackEventKindCount

/-- `ServiceState`. -/
structure ServiceState where
  world : DogmosWorld F32
  generalCallbacks : List QueuedCallback
  reactionCallbacks : Std.TreeMap UInt64 ReactionCallbackQueue
  pendingCallbackCount : UInt32
  maxCallbackEvents : UInt32
  maxReactionTransactions : UInt32
  reactionTransactionHighWater : UInt32
  nextReactionTransactionId : UInt64
  callbackHighWater : UInt32
  callbackRejected : UInt64
  callbackEnqueued : UInt64
  callbackDrained : UInt64
  callbackEnqueuedByKind : KindCounters
  callbackDrainedByKind : KindCounters
  callbackRejectedByKind : KindCounters
  nextCallbackSequence : UInt64
  pendingContinuations : Std.TreeMap UInt64 PendingContinuation
  maxPendingContinuations : UInt32
  continuationHighWater : UInt32
  continuationTimeouts : UInt64
  nextContinuationId : UInt64
  pendingMixtureStateUpload : Option PendingMixtureStateUpload
  nextMixtureStateUploadId : UInt64
  requestTimeouts : UInt64
  protocolErrors : UInt64
  worldGeneration : UInt32

/-- A method of the service. -/
abbrev ServiceM (α : Type) := Exec StateError ServiceState α

/-- `checked_add` of `u64`, with the error a missing sum becomes. -/
def checkedAdd64 (a b : UInt64) (error : StateError) : Except StateError UInt64 :=
  if a.toNat + b.toNat < 2 ^ 64 then .ok (a + b) else .error error

/-- `saturating_add` of `u64`. -/
def saturatingAdd64 (a b : UInt64) : UInt64 :=
  UInt64.ofNat (min (a.toNat + b.toNat) (2 ^ 64 - 1))

/-- A counter of a kind moved on. -/
def bumpKind (counters : KindCounters) (kind : Wire.CallbackEventKind) (count : UInt64) :
    KindCounters :=
  counters.mapIdx fun index counter =>
    if index = callbackKindIndex kind then saturatingAdd64 counter count else counter

/-- Counters moved on by how often each kind comes in a list. -/
def bumpKinds (counters : KindCounters) (kinds : List Wire.CallbackEventKind) : KindCounters :=
  counters.mapIdx fun index counter =>
    saturatingAdd64 counter (UInt64.ofNat (kinds.countP fun kind => callbackKindIndex kind = index))

namespace ServiceState

/-- `new_for_world`. -/
def newForWorld (mixtureSlotBytes turfSlotBytes : Nat) (maxWorldBytes : UInt64)
    (maxCallbackEvents maxPendingContinuations maxReactionTransactions worldGeneration : UInt32) :
    ServiceState :=
  { world := .newWithCapacities mixtureSlotBytes turfSlotBytes maxWorldBytes maxCallbackEvents
      maxPendingContinuations
    generalCallbacks := []
    reactionCallbacks := ∅
    pendingCallbackCount := 0
    maxCallbackEvents
    maxReactionTransactions
    reactionTransactionHighWater := 0
    nextReactionTransactionId := 1
    callbackHighWater := 0
    callbackRejected := 0
    callbackEnqueued := 0
    callbackDrained := 0
    callbackEnqueuedByKind := Vector.replicate _ 0
    callbackDrainedByKind := Vector.replicate _ 0
    callbackRejectedByKind := Vector.replicate _ 0
    nextCallbackSequence := 1
    pendingContinuations := ∅
    maxPendingContinuations
    continuationHighWater := 0
    continuationTimeouts := 0
    nextContinuationId := 1
    pendingMixtureStateUpload := none
    nextMixtureStateUploadId := 1
    requestTimeouts := 0
    protocolErrors := 0
    worldGeneration }

/-- `pending_continuation_count`. -/
def pendingContinuationCount (s : ServiceState) : UInt32 :=
  UInt32.ofNatClamp s.pendingContinuations.size

/-! ## Counters -/

/-- `record_callback_enqueued`. -/
def recordCallbackEnqueued (s : ServiceState) (kind : Wire.CallbackEventKind) (count : UInt32) :
    ServiceState :=
  { s with
    callbackEnqueued := saturatingAdd64 s.callbackEnqueued count.toUInt64
    callbackEnqueuedByKind := bumpKind s.callbackEnqueuedByKind kind count.toUInt64 }

/-- `record_callback_rejected`. -/
def recordCallbackRejected (s : ServiceState) (kind : Wire.CallbackEventKind) (count : UInt32) :
    ServiceState :=
  { s with
    callbackRejected := saturatingAdd64 s.callbackRejected count.toUInt64
    callbackRejectedByKind := bumpKind s.callbackRejectedByKind kind count.toUInt64 }

/-- The rejection of a batch of events of the world. -/
def recordBatchRejected (s : ServiceState) (kinds : List Wire.CallbackEventKind) : ServiceState :=
  { s with
    callbackRejected := saturatingAdd64 s.callbackRejected (UInt64.ofNat kinds.length)
    callbackRejectedByKind := bumpKinds s.callbackRejectedByKind kinds }

/-- The counters after a batch is drained. -/
def recordDrained (s : ServiceState) (kinds : List Wire.CallbackEventKind) : ServiceState :=
  { s with
    callbackDrained := saturatingAdd64 s.callbackDrained (UInt64.ofNat kinds.length)
    callbackDrainedByKind := bumpKinds s.callbackDrainedByKind kinds }

/-- `record_protocol_error`. -/
def recordProtocolError (s : ServiceState) : ServiceState :=
  { s with protocolErrors := saturatingAdd64 s.protocolErrors 1 }

/-- `record_request_timeout`. -/
def recordRequestTimeout (s : ServiceState) : ServiceState :=
  { s with requestTimeouts := saturatingAdd64 s.requestTimeouts 1 }

/-- A continuation whose deadline passed. -/
def recordContinuationTimeout (s : ServiceState) : ServiceState :=
  { s with continuationTimeouts := saturatingAdd64 s.continuationTimeouts 1 }

/-! ## Queues -/

/-- The queue that a scope and a transaction id name, with the number its next event gets. -/
def scopedQueue (s : ServiceState) (scope : Wire.CallbackScope) (transactionId : UInt64) :
    Except StateError (List QueuedCallback × UInt64) :=
  match scope with
  | .general =>
    if transactionId = 0 then .ok (s.generalCallbacks, s.nextCallbackSequence)
    else .error (.unknownReactionTransaction transactionId)
  | .reaction =>
    if transactionId = 0 then .error (.unknownReactionTransaction transactionId)
    else
      match s.reactionCallbacks[transactionId]? with
      | some queue => .ok (queue.callbacks, queue.nextSequence)
      | none => .error (.unknownReactionTransaction transactionId)

/-- The state with a queue of an open transaction rewritten. -/
def modifyTransaction (s : ServiceState) (transactionId : UInt64)
    (f : ReactionCallbackQueue → ReactionCallbackQueue) : ServiceState :=
  match s.reactionCallbacks[transactionId]? with
  | some queue => { s with reactionCallbacks := s.reactionCallbacks.insert transactionId (f queue) }
  | none => s

/-- The state with the callbacks of a named queue replaced. -/
def setCallbacks (s : ServiceState) (scope : Wire.CallbackScope) (transactionId : UInt64)
    (callbacks : List QueuedCallback) : ServiceState :=
  match scope with
  | .general => { s with generalCallbacks := callbacks }
  | .reaction => s.modifyTransaction transactionId fun queue => { queue with callbacks }

/-- How many callbacks wait in all queues. -/
def queuedCallbacks (s : ServiceState) : Nat :=
  s.generalCallbacks.length +
    Tally.total (fun queue => queue.callbacks.length) s.reactionCallbacks

/-- `recount_pending_callbacks`. -/
def recountPendingCallbacks (s : ServiceState) : ServiceState :=
  { s with pendingCallbackCount := UInt32.ofNat s.queuedCallbacks }

/-- The callbacks that a condition on their continuation keeps, in every queue, counted again. -/
def retainCallbacks (s : ServiceState) (keep : Wire.ContinuationToken → Bool) : ServiceState :=
  let kept : List QueuedCallback → List QueuedCallback :=
    List.filter fun callback => callback.event.continuation.all keep
  recountPendingCallbacks
    { s with
      generalCallbacks := kept s.generalCallbacks
      reactionCallbacks :=
        s.reactionCallbacks.map fun _ queue => { queue with callbacks := kept queue.callbacks } }

/-- `remove_queued_continuation`. -/
def removeQueuedContinuation (s : ServiceState) (continuationId : UInt64) : ServiceState :=
  s.retainCallbacks fun token => token.id ≠ continuationId

/-- `remove_reaction_transaction`. -/
def removeReactionTransaction (s : ServiceState) (transactionId : UInt64) : ServiceState :=
  match s.reactionCallbacks[transactionId]? with
  | some queue =>
    { s with
      reactionCallbacks := s.reactionCallbacks.erase transactionId
      pendingCallbackCount := UInt32.ofNat
        (s.pendingCallbackCount.toNat - (UInt32.ofNat queue.callbacks.length).toNat) }
  | none => s

/-- `remove_orphaned_reaction_transactions`. -/
def removeOrphanedReactionTransactions (s : ServiceState) : ServiceState :=
  let active := s.pendingContinuations.toList.filterMap fun entry =>
    if entry.2.transactionId ≠ 0 then some entry.2.transactionId else none
  let orphaned := s.reactionCallbacks.toList.filter fun entry =>
    !entry.2.complete && !active.contains entry.1
  orphaned.foldl (fun s entry => s.removeReactionTransaction entry.1) s

/-- `remove_orphaned_continuation_callbacks`. -/
def removeOrphanedContinuationCallbacks (s : ServiceState) : ServiceState :=
  (s.retainCallbacks fun token => s.pendingContinuations.contains token.id)
    |>.removeOrphanedReactionTransactions

/-- A continuation taken off the list of those that wait. -/
def forgetContinuation (s : ServiceState) (continuationId : UInt64) : ServiceState :=
  { s with pendingContinuations := s.pendingContinuations.erase continuationId }

/-- The continuations that a condition keeps. -/
def retainContinuations (s : ServiceState) (keep : PendingContinuation → Bool) : ServiceState :=
  { s with pendingContinuations := s.pendingContinuations.filter fun _ entry => keep entry }

/-! ## Room -/

/-- `prepare_callback_enqueue`: the depth after so many more callbacks. -/
def prepareCallbackEnqueue (s : ServiceState) (count : UInt32) : Except StateError UInt32 :=
  if s.pendingCallbackCount.toNat + count.toNat < 2 ^ 32 then
    if s.maxCallbackEvents < s.pendingCallbackCount + count then .error .callbackBackpressure
    else .ok (s.pendingCallbackCount + count)
  else .error .callbackBackpressure

/-- How many more events fit into the queues. -/
def eventLimit (s : ServiceState) : Except StateError UInt32 :=
  if s.maxCallbackEvents < s.pendingCallbackCount then .error .callbackBackpressure
  else .ok (s.maxCallbackEvents - s.pendingCallbackCount)

/-- `reserve_world_event_enqueue_capacity`. -/
def reserveWorldEventEnqueueCapacity (s : ServiceState) (maximum : UInt32)
    (scope : Wire.CallbackScope) (transactionId : UInt64) : Except StateError Unit := do
  let maximum :=
    if scope = .reaction then
      min maximum (UInt32.ofNatClamp
        (s.world.reactionEventBound.toNat + (s.world.pendingEvents maximum).length))
    else maximum
  let _ ← s.prepareCallbackEnqueue maximum
  let (_, firstSequence) ← s.scopedQueue scope transactionId
  let _ ← checkedAdd64 firstSequence maximum.toUInt64 .callbackSequenceExhausted
  let continuationCapacity :=
    min (UInt32.ofNat (s.maxPendingContinuations.toNat - s.pendingContinuationCount.toNat)) maximum
  let _ ← checkedAdd64 s.nextContinuationId continuationCapacity.toUInt64 .continuationIdExhausted

end ServiceState

/-! ## The world inside -/

/-- A method of the world, run on the world of the service. -/
def onWorld {α : Type} (m : WorldM F32 α) : ServiceM α :=
  Exec.embed ServiceState.world (fun s world => { s with world }) mapWorldError m

/-- The check that an event has a record. -/
def requireEncodes (event : Wire.CallbackEvent) : Except StateError Unit :=
  match event.encode with
  | .ok _ => .ok ()
  | .error error => .error (.state (.protocol error))

/-! ## Enqueuing -/

/-- The check of an enqueue; a batch that does not fit is counted as rejected. -/
def prepareOrReject (count : UInt32) (reject : ServiceState → ServiceState) : ServiceM UInt32 := do
  match ← Exec.check fun s => .ok (s.prepareCallbackEnqueue count) with
  | .ok depth => pure depth
  | .error .callbackBackpressure => do
    modify reject
    throw .callbackBackpressure
  | .error error => throw error

/-- Callbacks numbered from a first number on. -/
def numbered (scope : Wire.CallbackScope) (transactionId : UInt64) :
    UInt64 → List PendingCallbackEvent → List Wire.CallbackEvent
  | _, [] => []
  | sequence, callback :: rest =>
    callback.scoped scope transactionId sequence ::
      numbered scope transactionId (sequence + 1) rest

/-- The writes of an enqueue to the general queue. -/
def ServiceState.enqueueGeneral (s : ServiceState) (callbacks : List PendingCallbackEvent)
    (depth : UInt32) (nextSequence nowTicks : UInt64) : ServiceState :=
  { s with
    generalCallbacks := s.generalCallbacks ++
      (numbered .general 0 s.nextCallbackSequence callbacks).map fun event => ⟨event, nowTicks⟩
    pendingCallbackCount := depth
    nextCallbackSequence := nextSequence
    callbackHighWater := max s.callbackHighWater depth }

/-- `enqueue_callback_batch_at`. -/
def enqueueCallbackBatch (callbacks : List PendingCallbackEvent) (nowTicks : UInt64) :
    ServiceM UInt32 := do
  Exec.check fun _ =>
    if 2 ^ 32 ≤ callbacks.length then .error .callbackBackpressure else .ok ()
  let count := UInt32.ofNat callbacks.length
  Exec.check fun s => callbacks.forM fun callback =>
    requireEncodes (callback.scoped .general 0 s.nextCallbackSequence)
  let depth ← prepareOrReject count fun s =>
    callbacks.foldl (fun s callback => s.recordCallbackRejected callback.kind 1) s
  let nextSequence ← Exec.check fun s =>
    checkedAdd64 s.nextCallbackSequence count.toUInt64 .callbackSequenceExhausted
  modify fun s => callbacks.foldl (fun s callback => s.recordCallbackEnqueued callback.kind 1)
    (s.enqueueGeneral callbacks depth nextSequence nowTicks)
  return count

/-- The callback of a diagnostic. -/
def diagnosticCallback : PendingCallbackEvent := {}

/-- `enqueue_diagnostic_callbacks_at`. -/
def enqueueDiagnosticCallbacks (count : UInt32) (nowTicks : UInt64) : ServiceM UInt32 := do
  if count = 1 then
    enqueueCallbackBatch [diagnosticCallback] nowTicks
  else do
    Exec.check fun s => requireEncodes (diagnosticCallback.scoped .general 0 s.nextCallbackSequence)
    let depth ← prepareOrReject count fun s => s.recordCallbackRejected .diagnostic count
    let nextSequence ← Exec.check fun s =>
      checkedAdd64 s.nextCallbackSequence count.toUInt64 .callbackSequenceExhausted
    modify fun s =>
      (s.enqueueGeneral (List.replicate count.toNat diagnosticCallback) depth nextSequence
        nowTicks).recordCallbackEnqueued .diagnostic count
    return count

/-- `DEFAULT_CONTINUATION_TIMEOUT_TICKS`. -/
def defaultContinuationTimeoutTicks : UInt64 := 50

/-- The continuation that an event asks for: its token, and the entry the service keeps. -/
def continuationOf (worldGeneration : UInt32) (id deadlineTicks transactionId : UInt64) :
    WorldEvent F32 → Option (Wire.ContinuationToken × PendingContinuation)
  | .runDmReaction turf mixture _ _ coreToken =>
    some ({ worldGeneration, id, deadlineTicks },
      { coreToken
        deadlineTicks
        turf := turf.map wireHandleFromTurf
        mixture := wireHandle mixture
        transactionId })
  | _ => none

/-- The loop of `prepare_callback_batch` over the events of the world. -/
def prepareEvents (worldGeneration : UInt32) (deadlineTicks : UInt64) (scope : Wire.CallbackScope)
    (transactionId : UInt64) : UInt64 → UInt64 → List (WorldEvent F32) →
      Except StateError (List Wire.CallbackEvent × List (UInt64 × PendingContinuation))
  | _, _, [] => .ok ([], [])
  | sequence, id, event :: rest => do
    let continuation := continuationOf worldGeneration id deadlineTicks transactionId event
    let callback :=
      (pendingCallbackFromWorldEvent event (continuation.map Prod.fst)).scoped scope transactionId
        sequence
    requireEncodes callback
    match continuation with
    | some (_, entry) => do
      let (callbacks, entries) ←
        prepareEvents worldGeneration deadlineTicks scope transactionId (sequence + 1) (id + 1) rest
      pure (callback :: callbacks, (id, entry) :: entries)
    | none => do
      let (callbacks, entries) ←
        prepareEvents worldGeneration deadlineTicks scope transactionId (sequence + 1) id rest
      pure (callback :: callbacks, entries)

/-- Whether an event asks the client to run a reaction. -/
def asksReaction : WorldEvent F32 → Bool
  | .runDmReaction .. => true
  | _ => false

/-- `PreparedCallbackBatch`. -/
structure PreparedCallbackBatch where
  callbacks : List Wire.CallbackEvent
  continuations : List (UInt64 × PendingContinuation)
  eventCount : UInt32
  continuationCount : UInt32
  newCallbackDepth : UInt32
  newContinuationCount : UInt32
  nextSequence : UInt64
  scope : Wire.CallbackScope
  transactionId : UInt64

/-- The deadline of the continuations of a batch; a batch without any needs none. -/
def continuationDeadline (count : UInt32) (nowTicks : UInt64) : Except StateError UInt64 :=
  if count = 0 then .ok 0
  else checkedAdd64 nowTicks defaultContinuationTimeoutTicks .continuationDeadlineExhausted

/-- The number of continuations after so many more. -/
def ServiceState.requireContinuationRoom (s : ServiceState) (count : UInt32) :
    Except StateError UInt32 :=
  let newCount := s.pendingContinuationCount.toNat + count.toNat
  if 2 ^ 32 ≤ newCount then .error .continuationCapacityExceeded
  else if s.maxPendingContinuations.toNat < newCount then .error .continuationCapacityExceeded
  else .ok (UInt32.ofNat newCount)

/-- The checks of `prepare_callback_batch` behind the check for room. -/
def ServiceState.prepareBatch (s : ServiceState) (events : List (WorldEvent F32)) (depth : UInt32)
    (nowTicks : UInt64) (scope : Wire.CallbackScope) (transactionId : UInt64) :
    Except StateError PreparedCallbackBatch := do
  let eventCount := UInt32.ofNat events.length
  let (_, firstSequence) ← s.scopedQueue scope transactionId
  let nextSequence ← checkedAdd64 firstSequence eventCount.toUInt64 .callbackSequenceExhausted
  let continuationCount := UInt32.ofNat (events.countP asksReaction)
  let deadlineTicks ← continuationDeadline continuationCount nowTicks
  let newContinuationCount ← s.requireContinuationRoom continuationCount
  let _ ← checkedAdd64 s.nextContinuationId continuationCount.toUInt64 .continuationIdExhausted
  let (callbacks, continuations) ← prepareEvents s.worldGeneration deadlineTicks scope transactionId
    firstSequence s.nextContinuationId events
  return {
    callbacks
    continuations
    eventCount
    continuationCount
    newCallbackDepth := depth
    newContinuationCount
    nextSequence
    scope
    transactionId }

/-- `prepare_callback_batch`. -/
def prepareCallbackBatch (maximum : UInt32) (nowTicks : UInt64) (scope : Wire.CallbackScope)
    (transactionId : UInt64) : ServiceM PreparedCallbackBatch := do
  let events ← Exec.check fun s => .ok (s.world.pendingEvents maximum)
  let depth ← prepareOrReject (UInt32.ofNat events.length) fun s =>
    s.recordBatchRejected (events.map worldEventKind)
  Exec.check fun s => s.prepareBatch events depth nowTicks scope transactionId

/-- Continuations put on the list of those that wait. -/
def insertContinuations : List (UInt64 × PendingContinuation) →
    Std.TreeMap UInt64 PendingContinuation → Std.TreeMap UInt64 PendingContinuation
  | [], map => map
  | (id, entry) :: rest, map => insertContinuations rest (map.insert id entry)

/-- The state after the writes of a prepared batch. -/
def ServiceState.commitBatch (s : ServiceState) (batch : PreparedCallbackBatch)
    (nowTicks : UInt64) : ServiceState :=
  let queued := batch.callbacks.map fun event => (⟨event, nowTicks⟩ : QueuedCallback)
  let s :=
    { s with
      nextContinuationId := s.nextContinuationId + batch.continuationCount.toUInt64
      pendingContinuations := insertContinuations batch.continuations s.pendingContinuations
      continuationHighWater := max s.continuationHighWater batch.newContinuationCount }
  let s :=
    match batch.scope with
    | .general =>
      { s with
        generalCallbacks := s.generalCallbacks ++ queued
        nextCallbackSequence := batch.nextSequence }
    | .reaction =>
      s.modifyTransaction batch.transactionId fun queue =>
        { queue with callbacks := queue.callbacks ++ queued, nextSequence := batch.nextSequence }
  let s := batch.callbacks.foldl (fun s callback => s.recordCallbackEnqueued callback.kind 1) s
  { s with
    pendingCallbackCount := batch.newCallbackDepth
    callbackHighWater := max s.callbackHighWater batch.newCallbackDepth }

/-- `commit_prepared_callback_batch`. -/
def commitPreparedCallbackBatch (batch : PreparedCallbackBatch) (nowTicks : UInt64) :
    ServiceM UInt32 := do
  onWorld (DogmosWorld.discardPendingEvents batch.eventCount)
  modify fun s => s.commitBatch batch nowTicks
  return batch.eventCount

/-- `enqueue_world_events_at`. -/
def enqueueWorldEvents (maximum : UInt32) (nowTicks : UInt64) (scope : Wire.CallbackScope)
    (transactionId : UInt64) : ServiceM UInt32 := do
  let batch ← prepareCallbackBatch maximum nowTicks scope transactionId
  commitPreparedCallbackBatch batch nowTicks

/-! ## Deadlines -/

/-- `expire_continuations_at`.  The writes behind its loop are those of
`remove_orphaned_continuation_callbacks`, and an error in the loop returns before them. -/
def expireContinuations (nowTicks : UInt64) : ServiceM Unit := do
  let expired ← Exec.check fun s => .ok <| s.pendingContinuations.toList.filter fun entry =>
    entry.2.deadlineTicks ≤ nowTicks
  if expired.isEmpty then
    return
  expired.forM fun entry => do
    onWorld (DogmosWorld.cancelReaction entry.2.coreToken)
    modify fun s => (s.forgetContinuation entry.1).recordContinuationTimeout
  modify ServiceState.removeOrphanedContinuationCallbacks

/-- The continuation that a token names. -/
def ServiceState.findContinuation (s : ServiceState) (token : Wire.ContinuationToken) :
    Except StateError PendingContinuation :=
  if token.worldGeneration ≠ s.worldGeneration then
    .error (.continuationWorldMismatch s.worldGeneration token.worldGeneration)
  else
    match s.pendingContinuations[token.id]? with
    | none => .error (.unknownContinuation token)
    | some continuation =>
      if continuation.deadlineTicks ≠ token.deadlineTicks then
        .error (.continuationTokenMismatch token)
      else .ok continuation

/-- The writes of a removal of a continuation and of its transaction, when it has one. -/
def ServiceState.dropContinuation (s : ServiceState) (continuationId transactionId : UInt64) :
    ServiceState :=
  let s := (s.forgetContinuation continuationId).removeQueuedContinuation continuationId
  if transactionId ≠ 0 then s.removeReactionTransaction transactionId else s

/-- `require_continuation_at`. -/
def requireContinuation (token : Wire.ContinuationToken) (nowTicks : UInt64) :
    ServiceM PendingContinuation := do
  let continuation ← Exec.check fun s => s.findContinuation token
  if continuation.deadlineTicks ≤ nowTicks then do
    modify fun s => s.dropContinuation token.id continuation.transactionId
    onWorld (DogmosWorld.cancelReaction continuation.coreToken)
    modify ServiceState.recordContinuationTimeout
    throw (.continuationExpired token)
  else return continuation

/-! ## Draining -/

/-- The loop of `drain_callbacks_at`: so many callbacks are popped and encoded, one after the
other. -/
def popCallbacks (scope : Wire.CallbackScope) (transactionId : UInt64) :
    Nat → ServiceM (List Wire.CallbackEvent × Bytes)
  | 0 => pure ([], [])
  | count + 1 => do
    let (callbacks, _) ← Exec.check fun s => s.scopedQueue scope transactionId
    match callbacks with
    | [] => throw (.state (.text "returned count was bounded by queue length"))
    | callback :: rest => do
      modify fun s => s.setCallbacks scope transactionId rest
      let bytes ← Exec.check fun _ =>
        callback.event.encode.mapError fun error => .state (.protocol error)
      let (events, payload) ← popCallbacks scope transactionId count
      return (callback.event :: events, bytes ++ payload)

/-- The state after a batch is popped. -/
def ServiceState.finishDrain (s : ServiceState) (scope : Wire.CallbackScope)
    (transactionId : UInt64) (popped : List Wire.CallbackEvent) : ServiceState :=
  let s := ServiceState.recordDrained
    { s with pendingCallbackCount := s.pendingCallbackCount - UInt32.ofNat popped.length }
    (popped.map fun event => event.kind)
  match scope with
  | .general => s
  | .reaction =>
    match s.reactionCallbacks[transactionId]? with
    | some queue =>
      if queue.complete && queue.callbacks.isEmpty then
        { s with reactionCallbacks := s.reactionCallbacks.erase transactionId }
      else s
    | none => s

/-- `drain_callbacks_at` into a buffer of a length: the bytes of the batch. -/
def drainCallbacks (scope : Wire.CallbackScope) (transactionId : UInt64) (maxEvents : UInt32)
    (outputLen : Nat) (nowTicks : UInt64) : ServiceM Bytes := do
  expireContinuations nowTicks
  Exec.check fun _ =>
    if outputLen < Wire.callbackBatchHeaderLen then .error .callbackOutputTooSmall else .ok ()
  let outputEventCapacity := (outputLen - Wire.callbackBatchHeaderLen) / Wire.callbackEventLen
  let (callbacks, _) ← Exec.check fun s => s.scopedQueue scope transactionId
  let returned := min (min callbacks.length maxEvents.toNat) outputEventCapacity
  let (popped, payload) ← popCallbacks scope transactionId returned
  let (remaining, _) ← Exec.check fun s => s.scopedQueue scope transactionId
  modify fun s => s.finishDrain scope transactionId popped
  let s ← get
  let header : Wire.CallbackBatchHeader :=
    { returned := UInt32.ofNat returned
      remaining := UInt32.ofNat remaining.length
      capacity := s.maxCallbackEvents
      highWater := s.callbackHighWater
      rejected := s.callbackRejected }
  return header.encode ++ payload

/-! ## Transactions -/

/-- `begin_reaction_transaction`. -/
def beginReactionTransaction : ServiceM UInt64 := do
  let transactionId ← Exec.check fun s =>
    if s.maxReactionTransactions ≤ UInt32.ofNat s.reactionCallbacks.size then
      .error .reactionTransactionCapacityExceeded
    else if s.nextReactionTransactionId = 0 then .error .reactionTransactionIdExhausted
    else do
      let _ ← checkedAdd64 s.nextReactionTransactionId 1 .reactionTransactionIdExhausted
      .ok s.nextReactionTransactionId
  modify fun s =>
    let reactionCallbacks := s.reactionCallbacks.insert transactionId ⟨[], 1, false⟩
    { s with
      nextReactionTransactionId := transactionId + 1
      reactionCallbacks
      reactionTransactionHighWater :=
        max s.reactionTransactionHighWater (UInt32.ofNat reactionCallbacks.size) }
  return transactionId

/-- `finish_reaction_transaction`. -/
def finishReactionTransaction (transactionId : UInt64) (complete : Bool) : ServiceM Unit := do
  Exec.check fun s =>
    if s.reactionCallbacks.contains transactionId then .ok ()
    else .error (.unknownReactionTransaction transactionId)
  modify fun s => s.modifyTransaction transactionId fun queue =>
    { queue with complete := queue.complete || complete }

end Service

end Dogmos
