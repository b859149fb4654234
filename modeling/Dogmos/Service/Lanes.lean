import Dogmos.Service.Outcomes

/-!
# The lanes of the service

The general queue and the queue of every open reaction transaction are the lanes on which
callbacks travel to the client.  The general one has the key 0, which no transaction gets.

* `scopedQueue_eq_ok` — a scope and a transaction id name a lane by its key.
* `lane_enqueued`, `lane_setCallbacks`, `lane_retainCallbacks` — what a change does to a lane.
* `Kept` — an invariant of all changes, and `Kept.step`, its rule for requests.
-/

namespace Dogmos

namespace Service

open Exec Delivery

/-- The callbacks of a lane, and the number its next callback gets. -/
def ServiceState.lane (s : ServiceState) (key : UInt64) : Option (List QueuedCallback × UInt64) :=
  if key = 0 then some (s.generalCallbacks, s.nextCallbackSequence)
  else s.reactionCallbacks[key]?.map fun queue => (queue.callbacks, queue.nextSequence)

section Lane

variable {s s' : ServiceState} {key transactionId : UInt64} {scope : Wire.CallbackScope}

@[simp] theorem lane_zero (s : ServiceState) :
    s.lane 0 = some (s.generalCallbacks, s.nextCallbackSequence) := rfl

theorem lane_transaction (hkey : key ≠ 0) :
    s.lane key = s.reactionCallbacks[key]?.map fun queue => (queue.callbacks, queue.nextSequence) :=
  if_neg hkey

/-- Lanes are read off two fields and the table of transactions. -/
theorem lane_congr (hgeneral : s'.generalCallbacks = s.generalCallbacks)
    (hnext : s'.nextCallbackSequence = s.nextCallbackSequence)
    (hreaction : key ≠ 0 →
      (s'.reactionCallbacks[key]?.map fun queue => (queue.callbacks, queue.nextSequence)) =
        s.reactionCallbacks[key]?.map fun queue => (queue.callbacks, queue.nextSequence)) :
    s'.lane key = s.lane key := by
  by_cases hkey : key = 0
  · subst hkey
    rw [lane_zero, lane_zero, hgeneral, hnext]
  · rw [lane_transaction hkey, lane_transaction hkey, hreaction hkey]

theorem scopedQueue_eq_ok {queue : List QueuedCallback × UInt64} :
    s.scopedQueue scope transactionId = .ok queue ↔
      s.lane transactionId = some queue ∧ (scope = .general ↔ transactionId = 0) := by
  unfold ServiceState.scopedQueue ServiceState.lane
  by_cases hid : transactionId = 0
  · cases scope <;> simp [hid]
  · cases scope with
    | general => simp [hid]
    | reaction =>
      rcases s.reactionCallbacks[transactionId]? with - | found <;> simp [hid]

theorem lane_sameButCounters (h : SameButCounters s s') : s'.lane key = s.lane key :=
  h.field (fun t => t.lane key) fun _ => rfl

theorem getElem?_modifyTransaction {f : ReactionCallbackQueue → ReactionCallbackQueue} :
    (s.modifyTransaction transactionId f).reactionCallbacks[key]? =
      if key = transactionId then s.reactionCallbacks[key]?.map f
      else s.reactionCallbacks[key]? := by
  unfold ServiceState.modifyTransaction
  split
  · rename_i queue hqueue
    dsimp only
    rw [Std.TreeMap.getElem?_insert]
    by_cases hkey : key = transactionId
    · subst hkey
      simp [hqueue]
    · simp [hkey, Ne.symm hkey]
  · rename_i hqueue
    split
    · rename_i hkey
      rw [hkey, hqueue]
      rfl
    · rfl

@[simp] theorem modifyTransaction_generalCallbacks
    {f : ReactionCallbackQueue → ReactionCallbackQueue} :
    (s.modifyTransaction transactionId f).generalCallbacks = s.generalCallbacks := by
  unfold ServiceState.modifyTransaction
  split <;> rfl

@[simp] theorem modifyTransaction_nextCallbackSequence
    {f : ReactionCallbackQueue → ReactionCallbackQueue} :
    (s.modifyTransaction transactionId f).nextCallbackSequence = s.nextCallbackSequence := by
  unfold ServiceState.modifyTransaction
  split <;> rfl

/-- A rewrite of a transaction writes the table only. -/
theorem modifyTransaction_frame (s : ServiceState) (transactionId : UInt64)
    (f : ReactionCallbackQueue → ReactionCallbackQueue) :
    s.modifyTransaction transactionId f =
      { s with reactionCallbacks := (s.modifyTransaction transactionId f).reactionCallbacks } := by
  unfold ServiceState.modifyTransaction
  split <;> rfl

@[simp] theorem size_modifyTransaction {f : ReactionCallbackQueue → ReactionCallbackQueue} :
    (s.modifyTransaction transactionId f).reactionCallbacks.size = s.reactionCallbacks.size := by
  unfold ServiceState.modifyTransaction
  split
  · rename_i queue hqueue
    have hmem : s.reactionCallbacks.contains transactionId = true := by
      rw [Std.TreeMap.contains_eq_isSome_getElem?, hqueue]
      rfl
    dsimp only
    rw [Std.TreeMap.size_insert, if_pos hmem]
  · rfl

theorem lane_marked (complete : Bool) : (s.marked transactionId complete).lane key = s.lane key := by
  unfold ServiceState.marked
  refine lane_congr (by simp) (by simp) fun _ => ?_
  rw [getElem?_modifyTransaction]
  split
  · cases s.reactionCallbacks[key]? <;> rfl
  · rfl

/-- A withdrawal filters every lane. -/
theorem lane_retainCallbacks (keep : Wire.ContinuationToken → Bool) :
    (s.retainCallbacks keep).lane key = (s.lane key).map fun queue =>
      (queue.1.filter fun callback => callback.event.continuation.all keep, queue.2) := by
  by_cases hkey : key = 0
  · subst hkey
    rfl
  · rw [lane_transaction hkey, lane_transaction hkey]
    unfold ServiceState.retainCallbacks ServiceState.recountPendingCallbacks
    dsimp only
    rw [Std.TreeMap.getElem?_map]
    cases s.reactionCallbacks[key]? <;> rfl

theorem lane_withTransaction (hid : s.nextReactionTransactionId ≠ 0) :
    s.withTransaction.lane key =
      if key = s.nextReactionTransactionId then some ([], 1) else s.lane key := by
  by_cases hkey : key = 0
  · subst hkey
    rw [if_neg (Ne.symm hid)]
    rfl
  · rw [lane_transaction hkey, lane_transaction hkey]
    unfold ServiceState.withTransaction
    dsimp only
    rw [Std.TreeMap.getElem?_insert]
    by_cases heq : key = s.nextReactionTransactionId
    · simp [heq]
    · simp [heq, Ne.symm heq]

/-- A transaction taken out of the table. -/
theorem lane_erase (t : ServiceState) (hgeneral : t.generalCallbacks = s.generalCallbacks)
    (hnext : t.nextCallbackSequence = s.nextCallbackSequence)
    (hreaction : t.reactionCallbacks = s.reactionCallbacks.erase transactionId) :
    t.lane key = if key = transactionId ∧ key ≠ 0 then none else s.lane key := by
  by_cases hkey : key = 0
  · subst hkey
    rw [lane_zero, lane_zero, hgeneral, hnext]
    simp
  · rw [lane_transaction hkey, lane_transaction hkey, hreaction, Std.TreeMap.getElem?_erase]
    by_cases heq : key = transactionId
    · simp [heq]
      simp [← heq, hkey]
    · simp [heq, Ne.symm heq]

theorem lane_removeReactionTransaction :
    (s.removeReactionTransaction transactionId).lane key =
      if key = transactionId ∧ key ≠ 0 then none else s.lane key := by
  unfold ServiceState.removeReactionTransaction
  split
  · exact lane_erase _ rfl rfl rfl
  · rename_i hqueue
    split
    · rename_i hkey
      rw [lane_transaction hkey.2, hkey.1, hqueue]
      rfl
    · rfl

section Written

variable {t : ServiceState} {callbacks callbacks' : List QueuedCallback} {first next' : UInt64}

/-- A lane is rewritten, and no other. -/
theorem lane_written {f : ReactionCallbackQueue → ReactionCallbackQueue}
    (hqueue : s.scopedQueue scope transactionId = .ok (callbacks, first))
    (hgeneral : scope = .general → t.generalCallbacks = callbacks' ∧
      t.nextCallbackSequence = next' ∧ t.reactionCallbacks = s.reactionCallbacks)
    (hreaction : scope = .reaction → t.generalCallbacks = s.generalCallbacks ∧
      t.nextCallbackSequence = s.nextCallbackSequence ∧
      t.reactionCallbacks = (s.modifyTransaction transactionId f).reactionCallbacks)
    (hf : ∀ queue, queue.callbacks = callbacks → queue.nextSequence = first →
      (f queue).callbacks = callbacks' ∧ (f queue).nextSequence = next') :
    t.lane key = if key = transactionId then some (callbacks', next') else s.lane key := by
  obtain ⟨hlane, hscope⟩ := scopedQueue_eq_ok.1 hqueue
  cases scope with
  | general =>
    obtain ⟨hcallbacks, hnext, htable⟩ := hgeneral rfl
    rw [hscope.1 rfl]
    split
    · rename_i hkey
      rw [hkey, lane_zero, hcallbacks, hnext]
    · rename_i hkey
      rw [lane_transaction hkey, lane_transaction hkey, htable]
  | reaction =>
    obtain ⟨hcallbacks, hnext, htable⟩ := hreaction rfl
    have hid : transactionId ≠ 0 := fun h => by cases hscope.2 h
    split
    · rename_i hkey
      rw [lane_transaction hid] at hlane
      rw [hkey, lane_transaction hid, htable, getElem?_modifyTransaction, if_pos rfl]
      rcases hfound : s.reactionCallbacks[transactionId]? with - | found
      · rw [hfound] at hlane
        cases hlane
      · rw [hfound] at hlane
        cases hlane
        obtain ⟨hqueued, hsequence⟩ := hf found rfl rfl
        rw [Option.map_some, Option.map_some, hqueued, hsequence]
    · rename_i hkey
      refine lane_congr hcallbacks hnext fun _ => ?_
      rw [htable, getElem?_modifyTransaction, if_neg hkey]

theorem lane_setCallbacks (hqueue : s.scopedQueue scope transactionId = .ok (callbacks, first)) :
    (s.setCallbacks scope transactionId callbacks').lane key =
      if key = transactionId then some (callbacks', first) else s.lane key := by
  refine lane_written (f := fun queue => { queue with callbacks := callbacks' }) hqueue ?_ ?_
    fun queue _ hsequence => ⟨rfl, hsequence⟩
  · rintro rfl
    have hlane := (scopedQueue_eq_ok.1 hqueue).1
    rw [(scopedQueue_eq_ok.1 hqueue).2.1 rfl, lane_zero] at hlane
    cases hlane
    exact ⟨rfl, rfl, rfl⟩
  · rintro rfl
    exact ⟨modifyTransaction_generalCallbacks, modifyTransaction_nextCallbackSequence, rfl⟩

theorem lane_enqueued {queued : List QueuedCallback} {depth : UInt32}
    {entries : List (UInt64 × PendingContinuation)}
    (hqueue : s.scopedQueue scope transactionId = .ok (callbacks, first)) :
    (s.enqueued scope transactionId queued depth next' entries).lane key =
      if key = transactionId then some (callbacks ++ queued, next') else s.lane key := by
  refine lane_written (f := fun queue =>
    { queue with callbacks := queue.callbacks ++ queued, nextSequence := next' }) hqueue ?_ ?_
    fun queue hcallbacks _ => ⟨by rw [hcallbacks], rfl⟩
  · rintro rfl
    have hlane := (scopedQueue_eq_ok.1 hqueue).1
    rw [(scopedQueue_eq_ok.1 hqueue).2.1 rfl, lane_zero] at hlane
    cases hlane
    exact ⟨rfl, rfl, rfl⟩
  · rintro rfl
    refine ⟨modifyTransaction_generalCallbacks, modifyTransaction_nextCallbackSequence, ?_⟩
    unfold ServiceState.enqueued ServiceState.modifyTransaction
    dsimp only
    split <;> rfl

theorem setCallbacks_frame (s : ServiceState) (scope : Wire.CallbackScope) (transactionId : UInt64)
    (callbacks : List QueuedCallback) :
    s.setCallbacks scope transactionId callbacks =
      { s with
        generalCallbacks := (s.setCallbacks scope transactionId callbacks).generalCallbacks
        reactionCallbacks :=
          (s.setCallbacks scope transactionId callbacks).reactionCallbacks } := by
  unfold ServiceState.setCallbacks
  cases scope with
  | general => rfl
  | reaction =>
    dsimp only
    rw [modifyTransaction_generalCallbacks]
    exact modifyTransaction_frame s transactionId _

end Written

end Lane

/-! ## The other fields -/

section Enqueued

variable (s : ServiceState) (scope : Wire.CallbackScope) (transactionId : UInt64)
  (queued : List QueuedCallback) (depth : UInt32) (next : UInt64)
  (entries : List (UInt64 × PendingContinuation))

/-- An enqueue writes the queues, the continuations and what numbers and counts them. -/
theorem enqueued_frame : s.enqueued scope transactionId queued depth next entries =
    { s with
      generalCallbacks :=
        (s.enqueued scope transactionId queued depth next entries).generalCallbacks
      reactionCallbacks :=
        (s.enqueued scope transactionId queued depth next entries).reactionCallbacks
      nextCallbackSequence :=
        (s.enqueued scope transactionId queued depth next entries).nextCallbackSequence
      pendingCallbackCount := depth
      nextContinuationId := s.nextContinuationId + UInt64.ofNat entries.length
      pendingContinuations := insertContinuations entries s.pendingContinuations } := by
  unfold ServiceState.enqueued ServiceState.modifyTransaction
  dsimp only
  cases scope with
  | general => rfl
  | reaction =>
    dsimp only
    split <;> rfl

@[simp] theorem enqueued_pendingCallbackCount :
    (s.enqueued scope transactionId queued depth next entries).pendingCallbackCount = depth := by
  rw [enqueued_frame]

@[simp] theorem enqueued_maxCallbackEvents :
    (s.enqueued scope transactionId queued depth next entries).maxCallbackEvents =
      s.maxCallbackEvents := by
  rw [enqueued_frame]

@[simp] theorem enqueued_maxReactionTransactions :
    (s.enqueued scope transactionId queued depth next entries).maxReactionTransactions =
      s.maxReactionTransactions := by
  rw [enqueued_frame]

@[simp] theorem enqueued_maxPendingContinuations :
    (s.enqueued scope transactionId queued depth next entries).maxPendingContinuations =
      s.maxPendingContinuations := by
  rw [enqueued_frame]

@[simp] theorem enqueued_pendingContinuations :
    (s.enqueued scope transactionId queued depth next entries).pendingContinuations =
      insertContinuations entries s.pendingContinuations := by
  rw [enqueued_frame]

@[simp] theorem enqueued_nextReactionTransactionId :
    (s.enqueued scope transactionId queued depth next entries).nextReactionTransactionId =
      s.nextReactionTransactionId := by
  rw [enqueued_frame]

/-- The table of transactions after an enqueue, but for the queue the batch is put on. -/
theorem enqueued_reactionCallbacks :
    (s.enqueued scope transactionId queued depth next entries).reactionCallbacks =
      match scope with
      | .general => s.reactionCallbacks
      | .reaction => (s.modifyTransaction transactionId fun queue =>
          { queue with
            callbacks := queue.callbacks ++ queued
            nextSequence := next }).reactionCallbacks := by
  unfold ServiceState.enqueued ServiceState.modifyTransaction
  cases scope with
  | general => rfl
  | reaction =>
    dsimp only
    split <;> rfl

end Enqueued

/-- Taking callbacks off writes the queues only. -/
theorem pops_field {scope : Wire.CallbackScope} {transactionId : UInt64} {s t : ServiceState}
    {events : List Wire.CallbackEvent} {α : Type} (f : ServiceState → α)
    (h : Pops scope transactionId s events t)
    (hf : ∀ (s : ServiceState) generalCallbacks reactionCallbacks,
      f { s with generalCallbacks, reactionCallbacks } = f s) : f t = f s := by
  induction h with
  | nil s => rfl
  | cons hqueue _ ih =>
    rw [ih, setCallbacks_frame, hf]

/-! ## Quiet changes -/

/-- What a quiet change does to a lane. -/
inductive LaneQuiet (s s' : ServiceState) (key : UInt64) : Prop
  | thinned (keep : Wire.ContinuationToken → Bool)
      (hnext : s'.nextReactionTransactionId = s.nextReactionTransactionId)
      (h : s'.lane key = (s.lane key).map fun queue =>
        (queue.1.filter fun callback => callback.event.continuation.all keep, queue.2))
  | closed (hnext : s'.nextReactionTransactionId = s.nextReactionTransactionId) (hkey : key ≠ 0)
      (h : s'.lane key = none)
  | aside (hnext : s'.nextReactionTransactionId.toNat = s.nextReactionTransactionId.toNat + 1)
      (hkey : key ≠ s.nextReactionTransactionId) (h : s'.lane key = s.lane key)
  | opened (hnext : s'.nextReactionTransactionId.toNat = s.nextReactionTransactionId.toNat + 1)
      (hkey : key = s.nextReactionTransactionId) (hzero : key ≠ 0) (h : s'.lane key = some ([], 1))

/-- A lane that stays as it is. -/
theorem LaneQuiet.same {s s' : ServiceState} {key : UInt64}
    (hnext : s'.nextReactionTransactionId = s.nextReactionTransactionId)
    (h : s'.lane key = s.lane key) : LaneQuiet s s' key := by
  refine .thinned (fun _ => true) hnext ?_
  rw [h]
  have hall : (fun callback : QueuedCallback =>
      callback.event.continuation.all fun _ => true) = fun _ => true := by
    funext callback
    cases callback.event.continuation <;> rfl
  rcases s.lane key with - | queue
  · rfl
  · rw [Option.map_some, hall, List.filter_true]

theorem laneQuiet_erase {s t : ServiceState} {transactionId : UInt64} (key : UInt64)
    (hnext : t.nextReactionTransactionId = s.nextReactionTransactionId)
    (h : t.lane key = if key = transactionId ∧ key ≠ 0 then none else s.lane key) :
    LaneQuiet s t key := by
  split at h
  · rename_i hkey
    exact .closed hnext hkey.2 h
  · exact .same hnext h

/-- **Quiet changes** withdraw callbacks, close lanes and open new ones. -/
theorem lane_quiet {s s' : ServiceState} (h : Quiet s s') (key : UInt64) : LaneQuiet s s' key := by
  cases h with
  | counters h =>
    exact .same (h.field (fun t => t.nextReactionTransactionId) fun _ => rfl)
      (lane_sameButCounters h)
  | world op => exact .same rfl rfl
  | forget pending hsub hsize => exact .same rfl rfl
  | withdraw keep => exact .thinned keep rfl (lane_retainCallbacks keep)
  | begin hroom hid hnext =>
    have hlane : s.withTransaction.lane key = _ := lane_withTransaction hid
    split at hlane
    · rename_i hkey
      exact .opened (toNat_add_one hnext) hkey (hkey ▸ hid) hlane
    · rename_i hkey
      exact .aside (toNat_add_one hnext) hkey hlane
  | finish transactionId complete =>
    refine .same ?_ (lane_marked complete)
    unfold ServiceState.marked ServiceState.modifyTransaction
    split <;> rfl
  | remove transactionId =>
    refine laneQuiet_erase key ?_ lane_removeReactionTransaction
    unfold ServiceState.removeReactionTransaction
    split <;> rfl
  | drop transactionId hempty => exact laneQuiet_erase key rfl (lane_erase _ rfl rfl rfl)

/-! ## Invariants of all changes -/

/-- An invariant that every change keeps. -/
structure Kept (I : ServiceState → Prop) : Prop where
  quiet : ∀ {s s' : ServiceState}, Quiet s s' → I s → I s'
  enqueues : ∀ {s s' : ServiceState}, Enqueues s s' → I s → I s'
  pops : ∀ {scope : Wire.CallbackScope} {transactionId : UInt64} {s t : ServiceState}
    {events : List Wire.CallbackEvent}, Pops scope transactionId s events t → I s →
      I (t.uncounted events.length)
  upload : ∀ (s : ServiceState) (pending : Option PendingMixtureStateUpload) (nextId : UInt64),
    I s → I (s.withUpload pending nextId)

namespace Kept

variable {I : ServiceState → Prop} {s s' : ServiceState}

theorem quietly (hI : Kept I) (h : Quietly s s') (hs : I s) : I s' := by
  induction h with
  | refl => exact hs
  | tail _ hstep ih => exact hI.quiet hstep ih

theorem silently (hI : Kept I) (h : Silently s s') (hs : I s) : I s' := by
  induction h with
  | refl => exact hs
  | tail _ hstep ih =>
    cases hstep with
    | counters h => exact hI.quiet (.counters h) ih
    | finish transactionId complete => exact hI.quiet (.finish _ transactionId complete) ih

theorem outcome (hI : Kept I) (h : Outcome s s') (hs : I s) : I s' := by
  cases h with
  | quiet h => exact hI.quietly h hs
  | enqueued h henqueues hafter =>
    exact hI.silently hafter (hI.enqueues henqueues (hI.quietly h hs))

end Kept

/-! ## Order on a lane -/

/-- The callbacks that wait on a lane: records of this lane, numbered upwards. -/
structure Orderly (key : UInt64) (callbacks : List QueuedCallback) (next : UInt64) : Prop where
  valid : ∀ callback ∈ callbacks, callback.event.Valid
  ofWorld : ∀ callback ∈ callbacks, OfWorld callback.event
  inLane : ∀ callback ∈ callbacks, callback.event.transactionId = key
  below : ∀ callback ∈ callbacks, callback.event.number < next.toNat
  increasing : callbacks.Pairwise fun a b => a.event.number < b.event.number

namespace Orderly

variable {key next : UInt64} {callbacks callbacks' : List QueuedCallback}

theorem nil (key next : UInt64) : Orderly key [] next := ⟨by simp, by simp, by simp, by simp, .nil⟩

theorem sublist (h : Orderly key callbacks next) (hsub : callbacks'.Sublist callbacks) :
    Orderly key callbacks' next where
  valid callback hmem := h.valid callback (hsub.subset hmem)
  ofWorld callback hmem := h.ofWorld callback (hsub.subset hmem)
  inLane callback hmem := h.inLane callback (hsub.subset hmem)
  below callback hmem := h.below callback (hsub.subset hmem)
  increasing := h.increasing.sublist hsub

/-- A prepared batch behind the callbacks that wait. -/
theorem append {worldGeneration : UInt32} {scope : Wire.CallbackScope} {firstId : UInt64}
    {events : List Wire.CallbackEvent} {entries : List (UInt64 × PendingContinuation)}
    (h : Orderly key callbacks next) (nowTicks : UInt64)
    (hprepared : Prepared worldGeneration scope key next firstId events entries)
    (hnext : next.toNat + events.length < 2 ^ 64) :
    Orderly key (callbacks ++ events.map fun event => ⟨event, nowTicks⟩)
      (next + UInt64.ofNat events.length) := by
  have hnext' : (next + UInt64.ofNat events.length).toNat = next.toNat + events.length := by
    rw [UInt64.toNat_add, toNat_ofNat64 (by omega)]
    exact Nat.mod_eq_of_lt hnext
  have hsorted : events.Pairwise fun a b => a.number < b.number := by
    have h : (events.map Wire.CallbackEvent.number).Pairwise (· < ·) := by
      rw [hprepared.numbers]
      exact List.pairwise_lt_range'
    exact List.pairwise_map.1 h
  constructor
  · intro callback hmem
    rcases List.mem_append.1 hmem with hmem | hmem
    · exact h.valid callback hmem
    · obtain ⟨event, hevent, rfl⟩ := List.mem_map.1 hmem
      exact hprepared.valid event hevent
  · intro callback hmem
    rcases List.mem_append.1 hmem with hmem | hmem
    · exact h.ofWorld callback hmem
    · obtain ⟨event, hevent, rfl⟩ := List.mem_map.1 hmem
      exact hprepared.ofWorld event hevent
  · intro callback hmem
    rcases List.mem_append.1 hmem with hmem | hmem
    · exact h.inLane callback hmem
    · obtain ⟨event, hevent, rfl⟩ := List.mem_map.1 hmem
      exact (hprepared.inScope event hevent).2
  · intro callback hmem
    rw [hnext']
    rcases List.mem_append.1 hmem with hmem | hmem
    · have := h.below callback hmem
      omega
    · obtain ⟨event, hevent, rfl⟩ := List.mem_map.1 hmem
      exact (hprepared.numbers.bounds hevent).2
  · rw [List.pairwise_append]
    refine ⟨h.increasing, List.pairwise_map.2 hsorted, fun a ha b hb => ?_⟩
    obtain ⟨event, hevent, rfl⟩ := List.mem_map.1 hb
    have hbelow := h.below a ha
    have hbounds := (hprepared.numbers.bounds hevent).1
    dsimp only
    omega

end Orderly

/-- Every lane is in order. -/
def OrderlyLanes (s : ServiceState) : Prop :=
  ∀ key callbacks next, s.lane key = some (callbacks, next) → Orderly key callbacks next

theorem OrderlyLanes.pops {scope : Wire.CallbackScope} {transactionId : UInt64}
    {s t : ServiceState} {events : List Wire.CallbackEvent} (h : Pops scope transactionId s events t)
    (hs : OrderlyLanes s) : OrderlyLanes t := by
  induction h with
  | nil s => exact hs
  | cons hqueue _ ih =>
    refine ih fun key callbacks next hlane => ?_
    rw [lane_setCallbacks hqueue] at hlane
    split at hlane
    · rename_i hkey
      cases hlane
      subst hkey
      exact (hs _ _ _ (scopedQueue_eq_ok.1 hqueue).1).sublist (List.sublist_cons_self _ _)
    · exact hs key callbacks next hlane

/-- **Every change keeps the lanes in order.** -/
theorem kept_orderlyLanes : Kept OrderlyLanes where
  quiet h hs key callbacks next hlane := by
    cases lane_quiet h key with
    | thinned keep _ heq =>
      rw [heq] at hlane
      rcases hbefore : ServiceState.lane _ key with - | queue
      · rw [hbefore] at hlane
        cases hlane
      · rw [hbefore] at hlane
        cases hlane
        exact (hs key queue.1 queue.2 hbefore).sublist List.filter_sublist
    | closed _ _ heq =>
      rw [heq] at hlane
      cases hlane
    | aside _ _ heq => exact hs key callbacks next (heq ▸ hlane)
    | opened _ _ _ heq =>
      rw [heq] at hlane
      cases hlane
      exact .nil key 1
  enqueues h hs key callbacks next hlane := by
    cases h with
    | mk nowTicks hqueue hbatch =>
      rw [lane_enqueued hqueue] at hlane
      split at hlane
      · rename_i hkey
        cases hlane
        subst hkey
        exact (hs _ _ _ (scopedQueue_eq_ok.1 hqueue).1).append nowTicks hbatch.prepared
          hbatch.next_lt
      · exact hs key callbacks next hlane
  pops h hs key callbacks next hlane := OrderlyLanes.pops h hs key callbacks next hlane
  upload s pending nextId hs := hs

theorem orderlyLanes_initial {s : ServiceState} (h : Initial s) : OrderlyLanes s := by
  obtain ⟨mixtureSlotBytes, turfSlotBytes, maxWorldBytes, maxCallbackEvents, maxPending,
    maxTransactions, worldGeneration, rfl⟩ := h
  intro key callbacks next hlane
  by_cases hkey : key = 0
  · subst hkey
    cases hlane
    exact .nil 0 1
  · rw [lane_transaction hkey] at hlane
    have hempty : ∀ id : UInt64, (∅ : Std.TreeMap UInt64 ReactionCallbackQueue)[id]? = none :=
      fun id => Std.TreeMap.getElem?_emptyc
    unfold ServiceState.newForWorld at hlane
    rw [hempty] at hlane
    cases hlane

end Service

end Dogmos
