import Dogmos.Service.Draining

/-!
# Bounds of the service

The number of waiting callbacks is kept in a field of its own, next to the queues it counts, and
four limits bound what the service holds.  The field is exact after every request of every run,
and no limit is ever passed.

* `queuedCallbacks_enqueued`, `queuedCallbacks_setCallbacks` — what a change adds and takes.
* `Accounted`, `kept_accounted` — the invariant.
-/

namespace Dogmos

namespace Service

open Exec

section Queued

variable {s : ServiceState} {transactionId : UInt64} {scope : Wire.CallbackScope}
  {callbacks rest queued : List QueuedCallback} {first next : UInt64}

/-- How many callbacks wait in the queues of transactions. -/
def inTransactions (table : Std.TreeMap UInt64 ReactionCallbackQueue) : ℕ :=
  Tally.total (fun queue => queue.callbacks.length) table

theorem queuedCallbacks_eq (s : ServiceState) :
    s.queuedCallbacks = s.generalCallbacks.length + inTransactions s.reactionCallbacks := rfl

section Table

variable {table : Std.TreeMap UInt64 ReactionCallbackQueue} {queue queue' : ReactionCallbackQueue}

theorem inTransactions_erase (h : table[transactionId]? = some queue) :
    inTransactions table = queue.callbacks.length + inTransactions (table.erase transactionId) :=
  Tally.total_erase h

theorem inTransactions_erase_le : inTransactions (table.erase transactionId) ≤ inTransactions table := by
  rcases hfound : table[transactionId]? with - | queue
  · exact Nat.le_of_eq (Tally.erase_of_none hfound)
  · have htotal := inTransactions_erase hfound
    omega

theorem inTransactions_insert (h : table[transactionId]? = some queue) :
    inTransactions (table.insert transactionId queue') + queue.callbacks.length =
      inTransactions table + queue'.callbacks.length := by
  have hold := inTransactions_erase h
  have hnew : inTransactions (table.insert transactionId queue') =
      queue'.callbacks.length + inTransactions (table.erase transactionId) := Tally.total_insert
  omega

theorem inTransactions_insert_new (h : table[transactionId]? = none) :
    inTransactions (table.insert transactionId queue') =
      queue'.callbacks.length + inTransactions table := by
  have hnew : inTransactions (table.insert transactionId queue') =
      queue'.callbacks.length + inTransactions (table.erase transactionId) := Tally.total_insert
  have hold : inTransactions (table.erase transactionId) = inTransactions table :=
    Tally.erase_of_none h
  omega

end Table

theorem inTransactions_modifyTransaction {f : ReactionCallbackQueue → ReactionCallbackQueue}
    {queue : ReactionCallbackQueue} (h : s.reactionCallbacks[transactionId]? = some queue) :
    inTransactions (s.modifyTransaction transactionId f).reactionCallbacks + queue.callbacks.length =
      inTransactions s.reactionCallbacks + (f queue).callbacks.length := by
  unfold ServiceState.modifyTransaction
  simp only [h]
  exact inTransactions_insert h

/-- The transaction behind a queue of the scope of reactions. -/
theorem exists_transaction (hqueue : s.scopedQueue .reaction transactionId = .ok (callbacks, first)) :
    ∃ queue, s.reactionCallbacks[transactionId]? = some queue ∧ queue.callbacks = callbacks ∧
      queue.nextSequence = first := by
  obtain ⟨hlane, hscope⟩ := scopedQueue_eq_ok.1 hqueue
  have hid : transactionId ≠ 0 := fun h => by cases hscope.2 h
  rw [lane_transaction hid] at hlane
  rcases hfound : s.reactionCallbacks[transactionId]? with - | queue
  · rw [hfound] at hlane
    cases hlane
  · rw [hfound] at hlane
    cases hlane
    exact ⟨queue, rfl, rfl, rfl⟩

/-- The general queue behind the general scope. -/
theorem general_eq (hqueue : s.scopedQueue .general transactionId = .ok (callbacks, first)) :
    transactionId = 0 ∧ s.generalCallbacks = callbacks ∧ s.nextCallbackSequence = first := by
  obtain ⟨hlane, hscope⟩ := scopedQueue_eq_ok.1 hqueue
  have hid := hscope.1 rfl
  subst hid
  cases hlane
  exact ⟨rfl, rfl, rfl⟩

theorem queuedCallbacks_setCallbacks
    (hqueue : s.scopedQueue scope transactionId = .ok (callbacks, first)) :
    (s.setCallbacks scope transactionId rest).queuedCallbacks + callbacks.length =
      s.queuedCallbacks + rest.length := by
  rw [queuedCallbacks_eq, queuedCallbacks_eq]
  unfold ServiceState.setCallbacks
  cases scope with
  | general =>
    obtain ⟨-, rfl, -⟩ := general_eq hqueue
    dsimp only
    omega
  | reaction =>
    obtain ⟨queue, hfound, rfl, -⟩ := exists_transaction hqueue
    have htable := inTransactions_modifyTransaction
      (f := fun queue => { queue with callbacks := rest }) hfound
    dsimp only at htable ⊢
    rw [modifyTransaction_generalCallbacks]
    omega

theorem queuedCallbacks_enqueued {depth : UInt32} {entries : List (UInt64 × PendingContinuation)}
    (hqueue : s.scopedQueue scope transactionId = .ok (callbacks, first)) :
    (s.enqueued scope transactionId queued depth next entries).queuedCallbacks =
      s.queuedCallbacks + queued.length := by
  rw [queuedCallbacks_eq, queuedCallbacks_eq]
  unfold ServiceState.enqueued
  cases scope with
  | general =>
    dsimp only
    rw [List.length_append]
    omega
  | reaction =>
    obtain ⟨queue, hfound, rfl, -⟩ := exists_transaction hqueue
    have htable := inTransactions_modifyTransaction
      (f := fun queue => { queue with callbacks := queue.callbacks ++ queued, nextSequence := next })
      hfound
    rw [List.length_append] at htable
    unfold ServiceState.modifyTransaction at htable ⊢
    simp only [hfound] at htable ⊢
    omega

end Queued

/-! ## The invariant -/

/-- The count is exact, and the limits are kept. -/
structure Accounted (s : ServiceState) : Prop where
  counted : s.pendingCallbackCount.toNat = s.queuedCallbacks
  bounded : s.pendingCallbackCount ≤ s.maxCallbackEvents
  transactions : s.reactionCallbacks.size ≤ s.maxReactionTransactions.toNat
  continuations : s.pendingContinuations.size ≤ s.maxPendingContinuations.toNat
  fresh : ∀ (id : UInt64) (queue : ReactionCallbackQueue), s.reactionCallbacks[id]? = some queue →
    id ≠ 0 ∧ id.toNat < s.nextReactionTransactionId.toNat

theorem Accounted.pendingContinuationCount {s : ServiceState} (hs : Accounted s) :
    s.pendingContinuationCount.toNat = s.pendingContinuations.size := by
  have hsize := hs.continuations
  have hlt := UInt32.toNat_lt s.maxPendingContinuations
  unfold ServiceState.pendingContinuationCount
  rw [UInt32.ofNatClamp_eq_ofNat _ (Nat.lt_of_le_of_lt hsize hlt), toNat_ofNat32 (by omega)]

theorem Accounted.sameButCounters {s s' : ServiceState} (h : SameButCounters s s')
    (hs : Accounted s) : Accounted s' := by
  have hfield : ∀ {α : Type} (f : ServiceState → α), (∀ t, f t = f t.withoutCounters) →
      f s' = f s := fun f hf => h.field f hf
  constructor
  · rw [hfield (fun t => t.pendingCallbackCount) fun _ => rfl,
      hfield (fun t => t.queuedCallbacks) fun _ => rfl]
    exact hs.counted
  · rw [hfield (fun t => t.pendingCallbackCount) fun _ => rfl,
      hfield (fun t => t.maxCallbackEvents) fun _ => rfl]
    exact hs.bounded
  · rw [hfield (fun t => t.reactionCallbacks) fun _ => rfl,
      hfield (fun t => t.maxReactionTransactions) fun _ => rfl]
    exact hs.transactions
  · rw [hfield (fun t => t.pendingContinuations) fun _ => rfl,
      hfield (fun t => t.maxPendingContinuations) fun _ => rfl]
    exact hs.continuations
  · rw [hfield (fun t => t.reactionCallbacks) fun _ => rfl,
      hfield (fun t => t.nextReactionTransactionId) fun _ => rfl]
    exact hs.fresh

theorem Accounted.withTransaction {s : ServiceState} (hs : Accounted s)
    (hroom : UInt32.ofNat s.reactionCallbacks.size < s.maxReactionTransactions)
    (hid : s.nextReactionTransactionId ≠ 0) (hnext : s.nextReactionTransactionId.toNat + 1 < 2 ^ 64) :
    Accounted s.withTransaction := by
  have hnone : s.reactionCallbacks[s.nextReactionTransactionId]? = none := by
    rcases hfound : s.reactionCallbacks[s.nextReactionTransactionId]? with - | queue
    · rfl
    · exact absurd (hs.fresh _ _ hfound).2 (Nat.lt_irrefl _)
  have htotal : inTransactions s.withTransaction.reactionCallbacks =
      0 + inTransactions s.reactionCallbacks := inTransactions_insert_new hnone
  have hmax := UInt32.toNat_lt s.maxReactionTransactions
  have hsize := hs.transactions
  constructor
  · rw [queuedCallbacks_eq, htotal, Nat.zero_add]
    exact hs.counted
  · exact hs.bounded
  · rw [UInt32.lt_iff_toNat_lt, toNat_ofNat32 (by omega)] at hroom
    unfold ServiceState.withTransaction
    dsimp only
    rw [Std.TreeMap.size_insert]
    split <;> omega
  · exact hs.continuations
  · intro id queue hfound
    unfold ServiceState.withTransaction at hfound ⊢
    dsimp only at hfound ⊢
    rw [toNat_add_one hnext]
    rw [Std.TreeMap.getElem?_insert] at hfound
    split at hfound
    · rename_i heq
      rw [← Std.LawfulEqCmp.eq_of_compare heq]
      exact ⟨hid, Nat.lt_succ_self _⟩
    · have := hs.fresh id queue hfound
      exact ⟨this.1, Nat.lt_succ_of_lt this.2⟩

/-- The entries of a table that lost one. -/
theorem getElem?_erase_some {table : Std.TreeMap UInt64 ReactionCallbackQueue} {id key : UInt64}
    {queue : ReactionCallbackQueue} (h : (table.erase id)[key]? = some queue) :
    table[key]? = some queue := by
  rw [Std.TreeMap.getElem?_erase] at h
  split at h
  · cases h
  · exact h

/-- A transaction goes, and its callbacks are no longer counted. -/
theorem Accounted.erase {s t : ServiceState} (hs : Accounted s) (id : UInt64)
    (hcount : t.pendingCallbackCount.toNat + inTransactions s.reactionCallbacks =
      s.pendingCallbackCount.toNat + inTransactions (s.reactionCallbacks.erase id))
    (ht : t = { s with
      reactionCallbacks := s.reactionCallbacks.erase id
      pendingCallbackCount := t.pendingCallbackCount }) : Accounted t := by
  have hle : inTransactions (s.reactionCallbacks.erase id) ≤ inTransactions s.reactionCallbacks :=
    inTransactions_erase_le
  have hcounted := hs.counted
  have hbounded := UInt32.le_iff_toNat_le.1 hs.bounded
  rw [queuedCallbacks_eq] at hcounted
  rw [ht]
  constructor
  · rw [queuedCallbacks_eq]
    dsimp only
    omega
  · rw [UInt32.le_iff_toNat_le]
    dsimp only
    omega
  · dsimp only
    rw [Std.TreeMap.size_erase]
    have := hs.transactions
    split <;> omega
  · exact hs.continuations
  · intro key queue hkey
    exact hs.fresh key queue (getElem?_erase_some hkey)

theorem Accounted.remove {s : ServiceState} (hs : Accounted s) (id : UInt64) :
    Accounted (s.removeReactionTransaction id) := by
  unfold ServiceState.removeReactionTransaction
  split
  · rename_i queue hfound
    have htotal := inTransactions_erase hfound
    have hcounted := hs.counted
    have hlt := UInt32.toNat_lt s.pendingCallbackCount
    rw [queuedCallbacks_eq] at hcounted
    refine hs.erase id ?_ rfl
    dsimp only
    rw [toNat_ofNat32 (by omega), toNat_ofNat32 (by omega)]
    omega
  · exact hs

theorem Accounted.retainCallbacks {s : ServiceState} (hs : Accounted s)
    (keep : Wire.ContinuationToken → Bool) : Accounted (s.retainCallbacks keep) := by
  have hfilter : ∀ callbacks : List QueuedCallback,
      (callbacks.filter fun callback => callback.event.continuation.all keep).length ≤
        callbacks.length := fun _ => List.length_filter_le _ _
  have hle : (s.retainCallbacks keep).queuedCallbacks ≤ s.queuedCallbacks := by
    unfold ServiceState.queuedCallbacks
    refine Nat.add_le_add (hfilter _) (Tally.total_map_le (fun _ queue => ?_) _)
    exact hfilter queue.callbacks
  have hcounted := hs.counted
  have hbounded := UInt32.le_iff_toNat_le.1 hs.bounded
  have hlt := UInt32.toNat_lt s.pendingCallbackCount
  have hcount : (s.retainCallbacks keep).pendingCallbackCount.toNat =
      (s.retainCallbacks keep).queuedCallbacks := toNat_ofNat32 (by
    refine Nat.lt_of_le_of_lt ?_ hlt
    rw [hcounted]
    exact hle)
  constructor
  · exact hcount
  · rw [UInt32.le_iff_toNat_le, hcount]
    exact Nat.le_trans (Nat.le_trans hle (Nat.le_of_eq hcounted.symm)) hbounded
  · unfold ServiceState.retainCallbacks ServiceState.recountPendingCallbacks
    dsimp only
    rw [Std.TreeMap.size_map]
    exact hs.transactions
  · exact hs.continuations
  · intro id queue hfound
    unfold ServiceState.retainCallbacks ServiceState.recountPendingCallbacks at hfound
    dsimp only at hfound
    rw [Std.TreeMap.getElem?_map] at hfound
    rcases hold : s.reactionCallbacks[id]? with - | old
    · rw [hold] at hfound
      cases hfound
    · exact hs.fresh id old hold

/-- A rewrite of a transaction makes no new one. -/
theorem fresh_modifyTransaction {s : ServiceState} (hs : Accounted s) {transactionId : UInt64}
    {f : ReactionCallbackQueue → ReactionCallbackQueue} (id : UInt64) (queue : ReactionCallbackQueue)
    (h : (s.modifyTransaction transactionId f).reactionCallbacks[id]? = some queue) :
    id ≠ 0 ∧ id.toNat < s.nextReactionTransactionId.toNat := by
  rw [getElem?_modifyTransaction] at h
  rcases hold : s.reactionCallbacks[id]? with - | old
  · rw [hold] at h
    split at h <;> cases h
  · exact hs.fresh id old hold

theorem Accounted.marked {s : ServiceState} (hs : Accounted s) (transactionId : UInt64)
    (complete : Bool) : Accounted (s.marked transactionId complete) := by
  have hframe : s.marked transactionId complete =
      { s with reactionCallbacks := (s.marked transactionId complete).reactionCallbacks } :=
    modifyTransaction_frame s transactionId _
  have htotal : inTransactions (s.marked transactionId complete).reactionCallbacks =
      inTransactions s.reactionCallbacks := by
    rcases hfound : s.reactionCallbacks[transactionId]? with - | queue
    · unfold ServiceState.marked ServiceState.modifyTransaction
      rw [hfound]
    · have h := inTransactions_modifyTransaction
        (f := fun queue => { queue with complete := queue.complete || complete }) hfound
      exact Nat.add_right_cancel h
  rw [hframe]
  constructor
  · rw [queuedCallbacks_eq]
    dsimp only
    rw [htotal]
    exact hs.counted
  · exact hs.bounded
  · refine Nat.le_trans (Nat.le_of_eq ?_) hs.transactions
    exact size_modifyTransaction
  · exact hs.continuations
  · exact fun id queue h => fresh_modifyTransaction hs id queue h

theorem size_insertContinuations (entries : List (UInt64 × PendingContinuation))
    (map : Std.TreeMap UInt64 PendingContinuation) :
    (insertContinuations entries map).size ≤ map.size + entries.length := by
  induction entries generalizing map with
  | nil => exact Nat.le_refl _
  | cons pair rest ih =>
    obtain ⟨id, entry⟩ := pair
    refine Nat.le_trans (ih _) ?_
    have hsize : (map.insert id entry).size ≤ map.size + 1 := by
      rw [Std.TreeMap.size_insert]
      split <;> omega
    rw [List.length_cons]
    omega

theorem Accounted.enqueues {s s' : ServiceState} (h : Enqueues s s') (hs : Accounted s) :
    Accounted s' := by
  obtain ⟨nowTicks, hqueue, hbatch⟩ := h
  obtain ⟨hroom, hmax, -⟩ := prepareCallbackEnqueue_eq_ok.1 hbatch.depth
  rw [toNat_ofNat32 hbatch.events_lt] at hroom
  constructor
  · rw [enqueued_pendingCallbackCount, queuedCallbacks_enqueued hqueue, List.length_map,
      UInt32.toNat_add, toNat_ofNat32 hbatch.events_lt, Nat.mod_eq_of_lt hroom, hs.counted]
  · rw [enqueued_pendingCallbackCount, enqueued_maxCallbackEvents]
    exact hmax
  · rw [enqueued_maxReactionTransactions, enqueued_reactionCallbacks]
    split
    · exact hs.transactions
    · rw [size_modifyTransaction]
      exact hs.transactions
  · rw [enqueued_maxPendingContinuations, enqueued_pendingContinuations]
    refine Nat.le_trans (size_insertContinuations _ _) ?_
    rcases hbatch.room with rfl | hroom
    · exact hs.continuations
    · rwa [hs.pendingContinuationCount] at hroom
  · intro id queue hfound
    rw [enqueued_nextReactionTransactionId]
    rw [enqueued_reactionCallbacks] at hfound
    split at hfound
    · exact hs.fresh id queue hfound
    · exact fresh_modifyTransaction hs id queue hfound

section Pops

variable {scope : Wire.CallbackScope} {transactionId : UInt64} {s t : ServiceState}
  {events : List Wire.CallbackEvent}

theorem queuedCallbacks_pops (h : Pops scope transactionId s events t) :
    t.queuedCallbacks + events.length = s.queuedCallbacks := by
  induction h with
  | nil s => rfl
  | @cons s t callback rest first events hqueue _ ih =>
    have hset : (s.setCallbacks scope transactionId rest).queuedCallbacks + _ = _ :=
      queuedCallbacks_setCallbacks hqueue
    rw [List.length_cons] at hset ⊢
    omega

theorem size_pops (h : Pops scope transactionId s events t) :
    t.reactionCallbacks.size = s.reactionCallbacks.size := by
  induction h with
  | nil s => rfl
  | cons hqueue _ ih =>
    rw [ih]
    unfold ServiceState.setCallbacks
    cases scope with
    | general => rfl
    | reaction => exact size_modifyTransaction

/-- Taking callbacks off opens no transaction. -/
theorem fresh_pops {P : UInt64 → Prop} (h : Pops scope transactionId s events t)
    (hs : ∀ (id : UInt64) (queue : ReactionCallbackQueue), s.reactionCallbacks[id]? = some queue →
      P id) (id : UInt64) (queue : ReactionCallbackQueue)
    (hfound : t.reactionCallbacks[id]? = some queue) : P id := by
  induction h generalizing queue with
  | nil s => exact hs id queue hfound
  | @cons s t callback rest first events hqueue _ ih =>
    refine ih (fun id queue hfound => ?_) queue hfound
    unfold ServiceState.setCallbacks at hfound
    cases scope with
    | general => exact hs id queue hfound
    | reaction =>
      rcases hold : s.reactionCallbacks[id]? with - | old
      · dsimp only at hfound
        rw [getElem?_modifyTransaction, hold] at hfound
        split at hfound <;> cases hfound
      · exact hs id old hold

theorem Accounted.pops (h : Pops scope transactionId s events t) (hs : Accounted s) :
    Accounted (t.uncounted events.length) := by
  have hqueued := queuedCallbacks_pops h
  have hcounted := hs.counted
  have hlt := UInt32.toNat_lt s.pendingCallbackCount
  have hcount : (t.uncounted events.length).pendingCallbackCount.toNat =
      s.pendingCallbackCount.toNat - events.length := by
    have hlength : (UInt32.ofNat events.length).toNat = events.length := toNat_ofNat32 (by omega)
    unfold ServiceState.uncounted
    dsimp only
    rw [pops_field (fun t => t.pendingCallbackCount) h fun _ _ _ => rfl, UInt32.toNat_sub_of_le,
      hlength]
    rw [UInt32.le_iff_toNat_le, hlength]
    omega
  constructor
  · rw [hcount]
    show _ = t.queuedCallbacks
    omega
  · show (t.uncounted events.length).pendingCallbackCount ≤ t.maxCallbackEvents
    rw [UInt32.le_iff_toNat_le, hcount, pops_field (fun t => t.maxCallbackEvents) h fun _ _ _ => rfl]
    have hbounded := UInt32.le_iff_toNat_le.1 hs.bounded
    omega
  · show t.reactionCallbacks.size ≤ t.maxReactionTransactions.toNat
    rw [size_pops h, pops_field (fun t => t.maxReactionTransactions) h fun _ _ _ => rfl]
    exact hs.transactions
  · show t.pendingContinuations.size ≤ t.maxPendingContinuations.toNat
    rw [pops_field (fun t => t.pendingContinuations) h fun _ _ _ => rfl,
      pops_field (fun t => t.maxPendingContinuations) h fun _ _ _ => rfl]
    exact hs.continuations
  · intro id queue hfound
    show id ≠ 0 ∧ id.toNat < t.nextReactionTransactionId.toNat
    rw [pops_field (fun t => t.nextReactionTransactionId) h fun _ _ _ => rfl]
    exact fresh_pops h hs.fresh id queue hfound

end Pops

/-- **Every change keeps the count exact and the limits.** -/
theorem kept_accounted : Kept Accounted where
  quiet h hs := by
    cases h with
    | counters h => exact hs.sameButCounters h
    | world op => exact { hs with }
    | forget pending hsub hsize =>
      exact { hs with continuations := Nat.le_trans hsize hs.continuations }
    | withdraw keep => exact hs.retainCallbacks keep
    | begin hroom hid hnext => exact hs.withTransaction hroom hid hnext
    | finish transactionId complete => exact hs.marked transactionId complete
    | remove transactionId => exact hs.remove transactionId
    | drop transactionId hempty =>
      refine hs.erase transactionId (congrArg (_ + ·) ?_) rfl
      rcases hfound : (ServiceState.reactionCallbacks _)[transactionId]? with - | queue
      · exact (Tally.erase_of_none hfound).symm
      · rw [inTransactions_erase hfound, hempty queue hfound]
        exact Nat.zero_add _
  enqueues h hs := hs.enqueues h
  pops h hs := hs.pops h
  upload s pending nextId hs := { hs with }

theorem accounted_initial {s : ServiceState} (h : Initial s) : Accounted s := by
  obtain ⟨mixtureSlotBytes, turfSlotBytes, maxWorldBytes, maxCallbackEvents, maxPending,
    maxTransactions, worldGeneration, rfl⟩ := h
  refine ⟨rfl, UInt32.zero_le, Nat.zero_le _, Nat.zero_le _, fun id queue hfound => ?_⟩
  have hempty : (∅ : Std.TreeMap UInt64 ReactionCallbackQueue)[id]? = none :=
    Std.TreeMap.getElem?_emptyc
  exact absurd (hfound.symm.trans hempty) nofun

/-- **Bounds of the service.**  In every reachable state the count of waiting callbacks is the
number of callbacks in all queues, and none of the three limits is passed. -/
theorem waiting_counted_and_bounded {s : ServiceState} (h : Reachable s) :
    s.pendingCallbackCount.toNat =
        s.generalCallbacks.length + inTransactions s.reactionCallbacks ∧
      s.pendingCallbackCount ≤ s.maxCallbackEvents ∧
      s.reactionCallbacks.size ≤ s.maxReactionTransactions.toNat ∧
      s.pendingContinuations.size ≤ s.maxPendingContinuations.toNat := by
  have hs := kept_accounted.reachable (fun _ => accounted_initial) h
  exact ⟨hs.counted, hs.bounded, hs.transactions, hs.continuations⟩

/-- Three callbacks go in, one comes out and three more find no room. -/
theorem waiting_counted_and_bounded_small :
    (System.run step smallService
      [(.enqueueDiagnosticCallbacks 3, answersAt 5), (.drainCallbacks .general 0 1 200, answersAt 6),
        (.enqueueDiagnosticCallbacks 3, answersAt 7)]).pendingCallbackCount.toNat = 2 + 0 :=
  (waiting_counted_and_bounded (reachable_small
    [(.enqueueDiagnosticCallbacks 3, answersAt 5), (.drainCallbacks .general 0 1 200, answersAt 6),
      (.enqueueDiagnosticCallbacks 3, answersAt 7)])).1

end Service

end Dogmos
