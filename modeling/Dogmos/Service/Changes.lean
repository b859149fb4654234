import Dogmos.Runs.Operations
import Dogmos.Lib.Delivery
import Dogmos.Service.Requests
import Dogmos.Wire.CallbackBatch
import Mathlib.Logic.Relation

/-!
# What a request can do to the service

A request is a chain of quiet changes, which add no callback, and after them at most one batch of
callbacks taken off a queue, one batch put on a queue, or one change of the upload.  Every
invariant of the service is proved from these changes, and no later proof opens a method again.

* `Quiet` — the changes that add nothing: work of the world, continuations forgotten, callbacks
  withdrawn, transactions begun, finished and removed.
* `Enqueues`, `Pops` — a batch put on a queue, and callbacks taken off.
* `quietly_requireContinuation`, `quietly_expireContinuations` — the methods that look at a
  deadline.
-/

namespace Dogmos

namespace Service

open Exec

/-! ## Counters -/

/-- The state with all that is only counted set to zero. -/
def ServiceState.withoutCounters (s : ServiceState) : ServiceState :=
  { s with
    reactionTransactionHighWater := 0
    callbackHighWater := 0
    callbackRejected := 0
    callbackEnqueued := 0
    callbackDrained := 0
    callbackEnqueuedByKind := Vector.replicate _ 0
    callbackDrainedByKind := Vector.replicate _ 0
    callbackRejectedByKind := Vector.replicate _ 0
    continuationHighWater := 0
    continuationTimeouts := 0
    requestTimeouts := 0
    protocolErrors := 0 }

/-- The two states differ at most in what is only counted. -/
def SameButCounters (s s' : ServiceState) : Prop := s'.withoutCounters = s.withoutCounters

namespace SameButCounters

variable {s s' s'' : ServiceState}

theorem refl (s : ServiceState) : SameButCounters s s := rfl

theorem trans (h : SameButCounters s s') (h' : SameButCounters s' s'') : SameButCounters s s'' :=
  Eq.trans h' h

/-- A field that is not a counter. -/
theorem field {α : Type} (f : ServiceState → α) (h : SameButCounters s s')
    (hf : ∀ t : ServiceState, f t = f t.withoutCounters) : f s' = f s := by
  rw [hf s', hf s, h]

theorem foldl {α : Type} {f : ServiceState → α → ServiceState}
    (h : ∀ s a, SameButCounters s (f s a)) (l : List α) (s : ServiceState) :
    SameButCounters s (l.foldl f s) := by
  induction l generalizing s with
  | nil => exact .refl s
  | cons a rest ih => exact (h s a).trans (ih (f s a))

end SameButCounters

/-! ## Changes -/

/-- The state after a transaction is begun. -/
def ServiceState.withTransaction (s : ServiceState) : ServiceState :=
  { s with
    nextReactionTransactionId := s.nextReactionTransactionId + 1
    reactionCallbacks := s.reactionCallbacks.insert s.nextReactionTransactionId ⟨[], 1, false⟩ }

/-- The state after a transaction is marked as complete, or not. -/
def ServiceState.marked (s : ServiceState) (transactionId : UInt64) (complete : Bool) :
    ServiceState :=
  s.modifyTransaction transactionId fun queue => { queue with complete := queue.complete || complete }

/-- The changes that add no callback. -/
inductive Quiet : ServiceState → ServiceState → Prop
  | counters {s s' : ServiceState} (h : SameButCounters s s') : Quiet s s'
  | world (s : ServiceState) (op : Op F32 F64) :
      Quiet s { s with world := DogmosWorld.step s.world op }
  | forget (s : ServiceState) (pending : Std.TreeMap UInt64 PendingContinuation)
      (hsub : ∀ (id : UInt64) (entry : PendingContinuation), pending[id]? = some entry →
        s.pendingContinuations[id]? = some entry)
      (hsize : pending.size ≤ s.pendingContinuations.size) :
      Quiet s { s with pendingContinuations := pending }
  | withdraw (s : ServiceState) (keep : Wire.ContinuationToken → Bool) :
      Quiet s (s.retainCallbacks keep)
  | begin (s : ServiceState)
      (hroom : UInt32.ofNat s.reactionCallbacks.size < s.maxReactionTransactions)
      (hid : s.nextReactionTransactionId ≠ 0)
      (hnext : s.nextReactionTransactionId.toNat + 1 < 2 ^ 64) : Quiet s s.withTransaction
  | finish (s : ServiceState) (transactionId : UInt64) (complete : Bool) :
      Quiet s (s.marked transactionId complete)
  | remove (s : ServiceState) (transactionId : UInt64) :
      Quiet s (s.removeReactionTransaction transactionId)
  | drop (s : ServiceState) (transactionId : UInt64)
      (hempty : ∀ queue, s.reactionCallbacks[transactionId]? = some queue → queue.callbacks = []) :
      Quiet s { s with reactionCallbacks := s.reactionCallbacks.erase transactionId }

/-- A chain of quiet changes. -/
abbrev Quietly : ServiceState → ServiceState → Prop := Relation.ReflTransGen Quiet

/-- The changes that come after a batch is put on a queue. -/
inductive Silent : ServiceState → ServiceState → Prop
  | counters {s s' : ServiceState} (h : SameButCounters s s') : Silent s s'
  | finish (s : ServiceState) (transactionId : UInt64) (complete : Bool) :
      Silent s (s.marked transactionId complete)

/-- A chain of silent changes. -/
abbrev Silently : ServiceState → ServiceState → Prop := Relation.ReflTransGen Silent

/-- The state after a batch is put on a queue. -/
def ServiceState.enqueued (s : ServiceState) (scope : Wire.CallbackScope) (transactionId : UInt64)
    (queued : List QueuedCallback) (depth : UInt32) (nextSequence : UInt64)
    (entries : List (UInt64 × PendingContinuation)) : ServiceState :=
  let s :=
    { s with
      pendingCallbackCount := depth
      nextContinuationId := s.nextContinuationId + UInt64.ofNat entries.length
      pendingContinuations := insertContinuations entries s.pendingContinuations }
  match scope with
  | .general =>
    { s with
      generalCallbacks := s.generalCallbacks ++ queued
      nextCallbackSequence := nextSequence }
  | .reaction =>
    s.modifyTransaction transactionId fun queue =>
      { queue with callbacks := queue.callbacks ++ queued, nextSequence }

/-- The values of an event are numbers of the world. -/
def OfWorld (event : Wire.CallbackEvent) : Prop :=
  ∀ value ∈ event.values.toList, ∃ number : F32, value = widened number

/-- The callbacks and continuations made of a list of events: numbered one after the other, with a
token in a callback for each continuation. -/
structure Prepared (worldGeneration : UInt32) (scope : Wire.CallbackScope)
    (transactionId first firstId : UInt64) (events : List Wire.CallbackEvent)
    (entries : List (UInt64 × PendingContinuation)) : Prop where
  inScope : ∀ event ∈ events, event.scope = scope ∧ event.transactionId = transactionId
  numbers : Delivery.Consecutive Wire.CallbackEvent.number first.toNat events
  valid : ∀ event ∈ events, event.Valid
  ofWorld : ∀ event ∈ events, OfWorld event
  ids : Delivery.Consecutive (fun entry => entry.1.toNat) firstId.toNat entries
  transaction : ∀ entry ∈ entries, entry.2.transactionId = transactionId
  tokens : ∀ event ∈ events, ∀ token ∈ event.continuation,
    token.worldGeneration = worldGeneration ∧
      ∃ entry, (token.id, entry) ∈ entries ∧ entry.deadlineTicks = token.deadlineTicks

/-- What the checks in front of a batch say about it. -/
structure Batch (s : ServiceState) (scope : Wire.CallbackScope) (transactionId first : UInt64)
    (events : List Wire.CallbackEvent) (entries : List (UInt64 × PendingContinuation)) : Prop where
  prepared : Prepared s.worldGeneration scope transactionId first s.nextContinuationId events entries
  room : entries = [] ∨
    s.pendingContinuationCount.toNat + entries.length ≤ s.maxPendingContinuations.toNat
  nextId : s.nextContinuationId.toNat + entries.length < 2 ^ 64
  depth : s.prepareCallbackEnqueue (UInt32.ofNat events.length) =
    .ok (s.pendingCallbackCount + UInt32.ofNat events.length)
  events_lt : events.length < 2 ^ 32
  next_lt : first.toNat + events.length < 2 ^ 64

/-- A batch is put on the queue that a scope and a transaction id name. -/
inductive Enqueues : ServiceState → ServiceState → Prop
  | mk {s : ServiceState} {scope : Wire.CallbackScope} {transactionId first : UInt64}
      {callbacks : List QueuedCallback} {events : List Wire.CallbackEvent}
      {entries : List (UInt64 × PendingContinuation)} (nowTicks : UInt64)
      (hqueue : s.scopedQueue scope transactionId = .ok (callbacks, first))
      (hbatch : Batch s scope transactionId first events entries) :
      Enqueues s (s.enqueued scope transactionId (events.map fun event => ⟨event, nowTicks⟩)
        (s.pendingCallbackCount + UInt32.ofNat events.length)
        (first + UInt64.ofNat events.length) entries)

/-- Callbacks are taken off the front of a queue, one after the other. -/
inductive Pops (scope : Wire.CallbackScope) (transactionId : UInt64) :
    ServiceState → List Wire.CallbackEvent → ServiceState → Prop
  | nil (s : ServiceState) : Pops scope transactionId s [] s
  | cons {s t : ServiceState} {callback : QueuedCallback} {rest : List QueuedCallback}
      {first : UInt64} {events : List Wire.CallbackEvent}
      (hqueue : s.scopedQueue scope transactionId = .ok (callback :: rest, first))
      (hrest : Pops scope transactionId (s.setCallbacks scope transactionId rest) events t) :
      Pops scope transactionId s (callback.event :: events) t

/-- The state after so many callbacks that were taken off are no longer counted. -/
def ServiceState.uncounted (s : ServiceState) (count : ℕ) : ServiceState :=
  { s with pendingCallbackCount := s.pendingCallbackCount - UInt32.ofNat count }

/-- How a request other than a drain and an upload ends. -/
inductive Outcome (s : ServiceState) : ServiceState → Prop
  | quiet {s' : ServiceState} (h : Quietly s s') : Outcome s s'
  | enqueued {s₁ s₂ s' : ServiceState} (h : Quietly s s₁) (henqueues : Enqueues s₁ s₂)
      (hafter : Silently s₂ s') : Outcome s s'

/-! ## Quiet methods -/

section Quiet

variable {s₀ : ServiceState} {α β : Type}

theorem quietly_modify {f : ServiceState → ServiceState} (h : ∀ s, Quiet s (f s)) :
    Keeps (Quietly s₀) (modify f : ServiceM PUnit) :=
  keeps_modify fun s hs => hs.tail (h s)

/-- Work of the world that an operation stands for. -/
theorem quietly_onWorld {m : WorldM F32 α} (op : Op F32 F64)
    (hop : ∀ w, DogmosWorld.step w op = m.final w) : Keeps (Quietly s₀) (onWorld m) := by
  refine keeps_embed fun s hs => hs.tail ?_
  have h := Quiet.world s op
  rw [hop] at h
  exact h

/-- Work of the world whose value is thrown away by the operation that stands for it. -/
theorem quietly_onWorld_discard {m : WorldM F32 α} (op : Op F32 F64)
    (hop : DogmosWorld.exec op = DogmosWorld.discard m) : Keeps (Quietly s₀) (onWorld m) := by
  refine quietly_onWorld op fun w => ?_
  unfold DogmosWorld.step
  rw [hop, DogmosWorld.final_discard]

theorem quietly_cancelReaction (token : ReactionContinuationToken) :
    Keeps (Quietly s₀) (onWorld (DogmosWorld.cancelReaction token)) :=
  quietly_onWorld (.cancelReaction token) fun _ => rfl

theorem quiet_forgetContinuation (s : ServiceState) (id : UInt64) :
    Quiet s (s.forgetContinuation id) := by
  refine Quiet.forget s _ (fun id' entry h => ?_) ?_
  · rw [Std.TreeMap.getElem?_erase] at h
    split at h
    · cases h
    · exact h
  · rw [Std.TreeMap.size_erase]
    split <;> omega

theorem quiet_retainContinuations (s : ServiceState) (keep : PendingContinuation → Bool) :
    Quiet s (s.retainContinuations keep) := by
  refine Quiet.forget s _ (fun id entry h => ?_) Std.TreeMap.size_filter_le_size
  rw [Std.TreeMap.getElem?_filter] at h
  exact (Option.pfilter_eq_some_iff.1 h).1

theorem quietly_removeOrphanedReactionTransactions (s : ServiceState) :
    Quietly s s.removeOrphanedReactionTransactions := by
  unfold ServiceState.removeOrphanedReactionTransactions
  dsimp only
  generalize List.filter _ s.reactionCallbacks.toList = orphaned
  induction orphaned generalizing s with
  | nil => exact .refl
  | cons entry rest ih => exact .head (.remove s entry.1) (ih _)

theorem quietly_removeOrphanedContinuationCallbacks (s : ServiceState) :
    Quietly s s.removeOrphanedContinuationCallbacks :=
  .head (.withdraw s _) (quietly_removeOrphanedReactionTransactions _)

theorem quietly_dropContinuation (s : ServiceState) (id transactionId : UInt64) :
    Quietly s (s.dropContinuation id transactionId) := by
  have h : Quietly s ((s.forgetContinuation id).removeQueuedContinuation id) :=
    .head (quiet_forgetContinuation s id) (.single (.withdraw _ _))
  unfold ServiceState.dropContinuation
  dsimp only
  split
  · exact h.tail (.remove _ transactionId)
  · exact h

theorem quietly_requireContinuation (token : Wire.ContinuationToken) (nowTicks : UInt64) :
    Keeps (Quietly s₀) (requireContinuation token nowTicks) := by
  refine keeps_check_bind fun continuation => keeps_ite (fun _ => ?_) fun _ => keeps_pure _
  refine keeps_bind (keeps_modify fun s hs => hs.trans (quietly_dropContinuation s _ _)) fun _ => ?_
  refine keeps_bind (quietly_cancelReaction _) fun _ => ?_
  exact keeps_bind (quietly_modify fun s => .counters rfl) fun _ => keeps_throw _

theorem quietly_expireContinuations (nowTicks : UInt64) :
    Keeps (Quietly s₀) (expireContinuations nowTicks) := by
  refine keeps_check_bind fun expired => keeps_ite (fun _ => keeps_pure _) fun _ => ?_
  refine keeps_bind (keeps_forM fun entry _ => ?_) fun _ =>
    keeps_modify fun s hs => hs.trans (quietly_removeOrphanedContinuationCallbacks s)
  refine keeps_bind (quietly_cancelReaction _) fun _ => keeps_modify fun s hs => ?_
  exact (hs.tail (quiet_forgetContinuation s entry.1)).tail (.counters rfl)

theorem silently_finishReactionTransaction (transactionId : UInt64) (complete : Bool) :
    Keeps (Silently s₀) (finishReactionTransaction transactionId complete) :=
  keeps_check_bind fun _ => keeps_modify fun s hs => hs.tail (.finish s transactionId complete)

theorem checkedAdd64_eq_ok {a b c : UInt64} {error : StateError} :
    checkedAdd64 a b error = .ok c ↔ a.toNat + b.toNat < 2 ^ 64 ∧ c = a + b := by
  unfold checkedAdd64
  split
  · rename_i h
    simp only [Except.ok.injEq, h, true_and]
    exact eq_comm
  · rename_i h
    simp only [h, false_and, reduceCtorEq]

theorem quietly_beginReactionTransaction : Keeps (Quietly s₀) beginReactionTransaction := by
  intro s hs
  unfold beginReactionTransaction
  rw [run_bind, run_check]
  dsimp only
  split
  · rename_i id t heq
    obtain ⟨hcheck, rfl⟩ := Prod.mk.inj heq
    split at hcheck
    · cases hcheck
    · split at hcheck
      · cases hcheck
      · rename_i hroom hid
        rcases hadd : checkedAdd64 s.nextReactionTransactionId 1 .reactionTransactionIdExhausted
          with error | next
        · rw [hadd] at hcheck
          cases hcheck
        · rw [hadd] at hcheck
          cases hcheck
          have hnext := (checkedAdd64_eq_ok.1 hadd).1
          have hroom' : UInt32.ofNat s.reactionCallbacks.size < s.maxReactionTransactions :=
            UInt32.not_le.1 hroom
          exact (hs.tail (.begin s hroom' hid hnext)).tail (.counters rfl)
  · rename_i error t heq
    obtain ⟨-, rfl⟩ := Prod.mk.inj heq
    exact hs

end Quiet

end Service

end Dogmos
