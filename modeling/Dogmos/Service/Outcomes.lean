import Dogmos.Service.Changes

/-!
# How every request ends

* `pushes_enqueueWorldEvents`, `pushes_enqueueDiagnosticCallbacks` — the two ways callbacks get
  into a queue: a batch whose checks all passed, or nothing.
* `ends_exec` — a request other than a drain and an upload ends as `Outcome` says.
-/

namespace Dogmos

namespace Service

open Exec Delivery

variable {s₀ : ServiceState}

/-! ## Preparing callbacks -/

theorem requireEncodes_eq_ok {event : Wire.CallbackEvent} {u : Unit} :
    requireEncodes event = .ok u ↔ event.Valid := by
  rw [← Wire.CallbackEvent.encodable_iff]
  unfold requireEncodes
  rcases event.encode with error | bytes <;> simp

theorem toNat_add_one {a : UInt64} (h : a.toNat + 1 < 2 ^ 64) : (a + 1).toNat = a.toNat + 1 := by
  rw [UInt64.toNat_add]
  exact Nat.mod_eq_of_lt h

theorem continuationOf_asksReaction {worldGeneration : UInt32} {id deadlineTicks transactionId : UInt64}
    (event : WorldEvent F32) :
    (continuationOf worldGeneration id deadlineTicks transactionId event).isSome =
      asksReaction event := by
  cases event <;> rfl

theorem continuationOf_eq_some {worldGeneration : UInt32} {id deadlineTicks transactionId : UInt64}
    {event : WorldEvent F32} {token : Wire.ContinuationToken} {entry : PendingContinuation}
    (h : continuationOf worldGeneration id deadlineTicks transactionId event = some (token, entry)) :
    token = ⟨worldGeneration, id, deadlineTicks⟩ ∧ entry.deadlineTicks = deadlineTicks ∧
      entry.transactionId = transactionId := by
  cases event <;> cases h
  exact ⟨rfl, rfl, rfl⟩

theorem Prepared.nil (worldGeneration : UInt32) (scope : Wire.CallbackScope)
    (transactionId first firstId : UInt64) :
    Prepared worldGeneration scope transactionId first firstId [] [] where
  inScope := by simp
  numbers := rfl
  valid := by simp
  ofWorld := by simp
  ids := rfl
  transaction := by simp
  tokens := by simp

section Cons

variable {worldGeneration : UInt32} {scope : Wire.CallbackScope}
  {transactionId first firstId : UInt64} {callback : Wire.CallbackEvent}
  {events : List Wire.CallbackEvent} {entries : List (UInt64 × PendingContinuation)}
  {entry : PendingContinuation}

/-- One more callback in front that asks for no reaction. -/
theorem Prepared.cons_plain (hscope : callback.scope = scope ∧ callback.transactionId = transactionId)
    (hnumber : callback.scopeSequence = first) (hvalid : callback.Valid) (hworld : OfWorld callback)
    (hnone : callback.continuation = none) (hfirst : first.toNat + 1 < 2 ^ 64)
    (h : Prepared worldGeneration scope transactionId (first + 1) firstId events entries) :
    Prepared worldGeneration scope transactionId first firstId (callback :: events) entries where
  inScope := by
    rintro event (_ | ⟨_, hevent⟩)
    · exact hscope
    · exact h.inScope event hevent
  numbers := by
    rw [consecutive_cons, ← toNat_add_one hfirst]
    exact ⟨by rw [Wire.CallbackEvent.number, hnumber], h.numbers⟩
  valid := by
    rintro event (_ | ⟨_, hevent⟩)
    · exact hvalid
    · exact h.valid event hevent
  ofWorld := by
    rintro event (_ | ⟨_, hevent⟩)
    · exact hworld
    · exact h.ofWorld event hevent
  ids := h.ids
  transaction := h.transaction
  tokens := by
    rintro event (_ | ⟨_, hevent⟩) token htoken
    · rw [hnone] at htoken
      cases htoken
    · exact h.tokens event hevent token htoken

/-- One more callback in front, which asks for a reaction. -/
theorem Prepared.cons_asking (hscope : callback.scope = scope ∧ callback.transactionId = transactionId)
    (hnumber : callback.scopeSequence = first) (hvalid : callback.Valid) (hworld : OfWorld callback)
    (hasks : callback.continuation = some ⟨worldGeneration, firstId, entry.deadlineTicks⟩)
    (hentry : entry.transactionId = transactionId) (hfirst : first.toNat + 1 < 2 ^ 64)
    (hid : firstId.toNat + 1 < 2 ^ 64)
    (h : Prepared worldGeneration scope transactionId (first + 1) (firstId + 1) events entries) :
    Prepared worldGeneration scope transactionId first firstId (callback :: events)
      ((firstId, entry) :: entries) where
  inScope := by
    rintro event (_ | ⟨_, hevent⟩)
    · exact hscope
    · exact h.inScope event hevent
  numbers := by
    rw [consecutive_cons, ← toNat_add_one hfirst]
    exact ⟨by rw [Wire.CallbackEvent.number, hnumber], h.numbers⟩
  valid := by
    rintro event (_ | ⟨_, hevent⟩)
    · exact hvalid
    · exact h.valid event hevent
  ofWorld := by
    rintro event (_ | ⟨_, hevent⟩)
    · exact hworld
    · exact h.ofWorld event hevent
  ids := by
    rw [consecutive_cons, ← toNat_add_one hid]
    exact ⟨rfl, h.ids⟩
  transaction := by
    rintro pair (_ | ⟨_, hpair⟩)
    · exact hentry
    · exact h.transaction pair hpair
  tokens := by
    rintro event (_ | ⟨_, hevent⟩) token htoken
    · rw [hasks] at htoken
      cases htoken
      exact ⟨rfl, entry, List.mem_cons_self, rfl⟩
    · obtain ⟨hgeneration, found, hmem, hdeadline⟩ := h.tokens event hevent token htoken
      exact ⟨hgeneration, found, List.mem_cons_of_mem _ hmem, hdeadline⟩

end Cons

theorem zero_eq_widened : ScalarValue.zero = widened 0.0 := by
  rfl

theorem ofWorld_zeros : ∀ value ∈ (Vector.replicate 4 ScalarValue.zero).toList,
    ∃ number : F32, value = widened number := by
  intro value hvalue
  rw [Vector.toList_replicate] at hvalue
  exact ⟨0.0, (List.eq_of_mem_replicate hvalue).trans zero_eq_widened⟩

theorem ofWorld_worldEvent (event : WorldEvent F32) (continuation : Option Wire.ContinuationToken)
    {scope : Wire.CallbackScope} {transactionId sequence : UInt64} :
    OfWorld ((pendingCallbackFromWorldEvent event continuation).scoped scope transactionId
      sequence) := by
  have hsingle : ∀ number : F32, ∀ value ∈ (singleValue number).toList,
      ∃ number : F32, value = widened number := by
    intro number value hvalue
    have hmem : value = widened number ∨ value = .zero := by
      simpa [singleValue] using hvalue
    rcases hmem with rfl | rfl
    · exact ⟨number, rfl⟩
    · exact ⟨0.0, zero_eq_widened⟩
  cases event with
  | pressureDifference | decompressionFloorRip | reactionProfiled => exact hsingle _
  | reactionFinished mixture target slot kind values =>
    intro value hvalue
    have hmem : value ∈ (values.map widened).toList := hvalue
    rw [Vector.toList_map] at hmem
    obtain ⟨number, -, rfl⟩ := List.mem_map.1 hmem
    exact ⟨number, rfl⟩
  | _ => exact ofWorld_zeros

/-- The loop over the events of the world makes a prepared batch, or stops at an event that has no
record. -/
theorem prepareEvents_prepared {worldGeneration : UInt32} {deadlineTicks : UInt64}
    {scope : Wire.CallbackScope} {transactionId : UInt64} (worldEvents : List (WorldEvent F32)) :
    ∀ {first firstId : UInt64} {events : List Wire.CallbackEvent}
      {entries : List (UInt64 × PendingContinuation)},
      prepareEvents worldGeneration deadlineTicks scope transactionId first firstId worldEvents =
        .ok (events, entries) →
      first.toNat + worldEvents.length < 2 ^ 64 →
      firstId.toNat + worldEvents.countP asksReaction < 2 ^ 64 →
      events.length = worldEvents.length ∧ entries.length = worldEvents.countP asksReaction ∧
        Prepared worldGeneration scope transactionId first firstId events entries := by
  induction worldEvents with
  | nil =>
    intro first firstId events entries h _ _
    cases h
    exact ⟨rfl, rfl, .nil _ _ _ _ _⟩
  | cons event rest ih =>
    intro first firstId events entries h hfirst hid
    rw [List.length_cons] at hfirst
    have hnext : (first + 1).toNat = first.toNat + 1 := toNat_add_one (by omega)
    rw [prepareEvents] at h
    rcases hof : continuationOf worldGeneration firstId deadlineTicks transactionId event
      with - | ⟨token, entry⟩
    · have hasks : asksReaction event = false := by
        rw [← continuationOf_asksReaction, hof]
        rfl
      rw [List.countP_cons_of_neg (by simp [hasks])] at hid ⊢
      simp only [hof, Option.map_none, bind, Except.bind] at h
      split at h
      · cases h
      · rename_i u hencodes
        split at h
        · cases h
        · rename_i pair hrest
          cases h
          obtain ⟨hlength, hcount, hprepared⟩ := ih hrest (by omega) hid
          refine ⟨by rw [List.length_cons, List.length_cons, hlength], hcount, ?_⟩
          refine .cons_plain ⟨rfl, rfl⟩ rfl (requireEncodes_eq_ok.1 hencodes)
            (ofWorld_worldEvent event none) ?_ (by omega) hprepared
          cases event <;> rfl
    · obtain ⟨rfl, hdeadline, htransaction⟩ := continuationOf_eq_some hof
      have hasks : asksReaction event = true := by
        rw [← continuationOf_asksReaction, hof]
        rfl
      rw [List.countP_cons_of_pos hasks] at hid ⊢
      have hnextId : (firstId + 1).toNat = firstId.toNat + 1 := toNat_add_one (by omega)
      simp only [hof, Option.map_some, bind, Except.bind] at h
      split at h
      · cases h
      · rename_i u hencodes
        split at h
        · cases h
        · rename_i pair hrest
          cases h
          obtain ⟨hlength, hcount, hprepared⟩ := ih hrest (by omega) (by omega)
          refine ⟨by rw [List.length_cons, List.length_cons, hlength],
            by rw [List.length_cons, hcount], ?_⟩
          refine .cons_asking ⟨rfl, rfl⟩ rfl (requireEncodes_eq_ok.1 hencodes)
            (ofWorld_worldEvent event (some _)) ?_ htransaction (by omega) (by omega) hprepared
          rw [hdeadline]
          cases event <;> first | rfl | cases hasks

theorem toNat_ofNat32 {n : ℕ} (h : n < 2 ^ 32) : (UInt32.ofNat n).toNat = n :=
  UInt32.toNat_ofNat_of_lt' h

theorem toNat_ofNat64 {n : ℕ} (h : n < 2 ^ 64) : (UInt64.ofNat n).toNat = n :=
  UInt64.toNat_ofNat_of_lt' h

theorem toUInt64_ofNat32 {n : ℕ} (h : n < 2 ^ 32) : (UInt32.ofNat n).toUInt64 = UInt64.ofNat n := by
  apply UInt64.toNat.inj
  rw [UInt32.toNat_toUInt64, toNat_ofNat32 h, toNat_ofNat64 (by omega)]

theorem prepareCallbackEnqueue_eq_ok {s : ServiceState} {count depth : UInt32} :
    s.prepareCallbackEnqueue count = .ok depth ↔
      s.pendingCallbackCount.toNat + count.toNat < 2 ^ 32 ∧
        s.pendingCallbackCount + count ≤ s.maxCallbackEvents ∧
        depth = s.pendingCallbackCount + count := by
  unfold ServiceState.prepareCallbackEnqueue
  split
  · rename_i hlt
    split
    · rename_i hmax
      simp only [reduceCtorEq, false_iff, not_and]
      intro _ hle
      exact absurd hmax (UInt32.not_lt.2 hle)
    · rename_i hmax
      simp only [Except.ok.injEq, hlt, UInt32.not_lt.1 hmax, true_and]
      exact eq_comm
  · rename_i hlt
    simp only [reduceCtorEq, hlt, false_and]

theorem requireContinuationRoom_eq_ok {s : ServiceState} {count newCount : UInt32}
    (h : s.requireContinuationRoom count = .ok newCount) :
    s.pendingContinuationCount.toNat + count.toNat ≤ s.maxPendingContinuations.toNat := by
  unfold ServiceState.requireContinuationRoom at h
  dsimp only at h
  split at h
  · cases h
  · split at h
    · cases h
    · exact Nat.le_of_not_lt ‹_›

/-- What a prepared batch of the world's events is. -/
theorem prepareBatch_eq_ok {s : ServiceState} {worldEvents : List (WorldEvent F32)} {depth : UInt32}
    {nowTicks : UInt64} {scope : Wire.CallbackScope} {transactionId : UInt64}
    {batch : PreparedCallbackBatch} (hlength : worldEvents.length < 2 ^ 32)
    (hdepth : s.prepareCallbackEnqueue (UInt32.ofNat worldEvents.length) = .ok depth)
    (h : s.prepareBatch worldEvents depth nowTicks scope transactionId = .ok batch) :
    ∃ callbacks first, s.scopedQueue scope transactionId = .ok (callbacks, first) ∧
      Batch s scope transactionId first batch.callbacks batch.continuations ∧
      batch.eventCount = UInt32.ofNat batch.callbacks.length ∧
      batch.continuationCount.toUInt64 = UInt64.ofNat batch.continuations.length ∧
      batch.newCallbackDepth = s.pendingCallbackCount + UInt32.ofNat batch.callbacks.length ∧
      batch.nextSequence = first + UInt64.ofNat batch.callbacks.length ∧
      batch.scope = scope ∧ batch.transactionId = transactionId := by
  have hcount : worldEvents.countP asksReaction ≤ worldEvents.length := List.countP_le_length
  have hcount' : (UInt32.ofNat (worldEvents.countP asksReaction)).toNat =
      worldEvents.countP asksReaction := toNat_ofNat32 (by omega)
  unfold ServiceState.prepareBatch at h
  simp only [bind, Except.bind] at h
  split at h
  · cases h
  rename_i queue hqueue
  obtain ⟨callbacks, first⟩ := queue
  split at h
  · cases h
  rename_i nextSequence hnext
  obtain ⟨hfirst, rfl⟩ := checkedAdd64_eq_ok.1 hnext
  rw [toUInt64_ofNat32 hlength, toNat_ofNat64 (by omega)] at hfirst
  dsimp only at hfirst
  split at h
  · cases h
  rename_i deadlineTicks hdeadline
  split at h
  · cases h
  rename_i newCount hroom
  split at h
  · cases h
  rename_i nextId hid
  obtain ⟨hid, -⟩ := checkedAdd64_eq_ok.1 hid
  rw [UInt32.toNat_toUInt64, hcount'] at hid
  split at h
  · cases h
  rename_i pair hevents
  obtain ⟨events, entries⟩ := pair
  cases h
  obtain ⟨hevents_length, hentries_length, hprepared⟩ :=
    prepareEvents_prepared worldEvents hevents hfirst hid
  have hdepth' := (prepareCallbackEnqueue_eq_ok.1 hdepth).2.2
  subst hdepth'
  refine ⟨callbacks, first, hqueue, ⟨hprepared, .inr ?_, ?_, ?_, ?_, ?_⟩, ?_, ?_, ?_, ?_, rfl, rfl⟩
  · rw [hentries_length, ← hcount']
    exact (requireContinuationRoom_eq_ok hroom)
  · dsimp only
    omega
  · rw [hevents_length]
    exact hdepth
  · dsimp only
    omega
  · dsimp only
    omega
  · rw [hevents_length]
  · rw [toUInt64_ofNat32 (by omega), hentries_length]
  · rw [hevents_length]
  · rw [toUInt64_ofNat32 hlength, hevents_length]

/-! ## Putting a batch on a queue -/

/-- The writes of a prepared batch are those of `Enqueues`, and counters. -/
theorem sameButCounters_commitBatch (s : ServiceState) {batch : PreparedCallbackBatch}
    (nowTicks : UInt64)
    (hcount : batch.continuationCount.toUInt64 = UInt64.ofNat batch.continuations.length) :
    SameButCounters
      (s.enqueued batch.scope batch.transactionId
        (batch.callbacks.map fun event => ⟨event, nowTicks⟩) batch.newCallbackDepth
        batch.nextSequence batch.continuations)
      (s.commitBatch batch nowTicks) := by
  have hdepth : ∀ {t t' : ServiceState} (depth highWater : UInt32), SameButCounters t t' →
      SameButCounters { t with pendingCallbackCount := depth }
        { t' with pendingCallbackCount := depth, callbackHighWater := highWater } := by
    intro t t' depth highWater h
    exact congrArg (fun u : ServiceState => { u with pendingCallbackCount := depth }) h
  have hfold : ∀ t : ServiceState, SameButCounters t
      (batch.callbacks.foldl (fun s callback => s.recordCallbackEnqueued callback.kind 1) t) :=    
    .foldl (fun _ _ => by rfl) batch.callbacks
  unfold ServiceState.commitBatch ServiceState.enqueued
  dsimp only
  refine SameButCounters.trans ?_ (hdepth _ _ (hfold _))
  rw [hcount]
  cases batch.scope with
  | general => rfl
  | reaction =>
    unfold ServiceState.modifyTransaction
    dsimp only
    split <;> rfl

/-- What an enqueue does: nothing but quiet changes, or one batch behind them. -/
def Pushes (s₀ : ServiceState) {α : Type} (m : ServiceM α) : Prop :=
  Triple (Quietly s₀) m
    (fun _ s => ∃ s₁ s₂, Quietly s₀ s₁ ∧ Enqueues s₁ s₂ ∧ Silently s₂ s) fun _ => Quietly s₀

theorem pushes_commitPreparedCallbackBatch {batch : PreparedCallbackBatch} {s : ServiceState}
    {callbacks : List QueuedCallback} {first : UInt64} (nowTicks : UInt64) (hs : Quietly s₀ s)
    (hqueue : s.scopedQueue batch.scope batch.transactionId = .ok (callbacks, first))
    (hbatch : Batch s batch.scope batch.transactionId first batch.callbacks batch.continuations)
    (hcount : batch.continuationCount.toUInt64 = UInt64.ofNat batch.continuations.length)
    (hdepth : batch.newCallbackDepth =
      s.pendingCallbackCount + UInt32.ofNat batch.callbacks.length)
    (hnext : batch.nextSequence = first + UInt64.ofNat batch.callbacks.length) :
    Triple (fun t => t = s) (commitPreparedCallbackBatch batch nowTicks)
      (fun _ t => ∃ s₁ s₂, Quietly s₀ s₁ ∧ Enqueues s₁ s₂ ∧ Silently s₂ t)
      fun _ => Quietly s₀ := by
  intro t ht
  rw [ht]
  have hworld : Keeps (Quietly s₀) (onWorld (DogmosWorld.discardPendingEvents batch.eventCount)) :=
    quietly_onWorld (.discardPendingEvents batch.eventCount) fun _ => rfl
  have hquiet := hworld s hs
  unfold commitPreparedCallbackBatch
  rw [run_bind]
  unfold onWorld at hquiet ⊢
  rw [run_embed] at hquiet ⊢
  dsimp only at hquiet ⊢
  generalize run (DogmosWorld.discardPendingEvents batch.eventCount) s.world = outcome at hquiet ⊢
  obtain ⟨error | value, world⟩ := outcome
  · exact hquiet
  · refine ⟨{ s with world }, _, hquiet, ?_,
      .single (.counters (sameButCounters_commitBatch { s with world } nowTicks hcount))⟩
    rw [hdepth, hnext]
    exact .mk nowTicks hqueue ⟨hbatch.prepared, hbatch.room, hbatch.nextId, hbatch.depth,
      hbatch.events_lt, hbatch.next_lt⟩

/-- The check for room leaves the state alone, and counts when there is none. -/
theorem triple_prepareOrReject {P : ServiceState → Prop} (count : UInt32)
    {reject : ServiceState → ServiceState} (hreject : ∀ s, SameButCounters s (reject s)) :
    Triple P (prepareOrReject count reject)
      (fun depth s => P s ∧ s.prepareCallbackEnqueue count = .ok depth)
      fun _ t => ∃ s, P s ∧ SameButCounters s t := by
  intro s hs
  unfold prepareOrReject
  rw [run_bind, run_check]
  dsimp only
  rcases hdepth : s.prepareCallbackEnqueue count with error | depth
  · cases error with
    | callbackBackpressure => exact ⟨s, hs, hreject s⟩
    | _ => exact ⟨s, hs, .refl s⟩
  · exact ⟨hs, hdepth⟩

/-- **The events of the world** become one batch of callbacks, or nothing is put on a queue. -/
theorem pushes_enqueueWorldEvents (maximum : UInt32) (nowTicks : UInt64)
    (scope : Wire.CallbackScope) (transactionId : UInt64) :
    Pushes s₀ (enqueueWorldEvents maximum nowTicks scope transactionId) := by
  unfold enqueueWorldEvents prepareCallbackBatch
  simp only [bind_assoc]
  refine triple_check_bind (fun events => ?_) fun _ _ hs _ => hs
  have hreject : ∀ s : ServiceState, SameButCounters s
      (s.recordBatchRejected (events.map worldEventKind)) := fun _ => rfl
  refine triple_bind (triple_mono (triple_prepareOrReject (UInt32.ofNat events.length) hreject)
    (fun _ hs => hs) (fun _ _ hs => hs) ?_) fun depth => ?_
  · rintro error t ⟨s, ⟨hs, -⟩, hcounters⟩
    exact hs.tail (.counters hcounters)
  refine triple_check_bind (fun batch => ?_) fun _ _ hs _ => hs.1.1
  rintro s ⟨⟨⟨hs, hevents⟩, hdepth⟩, hprepare⟩
  have hlength : events.length < 2 ^ 32 := by
    have hmaximum := UInt32.toNat_lt maximum
    have htake := List.length_take_le maximum.toNat s.world.events
    cases hevents
    unfold DogmosWorld.pendingEvents
    omega
  obtain ⟨callbacks, first, hqueue, hbatch, -, hcount, hnewDepth, hnext, rfl, rfl⟩ :=
    prepareBatch_eq_ok hlength hdepth hprepare
  exact pushes_commitPreparedCallbackBatch nowTicks hs hqueue hbatch hcount hnewDepth hnext
    s rfl

/-! ## Callbacks of the service itself -/

/-- The number of an event says nothing about whether it has a record. -/
theorem scoped_valid {callback : PendingCallbackEvent} {scope : Wire.CallbackScope}
    {transactionId sequence sequence' : UInt64}
    (h : (callback.scoped scope transactionId sequence).Valid) :
    (callback.scoped scope transactionId sequence').Valid :=
  ⟨h.transaction, h.flags, h.aux, h.continuation, h.token, h.values⟩

@[simp] theorem length_numbered (scope : Wire.CallbackScope) (transactionId sequence : UInt64)
    (callbacks : List PendingCallbackEvent) :
    (numbered scope transactionId sequence callbacks).length = callbacks.length := by
  induction callbacks generalizing sequence with
  | nil => rfl
  | cons callback rest ih => simp [numbered, ih]

/-- Callbacks without a token make a prepared batch. -/
theorem numbered_prepared {worldGeneration : UInt32} {scope : Wire.CallbackScope}
    {transactionId firstId : UInt64} {callbacks : List PendingCallbackEvent} :
    ∀ {first : UInt64}, first.toNat + callbacks.length < 2 ^ 64 →
      (∀ callback ∈ callbacks, callback.continuation = none ∧
        (callback.scoped scope transactionId first).Valid ∧
          OfWorld (callback.scoped scope transactionId first)) →
      Prepared worldGeneration scope transactionId first firstId
        (numbered scope transactionId first callbacks) [] := by
  induction callbacks with
  | nil =>
    intro first _ _
    exact .nil _ _ _ _ _
  | cons callback rest ih =>
    intro first hfirst hcallbacks
    rw [List.length_cons] at hfirst
    have hnext : (first + 1).toNat = first.toNat + 1 := toNat_add_one (by omega)
    obtain ⟨hnone, hvalid, hworld⟩ := hcallbacks callback List.mem_cons_self
    refine .cons_plain ⟨rfl, rfl⟩ rfl hvalid hworld hnone (by omega)
      (ih (by omega) fun callback' hmem => ?_)
    obtain ⟨hnone', hvalid', hworld'⟩ := hcallbacks callback' (List.mem_cons_of_mem _ hmem)
    exact ⟨hnone', scoped_valid hvalid', hworld'⟩

/-- The writes of an enqueue to the general queue are those of `Enqueues`, and counters. -/
theorem enqueues_enqueueGeneral {s : ServiceState} {callbacks : List PendingCallbackEvent}
    {count depth : UInt32} {nextSequence : UInt64} (nowTicks : UInt64)
    (hcount : count.toNat = callbacks.length)
    (hcallbacks : ∀ callback ∈ callbacks, callback.continuation = none ∧
      (callback.scoped .general 0 s.nextCallbackSequence).Valid ∧
        OfWorld (callback.scoped .general 0 s.nextCallbackSequence))
    (hdepth : s.prepareCallbackEnqueue count = .ok depth)
    (hnext : checkedAdd64 s.nextCallbackSequence count.toUInt64 .callbackSequenceExhausted =
      .ok nextSequence) :
    ∃ s₂, Enqueues s s₂ ∧
      SameButCounters s₂ (s.enqueueGeneral callbacks depth nextSequence nowTicks) := by
  have hlength : callbacks.length < 2 ^ 32 := by
    have := UInt32.toNat_lt count
    omega
  have hcount' : count = UInt32.ofNat callbacks.length := by
    rw [← hcount, UInt32.ofNat_toNat]
  obtain ⟨hfirst, rfl⟩ := checkedAdd64_eq_ok.1 hnext
  rw [UInt32.toNat_toUInt64, hcount] at hfirst
  have hdepth' := (prepareCallbackEnqueue_eq_ok.1 hdepth).2.2
  subst hcount' hdepth'
  have hqueue : s.scopedQueue .general 0 = .ok (s.generalCallbacks, s.nextCallbackSequence) := rfl
  refine ⟨_, .mk nowTicks hqueue
    ⟨numbered_prepared hfirst hcallbacks, .inl rfl, ?_, ?_, ?_, ?_⟩, ?_⟩
  · exact UInt64.toNat_lt _
  · rwa [length_numbered]
  · rwa [length_numbered]
  · rwa [length_numbered]
  · unfold ServiceState.enqueued ServiceState.enqueueGeneral
    simp [length_numbered, toUInt64_ofNat32 hlength, SameButCounters, ServiceState.withoutCounters,
      insertContinuations]

/-- The part that both ways to enqueue callbacks of the service share. -/
theorem pushes_general {P : ServiceState → Prop} {count : UInt32}
    {callbacks : List PendingCallbackEvent} (reject record : ServiceState → ServiceState)
    (nowTicks : UInt64) (hcount : count.toNat = callbacks.length)
    (hreject : ∀ s, SameButCounters s (reject s)) (hrecord : ∀ s, SameButCounters s (record s))
    (hP : ∀ s, P s → Quietly s₀ s ∧ ∀ callback ∈ callbacks, callback.continuation = none ∧
      (callback.scoped .general 0 s.nextCallbackSequence).Valid ∧
        OfWorld (callback.scoped .general 0 s.nextCallbackSequence)) :
    Triple P
      (do
        let depth ← prepareOrReject count reject
        let nextSequence ← Exec.check fun s =>
          checkedAdd64 s.nextCallbackSequence count.toUInt64 .callbackSequenceExhausted
        modify fun s => record (s.enqueueGeneral callbacks depth nextSequence nowTicks)
        return count)
      (fun _ s => ∃ s₁ s₂, Quietly s₀ s₁ ∧ Enqueues s₁ s₂ ∧ Silently s₂ s)
      fun _ => Quietly s₀ := by
  refine triple_bind (triple_mono (triple_prepareOrReject count hreject) (fun _ hs => hs)
    (fun _ _ hs => hs) ?_) fun depth => ?_
  · rintro error t ⟨s, hs, hcounters⟩
    exact (hP s hs).1.tail (.counters hcounters)
  refine triple_check_bind (fun nextSequence => ?_) fun s _ hs _ => (hP s hs.1).1
  rintro s ⟨⟨hs, hdepth⟩, hnext⟩
  obtain ⟨hquiet, hcallbacks⟩ := hP s hs
  obtain ⟨s₂, henqueues, hcounters⟩ :=
    enqueues_enqueueGeneral nowTicks hcount hcallbacks hdepth hnext
  exact ⟨s, s₂, hquiet, henqueues, .single (.counters (hcounters.trans (hrecord _)))⟩

theorem forM_requireEncodes_eq_ok {α : Type} {f : α → Wire.CallbackEvent} {l : List α} {u : Unit} :
    (l.forM fun a => requireEncodes (f a)) = .ok u → ∀ a ∈ l, (f a).Valid := by
  induction l with
  | nil => simp
  | cons a rest ih =>
    intro h
    replace h : (requireEncodes (f a) >>= fun _ => rest.forM fun a => requireEncodes (f a)) = .ok u := h
    rcases ha : requireEncodes (f a) with error | value
    · rw [ha] at h
      cases h
    · rw [ha] at h
      rintro b (_ | ⟨_, hb⟩)
      · exact requireEncodes_eq_ok.1 ha
      · exact ih h b hb

/-- **Callbacks without a token** go to the general queue as one batch, or not at all. -/
theorem pushes_enqueueCallbackBatch {callbacks : List PendingCallbackEvent} (nowTicks : UInt64)
    (hnone : ∀ callback ∈ callbacks, callback.continuation = none ∧
      ∀ sequence, OfWorld (callback.scoped .general 0 sequence)) :
    Pushes s₀ (enqueueCallbackBatch callbacks nowTicks) := by
  unfold enqueueCallbackBatch
  refine triple_check_bind (fun _ => ?_) fun _ _ hs _ => hs
  refine triple_check_bind (fun _ => ?_) fun _ _ hs _ => hs.1
  intro s hs
  obtain ⟨⟨hs, hlength⟩, hencodes⟩ := hs
  have hlength' : callbacks.length < 2 ^ 32 := by
    split at hlength
    · cases hlength
    · omega
  have hvalid := forM_requireEncodes_eq_ok hencodes
  have hreject : ∀ s : ServiceState, SameButCounters s
      (callbacks.foldl (fun s callback => s.recordCallbackRejected callback.kind 1) s) :=
    .foldl (fun _ _ => by rfl) callbacks
  have hrecord : ∀ s : ServiceState, SameButCounters s
      (callbacks.foldl (fun s callback => s.recordCallbackEnqueued callback.kind 1) s) :=
    .foldl (fun _ _ => by rfl) callbacks
  refine pushes_general (P := fun t => t = s) _ _ nowTicks (toNat_ofNat32 hlength') hreject hrecord
    ?_ s rfl
  rintro _ rfl
  refine ⟨hs, fun callback hmem => ?_⟩
  obtain ⟨hnone, hworld⟩ := hnone callback hmem
  exact ⟨hnone, hvalid callback hmem, hworld _⟩

theorem ofWorld_diagnosticCallback (sequence : UInt64) :
    OfWorld (diagnosticCallback.scoped .general 0 sequence) :=
  ofWorld_zeros

theorem pushes_enqueueDiagnosticCallbacks (count : UInt32) (nowTicks : UInt64) :
    Pushes s₀ (enqueueDiagnosticCallbacks count nowTicks) := by
  unfold enqueueDiagnosticCallbacks
  refine triple_ite (fun _ => pushes_enqueueCallbackBatch nowTicks ?_) fun _ => ?_
  · rintro callback (_ | ⟨_, hmem⟩)
    · exact ⟨rfl, ofWorld_diagnosticCallback⟩
    · cases hmem
  refine triple_check_bind (fun _ => ?_) fun _ _ hs _ => hs
  refine pushes_general (fun s => s.recordCallbackRejected .diagnostic count)
    (fun s => s.recordCallbackEnqueued .diagnostic count) nowTicks List.length_replicate.symm
    (fun _ => rfl) (fun _ => rfl) ?_
  rintro s ⟨hs, hencodes⟩
  refine ⟨hs, fun callback hmem => ?_⟩
  rw [List.eq_of_mem_replicate hmem]
  exact ⟨rfl, requireEncodes_eq_ok.1 hencodes, ofWorld_diagnosticCallback _⟩

/-! ## How methods end -/

/-- Behind quiet changes a method leaves an `Outcome`, whether it returns or fails. -/
def Ends (s₀ : ServiceState) {α : Type} (m : ServiceM α) : Prop :=
  ∀ s, Quietly s₀ s → Outcome s₀ (run m s).2

section Ends

variable {α β : Type}

theorem ends_of_keeps {m : ServiceM α} (h : Keeps (Quietly s₀) m) : Ends s₀ m :=
  fun s hs => .quiet (h s hs)

theorem ends_bind {m : ServiceM α} {f : α → ServiceM β} (hm : Keeps (Quietly s₀) m)
    (hf : ∀ a, Ends s₀ (f a)) : Ends s₀ (m >>= f) := by
  intro s hs
  have h := hm s hs
  rw [run_bind]
  rcases hr : run m s with ⟨error | a, t⟩
  · rw [hr] at h
    exact .quiet h
  · rw [hr] at h
    exact hf a t h

theorem ends_check_bind {f : ServiceState → Except StateError α} {g : α → ServiceM β}
    (h : ∀ a, Ends s₀ (g a)) : Ends s₀ (check f >>= g) := ends_bind (keeps_check f) h

/-- An enqueue and what comes after it. -/
theorem ends_push {m : ServiceM α} {f : α → ServiceM β} (hm : Pushes s₀ m)
    (hf : ∀ a s₂, Keeps (Silently s₂) (f a)) : Ends s₀ (m >>= f) := by
  intro s hs
  have h := hm s hs
  rw [run_bind]
  rcases hr : run m s with ⟨error | a, t⟩
  · rw [hr] at h
    exact .quiet h
  · rw [hr] at h
    obtain ⟨s₁, s₂, hquiet, henqueues, hafter⟩ := h
    exact .enqueued hquiet henqueues (hf a s₂ t hafter)

theorem ends_map {m : ServiceM α} (f : α → β) (hm : Ends s₀ m) : Ends s₀ (f <$> m) := by
  intro s hs
  rw [run_map]
  exact hm s hs

end Ends

/-! ## Reactions, commands and stages -/

/-- A transaction that was begun has an empty queue. -/
theorem run_beginReactionTransaction_eq_ok {s t : ServiceState} {transactionId : UInt64}
    (h : run beginReactionTransaction s = (.ok transactionId, t)) :
    t.reactionCallbacks[transactionId]? = some ⟨[], 1, false⟩ := by
  unfold beginReactionTransaction at h
  rw [run_bind_eq_ok] at h
  obtain ⟨id, u, -, h⟩ := h
  rw [run_bind, run_modify] at h
  obtain ⟨hid, rfl⟩ := Prod.mk.inj h
  cases hid
  exact Std.TreeMap.getElem?_insert_self

/-- The world says nothing about the queues. -/
theorem run_onWorld_state {α : Type} (m : WorldM F32 α) (s : ServiceState) :
    (run (onWorld m) s).2 = { s with world := (run m s.world).2 } := by
  unfold onWorld
  rw [run_embed]

theorem ends_react (handle target : WireHandle) (threshold : Option ScalarValue)
    (answers : Answers) : Ends s₀ (react handle target threshold answers) := by
  intro s hs
  have hbegin := quietly_beginReactionTransaction s hs
  unfold react
  rw [run_bind]
  rcases hrun : run beginReactionTransaction s with ⟨error | transactionId, t⟩
  · rw [hrun] at hbegin
    exact .quiet hbegin
  rw [hrun] at hbegin
  have hopened := run_beginReactionTransaction_eq_ok hrun
  dsimp only
  rw [run_bind, run_check]
  rcases ServiceState.eventLimit t with error | eventLimit
  · exact .quiet hbegin
  dsimp only
  rw [run_bind, run_check]
  dsimp only
  rcases t.reserveWorldEventEnqueueCapacity eventLimit .reaction transactionId with error | value
  · exact .quiet (hbegin.tail (.remove t transactionId))
  dsimp only
  rw [run_bind, run_attempt]
  dsimp only
  have hkeeps : Keeps (Quietly s₀) (onWorld (DogmosWorld.reactMixture (coreHandle handle)
      (coreGameplayHandle target) (threshold.map narrowed) eventLimit answers.clock)) :=
    quietly_onWorld_discard (.reactMixture _ _ _ _ _) rfl
  have hworld := hkeeps t hbegin
  have hstate := run_onWorld_state (DogmosWorld.reactMixture (coreHandle handle)
    (coreGameplayHandle target) (threshold.map narrowed) eventLimit answers.clock) t
  rcases hreact : run (onWorld (DogmosWorld.reactMixture (coreHandle handle)
    (coreGameplayHandle target) (threshold.map narrowed) eventLimit answers.clock)) t
    with ⟨error | progress, u⟩
  · rw [hreact] at hworld hstate
    dsimp only at hstate
    refine .quiet (hworld.tail (.drop u transactionId fun queue hqueue => ?_))
    rw [hstate, hopened] at hqueue
    cases hqueue
    rfl
  · rw [hreact] at hworld
    refine ends_push (pushes_enqueueWorldEvents _ _ _ _) (fun _ s₂ => ?_) u hworld
    exact keeps_bind (silently_finishReactionTransaction _ _) fun _ => keeps_pure _

theorem quietly_applyAdjustMultiple (handle : WireHandle)
    (adjustments : List Wire.MixtureAdjustment) (clock : Nat → F32) :
    Keeps (Quietly s₀) (applyAdjustMultiple handle adjustments clock) := by
  refine keeps_bind (quietly_onWorld_discard (.applyCommand _ _) rfl) fun result => ?_
  cases result with
  | applied updated => exact keeps_pure _
  | _ => exact keeps_throw _

theorem ends_applyMixtureCommand (request : MixtureCommandRequest) (answers : Answers) :
    Ends s₀ (applyMixtureCommand request answers) := by
  unfold applyMixtureCommand
  split
  · exact ends_react _ _ _ answers
  · refine ends_of_keeps ?_
    split
    · exact keeps_throw _
    · exact keeps_bind (quietly_onWorld_discard (.applyCommand _ _) rfl) fun _ => keeps_check _

theorem ends_resumeContinuation (token : Wire.ContinuationToken) (reactionResult : UInt32)
    (answers : Answers) : Ends s₀ (resumeContinuation token reactionResult answers) := by
  refine ends_bind (quietly_requireContinuation token _) fun continuation => ?_
  refine ends_check_bind fun eventLimit => ends_check_bind fun _ => ?_
  refine ends_bind (quietly_onWorld_discard (.resumeReaction _ _ _ _) rfl) fun progress => ?_
  refine ends_bind (keeps_modify fun s hs => ?_) fun _ => ?_
  · exact (hs.tail (quiet_forgetContinuation s token.id)).tail (.withdraw _ _)
  refine ends_push (pushes_enqueueWorldEvents _ _ _ _) fun _ s₂ => ?_
  refine keeps_ite (fun _ => ?_) fun _ => keeps_pure _
  exact keeps_bind (silently_finishReactionTransaction _ _) fun _ => keeps_pure _

theorem ends_cancelContinuation (token : Wire.ContinuationToken) (nowTicks : UInt64) :
    Ends s₀ (cancelContinuation token nowTicks) := by
  refine ends_of_keeps (keeps_bind (quietly_requireContinuation token _) fun continuation => ?_)
  refine keeps_bind (quietly_cancelReaction _) fun _ => keeps_modify fun s hs => ?_
  exact hs.trans (quietly_dropContinuation s _ _)

theorem ends_processStageChunk (request : Wire.SimulationStageRequest) (answers : Answers) :
    Ends s₀ (processStageChunk request answers) := by
  refine ends_check_bind fun eventLimit => ends_check_bind fun _ => ?_
  refine ends_bind (quietly_onWorld_discard (.processStageChunk _ _ _) rfl) fun result => ?_
  exact ends_push (pushes_enqueueWorldEvents _ _ _ _) fun _ s₂ => keeps_pure _

/-! ## Mutations -/

theorem quietly_applyLifecycle (mutations : List Wire.LifecycleMutation) :
    Keeps (Quietly s₀) (applyLifecycle mutations) := by
  refine keeps_bind (quietly_onWorld_discard (.applyLifecycle _) rfl) fun applied => ?_
  refine keeps_bind (keeps_modify fun s hs => ?_) fun _ => keeps_pure _
  exact (hs.tail (quiet_retainContinuations s _)).trans
    (quietly_removeOrphanedContinuationCallbacks _)

theorem quietly_applyTurfLifecycle (mutations : List Wire.TurfLifecycleMutation) :
    Keeps (Quietly s₀) (applyTurfLifecycle mutations) := by
  refine keeps_bind (quietly_onWorld_discard (.applyTurfLifecycle _) rfl) fun applied => ?_
  refine keeps_bind (keeps_modify fun s hs => ?_) fun _ => keeps_pure _
  exact (hs.tail (quiet_retainContinuations s _)).trans
    (quietly_removeOrphanedContinuationCallbacks _)

theorem quietly_applyTurfAdjacency (mutations : List Wire.TurfAdjacencyMutation) :
    Keeps (Quietly s₀) (applyTurfAdjacency mutations) := by
  refine keeps_check_bind fun _ => ?_
  refine keeps_bind (quietly_onWorld_discard (.applyTurfAdjacency _) rfl) fun _ => ?_
  exact keeps_bind (quietly_onWorld_discard (.applyTurfFirelocks _) rfl) fun _ => keeps_pure _

theorem quietly_applyMixtureState (mutations : List Wire.MixtureStateMutation) :
    Keeps (Quietly s₀) (applyMixtureState mutations) :=
  quietly_onWorld_discard (.applyMixtureState _) rfl

theorem quietly_reconcilePipenet (handles : List WireHandle) :
    Keeps (Quietly s₀) (reconcilePipenet handles) :=
  keeps_bind (quietly_onWorld_discard (.reconcilePipenet _) rfl) fun _ => keeps_check _

/-! ## Requests -/

/-- Whether a request is a drain. -/
def Request.isDrain : Request → Bool
  | .drainCallbacks .. => true
  | _ => false

/-- Whether a request is part of an upload. -/
def Request.isUpload : Request → Bool
  | .beginMixtureStateUpload .. | .appendMixtureStateUpload .. | .commitMixtureStateUpload _
  | .abortMixtureStateUpload _ => true
  | _ => false

/-- **A request that is no drain and no part of an upload** leaves an `Outcome`. -/
theorem ends_exec (answers : Answers) {request : Request} (hdrain : request.isDrain = false)
    (hupload : request.isUpload = false) : Ends s₀ (exec request answers) := by
  cases request with
  | recordProtocolError =>
    exact ends_of_keeps (keeps_bind (quietly_modify fun s => .counters rfl) fun _ => keeps_pure _)
  | recordRequestTimeout =>
    exact ends_of_keeps (keeps_bind (quietly_modify fun s => .counters rfl) fun _ => keeps_pure _)
  | beginFrontier epoch expectedCount =>
    exact ends_of_keeps (keeps_map _ (quietly_onWorld (.beginFrontier _ _ _) fun _ => rfl))
  | appendFrontier epoch offset handles =>
    exact ends_of_keeps (keeps_map _ (quietly_onWorld_discard (.appendFrontier _ _ _ _) rfl))
  | commitFrontier epoch =>
    exact ends_of_keeps (keeps_map _ (quietly_onWorld_discard (.commitFrontier _) rfl))
  | addFrontier epoch handles =>
    exact ends_of_keeps (keeps_map _ (quietly_onWorld_discard (.addFrontier _ _) rfl))
  | removeFrontier epoch handles =>
    exact ends_of_keeps (keeps_map _ (quietly_onWorld_discard (.removeFrontier _ _) rfl))
  | enqueueDiagnosticCallbacks count =>
    refine ends_map _ ?_
    rw [← bind_pure (enqueueDiagnosticCallbacks count answers.nowTicks)]
    exact ends_push (pushes_enqueueDiagnosticCallbacks _ _) fun _ _ => keeps_pure _
  | drainCallbacks => cases hdrain
  | installGases entries =>
    exact ends_of_keeps (keeps_map _ (quietly_onWorld_discard (.installGases _) rfl))
  | installReactions entries =>
    exact ends_of_keeps (keeps_map _ (quietly_onWorld_discard (.installReactions _) rfl))
  | applyLifecycle mutations => exact ends_of_keeps (keeps_map _ (quietly_applyLifecycle _))
  | applyAdjacency mutations =>
    exact ends_of_keeps (keeps_map _ (quietly_onWorld_discard (.applyAdjacency _) rfl))
  | applyTurfLifecycle mutations => exact ends_of_keeps (keeps_map _ (quietly_applyTurfLifecycle _))
  | applyTurfAdjacency mutations => exact ends_of_keeps (keeps_map _ (quietly_applyTurfAdjacency _))
  | applyTurfHeat mutations =>
    exact ends_of_keeps (keeps_map _ (quietly_onWorld_discard (.applyTurfHeat _) rfl))
  | applyTurfHeatAdjacency mutations =>
    exact ends_of_keeps (keeps_map _ (quietly_onWorld_discard (.applyTurfHeatAdjacency _) rfl))
  | applyMixtureState mutations => exact ends_of_keeps (keeps_map _ (quietly_applyMixtureState _))
  | beginMixtureStateUpload => cases hupload
  | appendMixtureStateUpload => cases hupload
  | commitMixtureStateUpload => cases hupload
  | abortMixtureStateUpload => cases hupload
  | reconcilePipenet handles => exact ends_of_keeps (keeps_map _ (quietly_reconcilePipenet _))
  | adjustMultiple handle adjustments =>
    exact ends_of_keeps (keeps_map _ (quietly_applyAdjustMultiple _ _ _))
  | mixtureCommand command => exact ends_map _ (ends_applyMixtureCommand command answers)
  | continuationCommand token command =>
    exact ends_map _ (ends_bind (quietly_requireContinuation token _) fun _ =>
      ends_applyMixtureCommand command answers)
  | continuationAdjustMultiple token handle adjustments =>
    exact ends_of_keeps (keeps_map _ (keeps_bind (quietly_requireContinuation token _) fun _ =>
      quietly_applyAdjustMultiple _ _ _))
  | resumeContinuation token reactionResult =>
    exact ends_map _ (ends_resumeContinuation token reactionResult answers)
  | cancelContinuation token => exact ends_map _ (ends_cancelContinuation token _)
  | processStageChunk request => exact ends_map _ (ends_processStageChunk request answers)

/-- The state with its upload replaced. -/
def ServiceState.withUpload (s : ServiceState) (pending : Option PendingMixtureStateUpload)
    (nextId : UInt64) : ServiceState :=
  { s with pendingMixtureStateUpload := pending, nextMixtureStateUploadId := nextId }

/-- Quiet changes, and another upload. -/
def Uploaded (s t : ServiceState) : Prop :=
  ∃ s₁ pending nextId, Quietly s s₁ ∧ t = s₁.withUpload pending nextId

theorem Uploaded.replace {s t : ServiceState} (h : Uploaded s t)
    (pending : Option PendingMixtureStateUpload) (nextId : UInt64) :
    Uploaded s (t.withUpload pending nextId) := by
  obtain ⟨s₁, pending', nextId', hquiet, rfl⟩ := h
  exact ⟨s₁, pending, nextId, hquiet, rfl⟩

theorem uploaded_applyMixtureState {s : ServiceState} (mutations : List Wire.MixtureStateMutation) :
    Keeps (Uploaded s) (applyMixtureState mutations) := by
  refine keeps_embed ?_
  rintro t ⟨s₁, pending, nextId, hquiet, rfl⟩
  have hworld := quietly_applyMixtureState mutations s₁ hquiet
  unfold applyMixtureState at hworld
  rw [run_onWorld_state] at hworld
  exact ⟨_, pending, nextId, hworld, rfl⟩

/-- **A part of an upload** replaces the upload, and may work on the world. -/
theorem uploaded_exec {s : ServiceState} (answers : Answers) {request : Request}
    (hupload : request.isUpload = true) : Keeps (Uploaded s) (exec request answers) := by
  cases request with
  | beginMixtureStateUpload expectedCount maximum =>
    refine keeps_map _ (keeps_check_bind fun uploadId => ?_)
    exact keeps_bind (keeps_modify fun t ht => ht.replace _ _) fun _ => keeps_pure _
  | appendMixtureStateUpload uploadId offset mutations =>
    have hwrite : ∀ pending : PendingMixtureStateUpload, Keeps (Uploaded s) (do
        if pending.expectedCount < pending.mutations.length + mutations.length then
          throw .mixtureStateUploadConflict
        modify fun s : ServiceState =>
          { s with
            pendingMixtureStateUpload :=
              some { pending with mutations := pending.mutations ++ mutations } }
        return UInt32.ofNat mutations.length : ServiceM UInt32) := by
      intro pending
      refine keeps_ite (fun _ => keeps_bind (keeps_throw _) fun _ => ?_) fun _ => ?_ <;>
        exact keeps_bind (keeps_modify fun t ht => ht.replace _ t.nextMixtureStateUploadId)
          fun _ => keeps_pure _
    refine keeps_map _ (keeps_check_bind fun pending => keeps_ite (fun _ => ?_) fun _ => ?_)
    · exact keeps_bind (keeps_throw _) fun _ => hwrite pending
    · exact hwrite pending
  | commitMixtureStateUpload uploadId =>
    have hwrite : ∀ pending : PendingMixtureStateUpload, Keeps (Uploaded s) (do
        modify fun s : ServiceState => { s with pendingMixtureStateUpload := none }
        applyMixtureState pending.mutations : ServiceM UInt32) := fun pending =>
      keeps_bind (keeps_modify fun t ht => ht.replace _ t.nextMixtureStateUploadId) fun _ =>
        uploaded_applyMixtureState _
    refine keeps_map _ (keeps_check_bind fun pending => keeps_ite (fun _ => ?_) fun _ => ?_)
    · exact keeps_bind (keeps_throw _) fun _ => hwrite pending
    · exact hwrite pending
  | abortMixtureStateUpload uploadId =>
    refine keeps_map _ (keeps_check_bind fun pending => keeps_modify fun t ht => ?_)
    exact ht.replace none t.nextMixtureStateUploadId
  | _ => cases hupload

end Service

end Dogmos
