import Dogmos.Service.Lanes

/-!
# Draining

A drain first lets continuations expire, then takes callbacks off the front of one lane, and
fails, if at all, before it takes the first one: on a lane in order every callback has a record.

* `run_popCallbacks` — the loop takes what it is asked for.
* `drain_exec` — a drain that fails is quiet, and one that returns hands out the records of what
  it took.
* `Kept.reachable` — the rule for invariants of all runs.
-/

namespace Dogmos

namespace Service

open Exec Delivery

section Pops

variable {scope : Wire.CallbackScope} {transactionId : UInt64}

/-- The loop of a drain takes as many callbacks as it is asked for, and encodes them. -/
theorem run_popCallbacks (count : ℕ) : ∀ {s : ServiceState} {callbacks : List QueuedCallback}
    {first : UInt64}, s.scopedQueue scope transactionId = .ok (callbacks, first) →
    count ≤ callbacks.length → (∀ callback ∈ callbacks, callback.event.Valid) →
    ∃ payload t,
      run (popCallbacks scope transactionId count) s =
        (.ok ((callbacks.take count).map fun callback => callback.event, payload), t) ∧
      Pops scope transactionId s ((callbacks.take count).map fun callback => callback.event) t ∧
      Bytes.encodeAll Wire.CallbackEvent.encode
        ((callbacks.take count).map fun callback => callback.event) = .ok payload ∧
      t.scopedQueue scope transactionId = .ok (callbacks.drop count, first) := by
  induction count with
  | zero =>
    intro s callbacks first hqueue _ _
    exact ⟨[], s, rfl, .nil s, rfl, hqueue⟩
  | succ count ih =>
    intro s callbacks first hqueue hcount hvalid
    obtain - | ⟨callback, rest⟩ := callbacks
    · cases hcount
    obtain ⟨bytes, hbytes⟩ := Wire.CallbackEvent.encodable_iff.2
      (hvalid callback List.mem_cons_self)
    have hrest : (s.setCallbacks scope transactionId rest).scopedQueue scope transactionId =
        .ok (rest, first) := by
      rw [scopedQueue_eq_ok, lane_setCallbacks hqueue]
      exact ⟨if_pos rfl, (scopedQueue_eq_ok.1 hqueue).2⟩
    obtain ⟨payload, t, hrun, hpops, hencode, hleft⟩ := ih hrest (Nat.le_of_succ_le_succ hcount)
      fun callback' hmem => hvalid callback' (List.mem_cons_of_mem _ hmem)
    refine ⟨bytes ++ payload, t, ?_, .cons hqueue hpops, ?_, hleft⟩
    · rw [popCallbacks, run_bind, run_check, hqueue]
      dsimp only
      rw [run_bind, run_modify]
      dsimp only
      rw [run_bind, run_check, hbytes]
      dsimp only [Except.mapError]
      rw [run_bind, hrun]
      rfl
    · rw [List.take_succ_cons, List.map_cons, Bytes.encodeAll, hbytes]
      dsimp only [bind, Except.bind]
      rw [hencode]
      rfl

end Pops

/-- What a drain that returned did, and what it handed out. -/
inductive Drained (s : ServiceState) (scope : Wire.CallbackScope) (transactionId : UInt64)
    (maxEvents : UInt32) (outputLen : Nat) : Bytes → ServiceState → Prop
  | mk {expired popped t : ServiceState} {events : List Wire.CallbackEvent} {records : Bytes}
      (header : Wire.CallbackBatchHeader) (hquiet : Quietly s expired)
      (hpops : Pops scope transactionId expired events popped)
      (hafter : Quietly (popped.uncounted events.length) t)
      (hencoded : Bytes.encodeAll Wire.CallbackEvent.encode events = .ok records)
      (hreturned : header.returned.toNat = events.length)
      (hmax : events.length ≤ maxEvents.toNat)
      (hfits : Wire.callbackBatchHeaderLen + events.length * Wire.callbackEventLen ≤ outputLen) :
      Drained s scope transactionId maxEvents outputLen (header.encode ++ records) t

theorem quietly_finishDrain (s : ServiceState) {scope : Wire.CallbackScope} {transactionId : UInt64}
    (popped : List Wire.CallbackEvent) :
    Quietly (s.uncounted popped.length) (s.finishDrain scope transactionId popped) := by
  have hcounters : Quietly (s.uncounted popped.length)
      (ServiceState.recordDrained (s.uncounted popped.length)
        (popped.map fun event => event.kind)) := .single (.counters rfl)
  unfold ServiceState.finishDrain
  dsimp only
  cases scope with
  | general => exact hcounters
  | reaction =>
    dsimp only
    split
    · rename_i queue hqueue
      split
      · rename_i hdone
        refine hcounters.tail (.drop _ transactionId fun found hfound => ?_)
        have heq : queue = found := Option.some.inj (hqueue.symm.trans hfound)
        rw [Bool.and_eq_true, List.isEmpty_iff] at hdone
        exact heq ▸ hdone.2
      · exact hcounters
    · exact hcounters

/-- **A drain** that fails takes nothing; one that returns hands out what it took. -/
theorem drain_exec {s : ServiceState} (hs : OrderlyLanes s) (scope : Wire.CallbackScope)
    (transactionId : UInt64) (maxEvents : UInt32) (outputLen : Nat) (nowTicks : UInt64) :
    Triple (fun t => t = s) (drainCallbacks scope transactionId maxEvents outputLen nowTicks)
      (Drained s scope transactionId maxEvents outputLen) fun _ => Quietly s := by
  unfold drainCallbacks
  refine triple_bind (triple_mono (triple_of_keeps (quietly_expireContinuations nowTicks)
    fun _ _ h => h) (fun t ht => ht ▸ .refl) (fun _ _ h => h) fun _ _ h => h) fun _ => ?_
  refine triple_check_bind (fun _ => ?_) fun _ _ h _ => h
  refine triple_check_bind (fun queue => ?_) fun _ _ h _ => h.1
  obtain ⟨callbacks, first⟩ := queue
  rintro s₁ ⟨⟨hquiet, hroom⟩, hqueue⟩
  have horder := kept_orderlyLanes.quietly hquiet hs
  have hroom' : Wire.callbackBatchHeaderLen ≤ outputLen := by
    split at hroom
    · cases hroom
    · omega
  generalize hcount : min (min callbacks.length maxEvents.toNat)
    ((outputLen - Wire.callbackBatchHeaderLen) / Wire.callbackEventLen) = count
  have hlength : (callbacks.take count).length = count := by
    rw [List.length_take]
    omega
  obtain ⟨records, t, hrun, hpops, hencoded, hleft⟩ := run_popCallbacks count hqueue (by omega)
    (horder _ _ _ (scopedQueue_eq_ok.1 hqueue).1).valid
  generalize hevents : (callbacks.take count).map (fun callback => callback.event) = events
    at hrun hpops hencoded
  have hevents_length : events.length = count := by
    rw [← hevents, List.length_map, hlength]
  dsimp only
  rw [run_bind, hcount, hrun]
  dsimp only
  rw [run_bind, run_check, hleft]
  dsimp only
  rw [run_bind, run_modify]
  dsimp only
  rw [run_bind, run_get]
  dsimp only
  have hmax : events.length ≤ maxEvents.toNat := by omega
  refine .mk _ hquiet hpops (quietly_finishDrain t events) hencoded ?_ hmax ?_
  · have := UInt32.toNat_lt maxEvents
    rw [hevents_length]
    exact toNat_ofNat32 (by omega)
  · have hle : count ≤ (outputLen - Wire.callbackBatchHeaderLen) / Wire.callbackEventLen := by omega
    have hmul := (Nat.le_div_iff_mul_le (by decide)).1 hle
    rw [hevents_length]
    omega

/-! ## All runs -/

/-- **The rule for requests**: what every change keeps is kept by every request to a service whose
lanes are in order. -/
theorem Kept.step {I : ServiceState → Prop} (hI : Kept I) {s : ServiceState} (horder : OrderlyLanes s)
    (hs : I s) (call : Request × Answers) : I (step s call) := by
  obtain ⟨request, answers⟩ := call
  rcases hdrain : request.isDrain with - | -
  · rcases hupload : request.isUpload with - | -
    · exact hI.outcome (ends_exec answers hdrain hupload s .refl) hs
    · obtain ⟨s₁, pending, nextId, hquiet, heq⟩ := uploaded_exec answers hupload s
        ⟨s, s.pendingMixtureStateUpload, s.nextMixtureStateUploadId, .refl, rfl⟩
      unfold Service.step final
      rw [heq]
      exact hI.upload s₁ pending nextId (hI.quietly hquiet hs)
  · cases request with
    | drainCallbacks scope transactionId maxEvents outputLen =>
      have hexec := drain_exec horder scope transactionId maxEvents outputLen answers.nowTicks s rfl
      unfold Service.step final exec
      rw [run_map]
      rcases hrun : run (drainCallbacks scope transactionId maxEvents outputLen answers.nowTicks) s
        with ⟨error | payload, t⟩
      · rw [hrun] at hexec
        exact hI.quietly hexec hs
      · rw [hrun] at hexec
        cases hexec with
        | mk header hquiet hpops hafter =>
          exact hI.quietly hafter (hI.pops hpops (hI.quietly hquiet hs))
    | _ => cases hdrain

theorem Reachable.orderlyLanes {s : ServiceState} (h : Reachable s) : OrderlyLanes s :=
  System.Reachable.induct (I := OrderlyLanes) (fun _ => orderlyLanes_initial)
    (fun _ call hs => kept_orderlyLanes.step hs hs call) h

/-- What holds of a new service and is kept by every change holds in every reachable state. -/
theorem Kept.reachable {I : ServiceState → Prop} (hI : Kept I) (hinit : ∀ s, Initial s → I s)
    {s : ServiceState} (h : Reachable s) : I s :=
  System.ReachableWhere.induct (I := I) hinit
    (fun _ call hr _ hs => hI.step (Reachable.orderlyLanes hr) hs call) h

/-- A service with little room, whose runs the theorems are applied to. -/
def smallService : ServiceState := .newForWorld 64 64 4096 4 2 2 1

/-- Answers at a time, with a clock that stands still, nothing to cancel and memory enough. -/
def answersAt (nowTicks : UInt64) : Answers :=
  ⟨nowTicks, nowTicks, fun _ => 0.0, fun _ => false, fun _ => true⟩

theorem reachable_small (calls : List (Request × Answers)) :
    Reachable (System.run step smallService calls) :=
  System.reachable_run ⟨64, 64, 4096, 4, 2, 2, 1, rfl⟩ calls

end Service

end Dogmos
