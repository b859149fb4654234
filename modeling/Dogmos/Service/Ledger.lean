import Dogmos.Service.Draining
import Dogmos.Wire.CallbackBatch

/-!
# The general queue over a run

Callbacks of the general queue are numbered when they are put on it and handed out by drains.
`issued` is the log of what a run puts on the queue and `delivered` the log of what the replies of
its drains hold, so that nothing is lost, repeated or reordered on the way is a statement about
what goes in and what comes out.

* `passes_step` — what one request does to the queue.
* `books_run` — the logs of a whole run.
* `delivered_in_order` — the general queue delivers.
* `reply_accepted_iff` — which replies the bridge accepts.
-/

namespace Dogmos

namespace Service

open Exec Delivery

/-- The callbacks that wait in the general queue. -/
def ServiceState.waiting (s : ServiceState) : List Wire.CallbackEvent :=
  s.generalCallbacks.map fun callback => callback.event

/-- A callback without a token is never withdrawn. -/
def lasting (event : Wire.CallbackEvent) : Bool := event.continuation.isNone

/-- What a change does to the general queue. -/
abbrev Passes (s : ServiceState) (delivered added : List Wire.CallbackEvent) (t : ServiceState) :
    Prop :=
  Passage lasting Wire.CallbackEvent.number s.waiting s.nextCallbackSequence.toNat delivered added
    t.waiting t.nextCallbackSequence.toNat

section Changes

variable {s t : ServiceState}

theorem general_of_lane {callbacks : List QueuedCallback} {next : UInt64}
    (h : s.lane 0 = some (callbacks, next)) :
    s.generalCallbacks = callbacks ∧ s.nextCallbackSequence = next := by
  rw [lane_zero] at h
  exact Prod.mk.inj (Option.some.inj h)

theorem general_congr (h : t.lane 0 = s.lane 0) :
    t.waiting = s.waiting ∧ t.nextCallbackSequence = s.nextCallbackSequence := by
  obtain ⟨hcallbacks, hnext⟩ := general_of_lane (h.trans (lane_zero s))
  exact ⟨congrArg (List.map _) hcallbacks, hnext⟩

theorem passes_of_lane (h : t.lane 0 = s.lane 0) : Passes s [] [] t := by
  obtain ⟨hwaiting, hnext⟩ := general_congr h
  unfold Passes
  rw [hwaiting, hnext]
  exact .refl _ _ _ _

/-- **A quiet change** withdraws callbacks with a token, at most. -/
theorem passes_quiet (h : Quiet s t) : Passes s [] [] t := by
  cases lane_quiet h 0 with
  | thinned keep _ heq =>
    rw [lane_zero s, Option.map_some] at heq
    obtain ⟨hcallbacks, hnext⟩ := general_of_lane heq
    refine ⟨⟨t.waiting, ?_, (List.append_nil _).symm⟩, rfl, congrArg UInt64.toNat hnext⟩
    have hthin : Thinned lasting s.waiting
        (s.waiting.filter fun event => event.continuation.all keep) := by
      refine .of_filter fun event _ hlasting => ?_
      unfold lasting at hlasting
      rw [Option.isNone_iff_eq_none] at hlasting
      rw [hlasting]
      rfl
    unfold ServiceState.waiting at hthin ⊢
    rw [List.filter_map] at hthin
    rw [hcallbacks]
    exact hthin
  | closed _ hkey _ => exact absurd rfl hkey
  | aside _ _ heq => exact passes_of_lane heq
  | opened _ _ hzero _ => exact absurd rfl hzero

theorem passes_quietly (h : Quietly s t) : Passes s [] [] t := by
  induction h with
  | refl => exact .refl _ _ _ _
  | tail _ h ih => exact ih.trans (passes_quiet h)

theorem lane_silently {key : UInt64} (h : Silently s t) : t.lane key = s.lane key := by
  induction h with
  | refl => rfl
  | tail _ h ih =>
    refine Eq.trans ?_ ih
    cases h with
    | counters h => exact lane_sameButCounters h
    | finish transactionId complete => exact lane_marked complete

/-- **A batch** goes to the end of the queue, numbered from the next number on. -/
theorem passes_enqueues (h : Enqueues s t) : ∃ added, Passes s [] added t := by
  cases h with
  | @mk scope transactionId first callbacks events entries nowTicks hqueue hbatch =>
    have hlane : (s.enqueued scope transactionId (events.map fun event => ⟨event, nowTicks⟩)
        (s.pendingCallbackCount + UInt32.ofNat events.length)
        (first + UInt64.ofNat events.length) entries).lane 0 = _ := lane_enqueued hqueue
    split at hlane
    · rename_i hkey
      subst hkey
      obtain ⟨hold, hfirst⟩ := general_of_lane (scopedQueue_eq_ok.1 hqueue).1
      obtain ⟨hcallbacks, hnext⟩ := general_of_lane hlane
      have hlt := hbatch.next_lt
      subst hold hfirst
      refine ⟨events, ⟨s.waiting, .refl _ _, ?_⟩, hbatch.prepared.numbers, ?_⟩
      · unfold ServiceState.waiting
        rw [hcallbacks, List.map_append, List.map_map]
        exact congrArg (_ ++ ·) (List.map_id _)
      · rw [hnext, UInt64.toNat_add, toNat_ofNat64 (by omega)]
        exact Nat.mod_eq_of_lt hlt
    · exact ⟨[], passes_of_lane hlane⟩

theorem passes_outcome (h : Outcome s t) : ∃ added, Passes s [] added t := by
  cases h with
  | quiet h => exact ⟨[], passes_quietly h⟩
  | enqueued h henqueues hafter =>
    obtain ⟨added, hadded⟩ := passes_enqueues henqueues
    obtain ⟨hwaiting, hnext⟩ := general_congr (lane_silently hafter)
    refine ⟨added, (passes_quietly h).trans ?_⟩
    rw [hwaiting, hnext]
    exact hadded

/-- **A drain** takes from the front, if it is one of the general queue. -/
theorem passes_pops {scope : Wire.CallbackScope} {transactionId : UInt64}
    {events : List Wire.CallbackEvent} (h : Pops scope transactionId s events t) :
    Passes s (if transactionId = 0 then events else []) [] t := by
  induction h with
  | nil s => rw [ite_self]; exact .refl _ _ _ _
  | @cons s t callback rest first events hqueue _ ih =>
    have hlane : (s.setCallbacks scope transactionId rest).lane 0 = _ := lane_setCallbacks hqueue
    by_cases hkey : transactionId = 0
    · subst hkey
      rw [if_pos rfl] at hlane ih ⊢
      obtain ⟨hold, hfirst⟩ := general_of_lane (scopedQueue_eq_ok.1 hqueue).1
      obtain ⟨hcallbacks, hnext⟩ := general_of_lane hlane
      have hstep : Passes s [callback.event] [] (s.setCallbacks scope 0 rest) := by
        refine ⟨⟨rest.map fun callback => callback.event, ?_, ?_⟩, rfl, ?_⟩
        · unfold ServiceState.waiting
          rw [hold]
          exact .refl _ _
        · unfold ServiceState.waiting
          rw [hcallbacks, List.append_nil]
        · rw [hnext, hfirst]
          rfl
      exact hstep.trans ih
    · rw [if_neg (Ne.symm hkey)] at hlane
      rw [if_neg hkey] at ih ⊢
      exact (passes_of_lane hlane).trans ih

end Changes

/-! ## Replies -/

/-- The records of a reply. -/
def recordsIn (payload : Bytes) : List Wire.CallbackEvent :=
  (Wire.asChunks Wire.callbackEventLen (payload.drop Wire.callbackBatchHeaderLen)).filterMap
    fun record => (Wire.CallbackEvent.decode record.toList).toOption

/-- The records of a reply are the events it was made of. -/
theorem recordsIn_encode (header : Wire.CallbackBatchHeader) {events : List Wire.CallbackEvent}
    {records : Bytes} (h : Bytes.encodeAll Wire.CallbackEvent.encode events = .ok records) :
    recordsIn (header.encode ++ records) = events := by
  have hheader : header.encode.length = Wire.callbackBatchHeaderLen := by
    rw [Wire.CallbackBatchHeader.encode_eq]
    simp [Wire.callbackBatchHeaderLen]
  unfold recordsIn
  rw [← hheader, List.drop_left]
  induction events generalizing records with
  | nil =>
    cases h
    rw [Wire.asChunks_nil]
    rfl
  | cons event rest ih =>
    rw [Bytes.encodeAll, Bytes.bind_eq_ok] at h
    obtain ⟨bs, hbs, h⟩ := h
    rw [Bytes.bind_eq_ok] at h
    obtain ⟨more, hmore, heq⟩ := h
    cases heq
    rw [Wire.asChunks_append (by decide) (Wire.length_of_encode hbs)]
    refine (List.filterMap_cons_some ?_).trans (congrArg (event :: ·) (ih hmore))
    exact congrArg Except.toOption (Wire.callbackEvent_codec.decode_encode hbs)

/-- Whether a request asks for callbacks of the general queue. -/
def Request.drainsGeneral : Request → Bool
  | .drainCallbacks _ transactionId _ _ => transactionId == 0
  | _ => false

/-- The callbacks of the general queue that the reply to a request holds. -/
def handed (s : ServiceState) (call : Request × Answers) : List Wire.CallbackEvent :=
  if call.1.drainsGeneral then
    match (run (exec call.1 call.2) s).1 with
    | .ok (.batch payload) => recordsIn payload
    | _ => []
  else []

theorem handed_of_not_drain {s : ServiceState} {call : Request × Answers}
    (h : call.1.isDrain = false) : handed s call = [] := by
  unfold handed
  refine if_neg ?_
  obtain ⟨request, answers⟩ := call
  cases request with
  | drainCallbacks => cases h
  | _ => exact Bool.false_ne_true

/-- **One request** adds to the end of the general queue, hands out from its front, and withdraws
callbacks with a token. -/
theorem passes_step {s : ServiceState} (hs : OrderlyLanes s) (call : Request × Answers) :
    ∃ added, Passes s (handed s call) added (step s call) := by
  rcases hdrain : call.1.isDrain with - | -
  · rw [handed_of_not_drain hdrain]
    obtain ⟨request, answers⟩ := call
    rcases hupload : request.isUpload with - | -
    · exact passes_outcome (ends_exec answers hdrain hupload s .refl)
    · obtain ⟨s₁, pending, nextId, hquiet, heq⟩ := uploaded_exec answers hupload s
        ⟨s, s.pendingMixtureStateUpload, s.nextMixtureStateUploadId, .refl, rfl⟩
      refine ⟨[], ?_⟩
      unfold Service.step final
      rw [heq]
      exact (passes_quietly hquiet).trans (passes_of_lane rfl)
  · obtain ⟨request, answers⟩ := call
    cases request with
    | drainCallbacks scope transactionId maxEvents outputLen =>
      have hexec := drain_exec hs scope transactionId maxEvents outputLen answers.nowTicks s rfl
      refine ⟨[], ?_⟩
      unfold handed Service.step final exec Request.drainsGeneral
      dsimp only
      rw [run_map]
      rcases hrun : run (drainCallbacks scope transactionId maxEvents outputLen answers.nowTicks) s
        with ⟨error | payload, t⟩
      · rw [hrun] at hexec
        simp only [Except.map, ite_self]
        exact passes_quietly hexec
      · rw [hrun] at hexec
        cases hexec with
        | @mk _ popped _ events _ header hquiet hpops hafter hencoded =>
          have hcount : Passes popped [] [] (popped.uncounted events.length) := passes_of_lane rfl
          have hall := ((passes_quietly hquiet).trans (passes_pops hpops)).trans
            (hcount.trans (passes_quietly hafter))
          simp only [List.nil_append, List.append_nil] at hall
          simp only [Except.map, recordsIn_encode header hencoded, beq_iff_eq]
          exact hall
    | _ => cases hdrain

/-! ## Runs -/

/-- What a change puts on the general queue: the callbacks with a number that was not given out
before. -/
def added (s t : ServiceState) : List Wire.CallbackEvent :=
  t.waiting.filter fun event => decide (s.nextCallbackSequence.toNat ≤ event.number)

/-- What a run puts on the general queue. -/
def issued (s : ServiceState) : List (Request × Answers) → List Wire.CallbackEvent
  | [] => []
  | call :: calls => added s (step s call) ++ issued (step s call) calls

/-- What the replies of a run hand out of the general queue. -/
def delivered (s : ServiceState) : List (Request × Answers) → List Wire.CallbackEvent
  | [] => []
  | call :: calls => handed s call ++ delivered (step s call) calls

/-- The ledger of the general queue. -/
abbrev Books (issued delivered : List Wire.CallbackEvent) (s : ServiceState) : Prop :=
  Delivery.Ledger lasting Wire.CallbackEvent.number issued delivered s.waiting s.nextCallbackSequence.toNat

theorem OrderlyLanes.waiting_below {s : ServiceState} (hs : OrderlyLanes s) :
    ∀ event ∈ s.waiting, event.number < s.nextCallbackSequence.toNat := by
  intro event hevent
  obtain ⟨callback, hcallback, rfl⟩ := List.mem_map.1 hevent
  exact (hs 0 _ _ (lane_zero s)).below callback hcallback

/-- **The books of a run**, from any books the run starts with. -/
theorem books_run (calls : List (Request × Answers)) : ∀ {s : ServiceState}
    {before given : List Wire.CallbackEvent}, Reachable s → Books before given s →
    Books (before ++ issued s calls) (given ++ delivered s calls) (System.run step s calls) := by
  induction calls with
  | nil =>
    intro s before given _ h
    rw [issued, delivered, List.append_nil, List.append_nil]
    exact h
  | cons call calls ih =>
    intro s before given hs h
    obtain ⟨new, hstep⟩ := passes_step hs.orderlyLanes call
    have hnew : added s (step s call) = new := hstep.new_eq hs.orderlyLanes.waiting_below
    rw [issued, delivered, System.run_cons, ← List.append_assoc, ← List.append_assoc, hnew]
    exact ih (.next call hs trivial) (h.passage hstep)

theorem books_initial {s : ServiceState} (h : Initial s) : Books [] [] s := by
  obtain ⟨mixtureSlotBytes, turfSlotBytes, maxWorldBytes, maxCallbackEvents, maxPending,
    maxTransactions, worldGeneration, rfl⟩ := h
  exact .start

/-- **The general queue delivers.**  Over every run the callbacks put on it are numbered from 1 on;
what was handed out and what waits are numbered upwards, so that nothing is repeated or out of
order; and a callback without a token was handed out or waits, so that nothing is lost. -/
theorem delivered_in_order {s : ServiceState} (h : Initial s) (calls : List (Request × Answers)) :
    (issued s calls).map Wire.CallbackEvent.number = List.range' 1 (issued s calls).length ∧
      (delivered s calls ++ (System.run step s calls).waiting).Sublist (issued s calls) ∧
      ((delivered s calls ++ (System.run step s calls).waiting).map
        Wire.CallbackEvent.number).Pairwise (· < ·) ∧
      ∀ event ∈ issued s calls, event.continuation = none →
        event ∈ delivered s calls ∨ event ∈ (System.run step s calls).waiting := by
  have hbooks := books_run calls (.start h) (books_initial h)
  rw [List.nil_append, List.nil_append] at hbooks
  refine ⟨hbooks.numbers, hbooks.thinned.sublist, hbooks.sorted, fun event hevent hnone => ?_⟩
  refine hbooks.complete hevent ?_
  unfold lasting
  rw [hnone]
  rfl

/-- Three callbacks go in, two come out, two more go in. -/
theorem delivered_in_order_small :
    ((delivered smallService
        [(.enqueueDiagnosticCallbacks 3, answersAt 5), (.drainCallbacks .general 0 2 300, answersAt 6),
          (.enqueueDiagnosticCallbacks 2, answersAt 7)] ++
      (System.run step smallService
        [(.enqueueDiagnosticCallbacks 3, answersAt 5), (.drainCallbacks .general 0 2 300, answersAt 6),
          (.enqueueDiagnosticCallbacks 2, answersAt 7)]).waiting).map
        Wire.CallbackEvent.number).Pairwise (· < ·) :=
  (delivered_in_order ⟨64, 64, 4096, 4, 2, 2, 1, rfl⟩
    [(.enqueueDiagnosticCallbacks 3, answersAt 5), (.drainCallbacks .general 0 2 300, answersAt 6),
      (.enqueueDiagnosticCallbacks 2, answersAt 7)]).2.2.1

/-! ## The bridge -/

/-- What is finite in the wide format was finite in the narrow one. -/
theorem isFinite_of_widen {number : F32} (h : FloatFormat.isFinite (widen number) = true) :
    FloatFormat.isFinite number = true := by
  have hconvert : (Ieee.convert .binary64 number.unpack).isFinite = true :=
    Float.Model.UnpackedFloat.isFinite_of_unpack_pack h
  show number.unpack.isFinite = true
  rcases hunpack : number.unpack with s | _ | s | ⟨s, m, e, hm⟩
  · rw [hunpack] at hconvert
    cases hconvert
  · rw [hunpack] at hconvert
    cases hconvert
  · rfl
  · rfl

theorem fits_of_valid {event : Wire.CallbackEvent} (hvalid : event.Valid) (hworld : OfWorld event) :
    event.Fits := by
  intro value hvalue
  obtain ⟨number, rfl⟩ := hworld value hvalue
  have hfinite : FloatFormat.isFinite number = true := isFinite_of_widen (hvalid.values _ hvalue)
  show FloatFormat.isFinite (narrow (widen number) : F32) = true
  rw [narrow_widen hfinite]
  exact hfinite

/-- What is taken off a lane in order is what the bridge asked for. -/
theorem popped_matches {s t : ServiceState} {scope : Wire.CallbackScope} {transactionId : UInt64}
    {events : List Wire.CallbackEvent} (h : Pops scope transactionId s events t)
    (hs : OrderlyLanes s) : ∀ event ∈ events,
      (event.scope = scope ∧ event.transactionId = transactionId) ∧ event.Fits := by
  induction h with
  | nil s => simp
  | @cons s t callback rest first events hqueue _ ih =>
    obtain ⟨hlane, hscope⟩ := scopedQueue_eq_ok.1 hqueue
    have horder := hs _ _ _ hlane
    have hvalid := horder.valid callback List.mem_cons_self
    have hid := horder.inLane callback List.mem_cons_self
    have hsame : callback.event.scope = scope := by
      have htransaction := hvalid.transaction
      rw [hid] at htransaction
      cases hkind : callback.event.scope <;> cases scope <;> simp_all
    rintro event (_ | ⟨_, hmem⟩)
    · exact ⟨⟨hsame, hid⟩, fits_of_valid hvalid (horder.ofWorld callback List.mem_cons_self)⟩
    · exact ih (OrderlyLanes.pops (.cons hqueue (.nil _)) hs) event hmem

/-- **The bridge and the service agree** on every drain of every reachable service: the reply is
what was asked for, and the bridge accepts it exactly when its callbacks are numbered without a
gap. -/
theorem reply_accepted_iff {s : ServiceState} (h : Reachable s) {scope : Wire.CallbackScope}
    {transactionId : UInt64} {maxEvents : UInt32} {outputLen : Nat} {answers : Answers}
    {payload : Bytes}
    (hreply : (run (exec (.drainCallbacks scope transactionId maxEvents outputLen) answers) s).1 =
      .ok (.batch payload)) :
    (∃ fields, Wire.decodeProductionCallbackBatch payload maxEvents scope transactionId =
      .ok fields) ↔
      ∃ first, Consecutive Wire.CallbackEvent.number first (recordsIn payload) := by
  have hexec := drain_exec h.orderlyLanes scope transactionId maxEvents outputLen answers.nowTicks s
    rfl
  unfold exec at hreply
  rw [run_map] at hreply
  rcases hrun : run (drainCallbacks scope transactionId maxEvents outputLen answers.nowTicks) s
    with ⟨error | bytes, t⟩
  · rw [hrun] at hreply
    cases hreply
  · rw [hrun] at hreply hexec
    cases hreply
    cases hexec with
    | @mk expired popped _ events records header hquiet hpops hafter hencoded hreturned hmax =>
      have hevents := popped_matches hpops (kept_orderlyLanes.quietly hquiet h.orderlyLanes)
      have hle : header.returned ≤ maxEvents := UInt32.le_iff_toNat_le.2 (hreturned ▸ hmax)
      rw [recordsIn_encode header hencoded]
      simp only [Wire.decodeProductionCallbackBatch_eq_ok hencoded hevents hreturned hle]
      constructor
      · rintro ⟨_, hfirst, -⟩
        exact hfirst
      · intro hfirst
        exact ⟨_, hfirst, rfl⟩

/-- The first two of three diagnostics reach the bridge. -/
theorem reply_accepted_iff_small : ∃ payload,
    (run (exec (.drainCallbacks .general 0 2 300) (answersAt 6))
      (System.run step smallService [(.enqueueDiagnosticCallbacks 3, answersAt 5)])).1 =
        .ok (.batch payload) ∧
    ((∃ fields, Wire.decodeProductionCallbackBatch payload 2 .general 0 = .ok fields) ↔
      ∃ first, Consecutive Wire.CallbackEvent.number first (recordsIn payload)) := by
  obtain ⟨payload, hpayload⟩ : ∃ payload,
      (run (exec (.drainCallbacks .general 0 2 300) (answersAt 6))
        (System.run step smallService [(.enqueueDiagnosticCallbacks 3, answersAt 5)])).1 =
          .ok (.batch payload) := ⟨_, rfl⟩
  exact ⟨payload, hpayload,
    reply_accepted_iff (reachable_small [(.enqueueDiagnosticCallbacks 3, answersAt 5)]) hpayload⟩

end Service

end Dogmos
