import Dogmos.Runs.Tokens
import Dogmos.Runs.Rounds

/-!
# Sequences that wait and sequences that run

A reaction stage notes which mixtures wait when it starts, and does not run their
sequences.  So its sequences and those that wait stay apart (`Apart`) as long as
no direct request stops on a mixture the stage has still to run (`Op.Overtakes`),
and no mixture waits twice as long as, besides, none stops on a mixture that
waits (`Op.Doubles`): `sequences_stay_apart`.  Nothing in a direct request checks
for either: `overlapping_sequences`.
-/

namespace Dogmos

open Exec Chunk

variable {F D : Type}

namespace DogmosWorld

section Steps

variable [FloatFormat F] [FloatFormat D] [FloatCast F D] {w : DogmosWorld F}

/-! ## Reactions stay in order -/

/-- What a chunk of another stage leaves of reaction stages. -/
structure AfterOther (w w' : DogmosWorld F) : Prop where
  live : KeepsLive w w'
  same : SameContinuations w w'
  tidy : w'.Tidy
  none : w'.stageReactions = none

omit [FloatFormat D] [FloatCast F D] in
theorem afterOther_abortStage {w' : DogmosWorld F} (hlive : KeepsLive w w')
    (hsame : SameContinuations w w') (hstage : w'.Tidy) : AfterOther w w'.abortStage := by
  obtain ⟨hkept, hnone, -⟩ := hstage.abortStage
  exact ⟨hlive.trans ((KeepsLive.commitClosed w').abortStage (.refl w')),
    hsame.trans ((SameContinuations.commitClosed w').abortStage (.refl w')), hkept, hnone⟩

/-- A chunk that does not start aborts the stage that runs. -/
theorem final_processStageChunk_of_error {request : StageChunkRequest D} {error : WorldError}
    (h : run (openStage request) w = (.error error, w)) (eventLimit : UInt32)
    (shouldCancel : Nat → Bool) :
    (processStageChunk request eventLimit shouldCancel).final w = w.abortStage := by
  unfold processStageChunk processStageChunkInner final
  rw [run_bind, run_get]
  dsimp only
  rw [run_bind, run_onWorld, h]
  rfl

/-- **A chunk of another stage** leaves no reaction stage, and the continuations alone. -/
theorem afterOther_processStageChunk (htidy : w.Tidy) (htracked : w.Tracked)
    {request : StageChunkRequest D} (hstage : request.stage ≠ .react) (eventLimit : UInt32)
    (shouldCancel : Nat → Bool) :
    AfterOther w ((processStageChunk request eventLimit shouldCancel).final w) := by
  rcases hreactions : w.stageReactions with _ | state
  · have hclosed : OtherCommitClosed fun v : DogmosWorld F => KeepsLive w v ∧
        SameContinuations w v ∧ v.stageReactions = none ∧ v.cachedReactions = w.cachedReactions := by
      have hlive := (KeepsLive.commitClosed w).toOtherCommitClosed
      have hsame := (SameContinuations.commitClosed w).toOtherCommitClosed
      exact
        { scratch := fun v _ _ _ _ _ _ _ h => ⟨hlive.scratch v _ _ _ _ _ _ _ h.1,
            hsame.scratch v _ _ _ _ _ _ _ h.2.1, h.2.2⟩
          idle := fun v h => ⟨hlive.idle v h.1, hsame.idle v h.2.1, rfl, h.2.2.2⟩
          token := fun v h => ⟨hlive.token v h.1, hsame.token v h.2.1, h.2.2⟩
          publish := fun v id hid h => ⟨hlive.publish v id hid h.1, hsame.publish v id hid h.2.1, h.2.2⟩
          events := fun v events h => ⟨hlive.events v events h.1, hsame.events v events h.2.1, h.2.2⟩
          heatActive := fun v active h =>
            ⟨hlive.heatActive v active h.1, hsame.heatActive v active h.2.1, h.2.2⟩ }
    have hunit : ∀ v v', UnitStep v v' → (KeepsLive w v ∧ SameContinuations w v ∧
        v.stageReactions = none ∧ v.cachedReactions = w.cachedReactions) → (KeepsLive w v' ∧
          SameContinuations w v' ∧ v'.stageReactions = none ∧ v'.cachedReactions = w.cachedReactions) := by
      intro v v' hstep h
      refine ⟨h.1.trans (.unitStep hstep), h.2.1.trans (.unitStep hstep),
        reactions_none_of_unitStep hstep h.2.2.1, ?_⟩
      rw [← h.2.2.2]
      cases hstep with
      | stageMixture slot id candidate _ _ =>
        unfold DogmosWorld.stageMixture
        split <;> rfl
      | writePreparedTurf slot id f _ _ =>
        unfold writePreparedTurf stageTurf
        split
        · split <;> rfl
        · rfl
      | _ => rfl
    have htidy' : ∀ v : DogmosWorld F, v.stageReactions = none →
        v.cachedReactions = w.cachedReactions → v.Tidy := fun v hnone hcached =>
      ⟨hcached ▸ htidy.kept, fun state hstate => by rw [hnone] at hstate; cases hstate⟩
    have hchunk := hclosed.triple_processStageChunk hunit hstage eventLimit shouldCancel w
      ⟨.refl w, .refl w, hreactions, rfl⟩
    unfold final
    rcases hrun : run (processStageChunk request eventLimit shouldCancel) w with ⟨error | result, w'⟩
    · rw [hrun] at hchunk
      obtain ⟨v, ⟨hlive, hsame, hnone, hcached⟩, rfl⟩ := hchunk
      exact afterOther_abortStage hlive hsame (htidy' v hnone hcached)
    · rw [hrun] at hchunk
      obtain ⟨hlive, hsame, hnone, hcached⟩ := hchunk
      exact ⟨hlive, hsame, htidy' w' hnone hcached, hnone⟩
  · -- a reaction stage runs, so the request is rejected and the stage aborted
    obtain ⟨cursor, hcursor, hkind⟩ := htracked.kinded .reactions (by
      show (w.stageReactions.map StageReactionState.publication).isSome
      rw [hreactions]
      rfl)
    have hreact : cursor.stage = .react := by
      cases hcase : cursor.stage <;> rw [hcase] at hkind <;> first | rfl | cases hkind
    have herror : ∃ error, run (openStage request) w = (.error error, w) := by
      unfold openStage
      rw [run_bind, run_check]
      rcases w.validateChunkRequest request with error | _
      · exact ⟨error, rfl⟩
      · dsimp only
        rw [run_bind, run_get]
        dsimp only
        rw [hcursor]
        dsimp only
        have hmatches : cursorMatches cursor request = false := by
          unfold cursorMatches
          rw [hreact, decide_eq_false (Ne.symm hstage)]
          rfl
        rw [hmatches]
        exact ⟨_, rfl⟩
    obtain ⟨error, herror⟩ := herror
    rw [final_processStageChunk_of_error herror]
    exact afterOther_abortStage (.refl w) (.refl w) htidy

/-- What waits after an operation that is no chunk. -/
theorem waits_step {op : Op F D} (hop : ¬op.IsChunk) : Shrinks w (step w op) ∨
    ∃ mixture target threshold eventLimit clock,
      op = .reactMixture mixture target threshold eventLimit clock ∧
        w.SequencePauses mixture target threshold eventLimit clock ∧ w.HasRoom ∧
          Grows mixture w (step w op) := by
  by_cases hbatch : op.IsBatch
  · exact .inl (keeps_exec_of_isBatch (batchClosed_shrinks w).toRecordsClosed hbatch w (.refl w))
  · by_cases hrun : op.IsRun
    · cases hrun with
      | reactMixture mixture target threshold eventLimit clock =>
        have hfinal : step w (.reactMixture mixture target threshold eventLimit clock : Op F D) =
            (reactMixture mixture target threshold eventLimit clock).final w := by
          unfold step exec
          rw [final_discard]
        rw [hfinal]
        rcases reactMixture_waits w mixture target threshold eventLimit clock with
          hshrinks | ⟨hpauses, hroom, hgrows⟩
        · exact .inl hshrinks
        · exact .inr ⟨mixture, target, threshold, eventLimit, clock, rfl, hpauses, hroom, hgrows⟩
      | processStageChunk request eventLimit shouldCancel => exact absurd (.processStageChunk ..) hop
    · have hclosed := batchClosed_shrinks w
      exact .inl (keeps_exec_of_resumeClosed hclosed.toResumeClosed hbatch
        (keeps_exec_of_isFrontier hclosed.frontier) (fun h => absurd h hrun) w (.refl w))

theorem anchored_step (h : w.Anchored) {op : Op F D} (hop : ¬op.IsChunk) : (step w op).Anchored := by
  by_cases hbatch : op.IsBatch
  · refine keeps_exec_of_groundClosed turfBatchClosed_anchored.toGroundClosed hbatch ?_ w h
    rintro mutations rfl
    refine keeps_discard (keeps_check_bind fun _ => keeps_bind (keeps_modify fun v hv => ?_) fun _ =>
      keeps_pure _)
    exact hv.commitLifecycle mutations
  · have hclosed := KeepsLive.turfBatchClosed w
    have hlive : KeepsLive w (step w op) := by
      refine keeps_exec_of_resumeClosed hclosed.toResumeClosed hbatch
        (keeps_exec_of_isFrontier hclosed.frontier) (fun hrun => ?_) w (.refl w)
      cases hrun with
      | reactMixture mixture target threshold eventLimit clock =>
        refine keeps_discard (keeps_reactMixture hclosed.toSequenceClosed
          (keeps_allocateContinuation fun _ _ _ h => h.trans (.of_same rfl rfl)) _ _ _ _ _)
      | processStageChunk request eventLimit shouldCancel => exact absurd (.processStageChunk ..) hop
    rcases waits_step hop with hshrinks | ⟨mixture, _, _, _, _, _, hpauses, -, hgrows⟩
    · exact h.shrinks hshrinks hlive
    · obtain ⟨sequence, -, hsequence, -⟩ := hpauses
      exact h.grows hgrows hlive (hlive _ (live_of_evaluateReactionSequence hsequence))

/-- **Reactions stay in order** over every operation. -/
theorem ReactionsInOrder.step (h : w.ReactionsInOrder) (hagrees : w.Agrees) (htracked : w.Tracked)
    (op : Op F D) : (step w op).ReactionsInOrder := by
  by_cases hop : op.IsChunk
  · cases hop with
    | processStageChunk request eventLimit shouldCancel =>
      unfold DogmosWorld.step exec
      rw [final_discard]
      by_cases hstage : request.stage = .react
      · exact (h.reactChunk hagrees hstage eventLimit shouldCancel).order
      · have hother := afterOther_processStageChunk h.tidy htracked hstage eventLimit shouldCancel
        refine ⟨h.anchored.same hother.same hother.live, hother.tidy, fun state hstate => ?_⟩
        rw [hother.none] at hstate
        cases hstate
  · have hsame := sameStage_step (w := w) hop
    refine ⟨anchored_step h.anchored hop, h.tidy.same hsame.reactions hsame.cached, ?_⟩
    intro state hstate
    rw [hsame.reactions] at hstate
    obtain ⟨hactive, horder, hpending⟩ := h.running state hstate
    refine ⟨hsame.cursor ▸ hactive, horder.frame (stageFrame_step hactive hop).live, hpending⟩

omit [FloatFormat F] [FloatFormat D] [FloatCast F D] in
theorem reactionsInOrder_of_initial (h : Initial w) : w.ReactionsInOrder := by
  obtain ⟨_, _, _, _, _, rfl⟩ := h
  refine ⟨fun entry hentry => (by cases hentry), ⟨fun state hstate => ?_, fun state hstate => ?_⟩,
    fun state hstate => ?_⟩ <;> cases hstate

/-- **Reactions are in order** in every reachable world. -/
theorem reactionsInOrder_of_reachable (h : Reachable (D := D) w) : w.ReactionsInOrder := by
  have hall : w.ReactionsInOrder ∧ Wired w ∧ w.Tracked := by
    refine reachable_induct (I := fun w => w.ReactionsInOrder ∧ Wired w ∧ w.Tracked) ?_ ?_ h
    · exact fun w hinit => ⟨reactionsInOrder_of_initial hinit, wired_of_initial hinit,
        tracked_of_initial hinit⟩
    · exact fun w op hw => ⟨hw.1.step hw.2.1.agrees hw.2.2 op, wired_step hw.2.1 op,
        tracked_step hw.2.2 op⟩
  exact hall.1

/-! ## Sequences stay apart -/

/-- No sequence the running stage has still to run waits. -/
def Apart (w : DogmosWorld F) : Prop :=
  ∀ mixture ∈ w.remainingSequences, mixture ∉ w.continuationMixtures

/-- No mixture waits in two slots. -/
def WaitsOnce (w : DogmosWorld F) : Prop :=
  ∀ slot slot' mixture, w.Waits slot mixture → w.Waits slot' mixture → slot = slot'

/-- The operation is a direct request whose sequence stops and finds room for its continuation,
on a mixture of the list. -/
def StopsOn (w : DogmosWorld F) (mixtures : List MixtureHandle) : Op F D → Prop
  | .reactMixture mixture target threshold eventLimit clock =>
    w.SequencePauses mixture target threshold eventLimit clock ∧ w.HasRoom ∧ mixture ∈ mixtures
  | _ => False

/-- A direct request stops on a mixture whose sequence the running stage has still to run. -/
def Overtakes (w : DogmosWorld F) (op : Op F D) : Prop := w.StopsOn w.remainingSequences op

/-- A direct request stops on a mixture that waits. -/
def Doubles (w : DogmosWorld F) (op : Op F D) : Prop := w.StopsOn w.continuationMixtures op

omit [FloatFormat F] in
theorem Shrinks.continuationMixtures {w' : DogmosWorld F} (h : Shrinks w w')
    {mixture : MixtureHandle} (hmixture : mixture ∈ w'.continuationMixtures) :
    mixture ∈ w.continuationMixtures := by
  obtain ⟨slot, hslot⟩ := mem_continuationMixtures.1 hmixture
  exact mem_continuationMixtures.2 ⟨slot, h slot mixture hslot⟩

omit [FloatFormat F] in
theorem Grows.continuationMixtures {w' : DogmosWorld F} {mixture found : MixtureHandle}
    (h : Grows mixture w w') (hfound : found ∈ w'.continuationMixtures) :
    found ∈ w.continuationMixtures ∨ found = mixture := by
  obtain ⟨other, hother⟩ := mem_continuationMixtures.1 hfound
  obtain ⟨slot, hslot⟩ := h
  rcases hslot other found hother with ⟨hold, -⟩ | ⟨-, hsame⟩
  · exact .inl (mem_continuationMixtures.2 ⟨other, hold⟩)
  · exact .inr hsame

omit [FloatFormat F] in
theorem WaitsOnce.shrinks {w' : DogmosWorld F} (h : w.WaitsOnce) (hshrinks : Shrinks w w') :
    w'.WaitsOnce :=
  fun slot slot' mixture hslot hslot' =>
    h slot slot' mixture (hshrinks slot mixture hslot) (hshrinks slot' mixture hslot')

omit [FloatFormat F] in
/-- A mixture that did not wait can come to wait. -/
theorem WaitsOnce.grows {w' : DogmosWorld F} {mixture : MixtureHandle} (h : w.WaitsOnce)
    (hgrows : Grows mixture w w') (hmixture : mixture ∉ w.continuationMixtures) : w'.WaitsOnce := by
  obtain ⟨slot, hslot⟩ := hgrows
  have hnew : ∀ other, ¬w.Waits other mixture := fun other hother =>
    hmixture (mem_continuationMixtures.2 ⟨other, hother⟩)
  intro first second found hfirst hsecond
  rcases hslot first found hfirst with ⟨hold, -⟩ | ⟨rfl, rfl⟩
  · rcases hslot second found hsecond with ⟨hold', -⟩ | ⟨-, rfl⟩
    · exact h first second found hold hold'
    · exact absurd hold (hnew first)
  · rcases hslot second found hsecond with ⟨hold', -⟩ | ⟨rfl, -⟩
    · exact absurd hold' (hnew second)
    · rfl

omit [FloatFormat F] in
/-- The sequences a chunk finds to run do not wait. -/
theorem Apart.planned (h : w.Apart) {mixture : MixtureHandle}
    (hmixture : mixture ∈ w.plannedSequences) : mixture ∉ w.continuationMixtures := by
  unfold plannedSequences at hmixture
  split at hmixture
  · exact h mixture hmixture
  · have hwaits := (Worklist.mem_outstanding.1 hmixture).2
    simpa using hwaits

/-- What remains of the running stage after an operation that is no chunk. -/
theorem ReactionsInOrder.remaining_step (h : w.ReactionsInOrder) (hagrees : w.Agrees)
    {op : Op F D} (hop : ¬op.IsChunk) :
    (DogmosWorld.step w op).remainingSequences = w.remainingSequences := by
  have hsame := sameStage_step (w := w) hop
  rcases hreactions : w.stageReactions with _ | state
  · rw [remainingSequences_of_none hreactions,
      remainingSequences_of_none (hsame.reactions.trans hreactions)]
  · have hactive := (h.running state hreactions).1
    exact (stageFrame_step hactive hop).remaining hagrees hsame.reactions hsame.cursor

/-- **Sequences stay apart** over every operation that does not overtake the running stage. -/
theorem Apart.step (h : w.Apart) (horder : w.ReactionsInOrder) (hagrees : w.Agrees)
    (htracked : w.Tracked) {op : Op F D} (hovertakes : ¬w.Overtakes op) : (step w op).Apart := by
  have hnone : ∀ w' : DogmosWorld F, w'.stageReactions = none → w'.Apart := by
    intro w' hreactions mixture hmixture
    rw [remainingSequences_of_none hreactions] at hmixture
    cases hmixture
  by_cases hop : op.IsChunk
  · cases hop with
    | processStageChunk request eventLimit shouldCancel =>
      unfold DogmosWorld.step exec
      rw [final_discard]
      by_cases hstage : request.stage = .react
      · rcases (horder.reactChunk hagrees hstage eventLimit shouldCancel).waits with
          ⟨hshrinks, hplanned⟩ | ⟨hended, -⟩
        · intro mixture hmixture hwaits
          exact h.planned (hplanned mixture hmixture) (hshrinks.continuationMixtures hwaits)
        · exact hnone _ hended
      · exact hnone _ (afterOther_processStageChunk horder.tidy htracked hstage eventLimit
          shouldCancel).none
  · intro mixture hmixture hwaits
    rw [horder.remaining_step hagrees hop] at hmixture
    rcases waits_step (w := w) hop with hshrinks | ⟨found, _, _, _, _, rfl, hpauses, hroom, hgrows⟩
    · exact h mixture hmixture (hshrinks.continuationMixtures hwaits)
    · rcases hgrows.continuationMixtures hwaits with hold | rfl
      · exact h mixture hmixture hold
      · exact hovertakes ⟨hpauses, hroom, hmixture⟩

/-- **Mixtures wait once** over every operation that doubles none. -/
theorem WaitsOnce.step (h : w.WaitsOnce) (hapart : w.Apart) (horder : w.ReactionsInOrder)
    (hagrees : w.Agrees) (htracked : w.Tracked) {op : Op F D} (hdoubles : ¬w.Doubles op) :
    (step w op).WaitsOnce := by
  by_cases hop : op.IsChunk
  · cases hop with
    | processStageChunk request eventLimit shouldCancel =>
      unfold DogmosWorld.step exec
      rw [final_discard]
      by_cases hstage : request.stage = .react
      · rcases (horder.reactChunk hagrees hstage eventLimit shouldCancel).waits with
          ⟨hshrinks, -⟩ | ⟨-, mixture, hplanned, hgrows⟩
        · exact h.shrinks hshrinks
        · exact h.grows hgrows (hapart.planned hplanned)
      · exact h.shrinks (afterOther_processStageChunk horder.tidy htracked hstage eventLimit
          shouldCancel).same.shrinks
  · rcases waits_step (w := w) hop with hshrinks | ⟨found, _, _, _, _, rfl, hpauses, hroom, hgrows⟩
    · exact h.shrinks hshrinks
    · exact h.grows hgrows fun hwaits => hdoubles ⟨hpauses, hroom, hwaits⟩

omit [FloatFormat F] in
/-- Two tokens that are accepted for one mixture are the same when no mixture waits twice. -/
theorem WaitsOnce.token_eq (h : w.WaitsOnce) {token token' : ReactionContinuationToken}
    {continuation continuation' : ReactionContinuation F}
    (htoken : w.requireContinuation token = .ok continuation)
    (htoken' : w.requireContinuation token' = .ok continuation')
    (hmixture : continuation.mixture = continuation'.mixture) : token = token' := by
  have hslot : token.slot.toNat = token'.slot.toNat := by
    refine h _ _ continuation.mixture (waits_of_requireContinuation htoken) ?_
    rw [hmixture]
    exact waits_of_requireContinuation htoken'
  rw [requireContinuation_eq_ok] at htoken htoken'
  unfold SlotPool.Holds at htoken htoken'
  rw [hslot, htoken'] at htoken
  have hgeneration : token'.generation = token.generation :=
    UInt32.toNat_inj.1 (Prod.mk.inj (Option.some.inj htoken)).1
  cases token
  cases token'
  dsimp only at hslot hgeneration
  rw [UInt32.toNat_inj] at hslot
  rw [hslot, hgeneration]

/-- What holds in the runs in which no direct request overtakes a stage. -/
structure KeptApart (w : DogmosWorld F) : Prop where
  order : w.ReactionsInOrder
  wired : Wired w
  tracked : w.Tracked
  apart : w.Apart

theorem KeptApart.step (h : w.KeptApart) {op : Op F D} (hovertakes : ¬w.Overtakes op) :
    (step w op).KeptApart :=
  ⟨h.order.step h.wired.agrees h.tracked op, wired_step h.wired op, tracked_step h.tracked op,
    h.apart.step h.order h.wired.agrees h.tracked hovertakes⟩

omit [FloatFormat F] [FloatFormat D] [FloatCast F D] in
theorem keptApart_of_initial (h : Initial w) : w.KeptApart ∧ w.WaitsOnce := by
  refine ⟨⟨reactionsInOrder_of_initial h, wired_of_initial h, tracked_of_initial h, ?_⟩, ?_⟩ <;>
    obtain ⟨_, _, _, _, _, rfl⟩ := h
  · intro mixture hmixture
    cases hmixture
  · rintro slot _ mixture ⟨entry, _, hentry, -⟩
    cases hentry

theorem keptApart_of_reachable (h : ReachableWhere (D := D) (fun w op => ¬w.Overtakes op) w) :
    w.KeptApart :=
  reachableWhere_induct (fun _ hinit => (keptApart_of_initial hinit).1)
    (fun _ _ _ hovertakes hw => hw.step hovertakes) h

omit [FloatCast F D] in
/-- A chunk runs no sequence that waits when it is evaluated. -/
theorem KeptApart.evaluated (h : w.KeptApart) (request : StageChunkRequest D)
    (shouldCancel : Nat → Bool) {e : Evaluation F} (he : e ∈ evaluations request shouldCancel w) :
    e.mixture ∉ e.world.continuationMixtures := by
  have hstage : request.stage = .react := by
    unfold evaluations at he
    by_contra hother
    rw [if_neg hother] at he
    cases he
  obtain ⟨hran, -⟩ := h.order.reachCommit h.wired.agrees hstage shouldCancel
  obtain ⟨tail, htail⟩ := hran.planned
  have hplanned : e.mixture ∈ w.plannedSequences := by
    rw [htail]
    exact List.mem_append_left _ (List.mem_map_of_mem he)
  intro hwaits
  exact h.apart.planned hplanned ((hran.same e he).shrinks.continuationMixtures hwaits)

/-- **Sequences stay apart.**  In every run in which no direct request stops on a mixture whose
sequence the running stage has still to run, no stage runs the sequence of a mixture that waits;
and in every run in which, besides, none stops on a mixture that waits, no mixture has two
continuations. -/
theorem sequences_stay_apart :
    (∀ w : DogmosWorld F, ReachableWhere (D := D) (fun w op => ¬w.Overtakes op) w →
      ∀ (request : StageChunkRequest D) shouldCancel,
        ∀ e ∈ evaluations request shouldCancel w, e.mixture ∉ e.world.continuationMixtures) ∧
    ∀ w : DogmosWorld F, ReachableWhere (D := D) (fun w op => ¬w.Overtakes op ∧ ¬w.Doubles op) w →
      ∀ token token' continuation continuation', w.requireContinuation token = .ok continuation →
        w.requireContinuation token' = .ok continuation' →
          continuation.mixture = continuation'.mixture → token = token' := by
  refine ⟨fun w hw request shouldCancel e he => ?_, fun w hw => ?_⟩
  · exact (keptApart_of_reachable hw).evaluated request shouldCancel he
  · have honce : w.KeptApart ∧ w.WaitsOnce := by
      refine reachableWhere_induct (I := fun w => w.KeptApart ∧ w.WaitsOnce) ?_ ?_ hw
      · exact fun w hinit => keptApart_of_initial hinit
      · rintro w op - ⟨hovertakes, hdoubles⟩ ⟨hkept, honce⟩
        exact ⟨hkept.step hovertakes,
          honce.step hkept.apart hkept.order hkept.wired.agrees hkept.tracked hdoubles⟩
    intro token token' continuation continuation' htoken htoken' hmixture
    exact honce.2.token_eq htoken htoken' hmixture

end Steps

/-! ## Sequences that overlap -/

section Overlapping

/-- A world with one mixture on the frontier, whose sequence stops. -/
def frontierWorld : DogmosWorld F32 :=
  System.run (step (D := F64)) (newWithCapacities 0 0 100000 4 4)
    [.installGases [oxygen], .installReactions [dmOnly], .applyLifecycle [⟨.register, ⟨0, 1⟩⟩],
      .applyTurfLifecycle [.register ⟨0, 1⟩ (some ⟨0, 1⟩)], .beginFrontier 1 1 enoughMemory,
      .appendFrontier 1 0 [⟨0, 1⟩] enoughMemory, .commitFrontier 1]

/-- A chunk of a reaction stage over the frontier. -/
abbrev reactRequest (workLimit : UInt32) : StageChunkRequest F64 :=
  { stage := .react, frontierEpoch := 1, stageEpoch := 1, workLimit, secondsPerTick := 0.5 }

abbrev reactChunk (workLimit : UInt32) : Op F32 F64 :=
  .processStageChunk (reactRequest workLimit) 4 fun _ => false

/-- A stage that starts, and a direct request on the mixture that is its only target. -/
def overtakenWorld : DogmosWorld F32 :=
  System.run (step (D := F64)) frontierWorld
    [reactChunk 1, .reactMixture ⟨0, 1⟩ ⟨0, 1⟩ none 4 unprofiled]

/-- A world with two mixtures on the frontier, whose sequences stop. -/
def pairWorld : DogmosWorld F32 :=
  System.run (step (D := F64)) (newWithCapacities 0 0 100000 4 4)
    [.installGases [oxygen], .installReactions [dmOnly],
      .applyLifecycle [⟨.register, ⟨0, 1⟩⟩, ⟨.register, ⟨1, 1⟩⟩],
      .applyTurfLifecycle [.register ⟨0, 1⟩ (some ⟨0, 1⟩), .register ⟨1, 1⟩ (some ⟨1, 1⟩)],
      .beginFrontier 1 2 enoughMemory, .appendFrontier 1 0 [⟨0, 1⟩, ⟨1, 1⟩] enoughMemory,
      .commitFrontier 1]

/-- A direct request stops on the second mixture before the stage begins. -/
abbrev pausesFirst : Op F32 F64 := .reactMixture ⟨1, 1⟩ ⟨1, 1⟩ none 4 unprofiled

abbrev secondWaits : DogmosWorld F32 := step pairWorld pausesFirst

theorem not_stopsOn_nil (w : DogmosWorld F32) (op : Op F32 F64) : ¬w.StopsOn [] op := by
  intro hstops
  cases op with
  | reactMixture mixture target threshold limit clock => exact List.not_mem_nil hstops.2.2
  | _ => exact hstops

/-- The two worlds are reached under every condition that lets through what stops on nothing. -/
theorem reachableWhere_secondWaits {C : DogmosWorld F32 → Op F32 F64 → Prop}
    (hC : ∀ w op, (∀ mixture target threshold limit clock,
      op ≠ .reactMixture mixture target threshold limit clock) → C w op)
    (hpauses : C pairWorld pausesFirst) :
    ReachableWhere C secondWaits ∧ ReachableWhere C (step secondWaits (reactChunk 8)) := by
  have hstart : ReachableWhere C (newWithCapacities (F := F32) 0 0 100000 4 4) :=
    .start ⟨0, 0, 100000, 4, 4, rfl⟩
  have hinstalled := (hstart.next (.installGases [oxygen]) (hC _ _ (by simp))).next
    (.installReactions [dmOnly]) (hC _ _ (by simp))
  have hregistered := (hinstalled.next
    (.applyLifecycle [⟨.register, ⟨0, 1⟩⟩, ⟨.register, ⟨1, 1⟩⟩]) (hC _ _ (by simp))).next
      (.applyTurfLifecycle [.register ⟨0, 1⟩ (some ⟨0, 1⟩), .register ⟨1, 1⟩ (some ⟨1, 1⟩)])
        (hC _ _ (by simp))
  have hcommitted := ((hregistered.next (.beginFrontier 1 2 enoughMemory)
    (hC _ _ (by simp))).next (.appendFrontier 1 0 [⟨0, 1⟩, ⟨1, 1⟩] enoughMemory)
      (hC _ _ (by simp))).next (.commitFrontier 1) (hC _ _ (by simp))
  have hwaiting := hcommitted.next pausesFirst hpauses
  exact ⟨hwaiting, hwaiting.next (reactChunk 8) (hC _ _ (by simp))⟩

/-- The stage passes over the mixture that waits, and its own sequence stops on the other one. -/
theorem sequences_stay_apart_pair :
    (secondWaits.continuationMixtures = [⟨1, 1⟩] ∧
      (evaluations (reactRequest 8) (fun _ => false) secondWaits).map Evaluation.mixture =
        [⟨0, 1⟩] ∧
      ∀ e ∈ evaluations (reactRequest 8) (fun _ => false) secondWaits,
        e.mixture ∉ e.world.continuationMixtures) ∧
    (step secondWaits (reactChunk 8)).continuationMixtures = [⟨1, 1⟩, ⟨0, 1⟩] ∧
      ∀ token token' continuation continuation',
        (step secondWaits (reactChunk 8)).requireContinuation token = .ok continuation →
          (step secondWaits (reactChunk 8)).requireContinuation token' = .ok continuation' →
            continuation.mixture = continuation'.mixture → token = token' := by
  have hremaining : pairWorld.remainingSequences = [] := by decide +kernel
  have hnone : pairWorld.continuationMixtures = [] := by decide +kernel
  have hstops : ∀ (w : DogmosWorld F32) mixtures (op : Op F32 F64),
      (∀ mixture target threshold limit clock,
        op ≠ .reactMixture mixture target threshold limit clock) → ¬w.StopsOn mixtures op := by
    intro w mixtures op hop hstops
    cases op with
    | reactMixture mixture target threshold limit clock => exact hop _ _ _ _ _ rfl
    | _ => exact hstops
  have hovertakes : ¬pairWorld.Overtakes pausesFirst := by
    unfold Overtakes
    rw [hremaining]
    exact not_stopsOn_nil _ _
  have hdoubles : ¬pairWorld.Doubles pausesFirst := by
    unfold Doubles
    rw [hnone]
    exact not_stopsOn_nil _ _
  have hwaits : ReachableWhere (fun w op => ¬w.Overtakes op) secondWaits :=
    (reachableWhere_secondWaits (C := fun w op => ¬w.Overtakes op)
      (fun w op hop => hstops w _ op hop) hovertakes).1
  have hended : ReachableWhere (fun w op => ¬w.Overtakes op ∧ ¬w.Doubles op)
      (step secondWaits (reactChunk 8)) :=
    (reachableWhere_secondWaits (C := fun w op => ¬w.Overtakes op ∧ ¬w.Doubles op)
      (fun w op hop => ⟨hstops w _ op hop, hstops w _ op hop⟩) ⟨hovertakes, hdoubles⟩).2
  exact ⟨⟨by decide +kernel, by decide +kernel, sequences_stay_apart.1 _ hwaits _ _⟩,
    by decide +kernel, sequences_stay_apart.2 _ hended⟩

/-- **Sequences overlap**: the stage runs the sequence of a mixture that waits, and leaves it with
two continuations. -/
theorem overlapping_sequences :
    (∃ w : DogmosWorld F32, Reachable (D := F64) w ∧ ∃ (request : StageChunkRequest F64),
      ∃ shouldCancel, ∃ e ∈ evaluations request shouldCancel w,
        e.mixture ∈ e.world.continuationMixtures) ∧
    ∃ w : DogmosWorld F32, Reachable (D := F64) w ∧ ∃ token token' continuation continuation',
      w.requireContinuation token = .ok continuation ∧
        w.requireContinuation token' = .ok continuation' ∧
          continuation.mixture = continuation'.mixture ∧ token ≠ token' := by
  have hfrontier : Reachable (D := F64) frontierWorld :=
    System.reachable_run ⟨0, 0, 100000, 4, 4, rfl⟩ _
  have hovertaken : Reachable (D := F64) overtakenWorld := System.Reachable.run hfrontier _
  refine ⟨⟨overtakenWorld, hovertaken, reactRequest 1, fun _ => false, ?_⟩,
    step overtakenWorld (reactChunk 1), hovertaken.next (reactChunk 1) trivial,
      ⟨0, 1⟩, ⟨1, 1⟩, ?_⟩
  · have hwaits : (evaluations (reactRequest 1) (fun _ => false) overtakenWorld).map
        (fun e => decide (e.mixture ∈ e.world.continuationMixtures)) = [true] := by decide +kernel
    obtain ⟨e, he, hmixture⟩ := List.mem_map.1 (hwaits ▸ List.mem_singleton_self true)
    exact ⟨e, he, of_decide_eq_true hmixture⟩
  · have hboth : (([⟨0, 1⟩, ⟨1, 1⟩] : List ReactionContinuationToken).map fun token =>
        match (step overtakenWorld (reactChunk 1)).requireContinuation token with
        | .ok continuation => some continuation.mixture
        | .error _ => none) = [some ⟨0, 1⟩, some ⟨0, 1⟩] := by decide +kernel
    obtain ⟨hfirst, hsecond, -⟩ := List.cons.inj hboth |>.imp_right List.cons.inj
    dsimp only at hfirst hsecond
    rcases hok : (step overtakenWorld (reactChunk 1)).requireContinuation ⟨0, 1⟩ with
      error | continuation
    · rw [hok] at hfirst
      cases hfirst
    · rcases hok' : (step overtakenWorld (reactChunk 1)).requireContinuation ⟨1, 1⟩ with
        error | continuation'
      · rw [hok'] at hsecond
        cases hsecond
      · rw [hok] at hfirst
        rw [hok'] at hsecond
        refine ⟨continuation, continuation', rfl, rfl, ?_, by decide⟩
        exact (Option.some.inj hfirst).trans (Option.some.inj hsecond).symm

end Overlapping

end DogmosWorld

end Dogmos
