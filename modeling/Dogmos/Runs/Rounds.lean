import Dogmos.Runs.Targets
import Dogmos.Runs.Waiting

/-!
# Rounds of a reaction stage

Between its chunks a reaction stage is in order (`ReactionsInOrder`): its scratch
remembers only live mixtures, no sequence is pending, and scratch that is kept for
later remembers nothing.  Operations that are no chunks leave the stage and the
sequences that remain alone (`remainingSequences_step`), and a chunk runs the next
of them (`triple_reachCommit`).
-/

namespace Dogmos

open Exec Chunk Worklist

variable {F D : Type}

namespace DogmosWorld

/-! ## Operations that are no chunks -/

section Steps

variable {w : DogmosWorld F}

/-- The scratch of reaction stages and the cursor are the same. -/
structure SameStage (w w' : DogmosWorld F) : Prop where
  cursor : w'.stageCursor = w.stageCursor
  reactions : w'.stageReactions = w.stageReactions
  cached : w'.cachedReactions = w.cachedReactions

theorem SameStage.trans {w' w'' : DogmosWorld F} (h : SameStage w w') (h' : SameStage w' w'') :
    SameStage w w'' :=
  ⟨h'.cursor.trans h.cursor, h'.reactions.trans h.reactions, h'.cached.trans h.cached⟩

theorem StageFrame.reactionClosed [FloatFormat F] (w : DogmosWorld F) :
    ReactionClosed (StageFrame w) where
  writeMixture v slot f _ h := by
    refine h.trans ⟨keepsShapes_writeMixture v slot f, .writeMixture v slot f, ?_⟩
    unfold writeMixture
    split <;> rfl
  edges _ _ _ h := h.trans ⟨.of_turfs rfl rfl, .of_same rfl rfl, rfl⟩
  registries _ _ _ h := h.trans ⟨.of_turfs rfl rfl, .of_same rfl rfl, rfl⟩
  configuration _ _ _ h := h.trans ⟨.of_turfs rfl rfl, .of_same rfl rfl, rfl⟩
  events _ _ h := h.trans ⟨.of_turfs rfl rfl, .of_same rfl rfl, rfl⟩
  settle _ _ := ContinuationClosed.settle fun _ _ _ h =>
    h.trans ⟨.of_turfs rfl rfl, .of_same rfl rfl, rfl⟩
  allocate := keeps_allocateContinuation fun _ _ _ h =>
    h.trans ⟨.of_turfs rfl rfl, .of_same rfl rfl, rfl⟩

variable [FloatFormat F] [FloatFormat D] [FloatCast F D]

theorem sameStage_step {op : Op F D} (hop : ¬op.IsChunk) : SameStage w (step w op) := by
  have hscratch := scratch_step (w := w) hop
  exact ⟨congrArg StageScratch.cursor hscratch, congrArg StageScratch.reactions hscratch,
    congrArg StageScratch.keptReactions hscratch⟩

/-- While a stage runs, the operations that write the frontier leave the committed one alone. -/
theorem stageFrame_of_isFrontier (hactive : w.stageCursor.isSome) {op : Op F D}
    (hop : op.IsFrontier) : StageFrame w (step w op) := by
  unfold step
  cases hop with
  | beginFrontier epoch expected reserve =>
    show StageFrame w ((DogmosWorld.beginFrontier epoch expected reserve).final w)
    rw [DogmosWorld.beginFrontier, final_rejected hactive]
    exact .refl w
  | appendFrontier epoch offset handles reserve =>
    unfold exec
    rw [final_discard]
    unfold DogmosWorld.appendFrontier onFrontier final
    rw [run_embed]
    refine ⟨.of_turfs rfl rfl, .of_same rfl rfl, ?_⟩
    rcases happend : run (FrontierState.append epoch offset handles reserve) w.frontier with
      ⟨error | count, frontier⟩
    · exact congrArg FrontierState.committed (FrontierState.append_error happend)
    · exact FrontierState.committed_append happend
  | commitFrontier epoch =>
    unfold exec
    rw [final_discard, DogmosWorld.commitFrontier, final_rejected hactive]
    exact .refl w
  | addFrontier epoch handles =>
    unfold exec
    rw [final_discard, DogmosWorld.addFrontier, final_rejected hactive]
    exact .refl w
  | removeFrontier epoch handles =>
    unfold exec
    rw [final_discard, DogmosWorld.removeFrontier, final_rejected hactive]
    exact .refl w

/-- While a stage runs, batches leave turfs and live handles alone. -/
theorem stageFrame_of_isBatch (hactive : w.stageCursor.isSome) {op : Op F D} (hop : op.IsBatch) :
    StageFrame w (step w op) := by
  unfold step
  cases hop with
  | applyLifecycle mutations =>
    unfold exec
    rw [final_discard]
    unfold DogmosWorld.applyLifecycle final
    rw [run_bind, run_check]
    rcases hprojected : mutations.foldlM w.projectMutation ∅ with error | projected
    · exact .refl w
    · have hregister := register_of_projectMutation hactive mutations (fun mixture hlive => by
        rw [Std.TreeMap.getElem?_emptyc, Option.getD_none]
        exact projectedSlot_of_live hlive) hprojected
      obtain ⟨hlive, hground⟩ := keepsLive_commitLifecycle mutations hregister
      exact ⟨.of_turfs hground.turfs hground.topology, hlive,
        congrArg FrontierState.committed hground.frontier⟩
  | applyTurfLifecycle mutations =>
    unfold exec
    rw [final_discard, DogmosWorld.applyTurfLifecycle, final_rejected hactive]
    exact .refl w
  | applyTurfHeat mutations =>
    unfold exec
    rw [final_discard, DogmosWorld.applyTurfHeat, final_rejected hactive]
    exact .refl w
  | applyTurfHeatAdjacency mutations =>
    unfold exec
    rw [final_discard, DogmosWorld.applyTurfHeatAdjacency, final_rejected hactive]
    exact .refl w
  | applyTurfAdjacency mutations =>
    unfold exec
    rw [final_discard, DogmosWorld.applyTurfAdjacency, final_rejected hactive]
    exact .refl w
  | applyTurfFirelocks mutations =>
    unfold exec
    rw [final_discard, DogmosWorld.applyTurfFirelocks, final_rejected hactive]
    exact .refl w

/-- **While a stage runs**, operations that are no chunks leave alone what its targets depend on. -/
theorem stageFrame_step (hactive : w.stageCursor.isSome) {op : Op F D} (hop : ¬op.IsChunk) :
    StageFrame w (step w op) := by
  by_cases hbatch : op.IsBatch
  · exact stageFrame_of_isBatch hactive hbatch
  · by_cases hfrontier : op.IsFrontier
    · exact stageFrame_of_isFrontier hactive hfrontier
    · refine keeps_exec_of_resumeClosed (StageFrame.reactionClosed w).toResumeClosed hbatch
        (fun h => absurd h hfrontier) (fun hrun => ?_) w (.refl w)
      cases hrun with
      | reactMixture mixture target threshold eventLimit clock =>
        exact keeps_discard (keeps_reactMixture (StageFrame.reactionClosed w).toSequenceClosed
          (StageFrame.reactionClosed w).allocate _ _ _ _ _)
      | processStageChunk request eventLimit shouldCancel => exact absurd (.processStageChunk ..) hop

end Steps

/-! ## Scratch that is kept -/

/-- Kept scratch remembers nothing, and the indexes of running scratch are in order. -/
structure Tidy (w : DogmosWorld F) : Prop where
  kept : ∀ state, w.cachedReactions = some state → state.Blank
  fresh : ∀ state, w.stageReactions = some state → state.Fresh

section Tidy

variable {w w' : DogmosWorld F}

theorem Tidy.same (h : w.Tidy) (hreactions : w'.stageReactions = w.stageReactions)
    (hcached : w'.cachedReactions = w.cachedReactions) : w'.Tidy :=
  ⟨hcached ▸ h.kept, hreactions ▸ h.fresh⟩

theorem Tidy.running (h : w.Tidy) {state : StageReactionState F} (hstate : state.Fresh) :
    Tidy { w with stageReactions := some state } := by
  refine ⟨h.kept, fun found hfound => ?_⟩
  cases hfound
  exact hstate

theorem gives_reactionState_fresh :
    Gives Tidy (reactionState (F := F)) StageReactionState.Fresh := by
  intro w hw
  unfold reactionState
  rw [run_check]
  refine ⟨hw, fun state hstate => ?_⟩
  rcases hreactions : w.stageReactions with _ | found
  · rw [hreactions] at hstate
    cases hstate
  · rw [hreactions] at hstate
    cases hstate
    exact hw.fresh state hreactions

theorem blank_of_kept (h : w.Tidy) (publication : PublicationId) :
    (w.cachedReactions.getD (.new publication)).Blank := by
  rcases hcached : w.cachedReactions with _ | state
  · exact StageReactionState.blank_new publication
  · exact h.kept state hcached

/-- The indexes of a stage that starts are in order. -/
theorem fresh_startingReactions (h : w.Tidy) : w.startingReactions.Fresh := by
  have hblank := blank_of_kept h w.publications.fresh
  have hfold : ∀ (keys : List MixtureHandle) (set : SlotSet MixtureHandle), SlotIndex.Fresh set →
      SlotIndex.Fresh (keys.foldl (fun set key => SlotIndex.insert set key ()) set) := by
    intro keys
    induction keys with
    | nil => exact fun _ hset => hset
    | cons key rest ih => exact fun set hset => ih _ (SlotIndex.fresh_insert hset key ())
  exact ⟨hblank.seenFresh, hfold _ _ hblank.activeFresh⟩

variable [FloatFormat F]

omit [FloatFormat F] in
theorem keeps_tidy_prepareTurf (turf : TurfHandle) :
    Keeps Tidy (prepareStageReactionTurf (F := F) turf) := by
  unfold prepareStageReactionTurf
  refine keeps_get_bind fun w => ?_
  split
  · exact keeps_pure _
  · refine gives_reactionState_fresh.bind fun state hstate => keeps_modify fun v hv => ?_
    exact hv.running hstate

theorem keeps_tidy_prepareNext : Keeps Tidy (prepareNext (F := F) .react) := by
  have hadvance : Keeps Tidy (advanceCursor (F := F)) := keeps_modify fun w hw => hw.same rfl rfl
  unfold prepareNext
  refine keeps_get_bind fun w => ?_
  split
  · exact keeps_bind (keeps_tidy_prepareTurf _) fun _ => hadvance
  · exact hadvance

theorem keeps_tidy_computeNextTarget : Keeps Tidy (computeNextTarget (F := F)) := by
  have htarget : ∀ index, Keeps Tidy (computeStageReactionTarget (F := F) index) := by
    intro index
    unfold computeStageReactionTarget
    refine gives_reactionState_fresh.bind fun state hstate => ?_
    split
    · exact keeps_pure _
    · next turf mixture _ =>
      have hseen : StageReactionState.Fresh { state with
          seenMixtures := (SlotSet.insertNew state.seenMixtures mixture).2 } :=
        ⟨SlotIndex.fresh_insert hstate.1 mixture (), hstate.2⟩
      refine keeps_bind (keeps_modify fun w hw => hw.running hseen) fun _ => ?_
      refine keeps_ite (fun _ => keeps_pure _) fun _ => ?_
      refine keeps_check_bind fun sequence => ?_
      refine keeps_bind (keeps_modify fun w hw => hw.running hseen) fun _ => ?_
      refine keeps_ite (fun _ => keeps_modify fun w hw => ?_) fun _ => keeps_pure _
      refine hw.same ?_ ?_
      · unfold stageMixture
        split <;> rfl
      · unfold stageMixture
        split <;> rfl
  unfold computeNextTarget
  refine gives_reactionState_fresh.bind fun state _ => keeps_bind (htarget _) fun _ => ?_
  exact gives_reactionState_fresh.bind fun state hstate =>
    keeps_modify fun w hw => hw.running hstate

variable [FloatFormat D]

theorem keeps_tidy_openStage {request : StageChunkRequest D} (hstage : request.stage = .react) :
    Keeps Tidy (openStage (F := F) request) := by
  refine keeps_openStage_of_start ?_
  have hset : Keeps Tidy (setCursor (F := F) request) := by
    refine keeps_modify fun w hw => ⟨hw.kept, fun state hstate => ?_⟩
    cases hstate
  unfold startStage
  rw [hstage]
  refine keeps_check_bind fun _ => keeps_bind hset fun _ w hw => ?_
  rw [run_startReactions]
  refine ⟨fun state hstate => (by cases hstate), fun state hstate => ?_⟩
  cases hstate
  exact fresh_startingReactions hw

theorem keeps_tidy_reachCommit {request : StageChunkRequest D} (hstage : request.stage = .react)
    (shouldCancel : Nat → Bool) : KeepsWorld Tidy (reachCommit (F := F) request shouldCancel) := by
  have hbegin : KeepsWorld Tidy (beginTargets (F := F) request shouldCancel) := by
    refine keeps_bind (keeps_onWorld (keeps_tidy_openStage hstage)) fun _ => ?_
    refine keeps_bind (keeps_checkCancelled shouldCancel) fun _ => ?_
    refine keeps_bind (keeps_get_bind fun chunk => keeps_workLoop ?_ _) fun _ => ?_
    · rw [hstage]
      exact keeps_checkedBefore _ _ keeps_tidy_prepareNext
    · exact keeps_get_bind fun chunk => keeps_ite (fun _ => keeps_pure _) fun _ => keeps_pure _
  have hfinish : KeepsWorld Tidy (finishTargets (F := F) request shouldCancel) := by
    refine keeps_bind (keeps_get_bind fun chunk => keeps_workLoop ?_ _) fun _ => ?_
    · exact keeps_checkedBefore _ _ keeps_tidy_computeNextTarget
    · exact keeps_get_bind fun chunk => keeps_ite (fun _ => keeps_pure _) fun _ => keeps_pure _
  unfold reachCommit
  refine keeps_bind hbegin fun result => ?_
  cases result with
  | none => exact hfinish
  | some result => exact keeps_pure _

omit [FloatFormat D] in
/-- What an aborted stage leaves. -/
theorem Tidy.abortStage (h : w.Tidy) :
    w.abortStage.Tidy ∧ w.abortStage.stageReactions = none ∧ w.abortStage.stageCursor = none := by
  have hclear : ∀ state : StageReactionState F, w.stageReactions = some state →
      ∀ publication, (state.clear publication).Blank := fun state hstate publication =>
    StageReactionState.blank_clear (h.fresh state hstate) publication
  unfold DogmosWorld.abortStage
  dsimp only
  have h₀ : SameStage { w with stageCursor := none } { w with stageCursor := none } := ⟨rfl, rfl, rfl⟩
  generalize hw₀ : { w with stageCursor := none } = w₀ at h₀ ⊢
  have h₁ : SameStage w₀ (w.stageDiffusion.elim w₀ w₀.cacheDiffusion) := by
    rcases w.stageDiffusion with _ | state
    · exact h₀
    · exact ⟨rfl, rfl, rfl⟩
  generalize w.stageDiffusion.elim w₀ w₀.cacheDiffusion = w₁ at h₁ ⊢
  have h₂ : SameStage w₀ (w₁.stageHeat.elim w₁ w₁.cacheHeat) := by
    rcases w₁.stageHeat with _ | state
    · exact h₁
    · exact h₁.trans ⟨rfl, rfl, rfl⟩
  generalize w₁.stageHeat.elim w₁ w₁.cacheHeat = w₂ at h₂ ⊢
  subst hw₀
  have h₃ : Tidy (w₂.stageReactions.elim w₂ w₂.cacheReactions) ∧
      (w₂.stageReactions.elim w₂ w₂.cacheReactions).stageReactions = none ∧
      (w₂.stageReactions.elim w₂ w₂.cacheReactions).stageCursor = none := by
    rcases hreactions : w₂.stageReactions with _ | state
    · refine ⟨⟨fun state hstate => ?_, fun state hstate => ?_⟩, hreactions, h₂.cursor⟩
      · exact h.kept state (h₂.cached ▸ hstate)
      · rw [Option.elim_none, hreactions] at hstate
        cases hstate
    · refine ⟨⟨fun found hfound => ?_, fun found hfound => by cases hfound⟩, rfl, h₂.cursor⟩
      cases hfound
      exact hclear state (h₂.reactions ▸ hreactions) _
  generalize w₂.stageReactions.elim w₂ w₂.cacheReactions = w₃ at h₃ ⊢
  obtain ⟨htidy, hnone, hcursor⟩ := h₃
  rcases w₃.stageComponents with _ | state
  · exact ⟨htidy, hnone, hcursor⟩
  · exact ⟨htidy.same rfl rfl, hnone, hcursor⟩

end Tidy

/-! ## Stages that start -/

/-- What holds of reaction stages between operations. -/
structure ReactionsInOrder (w : DogmosWorld F) : Prop where
  anchored : w.Anchored
  tidy : w.Tidy
  running : ∀ state, w.stageReactions = some state →
    w.stageCursor.isSome ∧ w.InOrder state ∧ state.pending = none

/-- The sequences a chunk of a reaction stage finds to run: those that remain, or those of the
stage that starts with it. -/
def plannedSequences (w : DogmosWorld F) : List MixtureHandle :=
  if w.stageCursor.isSome then w.remainingSequences else w.stageTargets

section Start

variable {w w' : DogmosWorld F}

theorem ReactionsInOrder.passesOver_startingReactions (h : w.ReactionsInOrder)
    (mixture : MixtureHandle) :
    w.startingReactions.passesOver mixture = decide (mixture ∈ w.continuationMixtures) := by
  have hblank := blank_of_kept h.tidy w.publications.fresh
  unfold StageReactionState.passesOver startingReactions
  dsimp only
  rw [hblank.seen, Bool.false_or, SlotSet.contains_foldl_insert hblank.active]
  intro a ha b hb hslot
  have hlive : ∀ m ∈ w.continuationMixtures, w.Live m := by
    intro m hm
    obtain ⟨entry, hentry, hmixture⟩ := List.mem_filterMap.1 hm
    obtain ⟨continuation, hcontinuation, rfl⟩ := Option.map_eq_some_iff.1 hmixture
    exact h.anchored entry hentry continuation hcontinuation
  exact (hlive a ha).eq (hlive b hb) (UInt32.toNat_inj.1 hslot)

theorem ReactionsInOrder.live_of_waiting (h : w.ReactionsInOrder) {mixture : MixtureHandle}
    (hmixture : mixture ∈ w.continuationMixtures) : w.Live mixture := by
  obtain ⟨entry, hentry, hsome⟩ := List.mem_filterMap.1 hmixture
  obtain ⟨continuation, hcontinuation, rfl⟩ := Option.map_eq_some_iff.1 hsome
  exact h.anchored entry hentry continuation hcontinuation

theorem ReactionsInOrder.inOrder_startingReactions (h : w.ReactionsInOrder)
    (hlive : KeepsLive w w') : w'.InOrder w.startingReactions := by
  have hblank := blank_of_kept h.tidy w.publications.fresh
  refine ⟨fresh_startingReactions h.tidy, ?_, fun mixture hseen => ?_, fun mixture hactive => ?_⟩
  · show (w.cachedReactions.getD (.new w.publications.fresh)).nextTarget ≤ _
    rw [hblank.nextTarget]
    exact Nat.zero_le _
  · have hunseen := hblank.seen mixture
    have hcontains : SlotSet.contains
        (w.cachedReactions.getD (.new w.publications.fresh)).seenMixtures mixture = true := hseen
    rw [hunseen] at hcontains
    cases hcontains
  · have hpasses := h.passesOver_startingReactions mixture
    unfold StageReactionState.passesOver at hpasses
    rw [hactive, Bool.or_true] at hpasses
    exact hlive mixture (h.live_of_waiting (of_decide_eq_true hpasses.symm))

variable [FloatFormat F] [FloatFormat D]

/-- The world a reaction stage starts in. -/
def startedReactions (w : DogmosWorld F) (request : StageChunkRequest D) : DogmosWorld F :=
  { (w.opened request).claimed w.cachedReactions with
    cachedReactions := none
    stageReactions := some w.startingReactions }

theorem run_startStage_react {request : StageChunkRequest D} (hstage : request.stage = .react) :
    run (startStage request) w =
      match w.requireRegistries with
      | .ok _ => (.ok (), w.startedReactions request)
      | .error error => (.error error, w) := by
  unfold startStage
  rw [hstage]
  dsimp only
  rw [run_bind, run_check]
  rcases w.requireRegistries with error | _
  · rfl
  · dsimp only
    unfold setCursor
    rw [run_bind, run_modify]
    dsimp only
    rw [run_startReactions]
    rfl

omit [FloatFormat F] in
theorem stageFrame_startedReactions (w : DogmosWorld F) (request : StageChunkRequest D) :
    StageFrame w (w.startedReactions request) ∧
      SameContinuations w (w.startedReactions request) := by
  have hturfs := turfs_claimed (w.opened request) w.cachedReactions
  have hlive := (KeepsLive.commitClosed w).claimed (w := w.opened request) w.cachedReactions
    (.of_same rfl rfl)
  have hsame := (SameContinuations.commitClosed w).claimed (w := w.opened request) w.cachedReactions
    ⟨rfl, rfl, rfl⟩
  have hfrontier : ((w.opened request).claimed w.cachedReactions).frontier = w.frontier := by
    unfold claimed
    split <;> rfl
  refine ⟨⟨.of_turfs hturfs.1 hturfs.2, hlive.trans (.of_same rfl rfl), ?_⟩, ?_⟩
  · exact congrArg FrontierState.committed hfrontier
  · exact ⟨hsame.continuations, hsame.free, hsame.capacity⟩

omit [FloatFormat F] in
theorem ReactionsInOrder.round_startedReactions (h : w.ReactionsInOrder) (hagrees : w.Agrees)
    (request : StageChunkRequest D) :
    Round w w.stageTargets (w.startedReactions request) := by
  obtain ⟨hframe, hsame⟩ := stageFrame_startedReactions w request
  have hblank := blank_of_kept h.tidy w.publications.fresh
  have hcursor : (w.startedReactions request).stageCursor =
      some (newCursor request w.topology.revision) := by
    unfold startedReactions claimed
    split <;> rfl
  refine ⟨hframe, hsame, by rw [hcursor]; rfl, ⟨w.startingReactions, rfl, ?_, ?_⟩, ?_⟩
  · exact h.inOrder_startingReactions hframe.live
  · exact hblank.pending
  · unfold remainingSequences stageTargets upcomingMixtures nextFrontierIndex
    rw [hframe.committed, hframe.capturable hagrees, hcursor]
    have htargets : w.startingReactions.targets = [] := hblank.targets
    have hreactions : (w.startedReactions request).stageReactions = some w.startingReactions := rfl
    rw [hreactions]
    dsimp only
    rw [htargets, List.drop_nil, List.map_nil, List.nil_append]
    show outstanding _ ((w.frontier.committed.drop 0).filterMap _) = _
    rw [List.drop_zero]
    exact outstanding_congr fun mixture _ => h.passesOver_startingReactions mixture

/-- The stage that runs has no reaction scratch; what stayed the same since a world. -/
structure Idle (origin w : DogmosWorld F) : Prop where
  frame : StageFrame origin w
  same : SameContinuations origin w
  none : w.stageReactions = none
  active : origin.stageCursor.isSome
  lost : origin.stageReactions = .none

/-- **The start of a chunk** of a reaction stage: no scratch, or the planned sequences remain. -/
theorem ReactionsInOrder.triple_openStage (h : w.ReactionsInOrder) (hagrees : w.Agrees)
    {request : StageChunkRequest D} (hstage : request.stage = .react) :
    Triple (fun v => v = w) (openStage request)
      (fun _ w' => Idle w w' ∨ Round w w.plannedSequences w') fun _ _ => True := by
  rintro v rfl
  unfold openStage
  rw [run_bind, run_check]
  rcases v.validateChunkRequest request with error | _
  · trivial
  · dsimp only
    rw [run_bind, run_get]
    dsimp only
    have hcheck : ∀ u : DogmosWorld F, ∀ (f : DogmosWorld F → Except WorldError Unit)
        (Q : DogmosWorld F → Prop), Q u → Triple (fun t => t = u) (check f) (fun _ => Q) fun _ _ => True := by
      rintro u f Q hu t rfl
      rw [run_check]
      rcases f t with error | _
      · trivial
      · exact hu
    rcases hcursor : v.stageCursor with _ | cursor
    · dsimp only
      rw [run_bind, run_startStage_react hstage]
      rcases v.requireRegistries with error | _
      · trivial
      · dsimp only
        refine hcheck (v.startedReactions request) _ (fun w' =>
          Idle v w' ∨ Round v v.plannedSequences w') (.inr ?_) _ rfl
        unfold plannedSequences
        rw [hcursor, if_neg (by simp)]
        exact h.round_startedReactions hagrees request
    · dsimp only
      by_cases hmatches : cursorMatches cursor request
      · rw [if_neg (by simpa using hmatches)]
        refine hcheck v _ (fun w' => Idle v w' ∨ Round v v.plannedSequences w') ?_ _ rfl
        rcases hreactions : v.stageReactions with _ | state
        · exact .inl ⟨.refl v, .refl v, hreactions, by rw [hcursor]; rfl, hreactions⟩
        · obtain ⟨hactive, horder, hpending⟩ := h.running state hreactions
          refine .inr ⟨.refl v, .refl v, hactive, ⟨state, hreactions, horder, hpending⟩, ?_⟩
          unfold plannedSequences
          rw [if_pos hactive]
      · rw [if_pos (by simpa using hmatches)]
        trivial

end Start

/-! ## Chunks up to their commit -/

section Reach

variable {w w' : DogmosWorld F}

theorem reactions_none_of_unitStep [FloatFormat F] (h : UnitStep w w')
    (hnone : w.stageReactions = none) : w'.stageReactions = none := by
  cases h with
  | reactions state htokens =>
    unfold tokens at htokens
    rw [hnone] at htokens
    cases htokens
  | stageMixture slot id candidate _ _ =>
    unfold DogmosWorld.stageMixture
    split <;> exact hnone
  | writePreparedTurf slot id f _ _ =>
    unfold writePreparedTurf stageTurf
    split
    · split <;> exact hnone
    · exact hnone
  | _ => exact hnone

theorem Idle.unitStep [FloatFormat F] {origin : DogmosWorld F} (hstep : UnitStep w w')
    (h : Idle origin w) : Idle origin w' :=
  ⟨h.frame.trans (.unitStep hstep), h.same.trans (.unitStep hstep),
    reactions_none_of_unitStep hstep h.none, h.active, h.lost⟩

theorem Idle.remainingTargets {origin : DogmosWorld F} (h : Idle origin w) :
    w.remainingTargets = 0 := by
  unfold DogmosWorld.remainingTargets
  rw [h.none]

variable [FloatFormat F]

/-- A unit of the targets only writes the reaction scratch and candidates of mixtures. -/
theorem keeps_computeNextTarget_of {I : DogmosWorld F → Prop}
    (hscratch : ∀ w stageReactions, I w → I { w with stageReactions })
    (hmixture : ∀ w slot id candidate, I w → I (w.stageMixture slot id candidate)) :
    Keeps I (computeNextTarget (F := F)) := by
  have hset : ∀ state, Keeps I (setReactions (F := F) state) :=
    fun state => keeps_modify fun w hw => hscratch w _ hw
  have htarget : ∀ index, Keeps I (computeStageReactionTarget (F := F) index) := by
    intro index
    refine keeps_check_bind fun state => ?_
    split
    · exact keeps_pure _
    · refine keeps_bind (hset _) fun _ => keeps_ite (fun _ => keeps_pure _) fun _ => ?_
      refine keeps_check_bind fun sequence => keeps_bind (hset _) fun _ => ?_
      exact keeps_ite (fun _ => keeps_modify fun w hw => hmixture w _ _ _ hw) fun _ => keeps_pure _
  exact keeps_check_bind fun state => keeps_bind (htarget _) fun _ => keeps_check_bind fun _ => hset _

variable [FloatFormat D]

/-- A chunk up to its targets: the stage is idle, or the planned sequences remain. -/
theorem ReactionsInOrder.triple_beginTargets (h : w.ReactionsInOrder) (hagrees : w.Agrees)
    {request : StageChunkRequest D} (hstage : request.stage = .react) (shouldCancel : Nat → Bool) :
    Triple (fun chunk : Chunk F => chunk.world = w) (beginTargets request shouldCancel)
      (fun result chunk =>
        (Idle w chunk.world ∨ Round w w.plannedSequences chunk.world) ∧
          match result with
          | some result => result.pending = true
          | none => chunk.world.remainingPreparation = 0) fun _ _ => True := by
  have hunits : Secured (fun v => Idle w v ∨ Round w w.plannedSequences v)
      (workWhile request.workLimit.toNat (checkedBefore shouldCancel
        (fun w => w.remainingPreparation ≠ 0) (prepareNext (F := F) .react)))
      (fun v => Idle w v ∨ Round w w.plannedSequences v) fun _ _ => True := by
    have hidle : KeepsWorld (Idle w) (workWhile request.workLimit.toNat (checkedBefore shouldCancel
        (fun w => w.remainingPreparation ≠ 0) (prepareNext (F := F) .react))) := by
      refine keeps_get_bind fun chunk => keeps_workLoop (keeps_checkedBefore _ _ ?_) _
      exact keeps_of_units (fun v v' hstep hv => hv.unitStep hstep) fun origin tokens =>
        keeps_prepareNext origin tokens .react
    intro chunk hchunk
    rcases hchunk with hchunk | hchunk
    · have hkept := hidle chunk hchunk
      rcases hrun : run (workWhile request.workLimit.toNat (checkedBefore shouldCancel
        (fun w => decide (w.remainingPreparation ≠ 0)) (prepareNext (F := F) .react))) chunk with
        ⟨error | _, chunk'⟩
      · trivial
      · rw [hrun] at hkept
        exact .inl hkept
    · have hkept := secured_prepare hagrees shouldCancel request.workLimit.toNat chunk hchunk
      rcases hrun : run (workWhile request.workLimit.toNat (checkedBefore shouldCancel
        (fun w => decide (w.remainingPreparation ≠ 0)) (prepareNext (F := F) .react))) chunk with
        ⟨error | _, chunk'⟩
      · trivial
      · rw [hrun] at hkept
        exact .inr hkept
  unfold beginTargets
  rw [hstage]
  refine triple_bind (secured_onWorld (h.triple_openStage hagrees hstage)) fun _ => ?_
  refine triple_bind (secured_checkCancelled (J := fun v => Idle w v ∨ Round w w.plannedSequences v)
    (E := fun _ _ => True) shouldCancel fun _ _ => trivial) fun _ => ?_
  refine triple_bind hunits fun _ => triple_get_bind fun chunk hchunk => ?_
  refine triple_ite (fun _ => triple_pure fun s hs => ?_) fun hdone => triple_pure fun s hs => ?_
  · subst hs
    exact ⟨hchunk, rfl⟩
  · subst hs
    exact ⟨hchunk, not_not.1 hdone⟩

/-- **A chunk up to its commit**: its sequences are planned ones, and when it fails nowhere they
are the next ones, and all up to one that stops. -/
theorem ReactionsInOrder.reachCommit (h : w.ReactionsInOrder) (hagrees : w.Agrees)
    {request : StageChunkRequest D} (hstage : request.stage = .react) (shouldCancel : Nat → Bool) :
    Ran w (evaluations request shouldCancel w) w.plannedSequences ∧
      ∀ result chunk, run (reachCommit request shouldCancel)
          { world := w, workItems := 0, checks := 0 } = (.ok result, chunk) →
        Idle w chunk.world ∧ evaluations request shouldCancel w = [] ∨
          Swept w (evaluations request shouldCancel w) w.plannedSequences chunk.world ∧
            match result with
            | some result => result.pending = true ∧ pendingOf (evaluations request shouldCancel w) = none
            | none => chunk.world.remainingPreparation = 0 ∧ chunk.world.remainingTargets = 0 := by
  have hbegin := h.triple_beginTargets hagrees hstage shouldCancel
    { world := w, workItems := 0, checks := 0 } rfl
  unfold DogmosWorld.reachCommit evaluations
  rw [if_pos hstage, run_bind]
  rcases hrun : run (beginTargets request shouldCancel) { world := w, workItems := 0, checks := 0 }
    with ⟨error | (_ | result), chunk⟩
  · refine ⟨⟨⟨_, rfl⟩, by simp⟩, fun result chunk hfail => by cases hfail⟩
  · rw [hrun] at hbegin
    obtain ⟨hchunk, hprepared⟩ := hbegin
    dsimp only at hprepared ⊢
    have hfinish : ∀ evaluated : List (Evaluation F), Ran w evaluated w.plannedSequences →
        (∀ chunk', run (workLoop (targetUnit shouldCancel)
            (request.workLimit.toNat - chunk.workItems)) chunk = (.ok (), chunk') →
          chunk'.world.remainingPreparation = 0 ∧
            (Idle w chunk'.world ∧ evaluated = [] ∨ Swept w evaluated w.plannedSequences chunk'.world)) →
        Ran w evaluated w.plannedSequences ∧ ∀ result chunk',
          run (finishTargets request shouldCancel) chunk = (.ok result, chunk') →
          Idle w chunk'.world ∧ evaluated = [] ∨
            Swept w evaluated w.plannedSequences chunk'.world ∧
              match result with
              | some result => result.pending = true ∧ pendingOf evaluated = none
              | none => chunk'.world.remainingPreparation = 0 ∧
                chunk'.world.remainingTargets = 0 := by
      intro evaluated hran hloop
      refine ⟨hran, fun result chunk' hrun => ?_⟩
      unfold finishTargets workWhile at hrun
      rw [run_bind, run_bind, run_get] at hrun
      dsimp only at hrun
      rcases hworked : run (workLoop (targetUnit shouldCancel)
        (request.workLimit.toNat - chunk.workItems)) chunk with ⟨error | _, last⟩
      · rw [hworked] at hrun
        cases hrun
      · rw [hworked] at hrun
        obtain ⟨hprepared, hlast⟩ := hloop last hworked
        dsimp only at hrun
        rw [run_bind, run_get] at hrun
        dsimp only at hrun
        by_cases hremaining : last.world.remainingTargets ≠ 0
        · rw [if_pos hremaining] at hrun
          cases hrun
          refine hlast.imp id fun hswept => ⟨hswept, rfl, ?_⟩
          obtain ⟨state, hstate, -, hpending⟩ := hswept.scratch
          rw [← hpending]
          by_contra hsome
          exact hremaining (remainingTargets_of_pending hstate (Option.isSome_iff_ne_none.2 hsome))
        · rw [if_neg hremaining] at hrun
          cases hrun
          exact hlast.imp id fun hswept => ⟨hswept, hprepared, not_not.1 hremaining⟩
    rcases hchunk with hidle | hround
    · obtain ⟨hworlds, hdone⟩ := targets_done shouldCancel
        (request.workLimit.toNat - chunk.workItems) chunk hidle.remainingTargets
      rw [hworlds]
      refine hfinish [] ⟨⟨_, rfl⟩, by simp⟩ fun chunk' hrun => ?_
      rw [hdone] at hrun
      cases hrun
      exact ⟨hprepared, .inl ⟨hidle, rfl⟩⟩
    · obtain ⟨hran, hloop⟩ := evaluations_loop hagrees shouldCancel
        (request.workLimit.toNat - chunk.workItems) hround
      refine hfinish _ hran fun chunk' hrun => ⟨?_, .inr (hloop () chunk' hrun)⟩
      have hkept : KeepsWorld (fun v => v.stageCursor = chunk.world.stageCursor ∧
          v.frontier = chunk.world.frontier) (workLoop (targetUnit (F := F) shouldCancel)
            (request.workLimit.toNat - chunk.workItems)) := by
        refine keeps_workLoop (keeps_checkedBefore _ _ (keeps_computeNextTarget_of ?_ ?_)) _
        · exact fun v _ hv => hv
        · intro v slot id candidate hv
          unfold stageMixture
          split <;> exact hv
      have hlast := hkept chunk ⟨rfl, rfl⟩
      rw [hrun] at hlast
      unfold remainingPreparation preparationLength nextFrontierIndex at hprepared ⊢
      rw [hlast.1, hlast.2]
      exact hprepared
  · rw [hrun] at hbegin
    obtain ⟨hchunk, hpending⟩ := hbegin
    dsimp only at hpending ⊢
    refine ⟨⟨⟨_, rfl⟩, by simp⟩, fun result' chunk' hok => ?_⟩
    cases hok
    rcases hchunk with hidle | hround
    · exact .inl ⟨hidle, rfl⟩
    · refine .inr ⟨⟨hround.frame, hround.same, hround.cursor, hround.scratch, hround.remaining.symm,
        by simp, fun turf mixture pending hnone => ?_⟩, hpending, rfl⟩
      cases hnone

end Reach

/-! ## The commit -/

section Commit

variable {w w' : DogmosWorld F}

theorem anchored_iff : w.Anchored ↔ ∀ slot mixture, w.Waits slot mixture → w.Live mixture := by
  constructor
  · rintro h slot mixture ⟨entry, continuation, hentry, hcontinuation, rfl⟩
    exact h entry (List.mem_of_getElem? hentry) continuation hcontinuation
  · intro h entry hentry continuation hcontinuation
    obtain ⟨slot, hslot⟩ := List.mem_iff_getElem?.1 hentry
    exact h slot _ ⟨entry, continuation, hslot, hcontinuation, rfl⟩

theorem Anchored.shrinks (h : w.Anchored) (hshrinks : Shrinks w w') (hlive : KeepsLive w w') :
    w'.Anchored := by
  rw [anchored_iff] at h ⊢
  exact fun slot mixture hwaits => hlive mixture (h slot mixture (hshrinks slot mixture hwaits))

theorem Anchored.grows (h : w.Anchored) {mixture : MixtureHandle} (hgrows : Grows mixture w w')
    (hlive : KeepsLive w w') (hmixture : w'.Live mixture) : w'.Anchored := by
  rw [anchored_iff] at h ⊢
  obtain ⟨slot, hslot⟩ := hgrows
  intro other found hwaits
  rcases hslot other found hwaits with ⟨hold, -⟩ | ⟨-, rfl⟩
  · exact hlive found (h other found hold)
  · exact hmixture

variable [FloatFormat F]

/-- What the commit of a reaction stage leaves: the continuation of the sequence that stopped, with
the event that asks for it, and no scratch. -/
structure Committed (w : DogmosWorld F) (state : StageReactionState F) (w' : DogmosWorld F) : Prop where
  none : w'.stageReactions = none
  tidy : w'.Tidy
  live : KeepsLive w w'
  same : state.pending = .none → SameContinuations w w'
  paused : ∀ turf mixture pending, state.pending = some (turf, mixture, pending) →
    ∃ continuation token v, continuation.mixture = mixture ∧
      run (allocateContinuation continuation) w = (.ok token, v) ∧ SameContinuations v w' ∧
        dmReactionEvent continuation pending token ∈ w'.events

/-- What a commit that fails leaves. -/
structure Failed (w w' : DogmosWorld F) : Prop where
  tidy : w'.Tidy
  live : KeepsLive w w'
  shrinks : Shrinks w w'

omit [FloatFormat F] in
theorem Failed.of_dropped (h : w.Tidy) (hsame : Shrinks w w') (hlive : KeepsLive w w')
    (hnone : w'.stageReactions = none) (hcached : w'.cachedReactions = w.cachedReactions) :
    Failed w w' :=
  ⟨⟨hcached ▸ h.kept, fun state hstate => by rw [hnone] at hstate; cases hstate⟩, hlive, hsame⟩

omit [FloatFormat F] in
/-- What the writes of continuations leave alone. -/
theorem sameStage_continuations {α : Type} {m : WorldM F α}
    (hm : ∀ I : DogmosWorld F → Prop, ContinuationClosed I → Keeps I m) (w : DogmosWorld F) :
    SameStage w (m.final w) ∧ KeepsLive w (m.final w) ∧
      (m.final w).publications = w.publications ∧ (m.final w).events = w.events := by
  refine ⟨?_, ?_, ?_⟩
  · exact hm (SameStage w) (fun _ _ _ h => h.trans ⟨rfl, rfl, rfl⟩) w ⟨rfl, rfl, rfl⟩
  · exact hm (KeepsLive w) (fun _ _ _ h => h.trans (.of_same rfl rfl)) w (.refl w)
  · exact hm (fun v => v.publications = w.publications ∧ v.events = w.events)
      (fun _ _ _ h => h) w ⟨rfl, rfl⟩

omit [FloatFormat F] in
/-- The publication of a reaction stage. -/
theorem Committed.publish {state : StageReactionState F} (htidy : w.Tidy)
    (hstate : w.stageReactions = some state) {v : DogmosWorld F} (hlive : KeepsLive w v)
    (events : List (WorldEvent F)) {w' : DogmosWorld F}
    (hw' : w' = { v with
      publications := v.publications.publish state.publication
      events }.cacheReactions { state with pending := .none })
    (hsame : state.pending = .none → SameContinuations w v)
    (hpaused : ∀ turf mixture pending, state.pending = some (turf, mixture, pending) →
      ∃ continuation token, continuation.mixture = mixture ∧
        run (allocateContinuation continuation) { w with stageReactions := .none } = (.ok token, v) ∧
          dmReactionEvent continuation pending token ∈ events) :
    Committed w state w' := by
  subst hw'
  have hfresh : StageReactionState.Fresh { state with pending := .none } := htidy.fresh state hstate
  refine ⟨rfl, ⟨fun found hfound => ?_, fun found hfound => by cases hfound⟩, ?_, ?_, ?_⟩
  · cases hfound
    exact StageReactionState.blank_clear hfresh _
  · refine hlive.trans (.of_mixtures rfl fun id hid => ?_)
    show (Publications.withFresh _).visible id = true
    rw [Publications.visible_withFresh, Publications.visible_publish, hid]
    rfl
  · exact fun hnone => (hsame hnone).trans ⟨rfl, rfl, rfl⟩
  · intro turf mixture pending hpending
    obtain ⟨continuation, token, hmixture, hrun, hevent⟩ := hpaused turf mixture pending hpending
    rw [run_allocateContinuation_dropped] at hrun
    obtain ⟨hok, hv⟩ := Prod.mk.inj hrun
    refine ⟨continuation, token, (run (allocateContinuation continuation) w).2, hmixture, ?_, ?_, hevent⟩
    · exact Prod.ext hok rfl
    · rw [← hv]
      exact ⟨rfl, rfl, rfl⟩

omit [FloatFormat F] in
theorem triple_commitStageReactions {state : StageReactionState F}
    (hstate : w.stageReactions = some state) (htidy : w.Tidy) (eventCapacity : Nat) :
    Triple (fun v => v = w) (commitStageReactions (F := F) eventCapacity)
      (fun _ => Committed w state) fun _ => Failed w := by
  rintro v rfl
  have hdropped : KeepsLive v { v with stageReactions := none } := .of_same rfl rfl
  unfold commitStageReactions
  rw [run_bind, run_reactionState hstate]
  dsimp only
  rw [run_bind, run_check]
  rcases v.requireEventCapacity (reactionEventCount state) eventCapacity with error | _
  · exact ⟨htidy, .refl v, .refl v⟩
  · dsimp only
    rw [run_bind, run_modify]
    dsimp only
    rw [run_bind]
    unfold allocateStageContinuation
    rcases hpending : state.pending with _ | ⟨turf, mixture, pending⟩
    · dsimp only
      rw [run_pure]
      dsimp only
      rw [run_bind, run_get]
      dsimp only
      by_cases hfree : v.publications.undecided state.publication
      · simp only [hfree, Bool.not_true, Bool.false_eq_true, if_false]
        refine Committed.publish htidy hstate hdropped _ rfl (fun _ => ⟨rfl, rfl, rfl⟩) ?_
        intro turf mixture pending hsome
        rw [hpending] at hsome
        cases hsome
      · simp only [hfree, Bool.not_false, if_true]
        exact .of_dropped htidy (fun _ _ h => h) hdropped rfl rfl
    · have hallocated := sameStage_continuations (fun I hI => keeps_allocateContinuation hI
        (F := F) { turf := some turf, mixture, target := .ofTurf turf
                   nextReactionIndex := pending.nextReactionIndex
                   reactionProfileThresholdMs := none }) { v with stageReactions := none }
      dsimp only
      unfold final at hallocated
      rw [run_bind]
      rcases hrun : run (allocateContinuation (F := F)
        { turf := some turf, mixture, target := .ofTurf turf
          nextReactionIndex := pending.nextReactionIndex
          reactionProfileThresholdMs := none }) { v with stageReactions := none } with
        ⟨error | token, u⟩
      · rw [hrun] at hallocated
        obtain ⟨hstage, hlive, -, -⟩ := hallocated
        have hshrinks : Shrinks v { v with stageReactions := none } := fun _ _ h => h
        exact .of_dropped htidy (hshrinks.trans (shrinks_allocateContinuation hrun))
          (hdropped.trans hlive) hstage.reactions hstage.cached
      · rw [hrun] at hallocated
        obtain ⟨hstage, hlive, -, hevents⟩ := hallocated
        dsimp only
        rw [run_pure]
        dsimp only
        rw [run_bind, run_get]
        dsimp only
        by_cases hfree : u.publications.undecided state.publication
        · simp only [hfree, Bool.not_true, Bool.false_eq_true, if_false]
          refine Committed.publish htidy hstate (hdropped.trans hlive) _ rfl (fun hnone => ?_) ?_
          · rw [hpending] at hnone
            cases hnone
          · intro turf' mixture' pending' hsome
            rw [hpending] at hsome
            cases hsome
            exact ⟨_, token, rfl, hrun, by simp⟩
        · simp only [hfree, Bool.not_false, if_true]
          have hcompleted := sameStage_continuations (fun I hI => keeps_completeContinuation hI
            (F := F) token) u
          have hshrinks := shrinks_of_completed hrun
          unfold final at hcompleted hshrinks
          rw [run_bind]
          rcases hcomplete : run (completeContinuation token) u with ⟨error | _, u'⟩
          · rw [hcomplete] at hcompleted hshrinks
            exact .of_dropped htidy hshrinks (hdropped.trans (hlive.trans hcompleted.2.1))
              (hcompleted.1.reactions.trans hstage.reactions)
              (hcompleted.1.cached.trans hstage.cached)
          · rw [hcomplete] at hcompleted hshrinks
            exact .of_dropped htidy hshrinks (hdropped.trans (hlive.trans hcompleted.2.1))
              (hcompleted.1.reactions.trans hstage.reactions)
              (hcompleted.1.cached.trans hstage.cached)

end Commit

/-! ## Whole chunks -/

section Chunks

variable [FloatFormat F] {w : DogmosWorld F}

/-- What an aborted stage leaves is in order. -/
theorem Failed.aborted {w' : DogmosWorld F} (h : Failed w w') (hanchored : w.Anchored) :
    w'.abortStage.ReactionsInOrder ∧ w'.abortStage.stageReactions = none ∧
      Shrinks w w'.abortStage := by
  obtain ⟨htidy, hnone, -⟩ := h.tidy.abortStage
  have hlive := h.live.trans ((KeepsLive.commitClosed w').abortStage (.refl w'))
  have hshrinks := h.shrinks.trans
    ((SameContinuations.commitClosed w').abortStage (.refl w')).shrinks
  refine ⟨⟨hanchored.shrinks hshrinks hlive, htidy, fun state hstate => ?_⟩, hnone, hshrinks⟩
  rw [hnone] at hstate
  cases hstate

omit [FloatFormat F] in
theorem remainingSequences_of_none (h : w.stageReactions = none) : w.remainingSequences = [] := by
  unfold remainingSequences
  rw [h]

/-- The mixture of a sequence that stopped is one of those that were run. -/
theorem mem_of_pendingOf {evaluated : List (Evaluation F)} {turf : TurfHandle}
    {mixture : MixtureHandle} {pending : PendingDmReaction}
    (h : pendingOf evaluated = some (turf, mixture, pending)) :
    ∃ e ∈ evaluated, e.turf = turf ∧ e.mixture = mixture ∧ e.pauses = some pending := by
  unfold pendingOf at h
  obtain ⟨e, he, hpauses⟩ := Option.bind_eq_some_iff.1 h
  obtain ⟨found, hfound, hsame⟩ := Option.map_eq_some_iff.1 hpauses
  cases hsame
  exact ⟨e, List.mem_of_getLast? he, rfl, rfl, hfound⟩

variable [FloatFormat D] [FloatCast F D]

/-- What a chunk of a reaction stage leaves: reactions in order, and the sequences that remain are
planned ones; or the stage ended at a planned sequence, whose mixture waits. -/
structure AfterReact (w w' : DogmosWorld F) : Prop where
  order : w'.ReactionsInOrder
  waits : Shrinks w w' ∧ (∀ mixture ∈ w'.remainingSequences, mixture ∈ w.plannedSequences) ∨
    w'.stageReactions = none ∧ ∃ mixture ∈ w.plannedSequences, Grows mixture w w'

/-- A commit leaves what its failures and its end leave. -/
theorem afterReact_commitTargets {capacity : Nat} {chunk : Chunk F}
    (haborted : ∀ {v : DogmosWorld F}, Failed w v → AfterReact w v.abortStage)
    (htriple : Triple (fun v => v = chunk.world) (commitStageReactions (F := F) capacity)
      (fun _ v => AfterReact w { v with stageCursor := none }) (fun _ v => Failed w v)) :
    AfterReact w (match run (commitTargets capacity) chunk with
      | (.ok _, chunk) => chunk.world
      | (.error _, chunk) => chunk.world.abortStage) := by
  have hcommitted := htriple chunk.world rfl
  unfold commitTargets
  rw [run_bind, run_get]
  dsimp only
  rw [run_bind, run_onWorld]
  rcases hresult : run (commitStageReactions (F := F) capacity) chunk.world with
    ⟨error | counts, v⟩
  · rw [hresult] at hcommitted
    exact haborted hcommitted
  · rw [hresult] at hcommitted
    dsimp only
    rw [run_bind, run_onWorld]
    exact hcommitted

/-- **A chunk of a reaction stage** runs planned sequences, and has a mixture wait only when it
ends the stage. -/
theorem ReactionsInOrder.reactChunk (h : w.ReactionsInOrder) (hagrees : w.Agrees)
    {request : StageChunkRequest D} (hstage : request.stage = .react) (eventLimit : UInt32)
    (shouldCancel : Nat → Bool) :
    AfterReact w ((processStageChunk request eventLimit shouldCancel).final w) := by
  obtain ⟨hran, hreach⟩ := h.reachCommit hagrees hstage shouldCancel
  have htidy := keeps_tidy_reachCommit hstage shouldCancel
    { world := w, workItems := 0, checks := 0 } h.tidy
  have hkept := keeps_reachCommit (J := fun v => KeepsLive w v ∧ SameContinuations w v)
    (fun v v' hstep hv => ⟨hv.1.trans (.unitStep hstep), hv.2.trans (.unitStep hstep)⟩) request
    (fun v hv => ⟨(KeepsLive.commitClosed w).keeps_openStage request v hv.1,
      (SameContinuations.commitClosed w).keeps_openStage request v hv.2⟩) shouldCancel
    { world := w, workItems := 0, checks := 0 } ⟨.refl w, .refl w⟩
  have haborted : ∀ {v : DogmosWorld F}, Failed w v → AfterReact w v.abortStage := by
    intro v hv
    obtain ⟨horder, hnone, hshrinks⟩ := hv.aborted h.anchored
    refine ⟨horder, .inl ⟨hshrinks, fun mixture hmixture => ?_⟩⟩
    rw [remainingSequences_of_none hnone] at hmixture
    cases hmixture
  have hidle : ∀ {v : DogmosWorld F}, Idle w v → v.Tidy → AfterReact w v := by
    intro v hv hvtidy
    refine ⟨⟨h.anchored.shrinks hv.same.shrinks hv.frame.live, hvtidy, fun state hstate => ?_⟩,
      .inl ⟨hv.same.shrinks, fun mixture hmixture => ?_⟩⟩
    · rw [hv.none] at hstate
      cases hstate
    · rw [remainingSequences_of_none hv.none] at hmixture
      cases hmixture
  rw [final_processStageChunk_react hstage]
  rcases hrun : run (DogmosWorld.reachCommit request shouldCancel)
    { world := w, workItems := 0, checks := 0 } with ⟨error | (_ | result), chunk⟩
  · rw [hrun] at htidy hkept
    exact haborted ⟨htidy, hkept.1, hkept.2.shrinks⟩
  · rw [hrun] at htidy hkept
    have htidy : chunk.world.Tidy := htidy
    dsimp only
    rcases hreach _ _ hrun with ⟨hidle, -⟩ | ⟨hswept, -⟩
    · refine afterReact_commitTargets haborted ?_
      rintro v rfl
      unfold commitStageReactions reactionState
      rw [run_bind, run_check, hidle.none]
      exact ⟨htidy, hkept.1, hkept.2.shrinks⟩
    · obtain ⟨state, hstate, -, hpending⟩ := hswept.scratch
      refine afterReact_commitTargets haborted ?_
      refine triple_mono (triple_commitStageReactions hstate htidy _) (fun _ hv => hv)
        (fun _ v hv => ?_) fun _ v hv => ⟨hv.tidy, hswept.frame.live.trans hv.live,
          hswept.same.shrinks.trans hv.shrinks⟩
      have hlive : KeepsLive w v := hswept.frame.live.trans hv.live
      have hcursor : Shrinks v { v with stageCursor := none } := fun _ _ hwaits => hwaits
      have hvlive : KeepsLive v { v with stageCursor := none } := .of_same rfl rfl
      have hvtidy : Tidy { v with stageCursor := none } := hv.tidy.same rfl rfl
      have hnone : ∀ state, v.stageReactions = some state → False := fun state hsome => by
        rw [hv.none] at hsome
        cases hsome
      rcases hstopped : state.pending with _ | ⟨turf, mixture, pending⟩
      · have hsame := hswept.same.shrinks.trans (hv.same hstopped).shrinks
        refine ⟨⟨h.anchored.shrinks (hsame.trans hcursor) (hlive.trans hvlive), hvtidy,
          fun state hsome => absurd hsome (hnone state)⟩, .inl ⟨hsame.trans hcursor, ?_⟩⟩
        intro mixture hmixture
        rw [remainingSequences_of_none (w := { v with stageCursor := none }) hv.none] at hmixture
        cases hmixture
      · obtain ⟨continuation, token, u, rfl, hallocated, hsame, -⟩ := hv.paused _ _ _ hstopped
        rw [hpending] at hstopped
        obtain ⟨e, he, -, hemixture, hepauses⟩ := mem_of_pendingOf hstopped
        have hplanned : continuation.mixture ∈ w.plannedSequences := by
          obtain ⟨tail, htail⟩ := hran.planned
          rw [htail, ← hemixture]
          exact List.mem_append_left _ (List.mem_map_of_mem he)
        have hgrows : Grows continuation.mixture w { v with stageCursor := none } :=
          (hswept.same.shrinks.trans_grows (grows_allocateContinuation hallocated)).trans_shrinks
            (hsame.shrinks.trans hcursor)
        have hmixture : Live { v with stageCursor := none } continuation.mixture :=
          hvlive _ (hv.live _ (hswept.stopped _ _ _ hstopped))
        exact ⟨⟨h.anchored.grows hgrows (hlive.trans hvlive) hmixture, hvtidy,
          fun state hsome => absurd hsome (hnone state)⟩, .inr ⟨hv.none, _, hplanned, hgrows⟩⟩
  · rw [hrun] at htidy
    have htidy : chunk.world.Tidy := htidy
    dsimp only
    rcases hreach _ _ hrun with ⟨hchunk, -⟩ | ⟨hswept, -, hnone⟩
    · exact hidle hchunk htidy
    · obtain ⟨state, hstate, horder, hpending⟩ := hswept.scratch
      refine ⟨⟨h.anchored.shrinks hswept.same.shrinks hswept.frame.live, htidy, ?_⟩,
        .inl ⟨hswept.same.shrinks, fun mixture hmixture => ?_⟩⟩
      · intro found hfound
        rw [hstate] at hfound
        cases hfound
        exact ⟨hswept.cursor, horder, hpending.trans hnone⟩
      · rw [hswept.remaining]
        exact List.mem_append_right _ hmixture

end Chunks

end DogmosWorld

end Dogmos
