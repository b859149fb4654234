import Dogmos.Runs.Operations

/-!
# What batches can change

The batches that register and connect mixtures and turfs write slots, links,
edges and the active heat list, and no scratch of a stage.  A record they put in
a slot has no candidate next to it.  A property that all these writes keep
(`BatchClosed`) is kept by every operation whose chunks keep it
(`keeps_exec_of_batchClosed`).
-/

namespace Dogmos

namespace DogmosWorld

open Exec

variable {F D : Type}

theorem foldl_invariant {α : Type} {I : DogmosWorld F → Prop} {f : DogmosWorld F → α → DogmosWorld F}
    (hf : ∀ w a, I w → I (f w a)) (l : List α) {w : DogmosWorld F} (hw : I w) : I (l.foldl f w) := by
  induction l generalizing w with
  | nil => exact hw
  | cons a rest ih => exact ih (hf w a hw)

/-! ## Batches that write edges only -/

section Topology

variable {I : DogmosWorld F → Prop} (hI : ∀ w topology, I w → I { w with topology })

include hI

theorem keeps_onTopology {α : Type} (m : Exec TopologyError PackedTopology α) :
    Keeps I (onTopology m) := by
  unfold onTopology
  refine keeps_get_bind fun w => keeps_bind (keeps_modify fun w hw => ?_) fun _ => keeps_check _
  exact hI w _ hw

theorem keeps_applyTurfAdjacencyMutation (mutation : TurfAdjacencyMutation) :
    Keeps I (applyTurfAdjacencyMutation mutation) := by
  unfold applyTurfAdjacencyMutation
  refine keeps_check_bind fun left => keeps_check_bind fun right => ?_
  refine keeps_ite (fun _ => keeps_throw _) fun _ => keeps_ite (fun _ => keeps_throw _) fun _ => ?_
  refine keeps_ite (fun _ => keeps_throw _) fun _ => keeps_ite (fun _ => ?_) fun _ => ?_
  · exact keeps_bind (keeps_onTopology hI _) fun _ => keeps_pure _
  · exact keeps_modify fun w hw => hI w _ hw

theorem keeps_applyTurfHeatAdjacencyMutation (mutation : TurfAdjacencyMutation) :
    Keeps I (applyTurfHeatAdjacencyMutation mutation) := by
  unfold applyTurfHeatAdjacencyMutation
  refine keeps_check_bind fun left => keeps_check_bind fun right => ?_
  refine keeps_ite (fun _ => keeps_throw _) fun _ => keeps_ite (fun _ => keeps_throw _) fun _ => ?_
  refine keeps_ite (fun _ => keeps_throw _) fun _ => keeps_ite (fun _ => ?_) fun _ => ?_
  · exact keeps_bind (keeps_onTopology hI _) fun _ => keeps_pure _
  · exact keeps_modify fun w hw => hI w _ hw

theorem keeps_applyTurfFirelock (mutation : TurfFirelockMutation) :
    Keeps I (applyTurfFirelock mutation) := by
  unfold applyTurfFirelock
  refine keeps_check_bind fun _ => keeps_check_bind fun _ => keeps_ite (fun _ => keeps_throw _) ?_
  exact fun _ => keeps_check_bind fun _ => keeps_modify fun w hw => hI w _ hw

end Topology

/-- A batch of mutations that each keep a property, also when one is rejected. -/
theorem keeps_batch {μ : Type} {I : DogmosWorld F → Prop} (operation : String) (mutations : List μ)
    {apply : μ → WorldM F Unit} (happly : ∀ mutation, Keeps I (apply mutation)) :
    Keeps I (do
      rejectActiveStage operation
      mutations.forM apply
      return UInt32.ofNat mutations.length : WorldM F UInt32) := by
  refine keeps_bind (keeps_rejectActiveStage _) fun _ => ?_
  exact keeps_bind (keeps_forM fun mutation _ => happly mutation) fun _ => keeps_pure _

/-! ## Batches that write records -/

variable [FloatFormat F]

/-- A property that the writes of batches on turfs keep. -/
structure GroundClosed (I : DogmosWorld F → Prop) : Prop extends SequenceClosed I where
  writeTurf : ∀ w slot f, I w → I (w.writeTurf slot f)
  putTurf : ∀ w slot f, (∀ entry, (f entry).turf.pending = none) → I w → I (w.putTurf slot f)
  growTurfs : ∀ w slots, I w →
    I { w with turfs := growSlots w.turfs slots { generation := none, turf := .vacant } }
  heatActive : ∀ w heatActive, I w → I { w with heatActive }
  topology : ∀ w topology, I w → I { w with topology }
  mixtureTurfs : ∀ w mixtureTurfs, I w → I { w with mixtureTurfs }

/-- A property that the writes of all batches keep. -/
structure RecordsClosed (I : DogmosWorld F → Prop) : Prop extends GroundClosed I where
  edges : EdgesClosed I
  putMixture : ∀ w slot f, (∀ entry, (f entry).mixture.pending = none ∧
      ∀ record ∈ (f entry).mixture.current, record = MixtureRecord.new) → I w →
    I (w.putMixture slot f)
  growMixtures : ∀ w slots, I w →
    I { w with mixtures := growSlots w.mixtures slots { generation := none, mixture := .vacant } }

/-- A property that the writes of batches on turfs keep and that does not look at the frontier. -/
structure TurfBatchClosed (I : DogmosWorld F → Prop) : Prop
    extends GroundClosed I, ResumeClosed I where
  frontier : ∀ w frontier, I w → I { w with frontier }

/-- A property that the writes of all batches keep and that does not look at the frontier. -/
structure BatchClosed (I : DogmosWorld F → Prop) : Prop extends TurfBatchClosed I, RecordsClosed I

variable {I : DogmosWorld F → Prop}

section TurfBatches

variable (hI : GroundClosed I)

include hI

namespace GroundClosed

variable {w : DogmosWorld F}

theorem invalidateContinuations (p : ReactionContinuation F → Bool) (hw : I w) :
    I (w.invalidateContinuations p) := hI.settle _ _ (.invalidate w p) hw

/-! ## Edges and links -/

theorem detachTurf (slot : UInt32) (hw : I w) : I (w.detachTurf slot) :=
  hI.topology _ _ (hI.writeTurf w _ _ hw)

theorem detachMixture (mixture : MixtureHandle) (hw : I w) : I (w.detachMixture mixture) := by
  unfold DogmosWorld.detachMixture
  split
  · exact hw
  · exact foldl_invariant (fun _ slot h => hI.detachTurf slot h) _ (hI.mixtureTurfs w _ hw)

theorem unlinkTurfMixture (slot : UInt32) (hw : I w) : I (w.unlinkTurfMixture slot) := by
  unfold DogmosWorld.unlinkTurfMixture
  split
  · exact hI.mixtureTurfs w _ hw
  · exact hw

theorem linkTurfMixture (slot : UInt32) (mixture : Option MixtureHandle) (hw : I w) :
    I (w.linkTurfMixture slot mixture) := by
  unfold DogmosWorld.linkTurfMixture
  split
  · exact hI.mixtureTurfs w _ hw
  · exact hw

theorem removeIncidentGasEdges (slot : UInt32) (hw : I w) : I (w.removeIncidentGasEdges slot) := by
  unfold DogmosWorld.removeIncidentGasEdges
  split <;> exact hI.topology w _ hw

theorem removeIncidentHeatEdges (slot : UInt32) (hw : I w) :
    I (w.removeIncidentHeatEdges slot) := by
  unfold DogmosWorld.removeIncidentHeatEdges
  split <;> exact hI.topology w _ hw

/-! ## The active heat list -/

theorem deactivateTurfHeatSlot (slot : UInt32) (hw : I w) : I (w.deactivateTurfHeatSlot slot) := by
  unfold DogmosWorld.deactivateTurfHeatSlot
  split
  · exact hw
  · refine hI.writeTurf _ _ _ ?_
    dsimp only
    split
    · exact hI.writeTurf _ _ _ (hI.heatActive w _ hw)
    · exact hI.heatActive w _ hw

theorem keeps_activateTurfHeat (handle : TurfHandle) : Keeps I (activateTurfHeat handle) := by
  unfold activateTurfHeat
  refine keeps_check_bind fun turf => keeps_ite (fun _ => keeps_get_bind fun w => ?_) fun _ => ?_
  · refine keeps_ite (fun _ => keeps_throw _) fun _ => keeps_modify fun w hw => ?_
    exact hI.writeTurf _ _ _ (hI.heatActive w _ hw)
  · exact keeps_pure _

/-! ## Mutations -/

theorem registerTurf (handle : TurfHandle) (mixture : Option MixtureHandle) (hw : I w) :
    I (w.registerTurf handle mixture) := by
  have hite : ∀ (c : Prop) [Decidable c] (a b : DogmosWorld F), I a → I b →
      I (if c then a else b) := by
    intro c _ a b ha hb
    split
    · exact ha
    · exact hb
  unfold DogmosWorld.registerTurf
  dsimp only
  set w₁ := if w.turfGeneration handle.slot ≠ some handle.generation ∨
      (w.turfAt handle.slot.toNat).all (fun turf => decide (turf.mixture ≠ mixture)) = true then
    w.invalidateContinuationsForTurfSlot handle.slot else w with hw₁
  have h₁ : I w₁ := hite _ _ _ (hI.invalidateContinuations _ hw) hw
  set w₂ := if w.turfGeneration handle.slot ≠ some handle.generation then
    (w₁.deactivateTurfHeatSlot handle.slot).removeIncidentTurfEdges handle.slot else w₁ with hw₂
  have h₂ : I w₂ := hite _ _ _ (hI.topology _ _ (hI.deactivateTurfHeatSlot _ h₁)) h₁
  have hlinked := fun record => hI.linkTurfMixture handle.slot mixture
    (hI.putTurf w₂ handle.slot (fun _ => { generation := some handle.generation, turf := .new record })
      (fun _ => rfl) h₂)
  have hgas := fun record => hite (mixture.isNone = true) _ _
    (hI.removeIncidentGasEdges handle.slot (hlinked record)) (hlinked record)
  exact hite _ _ _ (hI.removeIncidentHeatEdges handle.slot (hgas _)) (hgas _)

theorem unregisterTurf (handle : TurfHandle) (hw : I w) : I (w.unregisterTurf handle) := by
  refine hI.removeIncidentHeatEdges handle.slot (hI.topology _ _ ?_)
  refine hI.putTurf _ _ _ (fun _ => rfl) (hI.deactivateTurfHeatSlot _ ?_)
  exact hI.invalidateContinuations _ hw

theorem applyTurfMutation (mutation : TurfLifecycleMutation) (hw : I w) :
    I (w.applyTurfMutation mutation) := by
  cases mutation with
  | register handle mixture => exact hI.registerTurf handle mixture (hI.unlinkTurfMixture _ hw)
  | unregister handle => exact hI.unregisterTurf handle (hI.unlinkTurfMixture _ hw)

theorem keeps_applyTurfHeatMutation (mutation : TurfHeatMutation F) :
    Keeps I (applyTurfHeatMutation mutation) := by
  unfold DogmosWorld.applyTurfHeatMutation
  refine keeps_get_bind fun _ => ?_
  refine keeps_bind (keeps_modify fun w hw => hI.writeTurf w _ _ hw) fun _ => ?_
  refine keeps_check_bind fun temperature => ?_
  have hremove : Keeps I (if mutation.state.isNone = true then
      modify fun w => w.removeIncidentHeatEdges mutation.handle.slot
    else pure () : WorldM F Unit) :=
    keeps_ite (fun _ => keeps_modify fun w hw => hI.removeIncidentHeatEdges _ hw)
      fun _ => keeps_pure _
  refine keeps_ite (fun _ => ?_) fun _ => ?_
  · exact keeps_bind (hI.keeps_activateTurfHeat _) fun _ => hremove
  · exact keeps_bind (keeps_modify fun w hw => hI.deactivateTurfHeatSlot _ hw) fun _ => hremove

end GroundClosed

end TurfBatches

/-! ## Registering mixtures -/

omit [FloatFormat F] in
theorem EdgesClosed.removeIncidentMixtureEdges (hI : EdgesClosed I) {w : DogmosWorld F}
    (slot : UInt32) (hw : I w) : I (w.removeIncidentMixtureEdges slot) := by
  unfold DogmosWorld.removeIncidentMixtureEdges
  split
  · exact hw
  · refine foldl_invariant (fun w key h => ?_) _ (hI w w.edges _ hw)
    exact hI w _ _ h

namespace RecordsClosed

variable (hI : RecordsClosed I) {w : DogmosWorld F}

include hI

theorem applyMutation {progress : DogmosWorld F × Std.TreeSet UInt32}
    (mutation : LifecycleMutation) (hw : I progress.1) : I (applyMutation progress mutation).1 := by
  obtain ⟨w, invalidated⟩ := progress
  have hinvalidated : I (w.invalidateContinuationsForMixtureSlot mutation.handle.slot) :=
    hI.invalidateContinuations _ hw
  unfold DogmosWorld.applyMutation
  dsimp only
  split
  · split
    · exact hI.putMixture _ _ _ (fun _ => ⟨rfl, fun _ hrecord => (Option.some.inj hrecord).symm⟩)
        hinvalidated
    · exact hw
  · exact hI.putMixture _ _ _ (fun _ => ⟨rfl, nofun⟩) hinvalidated

theorem commitLifecycle (mutations : List LifecycleMutation) (hw : I w) :
    I (w.commitLifecycle mutations) := by
  have hfold : ∀ (l : List LifecycleMutation) (progress : DogmosWorld F × Std.TreeSet UInt32),
      I progress.1 → I (l.foldl DogmosWorld.applyMutation progress).1 := by
    intro l
    induction l with
    | nil => exact fun _ h => h
    | cons mutation rest ih => exact fun progress h => ih _ (hI.applyMutation mutation h)
  unfold DogmosWorld.commitLifecycle
  refine foldl_invariant (fun _ mixture h => hI.detachMixture mixture h) _ ?_
  refine foldl_invariant (fun _ slot h => hI.edges.removeIncidentMixtureEdges slot h) _ ?_
  exact hfold mutations _ (hI.growMixtures w _ hw)

end RecordsClosed

/-! ## Every operation -/

variable [FloatFormat D] [FloatCast F D]

/-- A batch keeps what the writes of batches on turfs keep, when the one that registers mixtures
does. -/
theorem keeps_exec_of_groundClosed (hI : GroundClosed I) {op : Op F D} (hop : op.IsBatch)
    (hlifecycle : ∀ mutations, op = .applyLifecycle mutations → Keeps I (exec op)) :
    Keeps I (exec op) := by
  cases op with
  | applyLifecycle mutations => exact hlifecycle mutations rfl
  | applyTurfLifecycle mutations =>
    refine keeps_discard (keeps_bind (keeps_rejectActiveStage _) fun _ => ?_)
    refine keeps_check_bind fun _ => keeps_bind (keeps_modify fun w hw => ?_) fun _ => keeps_pure _
    exact foldl_invariant (fun _ mutation h => hI.applyTurfMutation mutation h) _
      (hI.growTurfs w _ hw)
  | applyTurfHeat mutations =>
    refine keeps_discard (keeps_bind (keeps_rejectActiveStage _) fun _ => ?_)
    refine keeps_bind (keeps_forM fun _ _ => keeps_check _) fun _ => ?_
    refine keeps_bind (keeps_forM fun mutation _ => ?_) fun _ => keeps_pure _
    exact hI.keeps_applyTurfHeatMutation mutation
  | applyTurfHeatAdjacency mutations =>
    exact keeps_discard (keeps_batch _ mutations (keeps_applyTurfHeatAdjacencyMutation hI.topology))
  | applyTurfAdjacency mutations =>
    exact keeps_discard (keeps_batch _ mutations (keeps_applyTurfAdjacencyMutation hI.topology))
  | applyTurfFirelocks mutations =>
    exact keeps_discard (keeps_batch _ mutations (keeps_applyTurfFirelock hI.topology))
  | _ => cases hop

theorem keeps_exec_of_isBatch (hI : RecordsClosed I) {op : Op F D} (hop : op.IsBatch) :
    Keeps I (exec op) := by
  refine keeps_exec_of_groundClosed hI.toGroundClosed hop ?_
  rintro mutations rfl
  refine keeps_discard (keeps_check_bind fun _ => keeps_bind (keeps_modify fun w hw => ?_) fun _ =>
    keeps_pure _)
  exact hI.commitLifecycle mutations hw

/-- **Every operation that is no chunk** keeps what the writes of requests and batches keep. -/
theorem keeps_exec_of_not_chunk (hI : BatchClosed I)
    (hallocate : ∀ continuation, Keeps I (allocateContinuation continuation)) {op : Op F D}
    (hop : ¬op.IsChunk) : Keeps I (exec op) := by
  by_cases hbatch : op.IsBatch
  · exact keeps_exec_of_isBatch hI.toRecordsClosed hbatch
  · have hreaction : ReactionClosed I := { hI.toResumeClosed with allocate := hallocate }
    refine keeps_exec_of_resumeClosed hI.toResumeClosed hbatch (keeps_exec_of_isFrontier hI.frontier)
      fun hrun => ?_
    cases hrun with
    | reactMixture mixture target threshold eventLimit clock =>
      exact keeps_discard (keeps_reactMixture hreaction.toSequenceClosed hallocate _ _ _ _ _)
    | processStageChunk request eventLimit shouldCancel => exact absurd (.processStageChunk ..) hop

/-- **Every operation** keeps what the writes of requests and batches and the steps of chunks
keep. -/
theorem keeps_exec_of_batchClosed (hI : BatchClosed I)
    (hallocate : ∀ continuation, Keeps I (allocateContinuation continuation))
    (hstage : ∀ w w', StageStep (D := D) w w' → I w → I w') (op : Op F D) : Keeps I (exec op) := by
  by_cases hop : op.IsBatch
  · exact keeps_exec_of_isBatch hI.toRecordsClosed hop
  · exact keeps_exec { hI.toResumeClosed with allocate := hallocate } hI.frontier hstage hop

/-! ## Stages and operations that are no chunks -/

/-- The cursor and the scratch of all stages, running and kept. -/
structure StageScratch (F : Type) where
  cursor : Option StageCursor
  diffusion : Option (StageDiffusionState F)
  heat : Option (StageHeatState F)
  reactions : Option (StageReactionState F)
  components : Option (StageComponentState F)
  keptDiffusion : Option (StageDiffusionState F)
  keptHeat : Option (StageHeatState F)
  keptReactions : Option (StageReactionState F)
  keptComponents : Option (StageComponentState F)

/-- The scratch of a world. -/
def scratch (w : DogmosWorld F) : StageScratch F :=
  { cursor := w.stageCursor
    diffusion := w.stageDiffusion
    heat := w.stageHeat
    reactions := w.stageReactions
    components := w.stageComponents
    keptDiffusion := w.cachedDiffusion
    keptHeat := w.cachedHeat
    keptReactions := w.cachedReactions
    keptComponents := w.cachedComponents }

omit [FloatFormat D] [FloatCast F D] in
theorem batchClosed_scratch (origin : DogmosWorld F) :
    BatchClosed fun w : DogmosWorld F => w.scratch = origin.scratch where
  writeMixture w slot f _ h := by
    unfold writeMixture
    split <;> exact h
  edges _ _ _ h := h
  registries _ _ _ h := h
  configuration _ _ _ h := h
  events _ _ h := h
  settle _ _ hstep h := ContinuationClosed.settle
    (I := fun w : DogmosWorld F => w.scratch = origin.scratch) (fun _ _ _ h => h) hstep h
  frontier _ _ h := h
  writeTurf w slot f h := by
    unfold writeTurf
    split <;> exact h
  putTurf _ _ _ _ h := h
  growTurfs _ _ h := h
  heatActive _ _ h := h
  topology _ _ h := h
  mixtureTurfs _ _ h := h
  putMixture _ _ _ _ h := h
  growMixtures _ _ h := h

/-- Only chunks touch the scratch of stages. -/
theorem scratch_step {w : DogmosWorld F} {op : Op F D} (hop : ¬op.IsChunk) :
    (step w op).scratch = w.scratch :=
  keeps_exec_of_not_chunk (batchClosed_scratch w) (keeps_allocateContinuation fun _ _ _ h => h) hop w
    rfl

omit [FloatFormat F] in
/-- What begins by rejecting a running stage does nothing while one runs. -/
theorem final_rejected {α : Type} {w : DogmosWorld F} (hactive : w.stageCursor.isSome)
    (operation : String) (m : Unit → WorldM F α) :
    (rejectActiveStage operation >>= m).final w = w := by
  unfold rejectActiveStage final
  rw [run_bind, run_check, if_pos hactive]
  rfl

end DogmosWorld

end Dogmos
