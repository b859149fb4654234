import Dogmos.Core.World
import Dogmos.Runs.Chunks

/-!
# Operations that leave turfs alone

Most operations of a world are requests on mixtures, reactions and stages.  What
the writes of requests and the steps of chunks keep is kept by all of them
(`keeps_exec`); what is left are the batches that register and connect mixtures
and turfs (`Op.IsBatch`).  Two operations can pause a sequence that did not wait
before (`Op.IsRun`), and `keeps_exec_of_resumeClosed` treats them apart.
-/

namespace Dogmos

variable {F D : Type}

/-- The batches that change turfs, their edges or the registered mixtures. -/
inductive Op.IsBatch : Op F D → Prop
  | applyLifecycle (mutations) : IsBatch (.applyLifecycle mutations)
  | applyTurfLifecycle (mutations) : IsBatch (.applyTurfLifecycle mutations)
  | applyTurfHeat (mutations) : IsBatch (.applyTurfHeat mutations)
  | applyTurfHeatAdjacency (mutations) : IsBatch (.applyTurfHeatAdjacency mutations)
  | applyTurfAdjacency (mutations) : IsBatch (.applyTurfAdjacency mutations)
  | applyTurfFirelocks (mutations) : IsBatch (.applyTurfFirelocks mutations)

/-- The operations that write the frontier. -/
inductive Op.IsFrontier : Op F D → Prop
  | beginFrontier (epoch expected reserve) : IsFrontier (.beginFrontier epoch expected reserve)
  | appendFrontier (epoch offset handles reserve) :
    IsFrontier (.appendFrontier epoch offset handles reserve)
  | commitFrontier (epoch) : IsFrontier (.commitFrontier epoch)
  | addFrontier (epoch handles) : IsFrontier (.addFrontier epoch handles)
  | removeFrontier (epoch handles) : IsFrontier (.removeFrontier epoch handles)

/-- The operations that install a registry. -/
inductive Op.IsInstall : Op F D → Prop
  | installGases (gases) : IsInstall (.installGases gases)
  | installReactions (reactions) : IsInstall (.installReactions reactions)

/-- The chunks of stages. -/
inductive Op.IsChunk : Op F D → Prop
  | processStageChunk (request eventLimit shouldCancel) :
      IsChunk (.processStageChunk request eventLimit shouldCancel)

/-- The operations that run reaction sequences from their start. -/
inductive Op.IsRun : Op F D → Prop
  | reactMixture (mixture target threshold eventLimit clock) :
      IsRun (.reactMixture mixture target threshold eventLimit clock)
  | processStageChunk (request eventLimit shouldCancel) :
      IsRun (.processStageChunk request eventLimit shouldCancel)

namespace DogmosWorld

open Exec

variable [FloatFormat F] [FloatFormat D] [FloatCast F D] {I : DogmosWorld F → Prop}

omit [FloatFormat F] in
theorem keeps_discard {α : Type} {m : WorldM F α} (h : Keeps I m) : Keeps I (discard m) :=
  keeps_bind h fun _ => keeps_pure _

omit [FloatFormat F] in
theorem final_discard {α : Type} (m : WorldM F α) (w : DogmosWorld F) :
    (discard m).final w = m.final w := by
  unfold discard final
  rw [run_bind]
  rcases run m w with ⟨error | a, v⟩ <;> rfl

theorem keeps_exec_of_isFrontier (hI : FrontierClosed I) {op : Op F D} (hop : op.IsFrontier) :
    Keeps I (exec op) := by
  cases hop with
  | beginFrontier epoch expected reserve => exact keeps_beginFrontier hI _ _ _
  | appendFrontier epoch offset handles reserve =>
    exact keeps_discard (keeps_appendFrontier hI _ _ _ _)
  | commitFrontier epoch => exact keeps_discard (keeps_commitFrontier hI _)
  | addFrontier epoch handles => exact keeps_discard (keeps_addFrontier hI _ _)
  | removeFrontier epoch handles => exact keeps_discard (keeps_removeFrontier hI _ _)

theorem keeps_exec_of_isInstall (hI : RegistriesClosed I) {op : Op F D} (hop : op.IsInstall) :
    Keeps I (exec op) := by
  cases hop with
  | installGases gases => exact keeps_discard (keeps_installGases hI _)
  | installReactions reactions => exact keeps_discard (keeps_installReactions hI _)

/-- Operations that are no batches keep what commands and resumed sequences keep, when those
that write edges, a registry or the frontier and those that run sequences do. -/
theorem keeps_exec_of_sequenceClosed (hI : SequenceClosed I) {op : Op F D} (hop : ¬op.IsBatch)
    (hadjacency : ∀ mutations, op = .applyAdjacency mutations → Keeps I (exec op))
    (hinstall : op.IsInstall → Keeps I (exec op))
    (hfrontier : op.IsFrontier → Keeps I (exec op)) (hrun : op.IsRun → Keeps I (exec op)) :
    Keeps I (exec op) := by
  have hwrite := hI.toWriteClosed
  cases op with
  | setRealisticSpaceRadiation enabled =>
    exact keeps_modify fun w hw => hI.configuration w _ _ hw
  | setEqualizeHardTurfLimit limit => exact keeps_setEqualizeHardTurfLimit hwrite limit
  | beginFrontier epoch expected reserve => exact hfrontier (.beginFrontier ..)
  | appendFrontier epoch offset handles reserve => exact hfrontier (.appendFrontier ..)
  | commitFrontier epoch => exact hfrontier (.commitFrontier ..)
  | addFrontier epoch handles => exact hfrontier (.addFrontier ..)
  | removeFrontier epoch handles => exact hfrontier (.removeFrontier ..)
  | installGases gases => exact hinstall (.installGases gases)
  | installReactions reactions => exact hinstall (.installReactions reactions)
  | applyLifecycle mutations => exact absurd (.applyLifecycle mutations) hop
  | applyTurfLifecycle mutations => exact absurd (.applyTurfLifecycle mutations) hop
  | applyTurfHeat mutations => exact absurd (.applyTurfHeat mutations) hop
  | applyTurfHeatAdjacency mutations => exact absurd (.applyTurfHeatAdjacency mutations) hop
  | applyTurfAdjacency mutations => exact absurd (.applyTurfAdjacency mutations) hop
  | applyTurfFirelocks mutations => exact absurd (.applyTurfFirelocks mutations) hop
  | applyAdjacency mutations => exact hadjacency mutations rfl
  | applyMixtureState mutations => exact keeps_discard (keeps_applyMixtureState hwrite _)
  | reconcilePipenet handles => exact keeps_discard (keeps_reconcilePipenet hwrite _)
  | applyCommand command clock => exact keeps_discard (keeps_applyCommand hI _ _)
  | reactMixture mixture target threshold eventLimit clock => exact hrun (.reactMixture ..)
  | resumeReaction token reactionResult eventLimit clock =>
    exact keeps_discard (keeps_resumeReactionWithResult hI _ _ _ _)
  | cancelReaction token => exact hI.complete _
  | processStageChunk request eventLimit shouldCancel => exact hrun (.processStageChunk ..)
  | drainEvents maximum =>
    refine keeps_discard (keeps_get_bind fun w => keeps_bind (keeps_modify ?_) fun _ => keeps_pure _)
    exact fun w hw => hI.events w _ hw
  | discardPendingEvents count =>
    refine keeps_get_bind fun w => keeps_ite (fun _ => keeps_throw _) fun _ => keeps_modify ?_
    exact fun w hw => hI.events w _ hw

/-- Operations that are no batches keep what requests and resumed sequences keep, when those
that write the frontier and those that run sequences do. -/
theorem keeps_exec_of_resumeClosed (hI : ResumeClosed I) {op : Op F D} (hop : ¬op.IsBatch)
    (hfrontier : op.IsFrontier → Keeps I (exec op)) (hrun : op.IsRun → Keeps I (exec op)) :
    Keeps I (exec op) := by
  refine keeps_exec_of_sequenceClosed hI.toSequenceClosed hop ?_
    (keeps_exec_of_isInstall hI.registries) hfrontier hrun
  rintro mutations rfl
  exact keeps_discard (keeps_applyAdjacency hI.edges _)

/-- **Operations that are no batches** keep what requests and chunks keep. -/
theorem keeps_exec (hI : ReactionClosed I) (hfrontier : FrontierClosed I)
    (hstage : ∀ w w', StageStep (D := D) w w' → I w → I w') {op : Op F D} (hop : ¬op.IsBatch) :
    Keeps I (exec op) := by
  refine keeps_exec_of_resumeClosed hI.toResumeClosed hop (keeps_exec_of_isFrontier hfrontier)
    fun hrun => ?_
  cases hrun with
  | reactMixture mixture target threshold eventLimit clock =>
    exact keeps_discard (keeps_reactMixture hI.toSequenceClosed hI.allocate _ _ _ _ _)
  | processStageChunk request eventLimit shouldCancel =>
    refine keeps_discard fun w hw => ?_
    exact processStageChunk_induct hstage w request eventLimit shouldCancel hw

end DogmosWorld

end Dogmos
