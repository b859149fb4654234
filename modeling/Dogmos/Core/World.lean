import Dogmos.Lib.System
import Dogmos.Core.Commands
import Dogmos.Core.TurfOps
import Dogmos.Stage.Driver

/-!
# Runs of a world

`Op` lists the operations a world offers that can change it, with everything
they are given: requests, limits, and the answers of the clock, of the check for
cancellation and of the allocator to an upload.  `step` is the state an operation leaves, whether it succeeded
or was rejected, and `Reachable` the states of all runs from a new world.
-/

namespace Dogmos

variable {F D : Type}

/-- The operations that can change a world. -/
inductive Op (F D : Type)
  | setRealisticSpaceRadiation (enabled : Bool)
  | setEqualizeHardTurfLimit (limit : UInt32)
  | beginFrontier (epoch : UInt64) (expected : UInt32) (reserve : Nat → Bool)
  | appendFrontier (epoch : UInt64) (offset : UInt32) (handles : List TurfHandle)
      (reserve : Nat → Bool)
  | commitFrontier (epoch : UInt64)
  | addFrontier (epoch : UInt64) (handles : List TurfHandle)
  | removeFrontier (epoch : UInt64) (handles : List TurfHandle)
  | installGases (gases : List (GasMetadata F))
  | installReactions (reactions : List (ReactionMetadata F))
  | applyLifecycle (mutations : List LifecycleMutation)
  | applyTurfLifecycle (mutations : List TurfLifecycleMutation)
  | applyTurfHeat (mutations : List (TurfHeatMutation F))
  | applyTurfHeatAdjacency (mutations : List TurfAdjacencyMutation)
  | applyTurfAdjacency (mutations : List TurfAdjacencyMutation)
  | applyTurfFirelocks (mutations : List TurfFirelockMutation)
  | applyAdjacency (mutations : List (AdjacencyMutation F))
  | applyMixtureState (mutations : List (MixtureStateMutation F))
  | reconcilePipenet (handles : List MixtureHandle)
  | applyCommand (command : Command F) (clock : Nat → F)
  | reactMixture (mixture : MixtureHandle) (target : GameplayHandle) (threshold : Option F)
      (eventLimit : UInt32) (clock : Nat → F)
  | resumeReaction (token : ReactionContinuationToken) (reactionResult eventLimit : UInt32)
      (clock : Nat → F)
  | cancelReaction (token : ReactionContinuationToken)
  | processStageChunk (request : StageChunkRequest D) (eventLimit : UInt32)
      (shouldCancel : Nat → Bool)
  | drainEvents (maximum : UInt32)
  | discardPendingEvents (count : UInt32)

namespace DogmosWorld

variable [FloatFormat F] [FloatFormat D] [FloatCast F D]

/-- A computation whose value is not looked at. -/
def discard {α : Type} (m : WorldM F α) : WorldM F Unit := do
  let _ ← m
  pure ()

/-- The computation of an operation. -/
def exec : Op F D → WorldM F Unit
  | .setRealisticSpaceRadiation enabled =>
    modify fun w => w.setRealisticSpaceRadiation enabled
  | .setEqualizeHardTurfLimit limit => setEqualizeHardTurfLimit limit
  | .beginFrontier epoch expected reserve => beginFrontier epoch expected reserve
  | .appendFrontier epoch offset handles reserve =>
    discard (appendFrontier epoch offset handles reserve)
  | .commitFrontier epoch => discard (commitFrontier epoch)
  | .addFrontier epoch handles => discard (addFrontier epoch handles)
  | .removeFrontier epoch handles => discard (removeFrontier epoch handles)
  | .installGases gases => discard (installGases gases)
  | .installReactions reactions => discard (installReactions reactions)
  | .applyLifecycle mutations => discard (applyLifecycle mutations)
  | .applyTurfLifecycle mutations => discard (applyTurfLifecycle mutations)
  | .applyTurfHeat mutations => discard (applyTurfHeat mutations)
  | .applyTurfHeatAdjacency mutations => discard (applyTurfHeatAdjacency mutations)
  | .applyTurfAdjacency mutations => discard (applyTurfAdjacency mutations)
  | .applyTurfFirelocks mutations => discard (applyTurfFirelocks mutations)
  | .applyAdjacency mutations => discard (applyAdjacency mutations)
  | .applyMixtureState mutations => discard (applyMixtureState mutations)
  | .reconcilePipenet handles => discard (reconcilePipenet handles)
  | .applyCommand command clock => discard (applyCommand command clock)
  | .reactMixture mixture target threshold eventLimit clock =>
    discard (reactMixture mixture target threshold eventLimit clock)
  | .resumeReaction token reactionResult eventLimit clock =>
    discard (resumeReactionWithResult token reactionResult eventLimit clock)
  | .cancelReaction token => cancelReaction token
  | .processStageChunk request eventLimit shouldCancel =>
    discard (processStageChunk request eventLimit shouldCancel)
  | .drainEvents maximum => discard (drainEvents maximum)
  | .discardPendingEvents count => discardPendingEvents count

/-- The state an operation leaves. -/
def step (w : DogmosWorld F) (op : Op F D) : DogmosWorld F := (exec op).final w

/-- A world as its constructors make it. -/
def Initial (w : DogmosWorld F) : Prop :=
  ∃ mixtureSlotBytes turfSlotBytes maxWorldBytes maxEvents maxContinuations,
    w = newWithCapacities mixtureSlotBytes turfSlotBytes maxWorldBytes maxEvents maxContinuations

/-- The states of all runs from a new world. -/
abbrev Reachable (w : DogmosWorld F) : Prop := System.Reachable Initial (step (D := D)) w

/-- The states of the runs whose every step meets a condition. -/
abbrev ReachableWhere (C : DogmosWorld F → Op F D → Prop) (w : DogmosWorld F) : Prop :=
  System.ReachableWhere Initial step C w

section Induction

variable {I : DogmosWorld F → Prop} {w : DogmosWorld F}

/-- The invariant rule for worlds. -/
theorem reachable_induct (hinit : ∀ w, Initial w → I w)
    (hstep : ∀ w (op : Op F D), I w → I (step w op)) (h : Reachable (D := D) w) : I w :=
  System.Reachable.induct hinit hstep h

theorem reachableWhere_induct {C : DogmosWorld F → Op F D → Prop} (hinit : ∀ w, Initial w → I w)
    (hstep : ∀ w op, ReachableWhere C w → C w op → I w → I (step w op))
    (h : ReachableWhere C w) : I w :=
  System.ReachableWhere.induct hinit hstep h

end Induction

end DogmosWorld

end Dogmos
