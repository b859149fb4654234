import Dogmos.Core.React
import Dogmos.Stage.Diffusion

/-!
# The reaction stage

`React` runs the reaction sequence of every mixture of the frontier once, except
those that wait for a continuation.  The first sequence that reaches a reaction
of the client ends the stage: a continuation is allocated for it, and the staged
records become visible with one publication.
-/

namespace Dogmos

namespace DogmosWorld

variable {F D : Type} [FloatFormat F] [FloatFormat D] [FloatCast F D]

/-- The scratch a running reaction stage owns. -/
def reactionState : WorldM F (StageReactionState F) :=
  Exec.check fun w =>
    match w.stageReactions with
    | some state => pure state
    | none => throw (.state "reaction stage owns reaction state")

/-- Writes the scratch of a running reaction stage. -/
def setReactions (state : StageReactionState F) : WorldM F Unit :=
  modify fun w => { w with stageReactions := some state }

/-- `prepare_stage_reaction_turf`. -/
def prepareStageReactionTurf (turf : TurfHandle) : WorldM F Unit := do
  let w ← get
  match w.capturableMixture turf with
  | none => return ()
  | some mixture => do
    let state ← reactionState
    setReactions { state with targets := state.targets ++ [(turf, mixture)] }

/-- The time of a reaction that is not profiled. -/
def unprofiled (_index : Nat) : F := 0.0

/-- The scratch with the outcome of the sequence of one target. -/
def stagedSequence (state : StageReactionState F) (turf : TurfHandle) (mixture : MixtureHandle)
    (sequence : ReactionSequence F) : StageReactionState F :=
  { state with
    stagedEvents := state.stagedEvents ++ sequence.events
    pending :=
      match sequence.pending with
      | some pending => some (turf, mixture, pending)
      | none => state.pending }

/-- `compute_stage_reaction_target`. -/
def computeStageReactionTarget (index : Nat) : WorldM F Unit := do
  let state ← reactionState
  match state.targets[index]? with
  | none => return ()
  | some (turf, mixture) => do
    let (inserted, seenMixtures) := SlotSet.insertNew state.seenMixtures mixture
    let state := { state with seenMixtures }
    setReactions state
    if !inserted || SlotSet.contains state.activeContinuations mixture then
      return ()
    let sequence ← Exec.check fun w =>
      w.evaluateReactionSequence (.ofTurf turf) mixture 0 0 none unprofiled
    setReactions (stagedSequence state turf mixture sequence)
    if 0 < sequence.nativeUpdates then
      modify fun w => w.stageMixture mixture.slot.toNat state.publication
        { sequence.mixture with
          gases := canonicalizeGases sequence.mixture.gases
          revision := sequence.mixture.revision + 1 }

/-- The number of events a reaction stage adds. -/
def reactionEventCount (state : StageReactionState F) : Nat :=
  state.stagedEvents.length + if state.pending.isSome then 1 else 0

/-- The continuation of the sequence that ended the stage, with the event that asks for it. -/
def allocateStageContinuation (state : StageReactionState F) :
    WorldM F (Option (ReactionContinuationToken × WorldEvent F)) :=
  match state.pending with
  | none => return none
  | some (turf, mixture, pending) => do
    let continuation : ReactionContinuation F :=
      { turf := some turf, mixture, target := .ofTurf turf
        nextReactionIndex := pending.nextReactionIndex, reactionProfileThresholdMs := none }
    let token ← allocateContinuation continuation
    return some (token, dmReactionEvent continuation pending token)

/-- `commit_stage_reactions`: the number of targets and of events. -/
def commitStageReactions (eventCapacity : Nat) : WorldM F (UInt32 × UInt32) := do
  let state ← reactionState
  Exec.check fun w => w.requireEventCapacity (reactionEventCount state) eventCapacity
  modify fun w => { w with stageReactions := none }
  let continuation ← allocateStageContinuation state
  let w ← get
  if !w.publications.undecided state.publication then
    match continuation with
    | some (token, _) => completeContinuation token
    | none => pure ()
    throw (.stageConflict
      (.activeStageMutation "publish reactions after a concurrent write"))
  modify fun w =>
    { w with
      publications := w.publications.publish state.publication
      events := w.events ++ state.stagedEvents ++ (continuation.map Prod.snd).toList }.cacheReactions
      { state with pending := none }
  return (UInt32.ofNatClamp state.targets.length, UInt32.ofNatClamp (reactionEventCount state))

end DogmosWorld

end Dogmos
