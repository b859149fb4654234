import Dogmos.Core.Continuations
import Dogmos.Core.Lifecycle
import Dogmos.Core.Reactions

/-!
# Reaction sequences

A mixture reacts by running its reactions in order of priority.  Native reactions
change a copy of the record, and the first reaction the client has to run stops
the sequence.  `reactMixture` starts a sequence on request, `resumeReaction`
continues one from a continuation; both write the copy back only when a native
reaction ran.
-/

namespace Dogmos

/-- The number of events a sequence adds. -/
def ReactionSequence.eventCount {F : Type} (sequence : ReactionSequence F) : Nat :=
  sequence.events.length + if sequence.pending.isSome then 1 else 0

namespace DogmosWorld

variable {F D : Type} [FloatFormat F] [FloatFormat D] [FloatCast F D]

/-- `require_handle_mut`: what it hands out, with the slot settled. -/
def requireHandleMut (handle : MixtureHandle) : WorldM F (MixtureRecord F) := do
  let mixture ← Exec.check fun w => w.requireHandle handle
  modify fun w => w.writeMixture handle.slot.toNat fun record => record
  return mixture

/-- A counter moved on, unless that leaves its range. -/
def countUp (count : UInt32) (text : String) : Except WorldError UInt32 :=
  if count = maxRevision then throw (.state text) else pure (count + 1)

/-- Fails when a sequence that changed its mixture cannot raise the mixture's revision. -/
def requireSequenceRevision (handle : MixtureHandle) (sequence : ReactionSequence F) :
    Except WorldError Unit :=
  if 0 < sequence.nativeUpdates ∧ sequence.mixture.revision = maxRevision then
    throw (.revisionExhausted handle)
  else pure ()

/-- The sequence after a native reaction ran; `cost` is the time it took when it is profiled. -/
def recordNative (handle : MixtureHandle) (target : GameplayHandle) (reaction : ReactionId)
    (kind : NativeReactionKind) (outcome : NativeOutcome F) (threshold : Option F) (cost : F)
    (sequence : ReactionSequence F) : Except WorldError (ReactionSequence F) := do
  let workItems ← countUp sequence.workItems "reaction work count exceeds u32"
  let nativeUpdates ← countUp sequence.nativeUpdates "native reaction count exceeds u32"
  let finished := WorldEvent.reactionFinished handle target reaction kind outcome.values
  let profiled :=
    if threshold.any fun threshold => threshold ≤ cost then
      [WorldEvent.reactionProfiled handle target reaction cost]
    else []
  pure
    { sequence with
      mixture :=
        { sequence.mixture with gases := outcome.gases, temperature := outcome.temperature }
      workItems
      nativeUpdates
      flags := sequence.flags ||| (reactionReacting ||| reactionVolatile)
      events := sequence.events ++ finished :: profiled }

/-- The sequence stopped at a reaction the client runs. -/
def pauseSequence (handle : MixtureHandle) (reaction : ReactionId) (index : Nat)
    (sequence : ReactionSequence F) : Except WorldError (ReactionSequence F) := do
  let workItems ← countUp sequence.workItems "reaction work count exceeds u32"
  requireSequenceRevision handle sequence
  if 2 ^ 32 ≤ index + 1 then
    throw (.state "reaction index exceeds u32")
  pure
    { sequence with
      workItems
      pending := some { reaction, nextReactionIndex := UInt32.ofNat (index + 1) } }

/-- The loop of `evaluate_reaction_sequence`; `clock` gives the time the reaction at a position
of the priority order takes. -/
def runReactions (gases : GasMetadataRegistry F) (reactions : ReactionMetadataRegistry F)
    (handle : MixtureHandle) (target : GameplayHandle) (threshold : Option F) (clock : Nat → F) :
    List (ReactionId × Nat) → ReactionSequence F → Except WorldError (ReactionSequence F)
  | [], sequence => do
    requireSequenceRevision handle sequence
    pure sequence
  | (id, index) :: rest, sequence =>
    let mixture := sequence.mixture
    if !reactions.isReactable id mixture.temperature mixture.gases gases then
      runReactions gases reactions handle target threshold clock rest sequence
    else
      match reactions.byId id with
      | none => runReactions gases reactions handle target threshold clock rest sequence
      | some reaction =>
        match reaction.execution with
        | .dm => pauseSequence handle id index sequence
        | .native kind => do
          let outcome ← (executeNative kind mixture.gases mixture.temperature mixture.volume
            mixture.minimumHeatCapacity gases).mapError fun error => .state error.display
          match outcome with
          | none => runReactions gases reactions handle target threshold clock rest sequence
          | some outcome =>
            let sequence ← recordNative handle target id kind outcome threshold (clock index) sequence
            runReactions gases reactions handle target threshold clock rest sequence

/-- The reaction registry, or the error of an operation that needs it. -/
def requireReactions (w : DogmosWorld F) : Except WorldError (ReactionMetadataRegistry F) :=
  match w.reactionRegistry with
  | some registry => pure registry
  | none => throw .reactionRegistryMissing

/-- `evaluate_reaction_sequence`. -/
def evaluateReactionSequence (w : DogmosWorld F) (target : GameplayHandle)
    (handle : MixtureHandle) (startIndex initialFlags : UInt32) (threshold : Option F)
    (clock : Nat → F) : Except WorldError (ReactionSequence F) := do
  let gases ← w.requireGases
  let reactions ← w.requireReactions
  let mixture ← w.requireHandle handle
  let sequence : ReactionSequence F :=
    { mixture, events := [], pending := none, flags := initialFlags, workItems := 0
      nativeUpdates := 0 }
  if mixture.immutable then pure sequence
  else
    runReactions gases reactions handle target threshold clock
      (reactions.priorityOrder.zipIdx.drop startIndex.toNat) sequence

/-- `reactable_reactions_into`. -/
def reactableReactions (w : DogmosWorld F) (handle : MixtureHandle) :
    Except WorldError (List ReactionId) := do
  let gases ← w.requireGases
  let reactions ← w.requireReactions
  let mixture ← w.requireHandle handle
  pure (reactions.reactableIds mixture.temperature mixture.gases gases)

/-- `validate_reaction_profile_threshold`. -/
def validateReactionProfileThreshold (threshold : Option F) : Except WorldError Unit :=
  if invalidOptional threshold then throw .invalidReactionProfileThreshold else pure ()

/-- Fails when the events a request adds do not fit. -/
def requireEventCapacity (w : DogmosWorld F) (added capacity : Nat) : Except WorldError Unit :=
  if capacity < w.events.length + added then
    throw (.eventCapacityExceeded (UInt32.ofNatClamp (w.events.length + added))
      (UInt32.ofNatClamp capacity))
  else pure ()

/-- Writes the mixture of a sequence back. -/
def writeSequence (handle : MixtureHandle) (sequence : ReactionSequence F) : WorldM F Unit := do
  if 0 < sequence.nativeUpdates then
    let current ← requireHandleMut handle
    modify fun w => w.writeMixture handle.slot.toNat fun _ =>
      { sequence.mixture with
        gases := canonicalizeGases sequence.mixture.gases
        revision := current.revision + 1 }

/-- The world with events added behind the pending ones. -/
def pushEvents (w : DogmosWorld F) (events : List (WorldEvent F)) : DogmosWorld F :=
  { w with events := w.events ++ events }

/-- The event that asks the client to run the reaction a sequence stopped at. -/
def dmReactionEvent (continuation : ReactionContinuation F) (pending : PendingDmReaction)
    (token : ReactionContinuationToken) : WorldEvent F :=
  .runDmReaction continuation.turf continuation.mixture continuation.target pending.reaction token

/-- `react_mixture_with_event_limit`. -/
def reactMixture (mixture : MixtureHandle) (target : GameplayHandle) (threshold : Option F)
    (eventLimit : UInt32) (clock : Nat → F) : WorldM F ReactionProgress := do
  Exec.check fun _ => validateReactionProfileThreshold threshold
  let sequence ← Exec.check fun w =>
    w.evaluateReactionSequence target mixture 0 0 threshold clock
  Exec.check fun w => w.requireEventCapacity sequence.eventCount
    (min w.maxEvents eventLimit).toNat
  let continuationEvent ←
    match sequence.pending with
    | none => pure []
    | some pending => do
      let continuation : ReactionContinuation F :=
        { turf := none, mixture, target, nextReactionIndex := pending.nextReactionIndex
          reactionProfileThresholdMs := threshold }
      let token ← allocateContinuation continuation
      pure [dmReactionEvent continuation pending token]
  writeSequence mixture sequence
  modify fun w => w.pushEvents (sequence.events ++ continuationEvent)
  return { flags := sequence.flags, workItems := sequence.workItems
           pending := sequence.pending.isSome }

/-- The checks of `resume_reaction_inner` on the continuation it resumes. -/
def requireResumable (w : DogmosWorld F) (token : ReactionContinuationToken) :
    Except WorldError (ReactionContinuation F) := do
  let continuation ← w.requireContinuation token
  let _ ← w.requireHandle continuation.mixture
  match continuation.turf with
  | none => pure ()
  | some handle =>
    let turf ← w.requireTurfHandle handle
    if turf.mixture ≠ some continuation.mixture then
      throw (.turfMissingMixture handle)
  pure continuation

/-- `resume_reaction_inner`. -/
def resumeReactionInner (token : ReactionContinuationToken) (reactionResult eventLimit : UInt32)
    (clock : Nat → F) : WorldM F (ReactionProgress × UInt32) := do
  if reactionResult &&& ~~~reactionFlags ≠ 0 then
    throw (.invalidReactionResult reactionResult)
  let continuation ← Exec.check fun w => w.requireResumable token
  if reactionResult &&& reactionStop ≠ 0 then
    completeContinuation token
    return ({ flags := reactionResult, workItems := 0, pending := false }, 0)
  let sequence ← Exec.check fun w =>
    w.evaluateReactionSequence continuation.target continuation.mixture
      continuation.nextReactionIndex reactionResult continuation.reactionProfileThresholdMs clock
  Exec.check fun w => w.requireEventCapacity sequence.eventCount
    (min w.maxEvents eventLimit).toNat
  let continuationEvent ←
    match sequence.pending with
    | none => do
      completeContinuation token
      pure []
    | some pending => do
      let continuation := { continuation with nextReactionIndex := pending.nextReactionIndex }
      let token ← rotateContinuation token continuation
      pure [dmReactionEvent continuation pending token]
  writeSequence continuation.mixture sequence
  modify fun w => w.pushEvents (sequence.events ++ continuationEvent)
  return ({ flags := sequence.flags, workItems := sequence.workItems
            pending := sequence.pending.isSome },
    sequence.nativeUpdates)

/-- `resume_reaction_with_result_and_event_limit`. -/
def resumeReactionWithResult (token : ReactionContinuationToken)
    (reactionResult eventLimit : UInt32) (clock : Nat → F) : WorldM F ReactionProgress := do
  let (progress, _) ← resumeReactionInner token reactionResult eventLimit clock
  return progress

/-- `resume_reaction_with_event_limit`. -/
def resumeReactionWithEventLimit (token : ReactionContinuationToken) (eventLimit : UInt32)
    (clock : Nat → F) : WorldM F UInt32 := do
  let (_, nativeUpdates) ← resumeReactionInner token 0 eventLimit clock
  return nativeUpdates

/-- `discard_pending_events`. -/
def discardPendingEvents (count : UInt32) : WorldM F Unit := do
  let w ← get
  if w.events.length < count.toNat then
    throw (.pendingEventCountExceeded count (UInt32.ofNatClamp w.events.length))
  modify fun w => { w with events := w.events.drop count.toNat }

/-- `pending_events`. -/
def pendingEvents (w : DogmosWorld F) (maximum : UInt32) : List (WorldEvent F) :=
  w.events.take maximum.toNat

/-- `drain_events_into`. -/
def drainEvents (maximum : UInt32) : WorldM F (List (WorldEvent F)) := do
  let w ← get
  modify fun w => { w with events := w.events.drop maximum.toNat }
  return w.events.take maximum.toNat

end DogmosWorld

end Dogmos
