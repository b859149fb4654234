import Dogmos.Core.State

/-!
# Continuations

A reaction sequence that reaches a reaction the client runs stops and leaves a
continuation behind.  A continuation is named by a token, a slot and a
generation; a freed slot is reused with the next generation, so a token that was
completed or invalidated never names a later continuation.
-/

namespace Dogmos

namespace DogmosWorld

variable {F : Type}

/-- `require_continuation`. -/
def requireContinuation (w : DogmosWorld F) (token : ReactionContinuationToken) :
    Except WorldError (ReactionContinuation F) :=
  match w.continuations[token.slot.toNat]? with
  | none => throw (.unknownReactionContinuation token)
  | some slot =>
    if slot.generation ≠ token.generation then
      throw (.staleReactionContinuation token slot.generation)
    else
      match slot.continuation with
      | some continuation => pure continuation
      | none => throw (.unknownReactionContinuation token)

/-- `pending_reaction_continuations`. -/
def pendingReactionContinuations (w : DogmosWorld F) : UInt32 :=
  UInt32.ofNatClamp (w.continuations.countP fun slot => slot.continuation.isSome)

/-- The world with one continuation slot replaced. -/
def setContinuation (w : DogmosWorld F) (slot : Nat) (entry : ContinuationSlot F) :
    DogmosWorld F :=
  { w with continuations := w.continuations.set slot entry }

/-- `allocate_continuation`. -/
def allocateContinuation (continuation : ReactionContinuation F) :
    WorldM F ReactionContinuationToken := do
  let w ← get
  match w.freeContinuations.getLast? with
  | some slot => do
    -- the slot stays off the free list when its generation is exhausted
    modify fun w => { w with freeContinuations := w.freeContinuations.dropLast }
    let entry := w.continuations[slot.toNat]?.getD ⟨0, none⟩
    if entry.generation = maxRevision then
      throw .reactionContinuationCapacityExceeded
    modify fun w => w.setContinuation slot.toNat ⟨entry.generation + 1, some continuation⟩
    return { slot, generation := entry.generation + 1 }
  | none => do
    if w.maxContinuations ≤ w.pendingReactionContinuations then
      throw .reactionContinuationCapacityExceeded
    if 2 ^ 32 ≤ w.continuations.length then
      throw .reactionContinuationCapacityExceeded
    modify fun w => { w with continuations := w.continuations ++ [⟨1, some continuation⟩] }
    return { slot := UInt32.ofNat w.continuations.length, generation := 1 }

/-- `rotate_continuation`. -/
def rotateContinuation (token : ReactionContinuationToken)
    (continuation : ReactionContinuation F) : WorldM F ReactionContinuationToken := do
  let _ ← Exec.check fun w => w.requireContinuation token
  if token.generation = maxRevision then
    throw .reactionContinuationCapacityExceeded
  modify fun w => w.setContinuation token.slot.toNat ⟨token.generation + 1, some continuation⟩
  return { slot := token.slot, generation := token.generation + 1 }

/-- The world after a continuation slot is vacated and put on the free list. -/
def freeContinuation (w : DogmosWorld F) (slot : Nat) (generation : UInt32) : DogmosWorld F :=
  { w.setContinuation slot ⟨generation, none⟩ with
    freeContinuations := w.freeContinuations ++ [UInt32.ofNat slot] }

/-- `complete_continuation`. -/
def completeContinuation (token : ReactionContinuationToken) : WorldM F Unit := do
  let _ ← Exec.check fun w => w.requireContinuation token
  modify fun w => w.freeContinuation token.slot.toNat token.generation

/-- `cancel_reaction`. -/
def cancelReaction (token : ReactionContinuationToken) : WorldM F Unit :=
  completeContinuation token

/-- The loop of the two invalidations over the continuation slots. -/
def invalidateContinuations (w : DogmosWorld F) (p : ReactionContinuation F → Bool) :
    DogmosWorld F :=
  w.continuations.zipIdx.foldl
    (fun w (entry, slot) =>
      if entry.continuation.any p then w.freeContinuation slot entry.generation else w)
    w

/-- `invalidate_continuations_for_mixture_slot`. -/
def invalidateContinuationsForMixtureSlot (w : DogmosWorld F) (mixtureSlot : UInt32) :
    DogmosWorld F :=
  w.invalidateContinuations fun continuation => continuation.mixture.slot = mixtureSlot

/-- `invalidate_continuations_for_turf_slot`. -/
def invalidateContinuationsForTurfSlot (w : DogmosWorld F) (turfSlot : UInt32) :
    DogmosWorld F :=
  w.invalidateContinuations fun continuation =>
    continuation.turf.any fun turf => turf.slot = turfSlot

end DogmosWorld

end Dogmos
