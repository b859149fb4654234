import Dogmos.Core.Continuations
import Dogmos.Core.Graph
import Dogmos.Lib.SetIndex

/-!
# Lifecycle operations of a world

Configuration, the frontier, the two registries, and the batches that register
and unregister mixtures.  A batch is checked as a whole against the slots it
would leave (`projectMutation`) and applied afterwards.
-/

namespace Dogmos

namespace DogmosWorld

variable {F : Type}

/-- Fails while a stage is running. -/
def rejectActiveStage (operation : String) : WorldM F Unit :=
  Exec.check fun w =>
    if w.stageCursor.isSome then throw (.stageConflict (.activeStageMutation operation))
    else pure ()

/-! ## Configuration -/

/-- `set_realistic_space_radiation`. -/
def setRealisticSpaceRadiation (w : DogmosWorld F) (enabled : Bool) : DogmosWorld F :=
  { w with realisticSpaceRadiation := enabled }

/-- `set_equalize_hard_turf_limit`. -/
def setEqualizeHardTurfLimit (limit : UInt32) : WorldM F Unit := do
  if limit = 0 then
    throw .invalidEqualizeHardTurfLimit
  modify fun w => { w with equalizeHardTurfLimit := limit }

/-! ## The frontier -/

/-- A call on the frontier. -/
def onFrontier {α : Type} (call : Exec FrontierError FrontierState α) : WorldM F α :=
  Exec.embed DogmosWorld.frontier (fun w frontier => { w with frontier }) WorldError.frontier call

/-- The number of turf slots, as the frontier counts them. -/
def turfSlotCount (w : DogmosWorld F) : UInt32 := UInt32.ofNatClamp w.turfs.length

/-- `begin_frontier`. -/
def beginFrontier (epoch : UInt64) (expected : UInt32) (reserve : Nat → Bool) :
    WorldM F Unit := do
  rejectActiveStage "begin frontier"
  let w ← get
  onFrontier (FrontierState.begin epoch expected w.turfSlotCount reserve)

/-- `append_frontier`. -/
def appendFrontier (epoch : UInt64) (offset : UInt32) (handles : List TurfHandle)
    (reserve : Nat → Bool) : WorldM F UInt32 :=
  onFrontier (FrontierState.append epoch offset handles reserve)

/-- Requires every handle of a list. -/
def requireTurfHandles (handles : List TurfHandle) : WorldM F Unit :=
  handles.forM fun handle => do
    let _ ← Exec.check fun w => w.requireTurfHandle handle
    pure ()

/-- `commit_frontier`. -/
def commitFrontier (epoch : UInt64) : WorldM F UInt32 := do
  rejectActiveStage "commit frontier"
  let pending ← Exec.check fun w => (w.frontier.pending epoch).mapError WorldError.frontier
  requireTurfHandles pending
  let w ← get
  modify fun w => { w with frontier := (w.frontier.commitValidated epoch).2 }
  return (w.frontier.commitValidated epoch).1

/-- `add_frontier`. -/
def addFrontier (epoch : UInt64) (handles : List TurfHandle) : WorldM F UInt32 := do
  rejectActiveStage "add frontier handles"
  requireTurfHandles handles
  let w ← get
  onFrontier (FrontierState.add epoch handles w.turfSlotCount)

/-- `remove_frontier`. -/
def removeFrontier (epoch : UInt64) (handles : List TurfHandle) : WorldM F UInt32 := do
  rejectActiveStage "remove frontier handles"
  onFrontier (FrontierState.remove epoch handles)

/-! ## The registries -/

section Registries

variable [FloatFormat F]

/-- `install_gases`. -/
def installGases (gases : List (GasMetadata F)) : WorldM F UInt32 := do
  let w ← get
  if w.gasRegistry.isSome then
    throw .gasRegistryAlreadyInstalled
  if ¬w.mixtures.isEmpty then
    throw .gasRegistryInstallationTooLate
  let registry ← Exec.check fun _ => (GasMetadataRegistry.tryNew gases).mapError .gasMetadata
  modify fun w => { w with gasRegistry := some registry }
  return registry.len

/-- The gas registry, or the error of an operation that needs it. -/
def requireGases (w : DogmosWorld F) : Except WorldError (GasMetadataRegistry F) :=
  match w.gasRegistry with
  | some registry => pure registry
  | none => throw .gasRegistryMissing

/-- `install_reactions`. -/
def installReactions (reactions : List (ReactionMetadata F)) : WorldM F UInt32 := do
  let w ← get
  if w.reactionRegistry.isSome then
    throw .reactionRegistryAlreadyInstalled
  if ¬w.mixtures.isEmpty then
    throw .reactionRegistryInstallationTooLate
  let gases ← Exec.check requireGases
  let registry ← Exec.check fun _ =>
    (ReactionMetadataRegistry.tryNew reactions gases).mapError .reactionMetadata
  modify fun w => { w with reactionRegistry := some registry }
  return registry.len

/-- `reaction_event_bound`. -/
def reactionEventBound (w : DogmosWorld F) : UInt32 :=
  match w.reactionRegistry with
  | none => 0
  | some registry => UInt32.ofNatClamp (min (registry.len.toNat * 2) (2 ^ 32 - 1) + 1)

end Registries

/-! ## Projected slots -/

/-- `ProjectedSlot`: what a slot holds after the mutations of a batch that were checked so
far. -/
structure ProjectedSlot where
  generation : Option UInt32
  occupied : Bool
deriving DecidableEq

/-- `projected_slot`. -/
def projectedSlot (w : DogmosWorld F) (slot : UInt32) : ProjectedSlot :=
  match w.mixtures[slot.toNat]? with
  | none => { generation := none, occupied := false }
  | some entry =>
    { generation := entry.generation
      occupied := (entry.mixture.asRef w.publications).isSome }

/-- `projected_turf_slot`. -/
def projectedTurfSlot (w : DogmosWorld F) (slot : UInt32) : ProjectedSlot :=
  match w.turfs[slot.toNat]? with
  | none => { generation := none, occupied := false }
  | some entry =>
    { generation := entry.generation
      occupied := (entry.turf.asRef w.publications).isSome }

/-- The projected slots of a batch. -/
abbrev Projection := Std.TreeMap UInt32 ProjectedSlot

/-- `validate_world_capacity`. -/
def validateWorldCapacity (w : DogmosWorld F) (mixtureSlots turfSlots : Nat) :
    Except WorldError Unit :=
  if w.maxWorldBytes.toNat < mixtureSlots * w.mixtureSlotBytes + turfSlots * w.turfSlotBytes then
    throw .stateCapacityExceeded
  else pure ()

/-- `validate_slot_capacity`. -/
def validateSlotCapacity (w : DogmosWorld F) (slot : UInt32) : Except WorldError Unit :=
  w.validateWorldCapacity (slot.toNat + 1) w.turfs.length

/-- `validate_turf_slot_capacity`. -/
def validateTurfSlotCapacity (w : DogmosWorld F) (slot : UInt32) : Except WorldError Unit :=
  w.validateWorldCapacity w.mixtures.length (slot.toNat + 1)

/-- The table with every slot of a list. -/
def growSlots {α : Type} (table : List α) (slots : List UInt32) (vacant : α) : List α :=
  slots.foldl (fun table slot => growTo table slot.toNat vacant) table

/-! ## Mixture ownership -/

/-- `unlink_mixture_edge`. -/
def unlinkMixtureEdge (w : DogmosWorld F) (key : EdgeKey) : DogmosWorld F :=
  { w with mixtureEdges := SetIndex.unlink (SetIndex.unlink w.mixtureEdges key.left key) key.right key }

/-- `remove_incident_mixture_edges`. -/
def removeIncidentMixtureEdges (w : DogmosWorld F) (slot : UInt32) : DogmosWorld F :=
  match w.mixtureEdges[slot]? with
  | none => w
  | some edges =>
    edges.toList.foldl (fun w key => { w with edges := w.edges.erase key }.unlinkMixtureEdge key)
      { w with mixtureEdges := w.mixtureEdges.erase slot }

/-- `remove_incident_turf_edges`. -/
def removeIncidentTurfEdges (w : DogmosWorld F) (slot : UInt32) : DogmosWorld F :=
  { w with topology := w.topology.removeSlot slot }

/-- The turf forgets its mixture and loses its edges. -/
def detachTurf (w : DogmosWorld F) (slot : UInt32) : DogmosWorld F :=
  (w.writeTurf slot.toNat fun turf => { turf with mixture := none }).removeIncidentTurfEdges slot

/-- The turfs of an unregistered mixture forget it and lose their edges. -/
def detachMixture (w : DogmosWorld F) (mixture : MixtureHandle) : DogmosWorld F :=
  match w.mixtureTurfs[mixture]? with
  | none => w
  | some turfs =>
    turfs.toList.foldl detachTurf { w with mixtureTurfs := w.mixtureTurfs.erase mixture }

/-! ## Mixture lifecycle -/

/-- Whether a checked mutation conflicts with a running stage. -/
def conflictsWithActiveStage (mutation : LifecycleMutation)
    (current : ProjectedSlot) : Bool :=
  match mutation.action with
  | .register => current.occupied && current.generation ≠ some mutation.handle.generation
  | .unregister => true

/-- The check of `apply_lifecycle` on one mutation. -/
def projectMutation (w : DogmosWorld F) (projected : Projection) (mutation : LifecycleMutation) :
    Except WorldError Projection := do
  let handle := mutation.handle
  w.validateSlotCapacity handle.slot
  let current := (projected[handle.slot]?).getD (w.projectedSlot handle.slot)
  if w.stageCursor.isSome ∧ conflictsWithActiveStage mutation current then
    throw (.stageConflict (.activeStageMutation "apply mixture lifecycle"))
  match mutation.action with
  | .register =>
    match current.generation with
    | some generation =>
      if handle.generation < generation ∨ ¬current.occupied ∧ handle.generation = generation then
        throw (.staleHandle handle generation)
    | none => pure ()
    pure (projected.insert handle.slot { generation := some handle.generation, occupied := true })
  | .unregister =>
    match current.generation with
    | none => throw (.unknownHandle handle)
    | some generation =>
      if handle.generation ≠ generation then
        throw (.staleHandle handle generation)
      if ¬current.occupied then
        throw (.unknownHandle handle)
      pure (projected.insert handle.slot { generation := some generation, occupied := false })

variable [FloatFormat F]

/-- Whether registering a handle puts a new record in its slot. -/
def replacesMixture (w : DogmosWorld F) (handle : MixtureHandle) : Bool :=
  match w.mixtures[handle.slot.toNat]? with
  | none => true
  | some entry =>
    entry.generation ≠ some handle.generation || (entry.mixture.asRef w.publications).isNone

/-- The world with the record of one mixture slot replaced. -/
def putMixture (w : DogmosWorld F) (slot : UInt32) (f : MixtureSlot F → MixtureSlot F) :
    DogmosWorld F :=
  { w with mixtures := w.mixtures.modify slot.toNat f }

/-- One mutation of `apply_lifecycle`, with the slots whose edges have to go. -/
def applyMutation (progress : DogmosWorld F × Std.TreeSet UInt32) (mutation : LifecycleMutation) :
    DogmosWorld F × Std.TreeSet UInt32 :=
  let (w, invalidated) := progress
  let handle := mutation.handle
  match mutation.action with
  | .register =>
    if w.replacesMixture handle then
      ((w.invalidateContinuationsForMixtureSlot handle.slot).putMixture handle.slot fun _ =>
          { generation := some handle.generation, mixture := .new (some MixtureRecord.new) },
        invalidated.insert handle.slot)
    else (w, invalidated)
  | .unregister =>
    ((w.invalidateContinuationsForMixtureSlot handle.slot).putMixture handle.slot fun entry =>
        { entry with mixture := .vacant },
      invalidated.insert handle.slot)

/-- The mixtures a batch unregisters. -/
def unregistering (mutations : List LifecycleMutation) : Std.TreeSet MixtureHandle :=
  (mutations.filter fun mutation => mutation.action = .unregister).foldl
    (fun handles mutation => handles.insert mutation.handle) ∅

/-- The writing half of `apply_lifecycle`. -/
def commitLifecycle (w : DogmosWorld F) (mutations : List LifecycleMutation) : DogmosWorld F :=
  let grown :=
    { w with
      mixtures := growSlots w.mixtures (mutations.map fun mutation => mutation.handle.slot)
        { generation := none, mixture := .vacant } }
  let (applied, invalidated) := mutations.foldl applyMutation (grown, ∅)
  (unregistering mutations).toList.foldl detachMixture
    (invalidated.toList.foldl removeIncidentMixtureEdges applied)

/-- `apply_lifecycle`. -/
def applyLifecycle (mutations : List LifecycleMutation) : WorldM F UInt32 := do
  let _ ← Exec.check fun w => mutations.foldlM w.projectMutation ∅
  modify fun w => w.commitLifecycle mutations
  return UInt32.ofNat mutations.length

end DogmosWorld

end Dogmos
