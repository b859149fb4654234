import Dogmos.Lib.Exec
import Dogmos.Core.Frontier
import Dogmos.Core.Topology
import Dogmos.Core.Transaction
import Dogmos.Core.Versioned
import Dogmos.Core.Record

/-!
# The state of a world

The data of `DogmosWorld`: what the requests carry, the errors and events they
produce, the records behind versioned slots, the scratch state of each kind of
stage and the continuations of paused reactions.  The fields that only the
debug-build reference stages read are left out.
-/

namespace Dogmos

/-! ## Requests -/

/-- `LifecycleAction`. -/
inductive LifecycleAction
  | register
  | unregister
deriving DecidableEq

/-- `LifecycleMutation`. -/
structure LifecycleMutation where
  action : LifecycleAction
  handle : MixtureHandle
deriving DecidableEq

/-- `TurfLifecycleMutation`. -/
inductive TurfLifecycleMutation
  | register (handle : TurfHandle) (mixture : Option MixtureHandle)
  | unregister (handle : TurfHandle)
deriving DecidableEq

/-- `AdjacencyMutation`. -/
structure AdjacencyMutation (F : Type) where
  left : MixtureHandle
  right : MixtureHandle
  conductivity : F

/-- `TurfAdjacencyMutation` and `TurfHeatAdjacencyMutation`. -/
structure TurfAdjacencyMutation where
  left : TurfHandle
  right : TurfHandle
  connected : Bool
deriving DecidableEq

/-- `TurfFirelockMutation`. -/
structure TurfFirelockMutation where
  left : TurfHandle
  right : TurfHandle
  firelock : Bool
deriving DecidableEq

/-- `TurfHeatMutation`. -/
structure TurfHeatMutation (F : Type) where
  handle : TurfHandle
  state : Option (TurfHeatState F)

/-- `ReactionContinuationToken`. -/
structure ReactionContinuationToken where
  slot : UInt32
  generation : UInt32
deriving DecidableEq

/-- `Command`. -/
inductive Command (F : Type)
  | snapshot (handle : MixtureHandle)
  | setMoles (handle : MixtureHandle) (gas : GasId) (amount : F)
  | adjustMoles (handle : MixtureHandle) (gas : GasId) (delta : F)
  | adjustMolesTemperature (handle : MixtureHandle) (gas : GasId) (amount temperature : F)
  | adjustMultiple (handle : MixtureHandle) (adjustments : List (GasId × F))
  | getMoles (handle : MixtureHandle) (gas : GasId)
  | temperature (handle : MixtureHandle)
  | volume (handle : MixtureHandle)
  | heatCapacity (handle : MixtureHandle)
  | partialHeatCapacity (handle : MixtureHandle) (gas : GasId)
  | totalMoles (handle : MixtureHandle)
  | pressure (handle : MixtureHandle)
  | thermalEnergy (handle : MixtureHandle)
  | getMolesByFlags (handle : MixtureHandle) (flags : UInt32)
  | burnability (handle : MixtureHandle) (temperature : Option F)
  | setTemperature (handle : MixtureHandle) (temperature : F)
  | setVolume (handle : MixtureHandle) (volume : F)
  | setMinimumHeatCapacity (handle : MixtureHandle) (amount : F)
  | clear (handle : MixtureHandle)
  | add (handle : MixtureHandle) (amount : F)
  | multiply (handle : MixtureHandle) (factor : F)
  | copyFrom (receiver giver : MixtureHandle)
  | adjustHeat (handle : MixtureHandle) (heat : F)
  | compare (left right : MixtureHandle)
  | equalizeWith (receiver total : MixtureHandle)
  | temperatureShare (first second : MixtureHandle) (conductionCoefficient : F)
  | temperatureShareNonGas (handle : MixtureHandle)
      (conductionCoefficient sharerTemperature sharerHeatCapacity : F)
  | markImmutable (handle : MixtureHandle)
  | isImmutable (handle : MixtureHandle)
  | merge (receiver giver : MixtureHandle)
  | removeRatioInto (source destination : MixtureHandle) (ratio : F)
  | removeAmountInto (source destination : MixtureHandle) (amount : F)
  | transferGases (source destination : MixtureHandle) (ratio : F) (gases : List GasId)
  | transferAmount (source destination : MixtureHandle) (amount : F)
  | transferRatio (source destination : MixtureHandle) (ratio : F)
  | transferByFlags (source destination : MixtureHandle) (flags : UInt32) (amount : F)
  | shareRatio (first second : MixtureHandle) (ratio : F) (oneWay : Bool)
  | resumeReaction (continuation : ReactionContinuationToken)

/-- `CommandResult`. -/
inductive CommandResult (F : Type)
  | applied (updated : UInt32)
  | snapshot (snapshot : MixtureSnapshot F)
  | scalar (value : F)
  | scalars (first second : F)
  | boolean (value : Bool)

/-- `WorldStage`. -/
inductive WorldStage
  | processTurfs
  | equalize
  | excitedGroups
  | react
  | turfHeat
deriving DecidableEq

/-- `StageChunkRequest`. -/
structure StageChunkRequest (D : Type) where
  stage : WorldStage
  frontierEpoch : UInt64
  stageEpoch : UInt64
  workLimit : UInt32
  secondsPerTick : D

/-- `StageChunkResult`. -/
structure StageChunkResult where
  workItems : UInt32 := 0
  callbackEvents : UInt32 := 0
  pending : Bool := false
  remainingEstimate : UInt32 := 0
  producedEqualizeSeeds : UInt32 := 0
  producedGroupSeeds : UInt32 := 0
  producedHeatSeeds : UInt32 := 0
deriving DecidableEq

/-- `MAX_STAGE_WORK_LIMIT`. -/
def maxStageWorkLimit : UInt32 := 4096

/-- `ReactionProgress`. -/
structure ReactionProgress where
  flags : UInt32
  workItems : UInt32
  pending : Bool
deriving DecidableEq

/-- `REACTION_REACTING`. -/
def reactionReacting : UInt32 := 1

/-- `REACTION_STOP`. -/
def reactionStop : UInt32 := 2

/-- `REACTION_VOLATILE`. -/
def reactionVolatile : UInt32 := 4

/-- `REACTION_FLAGS`. -/
def reactionFlags : UInt32 := reactionReacting ||| reactionStop ||| reactionVolatile

/-! ## Errors -/

/-- `StageConflictReason`. -/
inductive StageConflictReason
  | activeStageMutation (operation : String)
  | frontierEpoch (requested : UInt64) (committed : Option UInt64)
  | cursorIdentity (requestedStage : WorldStage)
      (requestedFrontierEpoch requestedStageEpoch : UInt64) (requestedSecondsPerTickBits : Nat)
      (activeStage : WorldStage) (activeFrontierEpoch activeStageEpoch : UInt64)
      (activeSecondsPerTickBits : Nat)
  | topologyRevision (captured current : UInt64)
  | transactionGeneration (requested current : MixtureHandle)
  | transactionHandleMissing (handle : MixtureHandle)
  | transactionRevision (handle : MixtureHandle) (expected actual : UInt32)
deriving DecidableEq

/-- `WorldError`. -/
inductive WorldError
  | frontier (error : FrontierError)
  | gasMetadata (error : GasMetadataError)
  | gasRegistryAlreadyInstalled
  | gasRegistryInstallationTooLate
  | gasRegistryMissing
  | reactionMetadata (error : ReactionMetadataError)
  | reactionRegistryAlreadyInstalled
  | reactionRegistryInstallationTooLate
  | reactionRegistryMissing
  | unknownHandle (handle : MixtureHandle)
  | staleHandle (requested : MixtureHandle) (current : UInt32)
  | unknownTurfHandle (handle : TurfHandle)
  | staleTurfHandle (requested : TurfHandle) (current : UInt32)
  | revisionMismatch (handle : MixtureHandle) (expected actual : UInt32)
  | revisionExhausted (handle : MixtureHandle)
  | duplicateMixtureState (slot : UInt32)
  | invalidMixtureState
  | invalidGasId (gas : GasId)
  | invalidMoleAmount
  | invalidMoleDelta
  | moleOverflow (gas : GasId)
  | invalidTemperature
  | invalidVolume
  | invalidMinimumHeatCapacity
  | invalidAddend
  | invalidMultiplier
  | invalidHeat
  | invalidHeatCapacity
  | invalidRatio
  | sameMixtureHandles (handle : MixtureHandle)
  | selfAdjacency (slot : UInt32)
  | selfTurfAdjacency (handle : TurfHandle)
  | turfMissingMixture (handle : TurfHandle)
  | duplicateMutableTurfMixture (handle : MixtureHandle)
  | invalidTurfHeatState (handle : TurfHandle)
  | turfHeatMissing (handle : TurfHandle)
  | selfTurfHeatAdjacency (handle : TurfHandle)
  | eventCapacityExceeded (requested capacity : UInt32)
  | pendingEventCountExceeded (requested available : UInt32)
  | unknownReactionContinuation (token : ReactionContinuationToken)
  | staleReactionContinuation (requested : ReactionContinuationToken) (current : UInt32)
  | reactionContinuationCapacityExceeded
  | invalidReactionResult (result : UInt32)
  | invalidReactionProfileThreshold
  | invalidConductivity
  | invalidEqualizeHardTurfLimit
  | invalidSecondsPerTick
  | invalidStageWorkLimit (limit : UInt32)
  | stageConflict (reason : StageConflictReason)
  | graph (text : String)
  | state (text : String)
  | stateCapacityExceeded
  | cancelled
deriving DecidableEq

/-- `map_topology_error`. -/
def mapTopologyError (error : TopologyError) : WorldError := .graph error.debug

/-- `transaction_world_error`. -/
def transactionWorldError : TransactionError → WorldError
  | .capacityExceeded => .stateCapacityExceeded
  | .handleConflict requested current => .stageConflict (.transactionGeneration requested current)
  | .unknownHandle handle => .duplicateMutableTurfMixture handle
  | .sameHandle handle => .duplicateMutableTurfMixture handle

/-! ## Events and continuations -/

/-- `WorldEvent`. -/
inductive WorldEvent (F : Type)
  | pressureDifference (source target : TurfHandle) (moles : F)
  | decompressionFloorRip (turf : TurfHandle) (molesLost : F)
  | firelockConsideration (source target : TurfHandle)
  | runDmReaction (turf : Option TurfHandle) (mixture : MixtureHandle) (target : GameplayHandle)
      (reaction : ReactionId) (continuation : ReactionContinuationToken)
  | reactionFinished (mixture : MixtureHandle) (target : GameplayHandle) (reaction : ReactionId)
      (kind : NativeReactionKind) (values : Vector F 4)
  | reactionProfiled (mixture : MixtureHandle) (target : GameplayHandle) (reaction : ReactionId)
      (costMs : F)
  | turfDestructionRequest (turf : TurfHandle)

/-- `ReactionContinuation`. -/
structure ReactionContinuation (F : Type) where
  turf : Option TurfHandle
  mixture : MixtureHandle
  target : GameplayHandle
  nextReactionIndex : UInt32
  reactionProfileThresholdMs : Option F

/-- `ContinuationSlot`. -/
structure ContinuationSlot (F : Type) where
  generation : UInt32
  continuation : Option (ReactionContinuation F)

/-- `PendingDmReaction`. -/
structure PendingDmReaction where
  reaction : ReactionId
  nextReactionIndex : UInt32
deriving DecidableEq

/-- `ReactionSequence`. -/
structure ReactionSequence (F : Type) where
  mixture : MixtureRecord F
  events : List (WorldEvent F)
  pending : Option PendingDmReaction
  flags : UInt32
  workItems : UInt32
  nativeUpdates : UInt32

/-! ## The scratch state of the stages -/

/-- `StageCursor`. -/
structure StageCursor where
  stage : WorldStage
  frontierEpoch : UInt64
  stageEpoch : UInt64
  secondsPerTickBits : Nat
  topologyRevision : UInt64
  nextFrontierIndex : UInt32
deriving DecidableEq

/-- `StageDiffusionState`. -/
structure StageDiffusionState (F : Type) where
  publication : PublicationId
  turfs : List TurfHandle
  mixtures : List MixtureHandle
  indexByTurf : SlotIndex TurfHandle Nat
  seenMixtures : SlotSet MixtureHandle
  input : List (Gases F)
  output : List (Gases F)
  inputTemperatures : List F
  minimumHeatCapacities : List F
  inputEnergy : List F
  outputEnergy : List F
  specificHeats : Gases F
  gasStride : Nat
  nextNode : Nat

/-- `HeatEdge`. -/
structure HeatEdge (F : Type) where
  first : Nat
  second : Nat
  firstWeight : F
  secondWeight : F

/-- `StageHeatNode`. -/
structure StageHeatNode (F : Type) where
  handle : TurfHandle
  heat : TurfHeatState F
  mixture : Option MixtureHandle
  canContinue : Bool

/-- `StageHeatState`. -/
structure StageHeatState (F : Type) where
  maximumRowSum : F
  stagedHeatActive : List TurfHandle
  publication : PublicationId
  publicationIndex : Nat
  nodes : List (StageHeatNode F)
  indexBySlot : SlotIndex UInt32 Nat
  temperatures : List F
  conductivities : List F
  heatCapacities : List F
  stagedMixtures : Std.TreeMap MixtureHandle (MixtureRecord F)
  linkedMixtures : SlotSet MixtureHandle
  stagedEvents : List (WorldEvent F)
  nextActiveSeed : Nat
  nextNode : Nat
  nextTopologyNode : Nat
  nextTopologyNeighbor : Nat
  edges : List (HeatEdge F)
  rowSums : List F
  conductionSubsteps : Option UInt32
  conductionSubstep : UInt32
  conductionEdge : Nat
  conductionScale : F

/-- `StageReactionState`. -/
structure StageReactionState (F : Type) where
  publication : PublicationId
  targets : List (TurfHandle × MixtureHandle)
  activeContinuations : SlotSet MixtureHandle
  seenMixtures : SlotSet MixtureHandle
  stagedEvents : List (WorldEvent F)
  pending : Option (TurfHandle × MixtureHandle × PendingDmReaction)
  nextTarget : Nat

/-- `ComponentKernel`. -/
structure ComponentKernel (F : Type) where
  handles : List TurfHandle
  handlesBySlot : SlotIndex UInt32 TurfHandle
  turfs : SlotIndex TurfHandle (TurfRecord F)
  mixtures : SlotIndex MixtureHandle (MixtureRecord F)
  topology : SlotIndex TurfHandle (List TopologyNeighbor)
  gasRegistry : Option (GasMetadataRegistry F)
  equalizeHardTurfLimit : UInt32

/-- `Computation`: a component computation in flight.  What it will return is fixed when it is
created; `polls` counts the times it still yields before it does. -/
structure Computation (F : Type) where
  polls : Nat
  kernel : ComponentKernel F
  transaction : IndexedTransaction (MixtureRecord F)
  events : List (WorldEvent F)
  result : Except WorldError UInt32

/-- `StageComponentState`. -/
structure StageComponentState (F : Type) where
  computed : Bool
  publication : PublicationId
  publicationIndex : Nat
  targets : List TurfHandle
  activeBySlot : SlotIndex UInt32 TurfHandle
  visited : SlotSet UInt32
  nextSeed : Nat
  queue : List TurfHandle
  queueIndex : Nat
  nextNeighbor : Nat
  componentReady : Bool
  componentKernel : Option (ComponentKernel F)
  computation : Option (Computation F)
  preparedTurfs : Nat
  transaction : IndexedTransaction (MixtureRecord F)
  publishedMixtures : SlotSet MixtureHandle
  stagedEvents : List (WorldEvent F)
  callbackEvents : UInt32
  componentsProcessed : UInt32

/-! ## The world -/

/-- `MixtureSlot`. -/
structure MixtureSlot (F : Type) where
  generation : Option UInt32
  mixture : Versioned (MixtureRecord F)

/-- `TurfSlot`. -/
structure TurfSlot (F : Type) where
  generation : Option UInt32
  turf : Versioned (TurfRecord F)

/-- `EdgeKey`: an unordered pair of slots. -/
structure EdgeKey where
  left : UInt32
  right : UInt32
deriving DecidableEq

/-- The key an edge key compares by. -/
def EdgeKey.key (edge : EdgeKey) : ℕ ×ₗ ℕ := toLex (edge.left.toNat, edge.right.toNat)

theorem EdgeKey.key_injective : Function.Injective EdgeKey.key := by
  rintro ⟨a, b⟩ ⟨c, d⟩ h
  simpa [EdgeKey.key, UInt32.toNat_inj] using h

instance : LinearOrder EdgeKey := LinearOrder.lift' EdgeKey.key EdgeKey.key_injective

instance : Std.LawfulEqOrd EdgeKey := ⟨compare_eq_iff_eq.1⟩

/-- `EdgeKey::new`. -/
def EdgeKey.new (left right : UInt32) : Except WorldError EdgeKey :=
  if left = right then throw (.selfAdjacency left)
  else pure { left := min left right, right := max left right }

/-- `DogmosWorld`; `publications` holds the state of every publication token made so far, and
the two sizes are those of a mixture slot and a turf slot in bytes. -/
structure DogmosWorld (F : Type) where
  frontier : FrontierState
  heatActive : List TurfHandle
  stageCursor : Option StageCursor
  stageDiffusion : Option (StageDiffusionState F)
  cachedDiffusion : Option (StageDiffusionState F)
  stageHeat : Option (StageHeatState F)
  cachedHeat : Option (StageHeatState F)
  stageReactions : Option (StageReactionState F)
  cachedReactions : Option (StageReactionState F)
  stageComponents : Option (StageComponentState F)
  cachedComponents : Option (StageComponentState F)
  gasRegistry : Option (GasMetadataRegistry F)
  reactionRegistry : Option (ReactionMetadataRegistry F)
  mixtures : List (MixtureSlot F)
  turfs : List (TurfSlot F)
  edges : Std.TreeMap EdgeKey F
  mixtureEdges : Std.TreeMap UInt32 (Std.TreeSet EdgeKey)
  mixtureTurfs : Std.TreeMap MixtureHandle (Std.TreeSet UInt32)
  topology : PackedTopology
  events : List (WorldEvent F)
  maxEvents : UInt32
  maxContinuations : UInt32
  continuations : List (ContinuationSlot F)
  freeContinuations : List UInt32
  realisticSpaceRadiation : Bool
  equalizeHardTurfLimit : UInt32
  maxWorldBytes : UInt64
  mixtureSlotBytes : Nat
  turfSlotBytes : Nat
  publications : Publications

/-- A computation on a world. -/
abbrev WorldM (F α : Type) := Exec WorldError (DogmosWorld F) α

/-- `DEFAULT_EVENT_CAPACITY`. -/
def defaultEventCapacity : UInt32 := 4096

/-- `DEFAULT_EQUALIZE_HARD_TURF_LIMIT`. -/
def defaultEqualizeHardTurfLimit : UInt32 := 2000

namespace DogmosWorld

variable {F : Type}

/-- `DogmosWorld::new_with_capacities`, on a platform with the given slot sizes. -/
def newWithCapacities (mixtureSlotBytes turfSlotBytes : Nat) (maxWorldBytes : UInt64)
    (maxEvents maxContinuations : UInt32) : DogmosWorld F :=
  { frontier := .empty
    heatActive := []
    stageCursor := none
    stageDiffusion := none
    cachedDiffusion := none
    stageHeat := none
    cachedHeat := none
    stageReactions := none
    cachedReactions := none
    stageComponents := none
    cachedComponents := none
    gasRegistry := none
    reactionRegistry := none
    mixtures := []
    turfs := []
    edges := ∅
    mixtureEdges := ∅
    mixtureTurfs := ∅
    topology := .empty
    events := []
    maxEvents
    maxContinuations
    continuations := []
    freeContinuations := []
    realisticSpaceRadiation := true
    equalizeHardTurfLimit := defaultEqualizeHardTurfLimit
    maxWorldBytes
    mixtureSlotBytes
    turfSlotBytes
    publications := [] }

/-- `DogmosWorld::new_with_event_capacity`. -/
def newWithEventCapacity (mixtureSlotBytes turfSlotBytes : Nat) (maxWorldBytes : UInt64)
    (maxEvents : UInt32) : DogmosWorld F :=
  newWithCapacities mixtureSlotBytes turfSlotBytes maxWorldBytes maxEvents maxEvents

/-- `DogmosWorld::new`. -/
def new (mixtureSlotBytes turfSlotBytes : Nat) (maxWorldBytes : UInt64) : DogmosWorld F :=
  newWithEventCapacity mixtureSlotBytes turfSlotBytes maxWorldBytes defaultEventCapacity

/-! ## Reading records -/

/-- The record of a mixture slot that is visible. -/
def mixtureAt (w : DogmosWorld F) (slot : Nat) : Option (MixtureRecord F) :=
  w.mixtures[slot]?.bind fun entry => entry.mixture.asRef w.publications

/-- The record of a turf slot that is visible. -/
def turfAt (w : DogmosWorld F) (slot : Nat) : Option (TurfRecord F) :=
  w.turfs[slot]?.bind fun entry => entry.turf.asRef w.publications

/-- `require_handle`. -/
def requireHandle (w : DogmosWorld F) (handle : MixtureHandle) :
    Except WorldError (MixtureRecord F) :=
  match w.mixtures[handle.slot.toNat]? with
  | none => throw (.unknownHandle handle)
  | some slot =>
    match slot.generation with
    | none => throw (.unknownHandle handle)
    | some generation =>
      if generation ≠ handle.generation then throw (.staleHandle handle generation)
      else
        match slot.mixture.asRef w.publications with
        | some mixture => pure mixture
        | none => throw (.unknownHandle handle)

/-- `require_turf_handle`. -/
def requireTurfHandle (w : DogmosWorld F) (handle : TurfHandle) :
    Except WorldError (TurfRecord F) :=
  match w.turfs[handle.slot.toNat]? with
  | none => throw (.unknownTurfHandle handle)
  | some slot =>
    match slot.generation with
    | none => throw (.unknownTurfHandle handle)
    | some generation =>
      if generation ≠ handle.generation then throw (.staleTurfHandle handle generation)
      else
        match slot.turf.asRef w.publications with
        | some turf => pure turf
        | none => throw (.unknownTurfHandle handle)

/-- `current_turf_handle`. -/
def currentTurfHandle (w : DogmosWorld F) (slot : UInt32) : Except WorldError TurfHandle :=
  match w.turfs[slot.toNat]?.bind TurfSlot.generation with
  | none => throw (.unknownTurfHandle ⟨slot, 0⟩)
  | some generation => do
    let _ ← w.requireTurfHandle ⟨slot, generation⟩
    pure ⟨slot, generation⟩

/-! ## Writing records -/

/-- The world after `as_mut` on a mixture slot and a write through it. -/
def writeMixture (w : DogmosWorld F) (slot : Nat) (f : MixtureRecord F → MixtureRecord F) :
    DogmosWorld F :=
  match w.mixtures[slot]? with
  | none => w
  | some entry =>
    let settled := entry.mixture.settled w.publications
    { w with
      mixtures := w.mixtures.set slot
        { entry with mixture := { settled with current := settled.current.map f } }
      publications := entry.mixture.settleTokens w.publications }

/-- The world after `as_mut` on a turf slot and a write through it. -/
def writeTurf (w : DogmosWorld F) (slot : Nat) (f : TurfRecord F → TurfRecord F) : DogmosWorld F :=
  match w.turfs[slot]? with
  | none => w
  | some entry =>
    let settled := entry.turf.settled w.publications
    { w with
      turfs := w.turfs.set slot
        { entry with turf := { settled with current := settled.current.map f } }
      publications := entry.turf.settleTokens w.publications }

/-- The world after `Versioned::stage` on a mixture slot. -/
def stageMixture (w : DogmosWorld F) (slot : Nat) (id : PublicationId)
    (candidate : MixtureRecord F) : DogmosWorld F :=
  match w.mixtures[slot]? with
  | none => w
  | some entry =>
    { w with
      mixtures := w.mixtures.set slot
        { entry with mixture := entry.mixture.stage w.publications id candidate }
      publications := entry.mixture.stageTokens w.publications id }

/-- The world after `Versioned::stage` on a turf slot. -/
def stageTurf (w : DogmosWorld F) (slot : Nat) (id : PublicationId) (candidate : TurfRecord F) :
    DogmosWorld F :=
  match w.turfs[slot]? with
  | none => w
  | some entry =>
    { w with
      turfs := w.turfs.set slot
        { entry with turf := entry.turf.stage w.publications id candidate }
      publications := entry.turf.stageTokens w.publications id }

/-- The candidate `Versioned::prepared_mut` hands out on a mixture slot. -/
def preparedMixture (w : DogmosWorld F) (slot : Nat) (id : PublicationId) :
    Option (MixtureRecord F) :=
  w.mixtures[slot]?.bind fun entry => entry.mixture.prepared w.publications id

/-- The candidate `Versioned::prepared_mut` hands out on a turf slot. -/
def preparedTurf (w : DogmosWorld F) (slot : Nat) (id : PublicationId) : Option (TurfRecord F) :=
  w.turfs[slot]?.bind fun entry => entry.turf.prepared w.publications id

/-- The world after `Versioned::prepared_mut` on a turf slot and a write through it. -/
def writePreparedTurf (w : DogmosWorld F) (slot : Nat) (id : PublicationId)
    (f : TurfRecord F → TurfRecord F) : DogmosWorld F :=
  match w.preparedTurf slot id with
  | some candidate => w.stageTurf slot id (f candidate)
  | none => w

/-- The world after `Versioned::prepare` on a mixture slot. -/
def prepareMixture (w : DogmosWorld F) (slot : Nat) (id : PublicationId) : DogmosWorld F :=
  match w.preparedMixture slot id with
  | some candidate => w.stageMixture slot id candidate
  | none => w

/-- The world after `Versioned::prepare` on a turf slot. -/
def prepareTurf (w : DogmosWorld F) (slot : Nat) (id : PublicationId) : DogmosWorld F :=
  w.writePreparedTurf slot id fun turf => turf

end DogmosWorld

end Dogmos
