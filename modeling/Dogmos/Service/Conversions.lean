import Dogmos.Core.World
import Dogmos.Wire.Requests
import Dogmos.Wire.ReactionMetadata
import Dogmos.Wire.Telemetry

/-!
# From the wire to the world and back

A request names mixtures, turfs and gameplay objects by wire handles and carries its numbers in
the wide format; the service hands the world its own handles and narrowed numbers.  What the
world reports goes the other way: its events become callback events and its errors become errors
of the service.

* `coreMutation` and its kin, `coreCommand` — the requests as the world takes them.
* `pendingCallbackFromWorldEvent` — an event as a callback of the client.
* `mapWorldError` — the errors of the world as errors of the service.
-/

namespace Dogmos

namespace Service

/-! ## Handles -/

/-- `core_handle`. -/
def coreHandle (handle : WireHandle) : MixtureHandle := ⟨handle.slot, handle.generation⟩

/-- `core_turf_handle`. -/
def coreTurfHandle (handle : WireHandle) : TurfHandle := ⟨handle.slot, handle.generation⟩

/-- `core_gameplay_handle`. -/
def coreGameplayHandle (handle : WireHandle) : GameplayHandle := ⟨handle.slot, handle.generation⟩

/-- `wire_handle`. -/
def wireHandle (handle : MixtureHandle) : WireHandle := ⟨handle.slot, handle.generation⟩

/-- `wire_handle_from_turf`. -/
def wireHandleFromTurf (handle : TurfHandle) : WireHandle := ⟨handle.slot, handle.generation⟩

/-- `wire_handle_from_gameplay`. -/
def wireHandleFromGameplay (handle : GameplayHandle) : WireHandle :=
  ⟨handle.slot, handle.generation⟩

/-! ## Mutations -/

/-- A number of the wire in the format of the world. -/
def narrowed (value : ScalarValue) : F32 := narrow value.val

/-- A number of the world on the wire. -/
def widened (value : F32) : ScalarValue := ⟨widen value⟩

def coreLifecycleAction : Wire.LifecycleAction → LifecycleAction
  | .register => .register
  | .unregister => .unregister

def coreLifecycleMutation (mutation : Wire.LifecycleMutation) : LifecycleMutation :=
  { action := coreLifecycleAction mutation.action, handle := coreHandle mutation.handle }

def coreTurfLifecycleMutation (mutation : Wire.TurfLifecycleMutation) : TurfLifecycleMutation :=
  match mutation.action with
  | .register => .register (coreTurfHandle mutation.turf) (mutation.mixture.map coreHandle)
  | .unregister => .unregister (coreTurfHandle mutation.turf)

def coreAdjacencyMutation (mutation : Wire.AdjacencyMutation) : AdjacencyMutation F32 :=
  { left := coreHandle mutation.left
    right := coreHandle mutation.right
    conductivity := narrowed mutation.conductivity }

def coreTurfAdjacencyMutation (mutation : Wire.TurfAdjacencyMutation) : TurfAdjacencyMutation :=
  { left := coreTurfHandle mutation.left
    right := coreTurfHandle mutation.right
    connected := mutation.connected }

def coreTurfFirelockMutation (mutation : Wire.TurfAdjacencyMutation) : TurfFirelockMutation :=
  { left := coreTurfHandle mutation.left
    right := coreTurfHandle mutation.right
    firelock := mutation.firelock }

def coreTurfHeatMutation (mutation : Wire.TurfHeatMutation) : TurfHeatMutation F32 :=
  { handle := coreTurfHandle mutation.turf
    state := mutation.state.map fun state =>
      { temperature := narrowed state.temperature
        thermalConductivity := narrowed state.thermalConductivity
        heatCapacity := narrowed state.heatCapacity
        adjacentToSpace := state.adjacentToSpace } }

def coreTurfHeatAdjacencyMutation (mutation : Wire.TurfHeatAdjacencyMutation) :
    TurfAdjacencyMutation :=
  { left := coreTurfHandle mutation.left
    right := coreTurfHandle mutation.right
    connected := mutation.connected }

def coreMixtureStateMutation (mutation : Wire.MixtureStateMutation) : MixtureStateMutation F32 :=
  { handle := coreHandle mutation.handle
    expectedRevision := mutation.expectedRevision
    temperature := narrowed mutation.temperature
    volume := narrowed mutation.volume
    gases := mutation.gases.map narrowed }

def coreAdjustment (adjustment : Wire.MixtureAdjustment) : GasId × F32 :=
  (⟨adjustment.gasId⟩, narrowed adjustment.delta)

/-! ## Registrations -/

def coreFireRole : Wire.WireGasFireRole → GasFireRole F32
  | .none => .none
  | .oxidizer minimumTemperature power => .oxidizer (narrowed minimumTemperature) (narrowed power)
  | .fuel minimumTemperature burnRate => .fuel (narrowed minimumTemperature) (narrowed burnRate)

def coreFireProducts : Wire.WireFireProducts → FireProductRule F32
  | .generic products =>
    .generic (products.map fun product => { gas := ⟨product.gasId⟩, ratio := narrowed product.ratio })
  | .plasma => .plasma

/-- The conversion of `install_gases`. -/
def coreGas (entry : Wire.GasMetadataRegistration) : GasMetadata F32 :=
  { id := ⟨entry.id⟩
    key := entry.key
    name := entry.name
    flags := entry.flags
    specificHeat := narrowed entry.specificHeat
    fusionPower := narrowed entry.fusionPower
    molesVisible := entry.molesVisible.map narrowed
    enthalpy := narrowed entry.enthalpy
    fireRadiationReleased := narrowed entry.fireRadiationReleased
    fireRole := coreFireRole entry.fireRole
    fireProducts := entry.fireProducts.map coreFireProducts }

def coreExecution : Wire.WireReactionExecution → ReactionExecution
  | .dm => .dm
  | .nativePlasma => .native .plasma
  | .nativeHydrogen => .native .hydrogen
  | .nativeTritium => .native .tritium
  | .nativeFreon => .native .freon

/-- The conversion of `install_reactions`. -/
def coreReaction (entry : Wire.ReactionMetadataRegistration) : ReactionMetadata F32 :=
  { id := ⟨entry.id⟩
    key := entry.key
    priority := narrowed entry.priority
    minimumTemperature := entry.minimumTemperature.map narrowed
    maximumTemperature := entry.maximumTemperature.map narrowed
    minimumEnergy := entry.minimumEnergy.map narrowed
    minimumFireReagents := entry.minimumFireReagents.map narrowed
    gasRequirements := entry.gasRequirements.map fun requirement =>
      { gas := ⟨requirement.gasId⟩, minimumMoles := narrowed requirement.minimumMoles }
    execution := coreExecution entry.execution }

/-! ## Commands -/

/-- The gases of a mask. -/
def maskedGases (gasMask : UInt32) : List GasId :=
  ((List.range maxGasSlots).filter fun index => gasMask &&& (1 <<< UInt32.ofNat index) ≠ 0).map
    fun index => ⟨UInt16.ofNat index⟩

/-- The conversion of `apply_mixture_command`: every request other than a reaction is a command of
the world. -/
def coreCommand : MixtureCommandRequest → Option (Command F32)
  | .setMoles handle gasId amount =>
    some (.setMoles (coreHandle handle) ⟨gasId⟩ (narrowed amount))
  | .adjustMoles handle gasId delta =>
    some (.adjustMoles (coreHandle handle) ⟨gasId⟩ (narrowed delta))
  | .adjustMolesTemperature handle gasId amount temperature =>
    some (.adjustMolesTemperature (coreHandle handle) ⟨gasId⟩ (narrowed amount)
      (narrowed temperature))
  | .getMoles handle gasId => some (.getMoles (coreHandle handle) ⟨gasId⟩)
  | .temperature handle => some (.temperature (coreHandle handle))
  | .volume handle => some (.volume (coreHandle handle))
  | .heatCapacity handle => some (.heatCapacity (coreHandle handle))
  | .partialHeatCapacity handle gasId => some (.partialHeatCapacity (coreHandle handle) ⟨gasId⟩)
  | .totalMoles handle => some (.totalMoles (coreHandle handle))
  | .pressure handle => some (.pressure (coreHandle handle))
  | .thermalEnergy handle => some (.thermalEnergy (coreHandle handle))
  | .getMolesByFlags handle flags => some (.getMolesByFlags (coreHandle handle) flags)
  | .burnability handle temperature =>
    some (.burnability (coreHandle handle) (temperature.map narrowed))
  | .setTemperature handle temperature =>
    some (.setTemperature (coreHandle handle) (narrowed temperature))
  | .setVolume handle volume => some (.setVolume (coreHandle handle) (narrowed volume))
  | .setMinimumHeatCapacity handle amount =>
    some (.setMinimumHeatCapacity (coreHandle handle) (narrowed amount))
  | .clear handle => some (.clear (coreHandle handle))
  | .add handle amount => some (.add (coreHandle handle) (narrowed amount))
  | .multiply handle factor => some (.multiply (coreHandle handle) (narrowed factor))
  | .copyFrom receiver giver => some (.copyFrom (coreHandle receiver) (coreHandle giver))
  | .adjustHeat handle heat => some (.adjustHeat (coreHandle handle) (narrowed heat))
  | .compare left right => some (.compare (coreHandle left) (coreHandle right))
  | .equalizeWith receiver total => some (.equalizeWith (coreHandle receiver) (coreHandle total))
  | .temperatureShare first second conductionCoefficient =>
    some (.temperatureShare (coreHandle first) (coreHandle second)
      (narrowed conductionCoefficient))
  | .temperatureShareNonGas handle conductionCoefficient sharerTemperature sharerHeatCapacity =>
    some (.temperatureShareNonGas (coreHandle handle) (narrowed conductionCoefficient)
      (narrowed sharerTemperature) (narrowed sharerHeatCapacity))
  | .markImmutable handle => some (.markImmutable (coreHandle handle))
  | .isImmutable handle => some (.isImmutable (coreHandle handle))
  | .merge receiver giver => some (.merge (coreHandle receiver) (coreHandle giver))
  | .removeRatioInto source destination ratio =>
    some (.removeRatioInto (coreHandle source) (coreHandle destination) (narrowed ratio))
  | .removeAmountInto source destination amount =>
    some (.removeAmountInto (coreHandle source) (coreHandle destination) (narrowed amount))
  | .transferGases source destination ratio gasMask =>
    some (.transferGases (coreHandle source) (coreHandle destination) (narrowed ratio)
      (maskedGases gasMask))
  | .transferAmount source destination amount =>
    some (.transferAmount (coreHandle source) (coreHandle destination) (narrowed amount))
  | .transferRatio source destination ratio =>
    some (.transferRatio (coreHandle source) (coreHandle destination) (narrowed ratio))
  | .transferByFlags source destination flags amount =>
    some (.transferByFlags (coreHandle source) (coreHandle destination) flags (narrowed amount))
  | .shareRatio first second ratio oneWay =>
    some (.shareRatio (coreHandle first) (coreHandle second) (narrowed ratio) oneWay)
  | .react .. => none

/-! ## Stages and scopes -/

/-- `simulation_stage`. -/
def simulationStage : Wire.SimulationStage → WorldStage
  | .processTurfs => .processTurfs
  | .processTurfEqualize => .equalize
  | .processExcitedGroups => .excitedGroups
  | .processTurfHeat => .turfHeat
  | .processReactions => .react

/-- `simulation_stage_from_world`. -/
def simulationStageFromWorld : WorldStage → Wire.SimulationStage
  | .processTurfs => .processTurfs
  | .equalize => .processTurfEqualize
  | .excitedGroups => .processExcitedGroups
  | .turfHeat => .processTurfHeat
  | .react => .processReactions

/-- `callback_scope`. -/
def callbackScope (transactionId : UInt64) : Wire.CallbackScope :=
  if transactionId = 0 then .general else .reaction

/-! ## Callback events -/

/-- `callback_kind_index`: the two kinds a reaction reports with share a counter. -/
def callbackKindIndex : Wire.CallbackEventKind → Nat
  | .diagnostic => 0
  | .reactionFinished => 1
  | .reactionProfiled => 1
  | .pressureDifference => 2
  | .decompressionFloorRip => 3
  | .firelockConsideration => 4
  | .turfDestructionRequest => 5
  | .runDmReaction => 6

/-- `world_event_kind`. -/
def worldEventKind : WorldEvent F32 → Wire.CallbackEventKind
  | .pressureDifference .. => .pressureDifference
  | .decompressionFloorRip .. => .decompressionFloorRip
  | .firelockConsideration .. => .firelockConsideration
  | .runDmReaction .. => .runDmReaction
  | .reactionFinished .. => .reactionFinished
  | .reactionProfiled .. => .reactionProfiled
  | .turfDestructionRequest .. => .turfDestructionRequest

/-- `PendingCallbackEvent`. -/
structure PendingCallbackEvent where
  kind : Wire.CallbackEventKind := .diagnostic
  flags : UInt16 := 0
  subject : WireHandle := ⟨0, 0⟩
  target : WireHandle := ⟨0, 0⟩
  values : Vector ScalarValue 4 := Vector.replicate 4 ScalarValue.zero
  aux : UInt32 := 0
  continuation : Option Wire.ContinuationToken := none
deriving DecidableEq

/-- `PendingCallbackEvent::scoped`. -/
def PendingCallbackEvent.scoped (callback : PendingCallbackEvent) (scope : Wire.CallbackScope)
    (transactionId scopeSequence : UInt64) : Wire.CallbackEvent :=
  { scopeSequence
    transactionId
    scope
    kind := callback.kind
    flags := callback.flags
    subject := callback.subject
    target := callback.target
    values := callback.values
    aux := callback.aux
    continuation := callback.continuation }

/-- `ReactionKind` as a word. -/
def reactionKindWord : NativeReactionKind → UInt32
  | .plasma => 1
  | .hydrogen => 2
  | .tritium => 3
  | .freon => 4

/-- `TurfDestructionReason::SuperconductiveHeat` as a word. -/
def superconductiveHeat : UInt32 := 1

/-- The values of an event that has one number. -/
def singleValue (value : F32) : Vector ScalarValue 4 :=
  #v[widened value, .zero, .zero, .zero]

/-- `pending_callback_from_world_event`. -/
def pendingCallbackFromWorldEvent (event : WorldEvent F32)
    (continuation : Option Wire.ContinuationToken) : PendingCallbackEvent :=
  match event with
  | .pressureDifference source target moles =>
    { kind := .pressureDifference
      subject := wireHandleFromTurf source
      target := wireHandleFromTurf target
      values := singleValue moles }
  | .decompressionFloorRip turf molesLost =>
    { kind := .decompressionFloorRip
      subject := wireHandleFromTurf turf
      values := singleValue molesLost }
  | .firelockConsideration source target =>
    { kind := .firelockConsideration
      subject := wireHandleFromTurf source
      target := wireHandleFromTurf target }
  | .runDmReaction _ mixture target reaction _ =>
    { kind := .runDmReaction
      subject := wireHandle mixture
      target := wireHandleFromGameplay target
      aux := reaction.val
      continuation }
  | .reactionFinished mixture target _ kind values =>
    { kind := .reactionFinished
      subject := wireHandle mixture
      target := wireHandleFromGameplay target
      values := values.map widened
      aux := reactionKindWord kind }
  | .reactionProfiled mixture target reaction costMs =>
    { kind := .reactionProfiled
      subject := wireHandle mixture
      target := wireHandleFromGameplay target
      values := singleValue costMs
      aux := reaction.val }
  | .turfDestructionRequest turf =>
    { kind := .turfDestructionRequest
      subject := wireHandleFromTurf turf
      aux := superconductiveHeat }

/-! ## Errors -/

/-- What the text of an error is made from. -/
inductive ErrorDetail where
  | world (error : WorldError)
  | protocol (error : ProtocolError)
  | text (text : String)
deriving DecidableEq

/-- `StateError`, without the failures of allocation. -/
inductive StateError where
  | unknownHandle (handle : WireHandle)
  | staleHandle (requested : WireHandle) (current : UInt32)
  | revisionMismatch (handle : WireHandle) (expected actual : UInt32)
  | revisionExhausted (handle : WireHandle)
  | duplicateMixtureState (slot : UInt32)
  | invalidMixtureState
  | invalidMetadata
  | selfAdjacency (slot : UInt32)
  | duplicateTurfAdjacency (left right : UInt32)
  | invalidConductivity
  | invalidSecondsPerTick
  | graph (detail : ErrorDetail)
  | state (detail : ErrorDetail)
  | stateCapacityExceeded
  | callbackBackpressure
  | callbackOutputTooSmall
  | callbackSequenceExhausted
  | reactionTransactionCapacityExceeded
  | reactionTransactionIdExhausted
  | unknownReactionTransaction (transactionId : UInt64)
  | frontierConflict
  | frontierIncomplete
  | mixtureStateUploadConflict
  | mixtureStateUploadIncomplete
  | mixtureStateUploadIdExhausted
  | stageConflict (error : WorldError)
  | continuationCapacityExceeded
  | continuationIdExhausted
  | continuationDeadlineExhausted
  | unknownContinuation (token : Wire.ContinuationToken)
  | continuationWorldMismatch (expected actual : UInt32)
  | continuationTokenMismatch (token : Wire.ContinuationToken)
  | continuationExpired (token : Wire.ContinuationToken)
  | cancelled
deriving DecidableEq

/-- `map_world_error`. -/
def mapWorldError (error : WorldError) : StateError :=
  match error with
  | .frontier (.incomplete ..) => .frontierIncomplete
  | .frontier _ => .frontierConflict
  | .gasMetadata _ | .gasRegistryAlreadyInstalled | .gasRegistryInstallationTooLate
  | .gasRegistryMissing | .reactionMetadata _ | .reactionRegistryAlreadyInstalled
  | .reactionRegistryInstallationTooLate | .reactionRegistryMissing => .invalidMetadata
  | .unknownHandle handle => .unknownHandle (wireHandle handle)
  | .staleHandle requested current => .staleHandle (wireHandle requested) current
  | .unknownTurfHandle handle => .unknownHandle (wireHandleFromTurf handle)
  | .staleTurfHandle requested current => .staleHandle (wireHandleFromTurf requested) current
  | .revisionMismatch handle expected actual =>
    .revisionMismatch (wireHandle handle) expected actual
  | .revisionExhausted handle => .revisionExhausted (wireHandle handle)
  | .duplicateMixtureState slot => .duplicateMixtureState slot
  | .invalidMixtureState => .invalidMixtureState
  | .invalidGasId _ | .invalidMoleAmount | .invalidMoleDelta | .moleOverflow _
  | .invalidTemperature | .invalidVolume | .invalidMinimumHeatCapacity | .invalidAddend
  | .invalidMultiplier | .invalidHeat | .invalidHeatCapacity | .invalidRatio
  | .sameMixtureHandles _ => .state (.world error)
  | .selfAdjacency slot => .selfAdjacency slot
  | .selfTurfAdjacency _ | .turfMissingMixture _ | .duplicateMutableTurfMixture _
  | .unknownReactionContinuation _ | .staleReactionContinuation .. => .state (.world error)
  | .invalidTurfHeatState _ | .turfHeatMissing _ => .invalidMixtureState
  | .selfTurfHeatAdjacency _ => .graph (.world error)
  | .reactionContinuationCapacityExceeded => .continuationCapacityExceeded
  | .eventCapacityExceeded .. => .callbackBackpressure
  | .pendingEventCountExceeded .. => .state (.world error)
  | .invalidConductivity => .invalidConductivity
  | .invalidEqualizeHardTurfLimit => .state (.world error)
  | .invalidSecondsPerTick => .invalidSecondsPerTick
  | .invalidStageWorkLimit _ | .stageConflict _ => .stageConflict error
  | .graph text => .graph (.text text)
  | .state text => .state (.text text)
  | .stateCapacityExceeded => .stateCapacityExceeded
  | .invalidReactionResult result =>
    .state (.text ("invalid reaction result flags: " ++ toString result))
  | .invalidReactionProfileThreshold => .state (.text "invalid reaction profiling threshold")
  | .cancelled => .cancelled

end Service

end Dogmos
