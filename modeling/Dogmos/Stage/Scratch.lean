import Dogmos.Core.Component

/-!
# Scratch state of the stages

A stage works in a scratch structure of its kind.  When it ends, successfully or
not, the structure is cleared and kept for the next stage of the kind; clearing
hands it a new publication token, so that nothing staged before can become
visible through it.
-/

namespace Dogmos

variable {F : Type} [FloatFormat F]

/-! ## New and cleared scratch -/

/-- `StageDiffusionState::new`; the specific heats and the stride are set when a stage starts. -/
def StageDiffusionState.new (publication : PublicationId) : StageDiffusionState F :=
  { publication
    turfs := []
    mixtures := []
    indexByTurf := .new
    seenMixtures := .new
    input := []
    output := []
    inputTemperatures := []
    minimumHeatCapacities := []
    inputEnergy := []
    outputEnergy := []
    specificHeats := noGases
    gasStride := maxGasSlots
    nextNode := 0 }

/-- `StageDiffusionState::clear`. -/
def StageDiffusionState.clear (state : StageDiffusionState F) (publication : PublicationId) :
    StageDiffusionState F :=
  { state with
    publication
    turfs := []
    mixtures := []
    indexByTurf := state.indexByTurf.clear
    seenMixtures := state.seenMixtures.clear
    input := []
    output := []
    inputTemperatures := []
    minimumHeatCapacities := []
    inputEnergy := []
    outputEnergy := []
    nextNode := 0 }

/-- `StageHeatState::new`. -/
def StageHeatState.new (publication : PublicationId) : StageHeatState F :=
  { maximumRowSum := 0.0
    stagedHeatActive := []
    publication
    publicationIndex := 0
    nodes := []
    indexBySlot := .new
    temperatures := []
    conductivities := []
    heatCapacities := []
    stagedMixtures := ∅
    linkedMixtures := .new
    stagedEvents := []
    nextActiveSeed := 0
    nextNode := 0
    nextTopologyNode := 0
    nextTopologyNeighbor := 0
    edges := []
    rowSums := []
    conductionSubsteps := none
    conductionSubstep := 0
    conductionEdge := 0
    conductionScale := 0.0 }

/-- `StageHeatState::clear`. -/
def StageHeatState.clear (state : StageHeatState F) (publication : PublicationId) :
    StageHeatState F :=
  { StageHeatState.new publication with
    indexBySlot := state.indexBySlot.clear
    linkedMixtures := state.linkedMixtures.clear }

/-- `StageReactionState::new`. -/
def StageReactionState.new (publication : PublicationId) : StageReactionState F :=
  { publication
    targets := []
    activeContinuations := .new
    seenMixtures := .new
    stagedEvents := []
    pending := none
    nextTarget := 0 }

/-- `StageReactionState::clear`. -/
def StageReactionState.clear (state : StageReactionState F) (publication : PublicationId) :
    StageReactionState F :=
  { StageReactionState.new publication with
    activeContinuations := state.activeContinuations.clear
    seenMixtures := state.seenMixtures.clear }

/-- The component scratch around a transaction, as `StageComponentState::try_new` fills it. -/
def StageComponentState.around (publication : PublicationId)
    (transaction : IndexedTransaction (MixtureRecord F)) : StageComponentState F :=
  { computed := false
    publication
    publicationIndex := 0
    targets := []
    activeBySlot := .new
    visited := .new
    nextSeed := 0
    queue := []
    queueIndex := 0
    nextNeighbor := 0
    componentReady := false
    componentKernel := none
    computation := none
    preparedTurfs := 0
    transaction
    publishedMixtures := .new
    stagedEvents := []
    callbackEvents := 0
    componentsProcessed := 0 }

/-- `StageComponentState::clear`; a kernel is cleared and kept. -/
def StageComponentState.clear (state : StageComponentState F) (publication : PublicationId) :
    StageComponentState F :=
  { StageComponentState.around publication state.transaction.clear with
    activeBySlot := state.activeBySlot.clear
    visited := state.visited.clear
    componentKernel := state.componentKernel.map ComponentKernel.clear
    publishedMixtures := state.publishedMixtures.clear }

namespace DogmosWorld

/-- The world with the next publication token made. -/
def withToken (w : DogmosWorld F) : DogmosWorld F :=
  { w with publications := w.publications.withFresh }

/-- `Publication::new`. -/
def newPublication : WorldM F PublicationId := do
  let w ← get
  modify withToken
  return w.publications.fresh

/-! ## The end of a stage -/

/-- Clears diffusion scratch and keeps it. -/
def cacheDiffusion (w : DogmosWorld F) (state : StageDiffusionState F) : DogmosWorld F :=
  { w.withToken with
    stageDiffusion := none
    cachedDiffusion := some (state.clear w.publications.fresh) }

/-- Clears heat scratch and keeps it. -/
def cacheHeat (w : DogmosWorld F) (state : StageHeatState F) : DogmosWorld F :=
  { w.withToken with
    stageHeat := none
    cachedHeat := some (state.clear w.publications.fresh) }

/-- Clears reaction scratch and keeps it. -/
def cacheReactions (w : DogmosWorld F) (state : StageReactionState F) : DogmosWorld F :=
  { w.withToken with
    stageReactions := none
    cachedReactions := some (state.clear w.publications.fresh) }

/-- Clears component scratch and keeps it. -/
def cacheComponents (w : DogmosWorld F) (state : StageComponentState F) : DogmosWorld F :=
  { w.withToken with
    stageComponents := none
    cachedComponents := some (state.clear w.publications.fresh) }

/-- `abort_stage`. -/
def abortStage (w : DogmosWorld F) : DogmosWorld F :=
  let w := { w with stageCursor := none }
  let w := w.stageDiffusion.elim w w.cacheDiffusion
  let w := w.stageHeat.elim w w.cacheHeat
  let w := w.stageReactions.elim w w.cacheReactions
  w.stageComponents.elim w w.cacheComponents

/-! ## The start of a stage -/

/-- The specific heats diffusion starts with. -/
def diffusionSpecificHeats (w : DogmosWorld F) : Gases F :=
  match w.gasRegistry with
  | some registry => paddedHeats registry.specificHeats
  | none => noGases

/-- The number of gases diffusion starts with: the full width without a registry. -/
def registeredGases (w : DogmosWorld F) : Nat :=
  match w.gasRegistry with
  | some registry => registry.specificHeats.length
  | none => maxGasSlots

/-- Takes the diffusion scratch for a new stage. -/
def startDiffusion : WorldM F Unit := do
  let w ← get
  let state ←
    match w.cachedDiffusion with
    | some state => pure state
    | none => do
      let publication ← newPublication
      pure (.new publication)
  modify fun w =>
    { w with
      cachedDiffusion := none
      stageDiffusion := some
        { state with
          specificHeats := w.diffusionSpecificHeats
          gasStride := min (max w.registeredGases 1) maxGasSlots } }

/-- Takes the heat scratch for a new stage. -/
def startHeat : WorldM F Unit := do
  let w ← get
  let state ←
    match w.cachedHeat with
    | some state => pure state
    | none => do
      let publication ← newPublication
      pure (.new publication)
  modify fun w => { w with cachedHeat := none, stageHeat := some state }

/-- The mixtures that wait for a continuation. -/
def continuationMixtures (w : DogmosWorld F) : List MixtureHandle :=
  w.continuations.filterMap fun slot => slot.continuation.map ReactionContinuation.mixture

/-- Takes the reaction scratch for a new stage. -/
def startReactions : WorldM F Unit := do
  let w ← get
  let state ←
    match w.cachedReactions with
    | some state => pure state
    | none => do
      let publication ← newPublication
      pure (.new publication)
  modify fun w =>
    { w with
      cachedReactions := none
      stageReactions := some
        { state with
          activeContinuations := w.continuationMixtures.foldl
            (fun set mixture => SlotIndex.insert set mixture ()) state.activeContinuations } }

/-- The most entries the transaction of a component stage can need. -/
def componentEntries (w : DogmosWorld F) : Nat :=
  min w.frontier.committed.length w.mixtures.length

/-- Takes the component scratch for a new stage: `prepare` on kept scratch, which is lost when
that fails, and `try_new` otherwise. -/
def startComponents : WorldM F (StageComponentState F) := do
  let w ← get
  match w.cachedComponents with
  | some state => do
    let publication ← newPublication
    modify fun w => { w with cachedComponents := none }
    let state := state.clear publication
    let transaction ← Exec.check fun _ =>
      (state.transaction.prepare w.mixtures.length w.componentEntries).mapError
        transactionWorldError
    return { state with transaction }
  | none => do
    let publication ← newPublication
    let transaction ← Exec.check fun _ =>
      (IndexedTransaction.tryNew w.mixtures.length w.componentEntries).mapError
        transactionWorldError
    return .around publication transaction

end DogmosWorld

end Dogmos
