import Dogmos.Runs.Held
import Dogmos.Stage.Driver
import Mathlib.Logic.Relation

/-!
# What the units of a stage can change

A unit of work rewrites the scratch of its stage under the same publication
token and stages candidates under the token of a running stage, mixtures without
traces or as they are prepared there.  `UnitStep` lists these writes, and every
unit of the five stages is a sequence of them (`UnitSteps`), whether it succeeds
or fails: `keeps_prepareNext`, `keeps_computeNextDiffusionNode`,
`keeps_advanceStageHeatPublication` and their like.  None of them changes a token,
which is what `Within` says, nor what stages only read (`ground`).
-/

namespace Dogmos

/-- The publication tokens of the running stages. -/
structure RunningTokens where
  diffusion : Option PublicationId
  heat : Option PublicationId
  reactions : Option PublicationId
  components : Option PublicationId

/-- Whether a token is one of them. -/
def RunningTokens.Has (tokens : RunningTokens) (id : PublicationId) : Prop :=
  tokens.diffusion = some id ∨ tokens.heat = some id ∨ tokens.reactions = some id ∨
    tokens.components = some id

namespace DogmosWorld

open Exec

variable {F D : Type}

/-- The tokens of the stages that run in a world. -/
def tokens (w : DogmosWorld F) : RunningTokens :=
  { diffusion := w.stageDiffusion.map StageDiffusionState.publication
    heat := w.stageHeat.map StageHeatState.publication
    reactions := w.stageReactions.map StageReactionState.publication
    components := w.stageComponents.map StageComponentState.publication }

/-- What a stage may change in the record of a turf: its temperature and its place on the active
list. -/
def KeepsShape (f : TurfRecord F → TurfRecord F) : Prop :=
  ∀ turf, (f turf).mixture = turf.mixture ∧ (f turf).heat.isSome = turf.heat.isSome

variable [FloatFormat F]

/-- One write of a unit of work. -/
inductive UnitStep : DogmosWorld F → DogmosWorld F → Prop
  | diffusion (w) (state : StageDiffusionState F)
      (h : w.tokens.diffusion = some state.publication) :
      UnitStep w { w with stageDiffusion := some state }
  | heat (w) (state : StageHeatState F) (h : w.tokens.heat = some state.publication) :
      UnitStep w { w with stageHeat := some state }
  | reactions (w) (state : StageReactionState F)
      (h : w.tokens.reactions = some state.publication) :
      UnitStep w { w with stageReactions := some state }
  | components (w) (state : StageComponentState F)
      (h : w.tokens.components = some state.publication) :
      UnitStep w { w with stageComponents := some state }
  | advance (w) (cursor : StageCursor) (nextFrontierIndex : UInt32) (h : w.stageCursor = some cursor) :
      UnitStep w { w with stageCursor := some { cursor with nextFrontierIndex } }
  | stageMixture (w) (slot : Nat) (id : PublicationId) (candidate : MixtureRecord F)
      (h : w.tokens.Has id)
      (hcandidate : candidate.Canonical ∨ w.preparedMixture slot id = some candidate) :
      UnitStep w (w.stageMixture slot id candidate)
  | writePreparedTurf (w) (slot : Nat) (id : PublicationId) (f : TurfRecord F → TurfRecord F)
      (h : w.tokens.heat = some id) (hf : KeepsShape f) :
      UnitStep w (w.writePreparedTurf slot id f)

/-- A sequence of writes of units. -/
abbrev UnitSteps : DogmosWorld F → DogmosWorld F → Prop := Relation.ReflTransGen UnitStep

/-- The mixtures of a world with a candidate staged, one without traces or one prepared there. -/
def StagesMixture (w w' : DogmosWorld F) : Prop :=
  ∃ slot id candidate, w' = w.stageMixture slot id candidate ∧
    (candidate.Canonical ∨ w.preparedMixture slot id = some candidate)

/-- What no stage writes. -/
structure Ground (F : Type) where
  gasRegistry : Option (GasMetadataRegistry F)
  reactionRegistry : Option (ReactionMetadataRegistry F)
  frontier : FrontierState
  edges : Std.TreeMap EdgeKey F
  mixtureEdges : Std.TreeMap UInt32 (Std.TreeSet EdgeKey)
  mixtureTurfs : Std.TreeMap MixtureHandle (Std.TreeSet UInt32)

/-- The registries, the frontier, and the edges and owners of mixtures. -/
def ground (w : DogmosWorld F) : Ground F :=
  { gasRegistry := w.gasRegistry
    reactionRegistry := w.reactionRegistry
    frontier := w.frontier
    edges := w.edges
    mixtureEdges := w.mixtureEdges
    mixtureTurfs := w.mixtureTurfs }

/-- **A write of a unit** stages a candidate of a mixture, or leaves the mixtures alone. -/
theorem effect_of_unitStep {w w' : DogmosWorld F} (h : UnitStep w w') :
    w'.ground = w.ground ∧ (StagesMixture w w' ∨ w'.mixtures = w.mixtures) := by
  cases h with
  | stageMixture slot id candidate _ hcandidate =>
    refine ⟨?_, .inl ⟨slot, id, candidate, rfl, hcandidate⟩⟩
    unfold stageMixture
    split <;> rfl
  | writePreparedTurf slot id f _ _ =>
    unfold writePreparedTurf stageTurf
    split
    · split <;> exact ⟨rfl, .inr rfl⟩
    · exact ⟨rfl, .inr rfl⟩
  | _ => exact ⟨rfl, .inr rfl⟩

/-- A world that units of work lead to from another one, with given tokens. -/
structure Within (origin : DogmosWorld F) (tokens : RunningTokens) (w : DogmosWorld F) : Prop where
  steps : UnitSteps origin w
  tokens : w.tokens = tokens

section Within

variable {origin w : DogmosWorld F} {tokens : RunningTokens}

theorem Within.refl (w : DogmosWorld F) : Within w w.tokens w := ⟨.refl, rfl⟩

omit [FloatFormat F] in
theorem tokens_stageMixture (w : DogmosWorld F) (slot : Nat) (id : PublicationId)
    (candidate : MixtureRecord F) : (w.stageMixture slot id candidate).tokens = w.tokens := by
  unfold stageMixture
  split <;> rfl

omit [FloatFormat F] in
theorem tokens_stageTurf (w : DogmosWorld F) (slot : Nat) (id : PublicationId)
    (candidate : TurfRecord F) : (w.stageTurf slot id candidate).tokens = w.tokens := by
  unfold stageTurf
  split <;> rfl

omit [FloatFormat F] in
theorem tokens_writePreparedTurf (w : DogmosWorld F) (slot : Nat) (id : PublicationId)
    (f : TurfRecord F → TurfRecord F) : (w.writePreparedTurf slot id f).tokens = w.tokens := by
  unfold writePreparedTurf
  split
  · exact tokens_stageTurf w _ _ _
  · rfl

theorem Within.diffusion (h : Within origin tokens w) {state : StageDiffusionState F}
    (hstate : tokens.diffusion = some state.publication) :
    Within origin tokens { w with stageDiffusion := some state } := by
  have hw : w.tokens.diffusion = some state.publication := by rw [h.tokens, hstate]
  refine ⟨h.steps.tail (.diffusion w state hw), ?_⟩
  rw [← h.tokens]
  exact congrArg (fun id => { w.tokens with diffusion := id }) hw.symm

theorem Within.heat (h : Within origin tokens w) {state : StageHeatState F}
    (hstate : tokens.heat = some state.publication) :
    Within origin tokens { w with stageHeat := some state } := by
  have hw : w.tokens.heat = some state.publication := by rw [h.tokens, hstate]
  refine ⟨h.steps.tail (.heat w state hw), ?_⟩
  rw [← h.tokens]
  exact congrArg (fun id => { w.tokens with heat := id }) hw.symm

theorem Within.reactions (h : Within origin tokens w) {state : StageReactionState F}
    (hstate : tokens.reactions = some state.publication) :
    Within origin tokens { w with stageReactions := some state } := by
  have hw : w.tokens.reactions = some state.publication := by rw [h.tokens, hstate]
  refine ⟨h.steps.tail (.reactions w state hw), ?_⟩
  rw [← h.tokens]
  exact congrArg (fun id => { w.tokens with reactions := id }) hw.symm

theorem Within.components (h : Within origin tokens w) {state : StageComponentState F}
    (hstate : tokens.components = some state.publication) :
    Within origin tokens { w with stageComponents := some state } := by
  have hw : w.tokens.components = some state.publication := by rw [h.tokens, hstate]
  refine ⟨h.steps.tail (.components w state hw), ?_⟩
  rw [← h.tokens]
  exact congrArg (fun id => { w.tokens with components := id }) hw.symm

theorem Within.stageMixture (h : Within origin tokens w) {id : PublicationId} (hid : tokens.Has id)
    (slot : Nat) (candidate : MixtureRecord F)
    (hcandidate : candidate.Canonical ∨ w.preparedMixture slot id = some candidate) :
    Within origin tokens (w.stageMixture slot id candidate) :=
  ⟨h.steps.tail (.stageMixture w slot id candidate (h.tokens ▸ hid) hcandidate),
    (tokens_stageMixture w _ _ _).trans h.tokens⟩

theorem Within.prepareMixture (h : Within origin tokens w) {id : PublicationId}
    (hid : tokens.Has id) (slot : Nat) : Within origin tokens (w.prepareMixture slot id) := by
  unfold DogmosWorld.prepareMixture
  split
  · next candidate hprepared => exact h.stageMixture hid _ _ (.inr hprepared)
  · exact h

theorem Within.writePreparedTurf (h : Within origin tokens w) {id : PublicationId}
    (hid : tokens.heat = some id) (slot : Nat) {f : TurfRecord F → TurfRecord F}
    (hf : KeepsShape f) : Within origin tokens (w.writePreparedTurf slot id f) :=
  ⟨h.steps.tail (.writePreparedTurf w slot id f (h.tokens ▸ hid) hf),
    (tokens_writePreparedTurf w _ _ _).trans h.tokens⟩

end Within

/-! ## Reading the scratch of a running stage -/

section

variable {origin : DogmosWorld F} {tokens : RunningTokens}

theorem gives_diffusionState : Gives (Within origin tokens) (diffusionState (F := F))
    fun state => tokens.diffusion = some state.publication := by
  intro w hw
  unfold diffusionState
  rw [run_check]
  refine ⟨hw, ?_⟩
  intro state hstate
  split at hstate
  · next found hfound =>
    cases hstate
    rw [← hw.tokens]
    exact congrArg (Option.map StageDiffusionState.publication) hfound
  · cases hstate

theorem gives_heatState : Gives (Within origin tokens) (heatState (F := F))
    fun state => tokens.heat = some state.publication := by
  intro w hw
  unfold heatState
  rw [run_check]
  refine ⟨hw, ?_⟩
  intro state hstate
  split at hstate
  · next found hfound =>
    cases hstate
    rw [← hw.tokens]
    exact congrArg (Option.map StageHeatState.publication) hfound
  · cases hstate

theorem gives_reactionState : Gives (Within origin tokens) (reactionState (F := F))
    fun state => tokens.reactions = some state.publication := by
  intro w hw
  unfold reactionState
  rw [run_check]
  refine ⟨hw, ?_⟩
  intro state hstate
  split at hstate
  · next found hfound =>
    cases hstate
    rw [← hw.tokens]
    exact congrArg (Option.map StageReactionState.publication) hfound
  · cases hstate

theorem gives_componentState : Gives (Within origin tokens) (componentState (F := F))
    fun state => tokens.components = some state.publication := by
  intro w hw
  unfold componentState
  rw [run_check]
  refine ⟨hw, ?_⟩
  intro state hstate
  split at hstate
  · next found hfound =>
    cases hstate
    rw [← hw.tokens]
    exact congrArg (Option.map StageComponentState.publication) hfound
  · cases hstate

theorem keeps_setDiffusion {state : StageDiffusionState F}
    (h : tokens.diffusion = some state.publication) :
    Keeps (Within origin tokens) (setDiffusion state) := keeps_modify fun _ hw => hw.diffusion h

theorem keeps_setHeat {state : StageHeatState F} (h : tokens.heat = some state.publication) :
    Keeps (Within origin tokens) (setHeat state) := keeps_modify fun _ hw => hw.heat h

theorem keeps_setReactions {state : StageReactionState F}
    (h : tokens.reactions = some state.publication) :
    Keeps (Within origin tokens) (setReactions state) := keeps_modify fun _ hw => hw.reactions h

theorem keeps_setComponents {state : StageComponentState F}
    (h : tokens.components = some state.publication) :
    Keeps (Within origin tokens) (setComponents state) := keeps_modify fun _ hw => hw.components h

end

/-! ## Units of diffusion -/

section Diffusion

variable [FloatFormat D] [FloatCast F D] (origin : DogmosWorld F)
  (tokens : RunningTokens)

theorem keeps_appendStageDiffusionTurf (turf : TurfHandle) :
    Keeps (Within origin tokens) (appendStageDiffusionTurf turf) := by
  unfold appendStageDiffusionTurf
  refine gives_diffusionState.bind fun state hstate => keeps_get_bind fun w => ?_
  refine keeps_ite (fun _ => keeps_pure _) fun _ => ?_
  split
  · exact keeps_pure _
  · refine keeps_check_bind fun mixture => ?_
    refine keeps_bind (keeps_setDiffusion hstate) fun _ => keeps_ite (fun _ => keeps_throw _) ?_
    intro _
    refine keeps_ite (fun _ => keeps_throw _) fun _ => ?_
    refine keeps_bind (keeps_setDiffusion hstate) fun _ => keeps_modify ?_
    intro w hw
    exact hw.prepareMixture (.inl hstate) _

theorem keeps_prepareStageDiffusionTurf (turf : TurfHandle) :
    Keeps (Within origin tokens) (prepareStageDiffusionTurf turf) := by
  unfold prepareStageDiffusionTurf
  refine keeps_get_bind fun w => ?_
  refine keeps_bind (keeps_appendStageDiffusionTurf origin tokens turf) fun _ => ?_
  exact keeps_forM fun neighbor _ => keeps_appendStageDiffusionTurf origin tokens neighbor.handle

theorem keeps_computeStageDiffusionNode (index : Nat) :
    Keeps (Within origin tokens) (computeStageDiffusionNode (F := F) index) := by
  unfold computeStageDiffusionNode
  refine gives_diffusionState.bind fun state hstate => keeps_get_bind fun w => ?_
  split
  · refine keeps_check_bind fun selfWeight => ?_
    refine keeps_bind (keeps_setDiffusion hstate) fun _ => ?_
    split
    · exact keeps_throw _
    · refine keeps_ite (fun _ => keeps_modify ?_) fun _ => keeps_pure _
      intro w hw
      exact hw.stageMixture (.inl hstate) _ _ (.inl ⟨_, rfl⟩)
  · exact keeps_pure _

theorem keeps_computeNextDiffusionNode :
    Keeps (Within origin tokens) (computeNextDiffusionNode (F := F)) := by
  unfold computeNextDiffusionNode
  refine gives_diffusionState.bind fun state _ => ?_
  refine keeps_bind (keeps_computeStageDiffusionNode origin tokens _) fun _ => ?_
  exact gives_diffusionState.bind fun state hstate => keeps_setDiffusion hstate

end Diffusion

/-! ## Units that leave the list of a heat stage alone -/

/-- What the list of a heat stage depends on in its scratch. -/
structure SameList (state state' : StageHeatState F) : Prop where
  publication : state'.publication = state.publication
  active : state'.stagedHeatActive = state.stagedHeatActive
  seed : state'.nextActiveSeed = state.nextActiveSeed
  nodes : state'.nodes.map StageHeatNode.handle = state.nodes.map StageHeatNode.handle

omit [FloatFormat F] in
theorem SameList.trans {state state' state'' : StageHeatState F} (h : SameList state state')
    (h' : SameList state' state'') : SameList state state'' :=
  ⟨h'.publication.trans h.publication, h'.active.trans h.active, h'.seed.trans h.seed,
    h'.nodes.trans h.nodes⟩

/-- A property that scratch may be rewritten under, from scratch that was read. -/
structure HeatScratch (I : DogmosWorld F → Prop) (S : StageHeatState F → Prop) : Prop where
  read : Gives I (heatState (F := F)) S
  write : ∀ {state state'}, S state → SameList state state' → Keeps I (setHeat state')

theorem heatScratch_within (origin : DogmosWorld F) (tokens : RunningTokens) :
    HeatScratch (Within origin tokens) fun state => tokens.heat = some state.publication where
  read := gives_heatState
  write hstate hsame := keeps_setHeat (hstate.trans (congrArg some hsame.publication.symm))

section HeatScratch

variable {I : DogmosWorld F → Prop} {S : StageHeatState F → Prop}
  (h : HeatScratch I S)

include h

theorem HeatScratch.keeps_advanceStageHeatTopology :
    Keeps I (advanceStageHeatTopology (F := F)) := by
  unfold advanceStageHeatTopology
  refine h.read.bind fun state hstate => keeps_get_bind fun w => ?_
  split
  · exact keeps_pure _
  · split
    · exact keeps_bind (h.write hstate ⟨rfl, rfl, rfl, rfl⟩) fun _ => keeps_pure _
    · refine keeps_bind (h.write hstate ⟨rfl, rfl, rfl, rfl⟩) fun _ => ?_
      split
      · refine keeps_ite (fun _ => keeps_pure _) fun _ => ?_
        refine keeps_check_bind fun first => keeps_check_bind fun second => ?_
        exact keeps_bind (h.write hstate ⟨rfl, rfl, rfl, rfl⟩) fun _ => keeps_pure _
      · exact keeps_pure _

theorem HeatScratch.keeps_prepareStageHeatConduction (secondsPerTick : F) :
    Keeps I (prepareStageHeatConduction secondsPerTick) := by
  unfold prepareStageHeatConduction
  refine h.read.bind fun state hstate => keeps_ite (fun _ => keeps_pure _) fun _ => ?_
  exact keeps_ite (fun _ => keeps_throw _) fun _ => h.write hstate ⟨rfl, rfl, rfl, rfl⟩

theorem HeatScratch.keeps_advanceStageHeatConduction :
    Keeps I (advanceStageHeatConduction (F := F)) := by
  unfold advanceStageHeatConduction
  refine keeps_get_bind fun w => keeps_ite (fun _ => keeps_pure _) fun _ => ?_
  refine h.read.bind fun state hstate => ?_
  split
  · exact keeps_bind (h.write hstate ⟨rfl, rfl, rfl, rfl⟩) fun _ => keeps_pure _
  · exact keeps_bind (h.write hstate ⟨rfl, rfl, rfl, rfl⟩) fun _ => keeps_pure _

variable [FloatFormat D] [FloatCast F D]

theorem HeatScratch.keeps_exchangeWithMixture (handle : MixtureHandle) (heat : TurfHeatState F)
    (secondsPerTick temperature : F) :
    Keeps I (exchangeWithMixture handle heat secondsPerTick temperature) := by
  unfold exchangeWithMixture
  refine h.read.bind fun state hstate => ?_
  refine keeps_bind (h.write hstate ⟨rfl, rfl, rfl, rfl⟩) fun _ => ?_
  refine keeps_ite (fun _ => keeps_throw _) fun _ => ?_
  refine keeps_check_bind fun registry => keeps_check_bind fun mixture => ?_
  refine keeps_ite (fun _ => keeps_pure _) fun _ => keeps_ite (fun _ => keeps_throw _) fun _ => ?_
  exact keeps_bind (h.write hstate ⟨rfl, rfl, rfl, rfl⟩) fun _ => keeps_pure _

theorem HeatScratch.keeps_computeStageHeatNode (index : Nat) (secondsPerTick : F) :
    Keeps I (computeStageHeatNode index secondsPerTick) := by
  have hfinish : ∀ node : StageHeatNode F, ∀ temperature, Keeps I (do
      let state ← heatState
      setHeat
        { state with
          temperatures := state.temperatures.set index temperature
          stagedEvents :=
            if decide (minimumTemperatureStartSuperconductionK < temperature) &&
                decide (node.heat.heatCapacity < temperature) then
              state.stagedEvents ++ [.turfDestructionRequest node.handle]
            else state.stagedEvents }) :=
    fun _ _ => h.read.bind fun state hstate => h.write hstate ⟨rfl, rfl, rfl, rfl⟩
  unfold computeStageHeatNode
  refine h.read.bind fun state hstate => keeps_get_bind fun w => ?_
  split
  · exact keeps_pure _
  · next node _ =>
    dsimp only
    split
    · exact keeps_bind (keeps_pure _) fun _ => hfinish node _
    · exact keeps_bind (h.keeps_exchangeWithMixture _ _ _ _) fun _ => hfinish node _

theorem HeatScratch.keeps_computeNextHeatNode (secondsPerTick : F) :
    Keeps I (computeNextHeatNode secondsPerTick) := by
  unfold computeNextHeatNode
  refine h.read.bind fun state _ => ?_
  refine keeps_bind (h.keeps_computeStageHeatNode _ _) fun _ => ?_
  exact h.read.bind fun state hstate => h.write hstate ⟨rfl, rfl, rfl, rfl⟩

end HeatScratch

/-! ## Units of the heat stage -/

section Heat

variable (origin : DogmosWorld F) (tokens : RunningTokens)

omit [FloatFormat F] in
theorem keepsShape_id : KeepsShape (F := F) fun turf => turf := fun _ => ⟨rfl, rfl⟩

omit [FloatFormat F] in
theorem keepsShape_withIndex (index : Option UInt32) :
    KeepsShape (F := F) (TurfRecord.withIndex index) := fun _ => ⟨rfl, rfl⟩

omit [FloatFormat F] in
theorem keepsShape_withTemperature (temperature : F) :
    KeepsShape (TurfRecord.withTemperature temperature) := fun _ => ⟨rfl, Option.isSome_map⟩

theorem Within.prepareHeatRecords {origin w : DogmosWorld F} {tokens : RunningTokens}
    (h : Within origin tokens w) {id : PublicationId} (hid : tokens.heat = some id)
    (handle : TurfHandle) (mixture : Option MixtureHandle) :
    Within origin tokens (w.prepareHeatRecords id handle mixture) := by
  have hturf : Within origin tokens (w.prepareTurf handle.slot.toNat id) :=
    h.writePreparedTurf hid _ keepsShape_id
  unfold DogmosWorld.prepareHeatRecords
  cases mixture with
  | none => exact hturf
  | some mixture => exact hturf.prepareMixture (.inr (.inl hid)) _

theorem keeps_activateStaged (node : StageHeatNode F) :
    Keeps (Within origin tokens) (activateStaged node) := by
  unfold activateStaged
  refine gives_heatState.bind fun state hstate => keeps_bind (keeps_setHeat hstate) fun _ => ?_
  exact keeps_modify fun w hw => hw.writePreparedTurf hstate _ (keepsShape_withIndex _)

theorem keeps_deactivateStaged (node : StageHeatNode F) (index : UInt32) :
    Keeps (Within origin tokens) (deactivateStaged node index) := by
  have hwrite : ∀ id, tokens.heat = some id → ∀ slot value, Keeps (Within origin tokens)
      (modify fun w => w.writePreparedTurf slot id (TurfRecord.withIndex value) : WorldM F PUnit) :=
    fun id hid slot value => keeps_modify fun w hw => hw.writePreparedTurf hid _ (keepsShape_withIndex _)
  unfold deactivateStaged
  refine gives_heatState.bind fun state hstate => keeps_bind (keeps_setHeat hstate) fun _ => ?_
  split
  · exact keeps_bind (hwrite _ hstate _ _) fun _ => hwrite _ hstate _ _
  · exact hwrite _ hstate _ _

theorem keeps_appendStageHeatTurf (handle : TurfHandle) (canContinue : Bool) :
    Keeps (Within origin tokens) (appendStageHeatTurf handle canContinue) := by
  unfold appendStageHeatTurf
  refine keeps_get_bind fun w => ?_
  split
  · exact keeps_pure _
  · refine gives_heatState.bind fun state hstate => ?_
    split
    · exact keeps_setHeat hstate
    · refine keeps_ite (fun _ => keeps_throw _) fun _ => ?_
      refine keeps_bind (keeps_setHeat hstate) fun _ => keeps_modify ?_
      intro w hw
      exact hw.prepareHeatRecords hstate _ _

theorem keeps_prepareStageHeatTurf (handle : TurfHandle) (canContinue : Bool) :
    Keeps (Within origin tokens) (prepareStageHeatTurf handle canContinue) := by
  unfold prepareStageHeatTurf
  refine keeps_get_bind fun w => ?_
  refine keeps_bind (keeps_appendStageHeatTurf origin tokens handle canContinue) fun _ => ?_
  exact keeps_forM fun neighbor _ => keeps_appendStageHeatTurf origin tokens neighbor.handle true

theorem keeps_prepareSeed : Keeps (Within origin tokens) (prepareSeed (F := F)) := by
  unfold prepareSeed
  refine gives_heatState.bind fun state hstate => keeps_get_bind fun w => ?_
  split
  · exact keeps_pure _
  · refine keeps_bind (keeps_setHeat hstate) fun _ => ?_
    refine keeps_bind (keeps_prepareStageHeatTurf origin tokens _ _) fun _ => ?_
    exact gives_heatState.bind fun state hstate => keeps_setHeat hstate

theorem keeps_placeStaged (node : StageHeatNode F) (threshold temperature : F)
    (oldIndex : Option UInt32) :
    Keeps (Within origin tokens)
      (if threshold ≤ temperature then
        if oldIndex.isNone then activateStaged node else pure ()
      else
        match oldIndex with
        | some index => deactivateStaged node index
        | none => pure ()) := by
  refine keeps_ite (fun _ => ?_) fun _ => ?_
  · exact keeps_ite (fun _ => keeps_activateStaged origin tokens node) fun _ => keeps_pure _
  · cases oldIndex with
    | none => exact keeps_pure _
    | some index => exact keeps_deactivateStaged origin tokens node index

theorem keeps_publishNode (node : StageHeatNode F) :
    Keeps (Within origin tokens) (publishNode node) := by
  have hplace := keeps_placeStaged origin tokens node
  unfold publishNode
  refine gives_heatState.bind fun state hstate => ?_
  refine keeps_bind (keeps_modify ?_) fun _ => keeps_get_bind fun w => ?_
  · intro w hw
    exact hw.writePreparedTurf hstate _ (keepsShape_withTemperature _)
  · dsimp only
    split
    · refine keeps_bind (keeps_modify ?_) fun _ => hplace _ _ _
      intro w hw
      exact hw.prepareMixture (.inr (.inl hstate)) _
    · exact hplace _ _ _

theorem keeps_advanceStageHeatPublication :
    Keeps (Within origin tokens) (advanceStageHeatPublication (F := F)) := by
  unfold advanceStageHeatPublication
  refine gives_heatState.bind fun state hstate => ?_
  split
  · refine keeps_bind (keeps_setHeat hstate) fun _ => ?_
    refine keeps_bind (keeps_modify ?_) fun _ => keeps_pure _
    intro w hw
    exact hw.stageMixture (.inr (.inl hstate)) _ _ (.inl ⟨_, rfl⟩)
  · split
    · exact keeps_pure _
    · refine keeps_bind (keeps_publishNode origin tokens _) fun _ => ?_
      exact gives_heatState.bind fun state hstate => keeps_bind (keeps_setHeat hstate) fun _ => keeps_pure _

variable [FloatFormat D] [FloatCast F D]

end Heat

/-! ## Units of the reaction stage -/

section Reaction

variable (origin : DogmosWorld F) (tokens : RunningTokens)

theorem keeps_prepareStageReactionTurf (turf : TurfHandle) :
    Keeps (Within origin tokens) (prepareStageReactionTurf turf) := by
  unfold prepareStageReactionTurf
  refine keeps_get_bind fun w => ?_
  split
  · exact keeps_pure _
  · exact gives_reactionState.bind fun state hstate => keeps_setReactions hstate

variable [FloatFormat D] [FloatCast F D]

theorem keeps_computeStageReactionTarget (index : Nat) :
    Keeps (Within origin tokens) (computeStageReactionTarget index) := by
  unfold computeStageReactionTarget
  refine gives_reactionState.bind fun state hstate => ?_
  split
  · exact keeps_pure _
  · refine keeps_bind (keeps_setReactions hstate) fun _ => keeps_ite (fun _ => keeps_pure _) ?_
    intro _
    refine keeps_check_bind fun sequence => keeps_bind (keeps_setReactions hstate) fun _ => ?_
    refine keeps_ite (fun _ => keeps_modify ?_) fun _ => keeps_pure _
    intro w hw
    exact hw.stageMixture (.inr (.inr (.inl hstate))) _ _ (.inl ⟨_, rfl⟩)

theorem keeps_computeNextTarget : Keeps (Within origin tokens) (computeNextTarget (F := F)) := by
  unfold computeNextTarget
  refine gives_reactionState.bind fun state _ => ?_
  refine keeps_bind (keeps_computeStageReactionTarget origin tokens _) fun _ => ?_
  exact gives_reactionState.bind fun state hstate => keeps_setReactions hstate

end Reaction

/-! ## Units of the component stages -/

section Components

variable (origin : DogmosWorld F) (tokens : RunningTokens)

theorem keeps_prepareStageComponentTurf (turf : TurfHandle) :
    Keeps (Within origin tokens) (prepareStageComponentTurf turf) := by
  unfold prepareStageComponentTurf
  refine keeps_get_bind fun w => ?_
  split
  · exact keeps_pure _
  · exact gives_componentState.bind fun state hstate => keeps_setComponents hstate

theorem keeps_advanceStageComponentDiscovery :
    Keeps (Within origin tokens) (advanceStageComponentDiscovery (F := F)) := by
  unfold advanceStageComponentDiscovery
  refine gives_componentState.bind fun state hstate => keeps_get_bind fun w => ?_
  split
  · split
    · exact keeps_bind (keeps_setComponents hstate) fun _ => keeps_pure _
    · refine keeps_ite (fun _ => ?_) fun _ => ?_
      · exact keeps_bind (keeps_setComponents hstate) fun _ => keeps_pure _
      · exact keeps_bind (keeps_setComponents hstate) fun _ => keeps_pure _
  · refine keeps_ite (fun _ => ?_) fun _ => ?_
    · exact keeps_bind (keeps_setComponents hstate) fun _ => keeps_pure _
    · split
      · exact keeps_pure _
      · exact keeps_bind (keeps_setComponents hstate) fun _ => keeps_pure _

omit [FloatFormat F] in
theorem publication_withKernel (w : DogmosWorld F) (state : StageComponentState F) :
    (w.withKernel state).publication = state.publication := by
  unfold withKernel
  split <;> rfl

theorem keeps_captureStageComponent (turf : TurfHandle) :
    Keeps (Within origin tokens) (captureStageComponent turf) := by
  unfold captureStageComponent
  refine gives_componentState.bind fun state hstate => ?_
  split
  · exact keeps_pure _
  · refine keeps_bind (keeps_setComponents hstate) fun _ => keeps_check_bind fun kernel => ?_
    exact keeps_setComponents hstate

theorem keeps_pollStageComponent :
    Keeps (Within origin tokens) (pollStageComponent (F := F)) := by
  unfold pollStageComponent
  refine gives_componentState.bind fun state hstate => ?_
  split
  · exact keeps_pure _
  · refine keeps_ite (fun _ => ?_) fun _ => ?_
    · exact keeps_bind (keeps_setComponents hstate) fun _ => keeps_pure _
    · refine keeps_bind (keeps_setComponents hstate) fun _ => keeps_check_bind fun _ => ?_
      exact keeps_bind (keeps_setComponents hstate) fun _ => keeps_pure _

theorem gives_takeKernel : Gives (Within origin tokens) (takeKernel (F := F))
    fun state => tokens.components = some state.publication := by
  unfold takeKernel
  refine gives_componentState.bind_gives fun state hstate => ?_
  intro w hw
  rw [← publication_withKernel w state] at hstate
  exact ⟨hw.components hstate, fun found hfound => by cases hfound; exact hstate⟩

variable [FloatFormat D] [FloatCast F D]

theorem publication_withComputation (state : StageComponentState F) (stage : WorldStage) :
    (withComputation state stage).publication = state.publication := by
  unfold withComputation
  split <;> rfl

omit [FloatFormat D] [FloatCast F D] in
/-- What an entry of a transaction stages has no traces. -/
theorem canonical_of_entryCandidate {w : DogmosWorld F} {state : StageComponentState F}
    {entry : TransactionEntry (MixtureRecord F)} {candidate : MixtureRecord F}
    (h : w.entryCandidate state entry = .ok candidate) : candidate.Canonical := by
  unfold entryCandidate at h
  rcases hhandle : w.requireHandle entry.handle with error | current
  all_goals
    rw [hhandle] at h
    simp only [bind, Except.bind, pure, Except.pure, throw, throwThe, MonadExceptOf.throw] at h
    repeat' split at h
    all_goals cases h
  all_goals exact ⟨_, rfl⟩

theorem keeps_stageEntry (entry : TransactionEntry (MixtureRecord F)) :
    Keeps (Within origin tokens) (stageEntry entry) := by
  unfold stageEntry
  refine gives_componentState.bind fun state hstate => keeps_get_bind fun w => ?_
  refine keeps_bind (keeps_setComponents hstate) fun _ => ?_
  refine keeps_check_bind_of fun _ candidate _ hcandidate => keeps_modify fun v hv => ?_
  have hcanonical := canonical_of_entryCandidate hcandidate
  exact hv.stageMixture (.inr (.inr (.inr hstate))) _ _ (.inl hcanonical)

end Components

/-! ## Preparation -/

section Preparation

variable (origin : DogmosWorld F) (tokens : RunningTokens)

theorem keeps_advanceCursor : Keeps (Within origin tokens) (advanceCursor (F := F)) := by
  refine keeps_modify fun w hw => ?_
  rcases hcursor : w.stageCursor with _ | cursor
  · have hsame : { w with stageCursor := (none : Option StageCursor) } = w := by rw [← hcursor]
    rw [Option.map_none, hsame]
    exact hw
  · exact ⟨hw.steps.tail (.advance w cursor _ hcursor), hw.tokens⟩

variable [FloatFormat D] [FloatCast F D]

theorem keeps_prepareStageTurf (stage : WorldStage) (handle : TurfHandle) :
    Keeps (Within origin tokens) (prepareStageTurf stage handle) := by
  cases stage with
  | turfHeat => exact keeps_prepareStageHeatTurf origin tokens handle false
  | processTurfs => exact keeps_prepareStageDiffusionTurf origin tokens handle
  | react => exact keeps_prepareStageReactionTurf origin tokens handle
  | equalize => exact keeps_prepareStageComponentTurf origin tokens handle
  | excitedGroups => exact keeps_prepareStageComponentTurf origin tokens handle

theorem keeps_prepareNext (stage : WorldStage) :
    Keeps (Within origin tokens) (prepareNext (F := F) stage) := by
  unfold prepareNext
  refine keeps_get_bind fun w => ?_
  split
  · refine keeps_bind (keeps_prepareStageTurf origin tokens stage _) fun _ => ?_
    exact keeps_advanceCursor origin tokens
  · exact keeps_advanceCursor origin tokens

end Preparation

end DogmosWorld

end Dogmos
