import Dogmos.Runs.Continuations
import Dogmos.Runs.Ledger
import Dogmos.Runs.Requests
import Dogmos.Runs.Units

/-!
# What a chunk of a stage can change

`StageStep` lists what a chunk does to a world: the writes of its units, the
start of a stage, its end with the publication, the step from one component to
the next, and what an error leaves behind.  Every chunk is a sequence of such
steps (`steps_processStageChunk`), so an invariant of the steps is an invariant
of chunks; what a step leaves alone is `effect_of_stageStep`.
-/

namespace Dogmos

open Exec

namespace Chunk

variable {F : Type} {J : DogmosWorld F → Prop} {α : Type}

/-- The chunk keeps a property of the world. -/
abbrev KeepsWorld (J : DogmosWorld F → Prop) (m : ChunkM F α) : Prop :=
  Keeps (fun chunk : Chunk F => J chunk.world) m

theorem run_onWorld (m : WorldM F α) (chunk : Chunk F) :
    run (onWorld m) chunk =
      ((run m chunk.world).1, { chunk with world := (run m chunk.world).2 }) := by
  unfold onWorld
  rw [run_bind, run_get]
  show run (set _ >>= fun _ => _) chunk = _
  rw [run_bind, run_set]
  exact run_check _ _

theorem keeps_onWorld {m : WorldM F α} (h : Keeps J m) : KeepsWorld J (onWorld m) := by
  intro chunk hchunk
  rw [run_onWorld]
  exact h _ hchunk

theorem gives_onWorld {m : WorldM F α} {Q : α → Prop} (h : Gives J m Q) :
    Gives (fun chunk : Chunk F => J chunk.world) (onWorld m) Q := by
  intro chunk hchunk
  rw [run_onWorld]
  exact h _ hchunk

theorem run_checkCancelled (shouldCancel : Nat → Bool) (chunk : Chunk F) :
    run (checkCancelled shouldCancel) chunk =
      (if shouldCancel chunk.checks then .error .cancelled else .ok (),
        { chunk with checks := chunk.checks + 1 }) := by
  unfold checkCancelled
  rw [run_bind, run_get]
  show run (set _ >>= fun _ => _) chunk = _
  rw [run_bind, run_set]
  show run (if _ then _ else _) _ = _
  rw [run_ite]
  split <;> rfl

theorem keeps_checkCancelled (shouldCancel : Nat → Bool) :
    KeepsWorld J (checkCancelled (F := F) shouldCancel) := by
  intro chunk hchunk
  rw [run_checkCancelled]
  exact hchunk

theorem keeps_workLoop {unit : ChunkM F Bool} (h : KeepsWorld J unit) (budget : Nat) :
    KeepsWorld J (workLoop unit budget) := by
  induction budget with
  | zero => exact keeps_pure _
  | succ budget ih =>
    refine keeps_bind h fun worked => keeps_ite (fun _ => ?_) fun _ => keeps_pure _
    exact keeps_bind (keeps_modify fun _ hchunk => hchunk) fun _ => ih

theorem keeps_checkedBefore (shouldCancel : Nat → Bool) (available : DogmosWorld F → Bool)
    {m : WorldM F Unit} (h : Keeps J m) : KeepsWorld J (checkedBefore shouldCancel available m) := by
  refine keeps_get_bind fun chunk => keeps_ite (fun _ => ?_) fun _ => keeps_pure _
  refine keeps_bind (keeps_checkCancelled shouldCancel) fun _ => ?_
  exact keeps_bind (keeps_onWorld h) fun _ => keeps_pure _

theorem keeps_checkedAfter (shouldCancel : Nat → Bool) {m : WorldM F Bool} (h : Keeps J m) :
    KeepsWorld J (checkedAfter shouldCancel m) := by
  refine keeps_bind (keeps_onWorld h) fun worked => keeps_ite (fun _ => ?_) fun _ => keeps_pure _
  exact keeps_bind (keeps_checkCancelled shouldCancel) fun _ => keeps_pure _

/-- A phase keeps what its units and what follows it keep. -/
theorem keeps_phase (workLimit : Nat) {unit : ChunkM F Bool} (remaining : DogmosWorld F → Nat)
    {next : ChunkM F StageChunkResult} (hunit : KeepsWorld J unit) (hnext : KeepsWorld J next) :
    KeepsWorld J (phase workLimit unit remaining next) := by
  refine keeps_bind ?_ fun _ => keeps_get_bind fun chunk => ?_
  · exact keeps_get_bind fun chunk => keeps_workLoop hunit _
  · exact keeps_ite (fun _ => keeps_pure _) fun _ => hnext

end Chunk

namespace DogmosWorld

open Chunk

variable {F D : Type}

/-! ## Starting a stage -/

/-- The world with the next token made when no scratch is kept. -/
def claimed {α : Type} (w : DogmosWorld F) (cached : Option α) : DogmosWorld F :=
  if cached.isSome then w else w.withToken

/-- The world with the cursor of a new stage and no scratch. -/
def opened [FloatFormat D] (w : DogmosWorld F) (request : StageChunkRequest D) : DogmosWorld F :=
  { w with
    stageCursor := some (newCursor request w.topology.revision)
    stageDiffusion := none
    stageHeat := none
    stageReactions := none
    stageComponents := none }

/-- The reaction scratch a new stage starts with. -/
def startingReactions (w : DogmosWorld F) : StageReactionState F :=
  let state := w.cachedReactions.getD (.new w.publications.fresh)
  { state with
    activeContinuations := w.continuationMixtures.foldl
      (fun set mixture => SlotIndex.insert set mixture ()) state.activeContinuations }

theorem run_startReactions (w : DogmosWorld F) :
    run startReactions w =
      (.ok (), { w.claimed w.cachedReactions with
        cachedReactions := none
        stageReactions := some w.startingReactions }) := by
  unfold startReactions claimed startingReactions
  rw [run_bind, run_get]
  rcases hcached : w.cachedReactions with _ | state
  · simp only [hcached]
    rfl
  · simp only [hcached]
    rfl

theorem run_startComponents (w : DogmosWorld F) :
    (run startComponents w).2 = { w.withToken with cachedComponents := none } ∧
      ∀ state, (run startComponents w).1 = .ok state →
        state.publication = w.publications.fresh := by
  have hfail : ∀ error : WorldError, ∀ world : DogmosWorld F,
      ((.error error, world) : Except WorldError (StageComponentState F) × DogmosWorld F).2 = world ∧
        ∀ state, (Except.error error : Except WorldError (StageComponentState F)) = .ok state →
          state.publication = w.publications.fresh :=
    fun _ _ => ⟨rfl, fun _ hstate => by cases hstate⟩
  unfold startComponents
  rw [run_bind, run_get]
  rcases hcached : w.cachedComponents with _ | state
  · have hsame : { w.withToken with cachedComponents := none } = w.withToken := by
      show { w.withToken with cachedComponents := none } =
        { w.withToken with cachedComponents := w.cachedComponents }
      rw [hcached]
    rw [hsame]
    simp only [hcached, newPublication, run_bind, run_get, run_modify, run_pure, run_check]
    rcases IndexedTransaction.tryNew w.mixtures.length w.componentEntries with error | transaction
    · exact hfail _ _
    · exact ⟨rfl, fun found hfound => by cases hfound; rfl⟩
  · simp only [hcached, newPublication, run_bind, run_get, run_modify, run_pure, run_check]
    rcases (state.clear w.publications.fresh).transaction.prepare w.mixtures.length
      w.componentEntries with error | transaction
    · exact hfail _ _
    · exact ⟨rfl, fun found hfound => by cases hfound; rfl⟩

section

variable [FloatFormat F]

/-- The diffusion scratch a new stage starts with. -/
def startingDiffusion (w : DogmosWorld F) : StageDiffusionState F :=
  { w.cachedDiffusion.getD (.new w.publications.fresh) with
    specificHeats := w.diffusionSpecificHeats
    gasStride := min (max w.registeredGases 1) maxGasSlots }

/-- The heat scratch a new stage starts with. -/
def startingHeat (w : DogmosWorld F) : StageHeatState F :=
  w.cachedHeat.getD (.new w.publications.fresh)

theorem run_startDiffusion (w : DogmosWorld F) :
    run startDiffusion w =
      (.ok (), { w.claimed w.cachedDiffusion with
        cachedDiffusion := none
        stageDiffusion := some w.startingDiffusion }) := by
  unfold startDiffusion claimed startingDiffusion
  rw [run_bind, run_get]
  rcases hcached : w.cachedDiffusion with _ | state
  · simp only [hcached]
    rfl
  · simp only [hcached]
    rfl

theorem run_startHeat (w : DogmosWorld F) :
    run startHeat w =
      (.ok (), { w.claimed w.cachedHeat with
        cachedHeat := none
        stageHeat := some w.startingHeat }) := by
  unfold startHeat claimed startingHeat
  rw [run_bind, run_get]
  rcases hcached : w.cachedHeat with _ | state
  · simp only [hcached]
    rfl
  · simp only [hcached]
    rfl

end

/-! ## The steps of a chunk -/

/-- The world after a stage published its token. -/
def published (w : DogmosWorld F) (id : PublicationId) : DogmosWorld F :=
  { w with publications := w.publications.publish id }

section

variable {α : Type}

/-- A commit that is followed by the end of the stage. -/
theorem keeps_commit {J : DogmosWorld F → Prop} {m : WorldM F α} {f : α → ChunkM F StageChunkResult}
    (hf : ∀ a, ∃ result, f a = onWorld clearCursor >>= fun _ => pure result)
    (h : Triple J m (fun _ w => J { w with stageCursor := none }) fun _ w => J w) :
    KeepsWorld J (onWorld m >>= f) := by
  intro chunk hchunk
  have h := h chunk.world hchunk
  rw [run_bind, run_onWorld]
  rcases hrun : run m chunk.world with ⟨result, w'⟩
  rw [hrun] at h
  cases result with
  | error error => exact h
  | ok a =>
    obtain ⟨result, hresult⟩ := hf a
    dsimp only
    rw [hresult, run_bind, run_onWorld]
    exact h

end

variable [FloatFormat F] [FloatFormat D]

/-- The kind of scratch a stage works in. -/
def stageKind : WorldStage → StageKind
  | .processTurfs => .diffusion
  | .turfHeat => .heat
  | .react => .reactions
  | .equalize => .components
  | .excitedGroups => .components

/-- One step of a chunk. -/
inductive StageStep : DogmosWorld F → DogmosWorld F → Prop
  | unit {w w'} (h : UnitStep w w') : StageStep w w'
  | startDiffusion (w) (request : StageChunkRequest D) (h : w.stageCursor = none)
      (hkind : stageKind request.stage = .diffusion) :
      StageStep w
        { (w.opened request).claimed w.cachedDiffusion with
          cachedDiffusion := none
          stageDiffusion := some (w.opened request).startingDiffusion }
  | startHeat (w) (request : StageChunkRequest D) (h : w.stageCursor = none)
      (hkind : stageKind request.stage = .heat) :
      StageStep w
        { (w.opened request).claimed w.cachedHeat with
          cachedHeat := none
          stageHeat := some (w.opened request).startingHeat }
  | startReactions (w) (request : StageChunkRequest D) (h : w.stageCursor = none)
      (hkind : stageKind request.stage = .reactions) :
      StageStep w
        { (w.opened request).claimed w.cachedReactions with
          cachedReactions := none
          stageReactions := some (w.opened request).startingReactions }
  | claimComponents (w) (h : w.stageCursor = none) :
      StageStep w { w.withToken with cachedComponents := none }
  | startComponents (w) (request : StageChunkRequest D) (state : StageComponentState F)
      (h : w.stageCursor = none) (hkind : stageKind request.stage = .components)
      (hstate : state.publication = w.publications.fresh) :
      StageStep w
        { opened { w.withToken with cachedComponents := none } request with
          stageComponents := some state }
  | continuations {w w'} (h : ContinuationStep w w') : StageStep w w'
  | dropDiffusion (w) : StageStep w { w with stageDiffusion := none }
  | dropHeat (w) : StageStep w { w with stageHeat := none }
  | dropReactions (w) : StageStep w { w with stageReactions := none }
  | finishDiffusion (w) (state : StageDiffusionState F) (h : w.stageDiffusion = some state)
      (hfree : w.publications.undecided state.publication) :
      StageStep w
        { cacheDiffusion { w.published state.publication with stageDiffusion := none } state with
          stageCursor := none }
  | finishHeat (w) (state : StageHeatState F) (h : w.stageHeat = some state)
      (hfree : w.publications.undecided state.publication) :
      StageStep w
        { cacheHeat
            { w.published state.publication with
              stageHeat := none
              heatActive := state.stagedHeatActive
              events := w.events ++ state.stagedEvents } state with
          stageCursor := none }
  | finishReactions (w) (state : StageReactionState F) (h : w.stageReactions = some state)
      (hfree : w.publications.undecided state.publication) (events : List (WorldEvent F)) :
      StageStep w
        { cacheReactions
            { w.published state.publication with stageReactions := none, events }
            { state with pending := none } with
          stageCursor := none }
  | nextComponent (w) (state : StageComponentState F) (h : w.stageComponents = some state)
      (hfree : w.publications.undecided state.publication) :
      StageStep w
        { (w.published state.publication).withToken with
          events := w.events ++ state.stagedEvents
          stageComponents := some (publishedComponent state w.publications.fresh) }
  | finishComponents (w) (state : StageComponentState F) (h : w.stageComponents = some state) :
      StageStep w { w.cacheComponents state with stageCursor := none }
  | abort (w) : StageStep w w.abortStage

/-- A sequence of steps of chunks. -/
abbrev StageSteps : DogmosWorld F → DogmosWorld F → Prop :=
  Relation.ReflTransGen (StageStep (D := D))

/-- **A step of a chunk** stages a candidate of a mixture, or leaves the mixtures alone. -/
theorem effect_of_stageStep {w w' : DogmosWorld F} (h : StageStep (D := D) w w') :
    w'.ground = w.ground ∧ (StagesMixture w w' ∨ w'.mixtures = w.mixtures) := by
  have hclaimed : ∀ {α : Type} (v : DogmosWorld F) (cached : Option α),
      (v.claimed cached).ground = v.ground ∧ (v.claimed cached).mixtures = v.mixtures := by
    intro α v cached
    unfold claimed
    split <;> exact ⟨rfl, rfl⟩
  cases h with
  | unit h => exact effect_of_unitStep h
  | startDiffusion request _ _ =>
    have hkept := hclaimed (w.opened request) w.cachedDiffusion
    exact ⟨hkept.1, .inr hkept.2⟩
  | startHeat request _ _ =>
    have hkept := hclaimed (w.opened request) w.cachedHeat
    exact ⟨hkept.1, .inr hkept.2⟩
  | startReactions request _ _ =>
    have hkept := hclaimed (w.opened request) w.cachedReactions
    exact ⟨hkept.1, .inr hkept.2⟩
  | continuations h =>
    have hkept := ContinuationClosed.continuations (I := fun v : DogmosWorld F =>
      v.ground = w.ground ∧ v.mixtures = w.mixtures) (fun _ _ _ h => h) h ⟨rfl, rfl⟩
    exact ⟨hkept.1, .inr hkept.2⟩
  | abort =>
    unfold abortStage
    dsimp only
    cases w.stageDiffusion <;> cases w.stageHeat <;> cases w.stageReactions <;>
      cases w.stageComponents <;> exact ⟨rfl, .inr rfl⟩
  | _ => exact ⟨rfl, .inr rfl⟩

section Steps

variable {origin : DogmosWorld F} {α : Type}

/-- What is a sequence of writes of units is a sequence of steps of chunks. -/
theorem keeps_unit {m : WorldM F α} (h : ∀ origin tokens, Keeps (Within origin tokens) m) :
    Keeps (StageSteps (D := D) origin) m := by
  intro w hw
  have hwithin := h w w.tokens w (Within.refl w)
  exact hw.trans (hwithin.steps.lift id fun _ _ hstep => .unit hstep)

/-! ## Starting and committing -/

theorem steps_startStage (w : DogmosWorld F) (request : StageChunkRequest D)
    (hcursor : w.stageCursor = none) :
    StageSteps (D := D) w (run (startStage request) w).2 := by
  have hcomponents : stageKind request.stage = .components →
      StageSteps (D := D) w (run (do
        let state ← startComponents
        setCursor request
        setComponents state : WorldM F Unit) w).2 := by
    intro hkind
    obtain ⟨hfinal, hpublication⟩ := run_startComponents w
    rw [run_bind]
    split
    · next state w' heq =>
      rw [heq] at hfinal hpublication
      cases hfinal
      exact .single (.startComponents w request state hcursor hkind (hpublication state rfl))
    · next error w' heq =>
      rw [heq] at hfinal
      cases hfinal
      exact .single (.claimComponents w hcursor)
  unfold startStage
  cases hstage : request.stage with
  | processTurfs =>
    rw [run_bind]
    show StageSteps w (run startDiffusion (w.opened request)).2
    rw [run_startDiffusion]
    exact .single (.startDiffusion w request hcursor (by rw [hstage]; rfl))
  | turfHeat =>
    rw [run_bind]
    show StageSteps w (run startHeat (w.opened request)).2
    rw [run_startHeat]
    exact .single (.startHeat w request hcursor (by rw [hstage]; rfl))
  | react =>
    rw [run_bind, run_check]
    rcases w.requireRegistries with error | _
    · exact .refl
    · dsimp only
      rw [run_bind]
      show StageSteps w (run startReactions (w.opened request)).2
      rw [run_startReactions]
      exact .single (.startReactions w request hcursor (by rw [hstage]; rfl))
  | equalize => exact hcomponents (by rw [hstage]; rfl)
  | excitedGroups => exact hcomponents (by rw [hstage]; rfl)

theorem keeps_openStage (request : StageChunkRequest D) :
    Keeps (StageSteps (D := D) origin) (openStage (F := F) request) := by
  unfold openStage
  refine keeps_check_bind fun _ => keeps_get_bind_at fun w hw => ?_
  split
  · exact keeps_ite (fun _ => keeps_throw _) (fun _ => keeps_check _) w hw
  · next hcursor =>
    have hstart : StageSteps (D := D) origin (run (startStage request) w).2 :=
      hw.trans (steps_startStage w request hcursor)
    rw [run_bind]
    split
    · next heq =>
      rw [heq] at hstart
      rw [run_check]
      exact hstart
    · next heq =>
      rw [heq] at hstart
      exact hstart

/-! ## Commits, from what they do to the world -/

section Commits

variable {J Q : DogmosWorld F → Prop} {E : WorldError → DogmosWorld F → Prop}

omit [FloatFormat F] in
theorem triple_diffusionCommit (hfail : ∀ error w, J w → E error w)
    (hdrop : ∀ error w, J w → E error { w with stageDiffusion := none })
    (hfinish : ∀ w state, J w → w.stageDiffusion = some state →
      w.publications.undecided state.publication = true →
      Q { cacheDiffusion { w.published state.publication with stageDiffusion := none } state with
        stageCursor := none }) :
    Triple J (commitStageDiffusion (F := F)) (fun _ w => Q { w with stageCursor := none }) E := by
  intro w hw
  unfold commitStageDiffusion diffusionState
  rw [run_bind, run_check]
  rcases hstate : w.stageDiffusion with _ | state
  · exact hfail _ w hw
  · dsimp only [pure, Except.pure]
    rw [run_bind, run_modify]
    dsimp only
    by_cases hlength : 2 ^ 32 ≤ state.mixtures.length
    · rw [if_pos hlength]
      exact hdrop _ w hw
    · rw [if_neg hlength]
      unfold publishOr
      rw [run_bind, run_bind, run_get]
      dsimp only
      by_cases hfree : w.publications.undecided state.publication
      · simp only [hfree, Bool.not_true, Bool.false_eq_true, if_false, run_modify]
        exact hfinish w state hw hstate hfree
      · simp only [hfree, Bool.not_false, if_true]
        exact hdrop _ w hw

theorem triple_heatCommit (eventCapacity : Nat) (hfail : ∀ error w, J w → E error w)
    (hdrop : ∀ error w, J w → E error { w with stageHeat := none })
    (hfinish : ∀ w state, J w → w.stageHeat = some state →
      w.publications.undecided state.publication = true →
      Q { cacheHeat
          { w.published state.publication with
            stageHeat := none
            heatActive := state.stagedHeatActive
            events := w.events ++ state.stagedEvents } state with
        stageCursor := none }) :
    Triple J (commitStageHeat (F := F) eventCapacity)
      (fun _ w => Q { w with stageCursor := none }) E := by
  intro w hw
  unfold commitStageHeat heatState
  rw [run_bind, run_check]
  rcases hstate : w.stageHeat with _ | state
  · exact hfail _ w hw
  · dsimp only [pure, Except.pure]
    rw [run_bind, run_check]
    rcases w.requireEventCapacity state.stagedEvents.length eventCapacity with error | _
    · exact hfail _ w hw
    · dsimp only
      rw [run_bind, run_modify]
      dsimp only
      by_cases hlength : 2 ^ 32 ≤ state.nodes.length
      · rw [if_pos hlength]
        exact hdrop _ w hw
      · rw [if_neg hlength]
        unfold publishOr
        rw [run_bind, run_bind, run_get]
        dsimp only
        by_cases hfree : w.publications.undecided state.publication
        · simp only [hfree, Bool.not_true, Bool.false_eq_true, if_false, run_modify]
          exact hfinish w state hw hstate hfree
        · simp only [hfree, Bool.not_false, if_true]
          exact hdrop _ w hw

/-- The worlds a reaction commit goes through before it publishes. -/
def Uncommitted (J : DogmosWorld F → Prop) (state : StageReactionState F) (w : DogmosWorld F) :
    Prop :=
  ∃ before, J before ∧ before.stageReactions = some state ∧ w = { before with stageReactions := none }

omit [FloatFormat F] in
theorem Uncommitted.dropped {state : StageReactionState F} {w : DogmosWorld F} {error : WorldError}
    (h : Uncommitted J state w) (hdrop : ∀ error w, J w → E error { w with stageReactions := none }) :
    E error w := by
  obtain ⟨before, hbefore, -, rfl⟩ := h
  exact hdrop error before hbefore

omit [FloatFormat F] in
theorem Uncommitted.allocate {state : StageReactionState F} {w : DogmosWorld F}
    (hJ : ∀ w w', ContinuationStep w w' → J w → J w') (h : Uncommitted J state w)
    (continuation : ReactionContinuation F) :
    Uncommitted J state (run (allocateContinuation continuation) w).2 := by
  obtain ⟨before, hbefore, hstate, rfl⟩ := h
  rw [run_allocateContinuation_dropped]
  refine ⟨_, hJ before _ (.allocate before continuation) hbefore, ?_, rfl⟩
  rw [← hstate]
  refine keeps_allocateContinuation (I := fun w => w.stageReactions = before.stageReactions) ?_
    continuation before rfl
  exact fun _ _ _ h => h

omit [FloatFormat F] in
theorem Uncommitted.complete {state : StageReactionState F} {w : DogmosWorld F}
    (hJ : ∀ w w', ContinuationStep w w' → J w → J w') (h : Uncommitted J state w)
    (token : ReactionContinuationToken) :
    Uncommitted J state (run (completeContinuation token) w).2 := by
  obtain ⟨before, hbefore, hstate, rfl⟩ := h
  rw [run_completeContinuation_dropped]
  refine ⟨_, hJ before _ (.settle (.complete before token)) hbefore, ?_, rfl⟩
  rw [← hstate]
  refine keeps_completeContinuation (I := fun w => w.stageReactions = before.stageReactions) ?_
    token before rfl
  exact fun _ _ _ h => h

omit [FloatFormat F] in
theorem triple_reactionCommit (eventCapacity : Nat)
    (hcontinuations : ∀ w w', ContinuationStep w w' → J w → J w')
    (hfail : ∀ error w, J w → E error w)
    (hdrop : ∀ error w, J w → E error { w with stageReactions := none })
    (hfinish : ∀ w state events, J w → w.stageReactions = some state →
      w.publications.undecided state.publication = true →
      Q { cacheReactions { w.published state.publication with stageReactions := none, events }
          { state with pending := none } with
        stageCursor := none }) :
    Triple J (commitStageReactions (F := F) eventCapacity)
      (fun _ w => Q { w with stageCursor := none }) E := by
  intro w hw
  unfold commitStageReactions reactionState
  rw [run_bind, run_check]
  rcases hstate : w.stageReactions with _ | state
  · exact hfail _ w hw
  · dsimp only [pure, Except.pure]
    rw [run_bind, run_check]
    rcases w.requireEventCapacity (reactionEventCount state) eventCapacity with error | _
    · exact hfail _ w hw
    · dsimp only
      rw [run_bind, run_modify]
      have hdropped : Uncommitted J state { w with stageReactions := none } := ⟨w, hw, hstate, rfl⟩
      have hallocate : Keeps (Uncommitted J state) (allocateStageContinuation state) := by
        unfold allocateStageContinuation
        split
        · exact keeps_pure _
        · exact keeps_bind (fun _ h => h.allocate hcontinuations _) fun _ => keeps_pure _
      have hallocated := hallocate _ hdropped
      dsimp only
      rw [run_bind]
      rcases hrun : run (allocateStageContinuation state) { w with stageReactions := none } with
        ⟨result, allocated⟩
      rw [hrun] at hallocated
      cases result with
      | error error => exact hallocated.dropped hdrop
      | ok continuation =>
        dsimp only
        rw [run_bind, run_get]
        dsimp only
        by_cases hfree : allocated.publications.undecided state.publication
        · obtain ⟨before, hbefore, hstate, rfl⟩ := hallocated
          simp only [hfree, Bool.not_true, Bool.false_eq_true, if_false]
          exact hfinish before state _ hbefore hstate hfree
        · simp only [hfree, Bool.not_false, if_true]
          cases continuation with
          | none => exact hallocated.dropped hdrop
          | some entry =>
            have hcompleted := hallocated.complete hcontinuations entry.1
            dsimp only
            rw [run_bind]
            rcases hrun : run (completeContinuation entry.1) allocated with ⟨result, completed⟩
            rw [hrun] at hcompleted
            cases result with
            | error error => exact hcompleted.dropped hdrop
            | ok _ => exact hcompleted.dropped hdrop

omit [FloatFormat F] in
theorem triple_componentCommit (hfail : ∀ error w, J w → E error w)
    (hfinish : ∀ w state, J w → w.stageComponents = some state →
      Q { w.cacheComponents state with stageCursor := none }) :
    Triple J (finishStageComponents (F := F)) (fun _ w => Q { w with stageCursor := none }) E := by
  intro w hw
  unfold finishStageComponents componentState
  rw [run_bind, run_check]
  rcases hstate : w.stageComponents with _ | state
  · exact hfail _ w hw
  · exact hfinish w state hw hstate

omit [FloatFormat F] in
theorem triple_componentPublication (eventCapacity : Nat) (hfail : ∀ error w, J w → E error w)
    (hnext : ∀ w state, J w → w.stageComponents = some state →
      w.publications.undecided state.publication = true →
      Q { (w.published state.publication).withToken with
        events := w.events ++ state.stagedEvents
        stageComponents := some (publishedComponent state w.publications.fresh) }) :
    Triple J (publishStageComponent (F := F) eventCapacity) (fun _ => Q) E := by
  intro w hw
  unfold publishStageComponent componentState
  rw [run_bind, run_check]
  rcases hstate : w.stageComponents with _ | state
  · exact hfail _ w hw
  · dsimp only [pure, Except.pure]
    rw [run_bind, run_check]
    rcases w.requireEventCapacity state.stagedEvents.length eventCapacity with error | _
    · exact hfail _ w hw
    · dsimp only
      unfold publishOr
      rw [run_bind, run_bind, run_get]
      dsimp only
      by_cases hfree : w.publications.undecided state.publication
      · simp only [hfree, Bool.not_true, Bool.false_eq_true, if_false, run_modify]
        have hnext := hnext w state hw hstate hfree
        have hfresh : (w.published state.publication).publications.fresh = w.publications.fresh := by
          exact Publications.length_publish _ _
        rw [← hfresh] at hnext
        exact hnext
      · simp only [hfree, Bool.not_false, if_true]
        exact hfail _ w hw

end Commits

/-- What a commit does to the steps taken so far; its caller clears the cursor. -/
abbrev Commits (origin : DogmosWorld F) (m : WorldM F α) : Prop :=
  Triple (StageSteps (D := D) origin) m
    (fun _ w => StageSteps (D := D) origin { w with stageCursor := none })
    fun _ w => StageSteps (D := D) origin w

theorem commits_commitStageDiffusion :
    Commits (D := D) origin (commitStageDiffusion (F := F)) :=
  triple_diffusionCommit (fun _ _ hw => hw) (fun _ w hw => hw.tail (.dropDiffusion w))
    fun w state hw hstate hfree => hw.tail (.finishDiffusion w state hstate hfree)

theorem commits_commitStageHeat (eventCapacity : Nat) :
    Commits (D := D) origin (commitStageHeat (F := F) eventCapacity) :=
  triple_heatCommit eventCapacity (fun _ _ hw => hw) (fun _ w hw => hw.tail (.dropHeat w))
    fun w state hw hstate hfree => hw.tail (.finishHeat w state hstate hfree)

theorem commits_commitStageReactions (eventCapacity : Nat) :
    Commits (D := D) origin (commitStageReactions (F := F) eventCapacity) :=
  triple_reactionCommit eventCapacity (fun _ _ hstep hw => hw.tail (.continuations hstep))
    (fun _ _ hw => hw) (fun _ w hw => hw.tail (.dropReactions w))
    fun w state events hw hstate hfree => hw.tail (.finishReactions w state hstate hfree events)

theorem commits_finishStageComponents :
    Commits (D := D) origin (finishStageComponents (F := F)) :=
  triple_componentCommit (fun _ _ hw => hw)
    fun w state hw hstate => hw.tail (.finishComponents w state hstate)

/-! ## Components -/

theorem keeps_publishStageComponent (eventCapacity : Nat) :
    Keeps (StageSteps (D := D) origin) (publishStageComponent (F := F) eventCapacity) := by
  have hpublish : Triple (StageSteps (D := D) origin) (publishStageComponent (F := F) eventCapacity)
      (fun _ => StageSteps (D := D) origin) fun _ => StageSteps (D := D) origin :=
    triple_componentPublication eventCapacity (fun _ _ hw => hw)
      fun w state hw hstate hfree => hw.tail (.nextComponent w state hstate hfree)
  exact fun w hw => hpublish.final hw

theorem keeps_publishReadyComponent (eventCapacity : Nat) :
    Keeps (StageSteps (D := D) origin) (publishReadyComponent (F := F) eventCapacity) := by
  unfold publishReadyComponent
  refine keeps_bind (keeps_check _) fun state => ?_
  split
  · next entry _ => exact keeps_unit fun origin tokens => keeps_stageEntry origin tokens entry
  · exact keeps_publishStageComponent eventCapacity

/-! ## Phases and chunks -/

section Phases

theorem keeps_runDiffusion (workLimit : Nat) (shouldCancel : Nat → Bool) :
    KeepsWorld (StageSteps (D := D) origin) (runDiffusion (F := F) workLimit shouldCancel) := by
  refine keeps_phase _ _ ?_ (keeps_get_bind fun chunk => ?_)
  · exact keeps_checkedBefore _ _ (keeps_unit keeps_computeNextDiffusionNode)
  · exact keeps_commit (fun _ => ⟨_, rfl⟩) commits_commitStageDiffusion

theorem keeps_runTargets (eventCapacity workLimit : Nat) (shouldCancel : Nat → Bool) :
    KeepsWorld (StageSteps (D := D) origin)
      (runTargets (F := F) eventCapacity workLimit shouldCancel) := by
  refine keeps_phase _ _ (keeps_checkedBefore _ _ (keeps_unit fun origin tokens =>
    keeps_computeNextTarget origin tokens)) ?_
  refine keeps_get_bind fun chunk => keeps_commit ?_ (commits_commitStageReactions eventCapacity)
  exact fun ⟨targets, callbackEvents⟩ => ⟨_, rfl⟩

variable [FloatCast F D]

theorem keeps_computeReadyComponent_within (origin : DogmosWorld F) (tokens : RunningTokens)
    (stage : WorldStage) (shouldCancel : Nat → Bool) :
    KeepsWorld (Within origin tokens) (computeReadyComponent (F := F) stage shouldCancel) := by
  unfold computeReadyComponent
  refine (gives_onWorld (gives_takeKernel origin tokens)).bind fun state hstate => ?_
  split
  · refine keeps_bind (keeps_onWorld ?_) fun _ => keeps_pure _
    exact keeps_captureStageComponent origin tokens _
  · refine keeps_bind (keeps_onWorld (keeps_setComponents ?_)) fun _ => ?_
    · rw [publication_withComputation]
      exact hstate
    · refine keeps_bind (keeps_checkCancelled shouldCancel) fun _ => ?_
      exact keeps_onWorld (keeps_pollStageComponent origin tokens)

theorem keeps_computeReadyComponent (stage : WorldStage) (shouldCancel : Nat → Bool) :
    KeepsWorld (StageSteps (D := D) origin) (computeReadyComponent (F := F) stage shouldCancel) := by
  intro chunk hchunk
  have hwithin := keeps_computeReadyComponent_within chunk.world chunk.world.tokens stage
    shouldCancel chunk (Within.refl _)
  exact hchunk.trans (hwithin.steps.lift id fun _ _ hstep => .unit hstep)

theorem keeps_processReadyStageComponent (stage : WorldStage) (eventCapacity : Nat)
    (shouldCancel : Nat → Bool) :
    KeepsWorld (StageSteps (D := D) origin)
      (processReadyStageComponent (F := F) stage eventCapacity shouldCancel) := by
  have hpublish : ∀ computed : Bool, KeepsWorld (StageSteps (D := D) origin)
      (if computed then onWorld (publishReadyComponent (F := F) eventCapacity) else pure ()) :=
    fun computed => keeps_ite (fun _ => keeps_onWorld (keeps_publishReadyComponent eventCapacity))
      fun _ => keeps_pure _
  unfold processReadyStageComponent
  refine keeps_bind (keeps_onWorld (keeps_check _)) fun state => ?_
  refine keeps_ite (fun _ => keeps_bind (keeps_pure _) fun _ => hpublish _) fun _ => ?_
  exact keeps_bind (keeps_computeReadyComponent stage shouldCancel) fun _ => hpublish _

theorem keeps_advanceComponents (stage : WorldStage) (eventCapacity : Nat)
    (shouldCancel : Nat → Bool) :
    KeepsWorld (StageSteps (D := D) origin)
      (advanceComponents (F := F) stage eventCapacity shouldCancel) := by
  unfold advanceComponents
  refine keeps_get_bind fun chunk => keeps_ite (fun _ => ?_) fun _ => ?_
  · refine keeps_bind (keeps_checkCancelled shouldCancel) fun _ => ?_
    refine keeps_bind (keeps_processReadyStageComponent stage eventCapacity shouldCancel) fun _ => ?_
    exact keeps_pure _
  · exact keeps_onWorld (keeps_unit keeps_advanceStageComponentDiscovery)

theorem keeps_runHeat (secondsPerTick : F) (eventCapacity workLimit : Nat)
    (shouldCancel : Nat → Bool) :
    KeepsWorld (StageSteps (D := D) origin)
      (runHeat secondsPerTick eventCapacity workLimit shouldCancel) := by
  refine keeps_phase _ _ (keeps_checkedBefore _ _ (keeps_unit fun origin tokens =>
    keeps_prepareSeed origin tokens)) ?_
  refine keeps_phase _ _ (keeps_checkedBefore _ _ (keeps_unit fun origin tokens =>
    (heatScratch_within origin tokens).keeps_computeNextHeatNode secondsPerTick)) ?_
  refine keeps_phase _ _ (keeps_checkedAfter _ (keeps_unit fun origin tokens =>
    (heatScratch_within origin tokens).keeps_advanceStageHeatTopology)) ?_
  refine keeps_bind (keeps_onWorld (keeps_unit fun origin tokens =>
    (heatScratch_within origin tokens).keeps_prepareStageHeatConduction secondsPerTick)) fun _ => ?_
  refine keeps_phase _ _ (keeps_checkedAfter _ (keeps_unit fun origin tokens =>
    (heatScratch_within origin tokens).keeps_advanceStageHeatConduction)) ?_
  refine keeps_phase _ _ (keeps_checkedAfter _ (keeps_unit fun origin tokens =>
    keeps_advanceStageHeatPublication origin tokens)) ?_
  refine keeps_get_bind fun chunk => keeps_commit ?_ (commits_commitStageHeat eventCapacity)
  exact fun ⟨completed, callbackEvents⟩ => ⟨_, rfl⟩

theorem keeps_runComponents (stage : WorldStage) (eventCapacity workLimit : Nat)
    (shouldCancel : Nat → Bool) :
    KeepsWorld (StageSteps (D := D) origin)
      (runComponents (F := F) stage eventCapacity workLimit shouldCancel) := by
  refine keeps_phase _ _ (keeps_advanceComponents stage eventCapacity shouldCancel) ?_
  refine keeps_get_bind fun chunk => keeps_commit ?_ commits_finishStageComponents
  exact fun ⟨callbackEvents, componentsProcessed⟩ => ⟨_, rfl⟩

theorem keeps_runStage (request : StageChunkRequest D) (eventCapacity : Nat)
    (shouldCancel : Nat → Bool) :
    KeepsWorld (StageSteps (D := D) origin)
      (runStage (F := F) request eventCapacity shouldCancel) := by
  unfold runStage
  dsimp only
  split
  · exact keeps_runDiffusion _ _
  · exact keeps_runHeat _ _ _ _
  · exact keeps_runTargets _ _ _
  · exact keeps_runComponents _ _ _ _

theorem keeps_processStageChunkInner (origin : DogmosWorld F) (request : StageChunkRequest D) (eventCapacity : Nat)
    (shouldCancel : Nat → Bool) :
    KeepsWorld (StageSteps (D := D) origin)
      (processStageChunkInner (F := F) request eventCapacity shouldCancel) := by
  refine keeps_bind (keeps_onWorld (keeps_openStage request)) fun _ => ?_
  refine keeps_bind (keeps_checkCancelled shouldCancel) fun _ => ?_
  refine keeps_phase _ _ (keeps_checkedBefore _ _ (keeps_unit fun origin tokens =>
    keeps_prepareNext origin tokens request.stage)) ?_
  exact keeps_runStage request eventCapacity shouldCancel

/-- **Every chunk is a sequence of steps**, whether it succeeds, fails or is cancelled. -/
theorem steps_processStageChunk (w : DogmosWorld F) (request : StageChunkRequest D)
    (eventLimit : UInt32) (shouldCancel : Nat → Bool) :
    StageSteps (D := D) w ((processStageChunk request eventLimit shouldCancel).final w) := by
  have hsteps := keeps_processStageChunkInner w request
    (min w.maxEvents eventLimit).toNat shouldCancel { world := w, workItems := 0, checks := 0 } .refl
  unfold processStageChunk final
  rw [run_bind, run_get]
  dsimp only
  rcases hrun : run (processStageChunkInner request (min w.maxEvents eventLimit).toNat shouldCancel)
    { world := w, workItems := 0, checks := 0 } with ⟨result, chunk⟩
  rw [hrun] at hsteps
  cases result with
  | ok result => exact hsteps
  | error error => exact hsteps.tail (.abort chunk.world)

/-- An invariant of the steps is an invariant of chunks. -/
theorem processStageChunk_induct {I : DogmosWorld F → Prop}
    (h : ∀ w w', StageStep (D := D) w w' → I w → I w') (w : DogmosWorld F)
    (request : StageChunkRequest D) (eventLimit : UInt32) (shouldCancel : Nat → Bool) (hw : I w) :
    I ((processStageChunk request eventLimit shouldCancel).final w) := by
  have hsteps := steps_processStageChunk w request eventLimit shouldCancel
  generalize (processStageChunk request eventLimit shouldCancel).final w = w' at hsteps ⊢
  induction hsteps with
  | refl => exact hw
  | tail _ hstep ih => exact h _ _ hstep ih

end Phases

end Steps

end DogmosWorld

end Dogmos
