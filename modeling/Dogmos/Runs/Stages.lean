import Dogmos.Runs.Phases

/-!
# Rules for whole chunks

A chunk checks and starts its stage, does units of work, and commits the stage
when no work remains.  `StageRules` collects what has to be shown for a kind of
stage: its units keep a condition, and its commit turns the condition into the
one of a finished stage.  `triple_processStageChunk` puts the parts together: a
chunk that leaves work behind keeps the condition of the units, a chunk that
completes the stage establishes the condition of the commit, and a chunk that
fails leaves a world that was aborted.
-/

namespace Dogmos

open Exec Chunk

variable {F D : Type} {P J Q : DogmosWorld F → Prop} {E : WorldError → DogmosWorld F → Prop}

/-- What a chunk leaves: the condition of the units, or that of a finished stage. -/
def AfterChunk (J Q : DogmosWorld F → Prop) (result : StageChunkResult) (w : DogmosWorld F) : Prop :=
  if result.pending then J w else Q w

theorem AfterChunk.mono {K : DogmosWorld F → Prop} {result : StageChunkResult} {w : DogmosWorld F}
    (h : AfterChunk K Q result w) (hKJ : ∀ w, K w → J w) : AfterChunk J Q result w := by
  unfold AfterChunk at h ⊢
  split
  · next hpending =>
    rw [if_pos hpending] at h
    exact hKJ w h
  · next hdone =>
    rwa [if_neg hdone] at h

namespace Chunk

/-- A phase, with what is known of its result. -/
theorem triple_phase (workLimit : Nat) {unit : ChunkM F Bool} (remaining : DogmosWorld F → Nat)
    {next : ChunkM F StageChunkResult} (hunit : Secured J unit J E)
    (hnext : Triple (fun chunk : Chunk F => J chunk.world ∧ remaining chunk.world = 0) next
      (fun result chunk => AfterChunk J Q result chunk.world) fun error chunk => E error chunk.world) :
    Triple (fun chunk : Chunk F => J chunk.world) (phase workLimit unit remaining next)
      (fun result chunk => AfterChunk J Q result chunk.world)
      fun error chunk => E error chunk.world := by
  refine triple_bind (Q := fun _ chunk => J chunk.world) ?_ fun _ => triple_get_bind fun chunk hJ => ?_
  · refine triple_get_bind fun chunk hJ => ?_
    exact triple_mono (secured_workLoop hunit _) (fun s hs => hs ▸ hJ) (fun _ _ h => h) fun _ _ h => h
  · refine triple_ite (fun _ => ?_) fun hremaining => ?_
    · refine triple_pure fun s hs => ?_
      subst hs
      exact hJ
    · refine triple_mono hnext (fun s hs => ?_) (fun _ _ h => h) fun _ _ h => h
      subst hs
      exact ⟨hJ, not_not.1 hremaining⟩

end Chunk

namespace DogmosWorld

variable [FloatFormat F] [FloatFormat D] [FloatCast F D]

/-! ## What looks at no scratch -/

/-- A property that does not look at the scratch of stages other than the reaction stage, nor at
publications, events and the active heat list. -/
structure OtherCommitClosed (J : DogmosWorld F → Prop) : Prop where
  scratch : ∀ w stageCursor stageDiffusion stageHeat stageComponents cachedDiffusion cachedHeat
    cachedComponents, J w →
      J { w with
        stageCursor, stageDiffusion, stageHeat, stageComponents, cachedDiffusion, cachedHeat,
        cachedComponents }
  idle : ∀ w, J w → J { w with stageReactions := none }
  token : ∀ w, J w → J w.withToken
  publish : ∀ w id, w.publications.undecided id → J w → J (w.published id)
  events : ∀ w events, J w → J { w with events }
  heatActive : ∀ w heatActive, J w → J { w with heatActive }

/-- A property that does not look at the scratch of the reaction stage either. -/
structure CommitClosed (J : DogmosWorld F → Prop) : Prop extends OtherCommitClosed J where
  reactions : ∀ w stageReactions cachedReactions, J w → J { w with stageReactions, cachedReactions }

omit [FloatFormat F] [FloatFormat D] [FloatCast F D] in
theorem OtherCommitClosed.claimed (hJ : OtherCommitClosed J) {α : Type} {w : DogmosWorld F}
    (cached : Option α) (hw : J w) : J (w.claimed cached) := by
  unfold DogmosWorld.claimed
  split
  · exact hw
  · exact hJ.token w hw

omit [FloatFormat F] [FloatCast F D] in
theorem OtherCommitClosed.keeps_setCursor (hJ : OtherCommitClosed J) (request : StageChunkRequest D) :
    Keeps J (setCursor (F := F) request) :=
  keeps_modify fun w hw => hJ.idle _ (hJ.scratch w _ none none none _ _ _ hw)

omit [FloatCast F D] in
theorem OtherCommitClosed.keeps_startStage (hJ : OtherCommitClosed J) {request : StageChunkRequest D}
    (hstage : request.stage ≠ .react) : Keeps J (startStage (F := F) request) := by
  have hset := hJ.keeps_setCursor request
  unfold startStage
  split
  · refine keeps_bind hset fun _ w hw => ?_
    rw [run_startDiffusion]
    exact hJ.scratch _ _ _ _ _ _ _ _ (hJ.claimed _ hw)
  · refine keeps_bind hset fun _ w hw => ?_
    rw [run_startHeat]
    exact hJ.scratch _ _ _ _ _ _ _ _ (hJ.claimed _ hw)
  · next hreact => exact absurd hreact hstage
  · refine keeps_bind (fun w hw => ?_) fun state => keeps_bind hset fun _ => keeps_modify ?_
    · rw [(run_startComponents w).1]
      exact hJ.scratch _ _ _ _ _ _ _ _ (hJ.token w hw)
    · exact fun w hw => hJ.scratch w _ _ _ _ _ _ _ hw

omit [FloatCast F D] in
/-- The part of a chunk before its phases, when the start of the stage keeps the property. -/
theorem keeps_openStage_of_start {request : StageChunkRequest D}
    (hstart : Keeps J (startStage (F := F) request)) : Keeps J (openStage (F := F) request) := by
  unfold openStage
  refine keeps_check_bind fun _ => keeps_get_bind fun w => ?_
  split
  · exact keeps_ite (fun _ => keeps_throw _) fun _ => keeps_check _
  · exact keeps_bind hstart fun _ => keeps_check _

omit [FloatCast F D] in
/-- The part of a chunk before its phases. -/
theorem triple_openStage_of_start {request : StageChunkRequest D}
    (hfail : ∀ error w, P w → E error w) (hJ : ∀ error w, J w → E error w)
    (hfound : ∀ w cursor, P w → w.stageCursor = some cursor → cursor.stage = request.stage → J w)
    (hstart : ∀ w, P w → w.stageCursor = none → J (run (startStage request) w).2) :
    Triple P (openStage request) (fun _ => J) E := by
  refine triple_check_bind (fun _ => ?_) fun w error hw _ => hfail error w hw
  refine triple_get_bind fun w hw => ?_
  have hcheck : ∀ check : DogmosWorld F → Except WorldError Unit,
      Triple J (Exec.check check) (fun _ => J) E :=
    fun _ => triple_check (fun _ _ hw _ => hw) fun w error hw _ => hJ error w hw
  split
  · next cursor hcursor =>
    by_cases hmatches : cursorMatches cursor request
    · rw [hmatches]
      refine triple_mono (hcheck _) (fun v hv => ?_) (fun _ _ hv => hv) fun _ _ hv => hv
      rw [hv]
      unfold cursorMatches at hmatches
      simp only [Bool.and_eq_true, decide_eq_true_eq] at hmatches
      exact hfound w cursor hw.1 hcursor hmatches.1.1.1
    · rw [Bool.not_eq_true] at hmatches
      rw [hmatches]
      refine triple_throw fun v hv => ?_
      rw [hv]
      exact hfail _ w hw.1
  · next hcursor =>
    refine triple_bind (Q := fun _ => J) (fun v hv => ?_) fun _ => hcheck _
    rw [hv]
    have hstarted := hstart w hw.1 hcursor
    rcases hrun : run (startStage request) w with ⟨error | _, v'⟩
    · rw [hrun] at hstarted
      exact hJ error v' hstarted
    · rw [hrun] at hstarted
      exact hstarted

omit [FloatCast F D] in
theorem CommitClosed.keeps_openStage (hJ : CommitClosed J) (request : StageChunkRequest D) :
    Keeps J (openStage (F := F) request) := by
  refine keeps_openStage_of_start ?_
  by_cases hstage : request.stage = .react
  · unfold startStage
    rw [hstage]
    refine keeps_check_bind fun _ => keeps_bind (hJ.keeps_setCursor request) fun _ w hw => ?_
    rw [run_startReactions]
    exact hJ.reactions _ _ _ (hJ.claimed _ hw)
  · exact hJ.keeps_startStage hstage

omit [FloatFormat D] [FloatCast F D] in
theorem CommitClosed.abortStage (hJ : CommitClosed J) {w : DogmosWorld F} (hw : J w) :
    J w.abortStage := by
  have helim : ∀ {α : Type} (state : Option α) (w : DogmosWorld F) (f : α → DogmosWorld F), J w →
      (∀ a, J (f a)) → J (state.elim w f) := by
    intro α state w f hw hf
    cases state with
    | none => exact hw
    | some a => exact hf a
  have hdiffusion : ∀ w state, J w → J (cacheDiffusion w state) :=
    fun w state hw => hJ.scratch _ _ _ _ _ _ _ _ (hJ.token w hw)
  have hheat : ∀ w state, J w → J (cacheHeat w state) :=
    fun w state hw => hJ.scratch _ _ _ _ _ _ _ _ (hJ.token w hw)
  have hreactions : ∀ w state, J w → J (cacheReactions w state) :=
    fun w state hw => hJ.reactions _ _ _ (hJ.token w hw)
  have hcomponents : ∀ w state, J w → J (cacheComponents w state) :=
    fun w state hw => hJ.scratch _ _ _ _ _ _ _ _ (hJ.token w hw)
  have h₀ : J { w with stageCursor := none } := hJ.scratch w _ _ _ _ _ _ _ hw
  unfold DogmosWorld.abortStage
  dsimp only
  generalize { w with stageCursor := none } = w₀ at h₀ ⊢
  have h₁ := helim w.stageDiffusion _ _ h₀ fun state => hdiffusion _ state h₀
  generalize w.stageDiffusion.elim w₀ w₀.cacheDiffusion = w₁ at h₁ ⊢
  have h₂ := helim w₁.stageHeat _ _ h₁ fun state => hheat _ state h₁
  generalize w₁.stageHeat.elim w₁ w₁.cacheHeat = w₂ at h₂ ⊢
  have h₃ := helim w₂.stageReactions _ _ h₂ fun state => hreactions _ state h₂
  generalize w₂.stageReactions.elim w₂ w₂.cacheReactions = w₃ at h₃ ⊢
  exact helim w₃.stageComponents _ _ h₃ fun state => hcomponents _ state h₃

section Commits

variable (hJ : OtherCommitClosed J)

include hJ

omit [FloatFormat F] [FloatFormat D] [FloatCast F D] in
theorem OtherCommitClosed.keeps_publishOr (publication : PublicationId) (operation : String) :
    Keeps J (publishOr publication operation) := by
  intro w hw
  unfold publishOr
  rw [run_bind, run_get]
  dsimp only
  by_cases hfree : w.publications.undecided publication
  · simp only [hfree, Bool.not_true, Bool.false_eq_true, if_false]
    exact hJ.publish w publication hfree hw
  · simp only [hfree, Bool.not_false, if_true]
    exact hw

omit [FloatFormat F] [FloatFormat D] [FloatCast F D] in
theorem OtherCommitClosed.keeps_commitStageDiffusion : Keeps J (commitStageDiffusion (F := F)) := by
  unfold commitStageDiffusion
  refine keeps_bind (keeps_check _) fun state => ?_
  refine keeps_bind (keeps_modify fun w hw => hJ.scratch w _ _ _ _ _ _ _ hw) fun _ => ?_
  refine keeps_ite (fun _ => keeps_throw _) fun _ => ?_
  refine keeps_bind (hJ.keeps_publishOr _ _) fun _ => keeps_bind (keeps_modify ?_) fun _ => keeps_pure _
  intro w hw
  exact hJ.scratch _ _ _ _ _ _ _ _ (hJ.token w hw)

omit [FloatFormat D] [FloatCast F D] in
theorem OtherCommitClosed.keeps_commitStageHeat (eventCapacity : Nat) :
    Keeps J (commitStageHeat (F := F) eventCapacity) := by
  unfold commitStageHeat
  refine keeps_bind (keeps_check _) fun state => keeps_check_bind fun _ => ?_
  refine keeps_bind (keeps_modify fun w hw => hJ.scratch w _ _ _ _ _ _ _ hw) fun _ => ?_
  refine keeps_ite (fun _ => keeps_throw _) fun _ => ?_
  refine keeps_bind (hJ.keeps_publishOr _ _) fun _ => keeps_bind (keeps_modify ?_) fun _ => keeps_pure _
  intro w hw
  have hevents := hJ.events _ (w.events ++ state.stagedEvents)
    (hJ.heatActive w state.stagedHeatActive hw)
  exact hJ.scratch _ _ _ _ _ _ _ _ (hJ.token _ hevents)

omit [FloatFormat F] [FloatFormat D] [FloatCast F D] in
theorem OtherCommitClosed.keeps_publishStageComponent (eventCapacity : Nat) :
    Keeps J (publishStageComponent (F := F) eventCapacity) := by
  unfold publishStageComponent
  refine keeps_bind (keeps_check _) fun state => keeps_check_bind fun _ => ?_
  refine keeps_bind (hJ.keeps_publishOr _ _) fun _ => ?_
  refine keeps_bind (keeps_modify fun w hw => hJ.events w _ hw) fun _ => ?_
  refine keeps_bind ?_ fun publication => keeps_modify fun w hw => ?_
  · exact keeps_get_bind fun w => keeps_bind (keeps_modify hJ.token) fun _ => keeps_pure _
  · exact hJ.scratch w _ _ _ _ _ _ _ hw

omit [FloatFormat F] [FloatFormat D] [FloatCast F D] in
theorem OtherCommitClosed.keeps_finishStageComponents : Keeps J (finishStageComponents (F := F)) := by
  unfold finishStageComponents
  refine keeps_bind (keeps_check _) fun state => keeps_bind (keeps_modify fun w hw => ?_) fun _ =>
    keeps_pure _
  exact hJ.scratch _ _ _ _ _ _ _ _ (hJ.token w hw)

end Commits

omit [FloatFormat D] [FloatCast F D] in
/-- What is a sequence of writes of units keeps what the writes keep. -/
theorem keeps_of_units {α : Type} (hunit : ∀ w w', UnitStep w w' → J w → J w') {m : WorldM F α}
    (hm : ∀ origin tokens, Keeps (Within origin tokens) m) : Keeps J m := by
  intro w hw
  have hsteps := (hm w w.tokens w (Within.refl w)).steps
  generalize (run m w).2 = w' at hsteps ⊢
  induction hsteps with
  | refl => exact hw
  | tail _ hstep ih => exact hunit _ _ hstep ih

/-- What has to be shown for a kind of stage: `J` is kept by the units, `Q` is left by the commit
and `E` by errors. -/
structure StageRules (stage : WorldStage) (eventCapacity : Nat) (J Q : DogmosWorld F → Prop)
    (E : WorldError → DogmosWorld F → Prop) : Prop where
  unit : ∀ w w', UnitStep w w' → J w → J w'
  error : ∀ error w, J w → E error w
  diffusion : stage = .processTurfs → Triple J (commitStageDiffusion (F := F))
    (fun _ w => Q { w with stageCursor := none }) E
  heat : stage = .turfHeat → Triple J (commitStageHeat (F := F) eventCapacity)
    (fun _ w => Q { w with stageCursor := none }) E
  reactions : stage = .react → Triple J (commitStageReactions (F := F) eventCapacity)
    (fun _ w => Q { w with stageCursor := none }) E
  publish : stageKind stage = .components → Triple J (publishStageComponent (F := F) eventCapacity)
    (fun _ => J) E
  finish : stageKind stage = .components → Triple J (finishStageComponents (F := F))
    (fun _ w => Q { w with stageCursor := none }) E

section Rules

variable {stage : WorldStage} {eventCapacity : Nat} (h : StageRules stage eventCapacity J Q E)

include h

/-- What is a sequence of writes of units keeps the condition. -/
theorem StageRules.triple_unit {α : Type} {m : WorldM F α}
    (hm : ∀ origin tokens, Keeps (Within origin tokens) m) : Triple J m (fun _ => J) E :=
  triple_of_keeps (keeps_of_units h.unit hm) h.error

theorem StageRules.secured_units {α : Type} {m : ChunkM F α}
    (hm : ∀ origin tokens, KeepsWorld (Within origin tokens) m) : Secured J m J E := by
  refine triple_of_keeps (fun chunk hchunk => ?_) fun error chunk hJ => h.error error _ hJ
  have hsteps := (hm chunk.world chunk.world.tokens chunk (Within.refl _)).steps
  generalize (run m chunk).2.world = w' at hsteps ⊢
  induction hsteps with
  | refl => exact hchunk
  | tail _ hstep ih => exact h.unit _ _ hstep ih

theorem StageRules.secured_before {m : WorldM F Unit} (shouldCancel : Nat → Bool)
    (available : DogmosWorld F → Bool) (hm : ∀ origin tokens, Keeps (Within origin tokens) m) :
    Secured J (checkedBefore shouldCancel available m) J E := by
  refine secured_checkedBefore shouldCancel available (fun w hw => h.error _ w hw) ?_
  exact triple_mono (h.triple_unit hm) (fun _ hw => hw.1) (fun _ _ hw => hw) fun _ _ hw => hw

theorem StageRules.secured_after {m : WorldM F Bool} (shouldCancel : Nat → Bool)
    (hm : ∀ origin tokens, Keeps (Within origin tokens) m) :
    Secured J (checkedAfter shouldCancel m) J E :=
  secured_checkedAfter shouldCancel (fun w hw => h.error _ w hw) (h.triple_unit hm)

omit [FloatFormat F] h in
/-- A commit and the end of the stage. -/
theorem triple_commit {α : Type} {m : WorldM F α} {f : α → ChunkM F StageChunkResult}
    {R : Chunk F → Prop} (hR : ∀ chunk, R chunk → J chunk.world)
    (hm : Triple J m (fun _ w => Q { w with stageCursor := none }) E)
    (hf : ∀ a, ∃ result : StageChunkResult, result.pending = false ∧
      f a = onWorld clearCursor >>= fun _ => pure result) :
    Triple R (onWorld m >>= f) (fun result chunk => AfterChunk J Q result chunk.world)
      fun error chunk => E error chunk.world := by
  refine triple_bind (triple_mono (secured_onWorld hm) hR (fun _ _ hs => hs)
    fun _ _ hs => hs) fun a => ?_
  obtain ⟨result, hpending, hresult⟩ := hf a
  rw [hresult]
  have hclear : Triple (fun w : DogmosWorld F => Q { w with stageCursor := none }) clearCursor
      (fun _ => Q) E := triple_modify fun _ hw => hw
  refine triple_bind (secured_onWorld hclear) fun _ => triple_pure fun chunk hQ => ?_
  unfold AfterChunk
  rw [hpending]
  exact hQ

/-- The units of a component stage, and the publication of its components. -/
theorem StageRules.secured_advanceComponents (hkind : stageKind stage = .components)
    (shouldCancel : Nat → Bool) :
    Secured J (advanceComponents (F := F) stage eventCapacity shouldCancel) J E := by
  have hcheck : Secured J (checkCancelled (F := F) shouldCancel) J E :=
    secured_checkCancelled shouldCancel fun w hw => h.error _ w hw
  have hpublish : Triple J (publishReadyComponent (F := F) eventCapacity) (fun _ => J) E := by
    refine triple_bind (Q := fun _ => J) ?_ fun state => ?_
    · exact triple_check (fun _ _ hw _ => hw) fun w e hw _ => h.error e w hw
    · split
      · next entry _ => exact h.triple_unit fun origin tokens => keeps_stageEntry origin tokens entry
      · exact h.publish hkind
  have hready : Secured J (processReadyStageComponent (F := F) stage eventCapacity shouldCancel)
      J E := by
    refine triple_bind (Q := fun _ (chunk : Chunk F) => J chunk.world) (secured_onWorld ?_)
      fun state => ?_
    · exact triple_check (fun _ _ hw _ => hw) fun w e hw _ => h.error e w hw
    · have hfinish : ∀ computed : Bool, Secured J
          (if computed then onWorld (publishReadyComponent (F := F) eventCapacity) else pure ())
          J E :=
        fun computed => triple_ite (fun _ => secured_onWorld hpublish) fun _ =>
          triple_pure fun _ hs => hs
      refine triple_ite (fun _ => hfinish true) fun _ => ?_
      refine triple_bind (Q := fun _ (chunk : Chunk F) => J chunk.world) ?_ fun computed =>
        hfinish computed
      exact h.secured_units fun origin tokens =>
        keeps_computeReadyComponent_within origin tokens stage shouldCancel
  refine triple_get_bind fun chunk hchunk => ?_
  refine triple_mono (P := fun chunk : Chunk F => J chunk.world) ?_ (fun s hs => hs ▸ hchunk)
    (fun _ _ hs => hs) fun _ _ hs => hs
  refine triple_ite (fun _ => ?_) fun _ => ?_
  · exact triple_bind hcheck fun _ => triple_bind hready fun _ => triple_pure fun _ hs => hs
  · exact secured_onWorld (h.triple_unit keeps_advanceStageComponentDiscovery)

/-- What follows the preparation. -/
theorem StageRules.triple_runStage (request : StageChunkRequest D) (hstage : request.stage = stage)
    (shouldCancel : Nat → Bool) :
    Triple (fun chunk : Chunk F => J chunk.world) (runStage request eventCapacity shouldCancel)
      (fun result chunk => AfterChunk J Q result chunk.world)
      fun error chunk => E error chunk.world := by
  have hget : ∀ {R : Chunk F → Prop} {g : Chunk F → ChunkM F StageChunkResult},
      (∀ chunk, Triple R (g chunk) (fun result chunk => AfterChunk J Q result chunk.world)
        fun error chunk => E error chunk.world) →
      Triple R (get >>= g) (fun result chunk => AfterChunk J Q result chunk.world)
        fun error chunk => E error chunk.world := by
    intro R g hg
    refine triple_get_bind fun chunk hchunk => ?_
    exact triple_mono (hg chunk) (fun s hs => hs ▸ hchunk) (fun _ _ hs => hs) fun _ _ hs => hs
  have hcomponents : stageKind request.stage = .components →
      Triple (fun chunk : Chunk F => J chunk.world)
        (runComponents request.stage eventCapacity request.workLimit.toNat shouldCancel)
        (fun result chunk => AfterChunk J Q result chunk.world)
        fun error chunk => E error chunk.world := by
    intro hkind
    subst hstage
    refine triple_phase _ _ (h.secured_advanceComponents hkind shouldCancel) (hget fun chunk => ?_)
    exact triple_commit (fun _ hs => hs.1) (h.finish hkind) fun _ => ⟨_, rfl, rfl⟩
  unfold runStage
  dsimp only
  split
  · next hkind =>
    refine triple_phase _ _ (h.secured_before _ _ keeps_computeNextDiffusionNode)
      (hget fun chunk => ?_)
    exact triple_commit (fun _ hs => hs.1) (h.diffusion (hstage ▸ hkind)) fun _ => ⟨_, rfl, rfl⟩
  · next hkind =>
    have hafter : ∀ {unit next} {remaining : DogmosWorld F → Nat}, Secured J unit J E →
        Triple (fun chunk : Chunk F => J chunk.world) next
          (fun result chunk => AfterChunk J Q result chunk.world)
          (fun error chunk => E error chunk.world) →
        Triple (fun chunk : Chunk F => J chunk.world)
          (phase request.workLimit.toNat unit remaining next)
          (fun result chunk => AfterChunk J Q result chunk.world)
          fun error chunk => E error chunk.world := fun hunit hnext =>
      triple_phase _ _ hunit (triple_mono hnext (fun _ hs => hs.1) (fun _ _ hs => hs) fun _ _ hs => hs)
    unfold runHeat runConduction
    refine hafter (h.secured_before _ _ fun origin tokens => keeps_prepareSeed origin tokens) ?_
    refine hafter (h.secured_before _ _ fun origin tokens =>
      (heatScratch_within origin tokens).keeps_computeNextHeatNode _) ?_
    refine hafter (h.secured_after _ fun origin tokens =>
      (heatScratch_within origin tokens).keeps_advanceStageHeatTopology) ?_
    refine triple_bind (Q := fun _ chunk => J chunk.world) (secured_onWorld (h.triple_unit
      fun origin tokens => (heatScratch_within origin tokens).keeps_prepareStageHeatConduction _)) fun _ => ?_
    refine hafter (h.secured_after _ fun origin tokens =>
      (heatScratch_within origin tokens).keeps_advanceStageHeatConduction) ?_
    refine triple_phase _ _ (h.secured_after _ fun origin tokens =>
      keeps_advanceStageHeatPublication origin tokens) ?_
    refine hget fun chunk => ?_
    exact triple_commit (fun _ hs => hs.1) (h.heat (hstage ▸ hkind)) fun _ => ⟨_, rfl, rfl⟩
  · next hkind =>
    refine triple_phase _ _ (h.secured_before _ _ fun origin tokens =>
      keeps_computeNextTarget origin tokens) (hget fun chunk => ?_)
    exact triple_commit (fun _ hs => hs.1) (h.reactions (hstage ▸ hkind)) fun _ => ⟨_, rfl, rfl⟩
  · next stage' hdiffusion hheat hreact =>
    refine hcomponents ?_
    revert hdiffusion hheat hreact
    cases request.stage <;> intro hdiffusion hheat hreact <;>
      first | rfl | exact absurd rfl hdiffusion | exact absurd rfl hheat | exact absurd rfl hreact

/-- A chunk up to the point where a failure aborts the stage. -/
theorem StageRules.triple_inner (request : StageChunkRequest D) (hstage : request.stage = stage)
    (shouldCancel : Nat → Bool) (hopen : Triple P (openStage request) (fun _ => J) E) :
    Triple (fun chunk : Chunk F => P chunk.world)
      (processStageChunkInner request eventCapacity shouldCancel)
      (fun result chunk => AfterChunk J Q result chunk.world)
      fun error chunk => E error chunk.world := by
  refine triple_bind (secured_onWorld hopen) fun _ => ?_
  refine triple_bind (secured_checkCancelled shouldCancel fun w hw => h.error _ w hw) fun _ => ?_
  refine triple_phase _ _ (h.secured_before _ _ fun origin tokens =>
    keeps_prepareNext origin tokens request.stage) ?_
  exact triple_mono (h.triple_runStage request hstage shouldCancel) (fun _ hs => hs.1)
    (fun _ _ hs => hs) fun _ _ hs => hs

end Rules

/-- A chunk, from what it does until a failure aborts the stage. -/
theorem triple_chunk_of_inner {request : StageChunkRequest D}
    {R : WorldError → DogmosWorld F → Prop} (eventLimit : UInt32) (shouldCancel : Nat → Bool)
    (h : ∀ w, P w → Triple (fun chunk : Chunk F => chunk.world = w)
      (processStageChunkInner request (min w.maxEvents eventLimit).toNat shouldCancel)
      (fun result chunk => AfterChunk J Q result chunk.world) fun error chunk => E error chunk.world)
    (habort : ∀ error w, E error w → R error w.abortStage) :
    Triple P (processStageChunk request eventLimit shouldCancel) (AfterChunk J Q) R := by
  intro w hw
  have hinner := h w hw { world := w, workItems := 0, checks := 0 } rfl
  unfold processStageChunk
  rw [run_bind, run_get]
  dsimp only
  rcases hrun : run (processStageChunkInner request (min w.maxEvents eventLimit).toNat shouldCancel)
    { world := w, workItems := 0, checks := 0 } with ⟨result, chunk⟩
  rw [hrun] at hinner
  cases result with
  | ok result => exact hinner
  | error error => exact habort _ _ hinner

/-- **A chunk**: it keeps the condition of the units, completes the stage, or fails and aborts. -/
theorem triple_processStageChunk {request : StageChunkRequest D}
    {R : WorldError → DogmosWorld F → Prop} (eventLimit : UInt32) (shouldCancel : Nat → Bool)
    (hopen : ∀ w, P w → Triple (fun w' => w' = w) (openStage request) (fun _ => J) E)
    (h : ∀ w, P w → StageRules request.stage (min w.maxEvents eventLimit).toNat J Q E)
    (habort : ∀ error w, E error w → R error w.abortStage) :
    Triple P (processStageChunk request eventLimit shouldCancel) (AfterChunk J Q) R :=
  triple_chunk_of_inner eventLimit shouldCancel
    (fun w hw => (h w hw).triple_inner request rfl shouldCancel (hopen w hw)) habort

/-! ## Rules for one stage -/

/-- What every stage does before its own phases. -/
structure OpenRules (request : StageChunkRequest D) (P J : DogmosWorld F → Prop)
    (E : WorldError → DogmosWorld F → Prop) : Prop where
  cancelled : ∀ w, J w → E .cancelled w
  opens : Triple P (openStage request) (fun _ => J) E
  prepare : Triple (fun w => J w ∧ w.remainingPreparation ≠ 0) (prepareNext request.stage)
    (fun _ => J) E

theorem OpenRules.triple_inner {request : StageChunkRequest D} {eventCapacity : Nat}
    (h : OpenRules request P J E) (shouldCancel : Nat → Bool)
    (hrun : Triple (fun chunk : Chunk F => J chunk.world) (runStage request eventCapacity shouldCancel)
      (fun result chunk => AfterChunk J Q result chunk.world) fun error chunk => E error chunk.world) :
    Triple (fun chunk : Chunk F => P chunk.world)
      (processStageChunkInner request eventCapacity shouldCancel)
      (fun result chunk => AfterChunk J Q result chunk.world)
      fun error chunk => E error chunk.world := by
  refine triple_bind (secured_onWorld h.opens) fun _ => ?_
  refine triple_bind (secured_checkCancelled shouldCancel h.cancelled) fun _ => ?_
  refine triple_phase _ _ (secured_checkedBefore shouldCancel _ h.cancelled ?_) ?_
  · exact triple_mono h.prepare (fun _ hw => ⟨hw.1, of_decide_eq_true hw.2⟩) (fun _ _ hw => hw)
      fun _ _ hw => hw
  · exact triple_mono hrun (fun _ hs => hs.1) (fun _ _ hs => hs) fun _ _ hs => hs

/-- What a heat stage does: `J` is kept while it captures turfs, and `K` after that. -/
structure HeatRules (secondsPerTick : F) (eventCapacity : Nat) (J K Q : DogmosWorld F → Prop)
    (E : WorldError → DogmosWorld F → Prop) : Prop where
  cancelled : ∀ w, J w → E .cancelled w
  seed : Triple (fun w => J w ∧ w.remainingSeeds ≠ 0) prepareSeed (fun _ => J) E
  seeded : ∀ w, J w → w.remainingSeeds = 0 → K w
  later : ∀ w, K w → J w
  node : Triple K (computeNextHeatNode secondsPerTick) (fun _ => K) E
  topology : Triple K (advanceStageHeatTopology (F := F)) (fun _ => K) E
  start : Triple K (prepareStageHeatConduction secondsPerTick) (fun _ => K) E
  conduction : Triple K (advanceStageHeatConduction (F := F)) (fun _ => K) E
  publication : Triple K (advanceStageHeatPublication (F := F)) (fun _ => K) E
  commit : Triple K (commitStageHeat (F := F) eventCapacity)
    (fun _ w => Q { w with stageCursor := none }) E

omit [FloatFormat F] in
/-- A later phase of a stage: it may stop with its own condition, which implies that of the
stage. -/
theorem triple_laterPhase {K : DogmosWorld F → Prop} (workLimit : Nat) {unit : ChunkM F Bool}
    (remaining : DogmosWorld F → Nat) {next : ChunkM F StageChunkResult} (hlater : ∀ w, K w → J w)
    (hunit : Secured K unit K E)
    (hnext : Triple (fun chunk : Chunk F => K chunk.world) next
      (fun result chunk => AfterChunk J Q result chunk.world) fun error chunk => E error chunk.world) :
    Triple (fun chunk : Chunk F => K chunk.world) (phase workLimit unit remaining next)
      (fun result chunk => AfterChunk J Q result chunk.world)
      fun error chunk => E error chunk.world := by
  refine triple_bind (Q := fun _ chunk => K chunk.world) ?_ fun _ => triple_get_bind fun chunk hK => ?_
  · refine triple_get_bind fun chunk hK => ?_
    exact triple_mono (secured_workLoop hunit _) (fun s hs => hs ▸ hK) (fun _ _ h => h) fun _ _ h => h
  · refine triple_ite (fun _ => ?_) fun _ => ?_
    · refine triple_pure fun s hs => ?_
      subst hs
      exact hlater _ hK
    · exact triple_mono hnext (fun s hs => hs ▸ hK) (fun _ _ h => h) fun _ _ h => h

theorem HeatRules.triple_runHeat {secondsPerTick : F} {eventCapacity : Nat}
    {K : DogmosWorld F → Prop} (h : HeatRules secondsPerTick eventCapacity J K Q E) (workLimit : Nat)
    (shouldCancel : Nat → Bool) :
    Triple (fun chunk : Chunk F => J chunk.world)
      (runHeat secondsPerTick eventCapacity workLimit shouldCancel)
      (fun result chunk => AfterChunk J Q result chunk.world)
      fun error chunk => E error chunk.world := by
  have hcancelled : ∀ w, K w → E .cancelled w := fun w hw => h.cancelled w (h.later w hw)
  unfold runHeat runConduction finishHeat
  refine triple_phase _ _ (secured_checkedBefore shouldCancel _ h.cancelled ?_) ?_
  · exact triple_mono h.seed (fun _ hw => ⟨hw.1, of_decide_eq_true hw.2⟩) (fun _ _ hw => hw)
      fun _ _ hw => hw
  · refine triple_mono (P := fun chunk : Chunk F => K chunk.world) ?_
      (fun chunk hs => h.seeded _ hs.1 hs.2) (fun _ _ hs => hs) fun _ _ hs => hs
    refine triple_laterPhase _ _ h.later (secured_checkedBefore shouldCancel _ hcancelled ?_) ?_
    · exact triple_mono h.node (fun _ hw => hw.1) (fun _ _ hw => hw) fun _ _ hw => hw
    refine triple_laterPhase _ _ h.later (secured_checkedAfter shouldCancel hcancelled h.topology) ?_
    refine triple_bind (secured_onWorld h.start) fun _ => ?_
    refine triple_laterPhase _ _ h.later
      (secured_checkedAfter shouldCancel hcancelled h.conduction) ?_
    refine triple_laterPhase _ _ h.later
      (secured_checkedAfter shouldCancel hcancelled h.publication) ?_
    refine triple_get_bind fun chunk hK => ?_
    exact triple_mono (triple_commit (R := fun chunk : Chunk F => K chunk.world) (fun _ hs => hs)
      h.commit fun _ => ⟨_, rfl, rfl⟩) (fun _ hs => hs ▸ hK) (fun _ _ hs => hs.mono h.later)
      fun _ _ hs => hs

/-- A property that commits keep is kept by every chunk but those of reaction stages; one that
fails aborts a world that has it. -/
theorem OtherCommitClosed.triple_processStageChunk (hJ : OtherCommitClosed J)
    (hunit : ∀ w w', UnitStep w w' → J w → J w') {request : StageChunkRequest D}
    (hstage : request.stage ≠ .react) (eventLimit : UInt32) (shouldCancel : Nat → Bool) :
    Triple J (processStageChunk request eventLimit shouldCancel) (fun _ => J)
      fun _ w => ∃ v, J v ∧ w = v.abortStage := by
  have hclear : ∀ {α : Type} {m : WorldM F α}, Keeps J m →
      Triple J m (fun _ w => J { w with stageCursor := none }) fun _ => J := by
    intro α m hm w hw
    have hfinal := hm w hw
    rcases hrun : run m w with ⟨error | a, w'⟩
    · rw [hrun] at hfinal
      exact hfinal
    · rw [hrun] at hfinal
      exact hJ.scratch w' _ _ _ _ _ _ _ hfinal
  have hrules : ∀ eventCapacity, StageRules request.stage eventCapacity J J fun _ => J := by
    intro eventCapacity
    refine ⟨hunit, fun _ _ hw => hw, fun _ => hclear hJ.keeps_commitStageDiffusion,
      fun _ => hclear (hJ.keeps_commitStageHeat _), fun hreact => absurd hreact hstage, ?_,
      fun _ => hclear hJ.keeps_finishStageComponents⟩
    exact fun _ => triple_of_keeps (hJ.keeps_publishStageComponent _) fun _ _ hw => hw
  have hopen := keeps_openStage_of_start (hJ.keeps_startStage hstage)
  have htriple := DogmosWorld.triple_processStageChunk (R := fun _ w => ∃ v, J v ∧ w = v.abortStage)
    eventLimit shouldCancel
    (fun w hw => triple_mono (triple_of_keeps hopen fun _ _ hw => hw)
      (fun _ heq => heq ▸ hw) (fun _ _ hw => hw) fun _ _ hw => hw)
    (fun w (hw : J w) => hrules _) fun _ w hw => ⟨w, hw, rfl⟩
  refine triple_mono htriple (fun _ hw => hw) (fun result w hw => ?_) fun _ _ hw => hw
  unfold AfterChunk at hw
  rwa [ite_self] at hw

theorem CommitClosed.keeps_processStageChunk (hJ : CommitClosed J)
    (hunit : ∀ w w', UnitStep w w' → J w → J w') {request : StageChunkRequest D}
    (hstage : request.stage ≠ .react) (eventLimit : UInt32) (shouldCancel : Nat → Bool) :
    Keeps J (processStageChunk request eventLimit shouldCancel) := by
  intro w hw
  have hchunk := hJ.triple_processStageChunk hunit hstage eventLimit shouldCancel w hw
  rcases hrun : run (processStageChunk request eventLimit shouldCancel) w with ⟨error | result, w'⟩
  · rw [hrun] at hchunk
    obtain ⟨v, hv, rfl⟩ := hchunk
    exact hJ.abortStage hv
  · rw [hrun] at hchunk
    exact hchunk

end DogmosWorld

end Dogmos
