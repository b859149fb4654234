import Dogmos.Core.Commands
import Dogmos.Core.TurfOps
import Dogmos.Runs.Held

/-!
# What requests on mixtures can change

The configuration, the registries, the frontier, mixture commands and mixture
edges write few parts of a world.  A property that those writes keep
(`WriteClosed`, and `RequestClosed` with the edges) is kept by every such
request, whether it succeeds or is rejected: `keeps_writeCommand`,
`keeps_applyMixtureState`, `keeps_reconcilePipenet`, `keeps_applyAdjacency` and
their like.  What they write into a mixture is made of amounts that mixtures hold
(`Licit`).  A property that additions to the events and steps of the
continuations keep as well is also kept by sequences that resume
(`SequenceClosed`) or start (`ReactionClosed`).
-/

namespace Dogmos

namespace DogmosWorld

open Exec

variable {F D : Type} {I : DogmosWorld F → Prop}

/-- A property that the writes of commands on mixtures keep. -/
structure WriteClosed [FloatFormat F] (I : DogmosWorld F → Prop) : Prop where
  writeMixture : ∀ w slot f, (∀ record, w.mixtureAt slot = some record → Licit I (f record)) →
    I w → I (w.writeMixture slot f)
  configuration : ∀ w realisticSpaceRadiation equalizeHardTurfLimit, I w →
    I { w with realisticSpaceRadiation, equalizeHardTurfLimit }

/-- A property that does not look at the edges of mixtures. -/
def EdgesClosed (I : DogmosWorld F → Prop) : Prop :=
  ∀ w edges mixtureEdges, I w → I { w with edges, mixtureEdges }

/-- A property that does not look at the registries. -/
def RegistriesClosed (I : DogmosWorld F → Prop) : Prop :=
  ∀ w gasRegistry reactionRegistry, I w → I { w with gasRegistry, reactionRegistry }

/-- A property that the writes of requests on mixtures and their edges keep. -/
structure RequestClosed [FloatFormat F] (I : DogmosWorld F → Prop) : Prop
    extends WriteClosed I where
  edges : EdgesClosed I
  registries : RegistriesClosed I

/-- A property that does not look at the frontier. -/
def FrontierClosed (I : DogmosWorld F → Prop) : Prop := ∀ w frontier, I w → I { w with frontier }

/-- A property that does not look at continuations. -/
def ContinuationClosed (I : DogmosWorld F → Prop) : Prop :=
  ∀ w continuations freeContinuations, I w → I { w with continuations, freeContinuations }

/-- What can happen to the continuations a world already has. -/
inductive SettleStep : DogmosWorld F → DogmosWorld F → Prop
  | rotate (w) (token : ReactionContinuationToken) (continuation : ReactionContinuation F)
      (h : ∀ found, w.requireContinuation token = .ok found → continuation.mixture = found.mixture) :
      SettleStep w ((rotateContinuation token continuation).final w)
  | complete (w) (token : ReactionContinuationToken) :
      SettleStep w ((completeContinuation token).final w)
  | invalidate (w) (p : ReactionContinuation F → Bool) : SettleStep w (w.invalidateContinuations p)

/-- What can happen to the continuations of a world. -/
inductive ContinuationStep : DogmosWorld F → DogmosWorld F → Prop
  | allocate (w) (continuation : ReactionContinuation F) :
      ContinuationStep w ((allocateContinuation continuation).final w)
  | settle {w w'} (h : SettleStep w w') : ContinuationStep w w'

/-- A property that the writes of resumed sequences keep as well. -/
structure SequenceClosed [FloatFormat F] (I : DogmosWorld F → Prop) : Prop
    extends WriteClosed I where
  events : ∀ w events, I w → I { w with events }
  settle : ∀ w w', SettleStep w w' → I w → I w'

/-- A property that the writes of requests and of resumed sequences keep. -/
structure ResumeClosed [FloatFormat F] (I : DogmosWorld F → Prop) : Prop
    extends RequestClosed I, SequenceClosed I

/-- A property that the writes of reaction sequences keep as well. -/
structure ReactionClosed [FloatFormat F] (I : DogmosWorld F → Prop) : Prop
    extends ResumeClosed I where
  allocate : ∀ continuation, Keeps I (allocateContinuation continuation)

theorem ReactionClosed.continuations [FloatFormat F] (hI : ReactionClosed I) {w w' : DogmosWorld F}
    (h : ContinuationStep w w') (hw : I w) : I w' := by
  cases h with
  | allocate continuation => exact hI.allocate continuation w hw
  | settle h => exact hI.settle _ _ h hw

/-! ## Configuration, frontier and registries -/

theorem keeps_rejectActiveStage (operation : String) : Keeps I (rejectActiveStage operation) :=
  keeps_check _

theorem keeps_setEqualizeHardTurfLimit [FloatFormat F] (hI : WriteClosed I) (limit : UInt32) :
    Keeps I (setEqualizeHardTurfLimit limit) := by
  unfold setEqualizeHardTurfLimit
  refine keeps_ite (fun _ => keeps_throw _) fun _ => keeps_modify ?_
  intro w hw
  exact hI.configuration w _ _ hw

theorem keeps_onFrontier (hI : FrontierClosed I) {α : Type}
    (call : Exec FrontierError FrontierState α) : Keeps I (onFrontier call) :=
  keeps_embed fun w hw => hI w _ hw

theorem keeps_requireTurfHandles (handles : List TurfHandle) :
    Keeps I (requireTurfHandles (F := F) handles) :=
  keeps_forM fun _ _ => keeps_check_bind fun _ => keeps_pure _

theorem keeps_beginFrontier (hI : FrontierClosed I) (epoch : UInt64) (expected : UInt32)
    (reserve : Nat → Bool) : Keeps I (beginFrontier epoch expected reserve) :=
  keeps_bind (keeps_rejectActiveStage _) fun _ => keeps_get_bind fun _ => keeps_onFrontier hI _

theorem keeps_appendFrontier (hI : FrontierClosed I) (epoch : UInt64) (offset : UInt32)
    (handles : List TurfHandle) (reserve : Nat → Bool) :
    Keeps I (appendFrontier epoch offset handles reserve) :=
  keeps_onFrontier hI _

theorem keeps_commitFrontier (hI : FrontierClosed I) (epoch : UInt64) :
    Keeps I (commitFrontier epoch) := by
  unfold commitFrontier
  refine keeps_bind (keeps_rejectActiveStage _) fun _ => keeps_check_bind fun pending => ?_
  refine keeps_bind (keeps_requireTurfHandles pending) fun _ => keeps_get_bind fun _ => ?_
  refine keeps_bind (keeps_modify ?_) fun _ => keeps_pure _
  intro w hw
  exact hI w _ hw

theorem keeps_addFrontier (hI : FrontierClosed I) (epoch : UInt64) (handles : List TurfHandle) :
    Keeps I (addFrontier epoch handles) := by
  unfold addFrontier
  refine keeps_bind (keeps_rejectActiveStage _) fun _ => ?_
  refine keeps_bind (keeps_requireTurfHandles handles) fun _ => keeps_get_bind fun _ => ?_
  exact keeps_onFrontier hI _

theorem keeps_removeFrontier (hI : FrontierClosed I) (epoch : UInt64) (handles : List TurfHandle) :
    Keeps I (removeFrontier epoch handles) :=
  keeps_bind (keeps_rejectActiveStage _) fun _ => keeps_onFrontier hI _

/-! ## Continuations -/

theorem keeps_allocateContinuation (hI : ContinuationClosed I) (continuation : ReactionContinuation F) :
    Keeps I (allocateContinuation continuation) := by
  unfold allocateContinuation
  refine keeps_get_bind fun w => ?_
  split
  · refine keeps_bind (keeps_modify fun w hw => hI w _ _ hw) fun _ => ?_
    refine keeps_ite (fun _ => keeps_throw _) fun _ => ?_
    exact keeps_bind (keeps_modify fun w hw => hI w _ _ hw) fun _ => keeps_pure _
  · refine keeps_ite (fun _ => keeps_throw _) fun _ => keeps_ite (fun _ => keeps_throw _) fun _ => ?_
    exact keeps_bind (keeps_modify fun w hw => hI w _ _ hw) fun _ => keeps_pure _

theorem keeps_rotateContinuation (hI : ContinuationClosed I) (token : ReactionContinuationToken)
    (continuation : ReactionContinuation F) : Keeps I (rotateContinuation token continuation) := by
  unfold rotateContinuation
  refine keeps_check_bind fun _ => keeps_ite (fun _ => keeps_throw _) fun _ => ?_
  exact keeps_bind (keeps_modify fun w hw => hI w _ _ hw) fun _ => keeps_pure _

theorem keeps_completeContinuation (hI : ContinuationClosed I) (token : ReactionContinuationToken) :
    Keeps I (completeContinuation (F := F) token) := by
  unfold completeContinuation
  exact keeps_check_bind fun _ => keeps_modify fun w hw => hI w _ _ hw

theorem ContinuationClosed.settle (hI : ContinuationClosed I) {w w' : DogmosWorld F}
    (h : SettleStep w w') (hw : I w) : I w' := by
  cases h with
  | rotate token continuation _ => exact keeps_rotateContinuation hI token continuation w hw
  | complete token => exact keeps_completeContinuation hI token w hw
  | invalidate p =>
    have hfold : ∀ (entries : List (ContinuationSlot F × ℕ)) (w : DogmosWorld F), I w →
        I (entries.foldl (fun w entry =>
          if entry.1.continuation.any p then w.freeContinuation entry.2 entry.1.generation
          else w) w) := by
      intro entries
      induction entries with
      | nil => exact fun _ hw => hw
      | cons entry rest ih =>
        intro w hw
        refine ih _ ?_
        dsimp only
        split
        · exact hI w _ _ hw
        · exact hw
    exact hfold _ _ hw

theorem ContinuationClosed.continuations (hI : ContinuationClosed I) {w w' : DogmosWorld F}
    (h : ContinuationStep w w') (hw : I w) : I w' := by
  cases h with
  | allocate continuation => exact keeps_allocateContinuation hI continuation w hw
  | settle h => exact hI.settle h hw

theorem SequenceClosed.complete [FloatFormat F] (hI : SequenceClosed I)
    (token : ReactionContinuationToken) : Keeps I (completeContinuation (F := F) token) :=
  fun w hw => hI.settle w _ (.complete w token) hw

/-! ## Registries -/

section

variable [FloatFormat F]

theorem keeps_installGases (hI : RegistriesClosed I) (gases : List (GasMetadata F)) :
    Keeps I (installGases gases) := by
  unfold installGases
  refine keeps_get_bind fun w => keeps_ite (fun _ => keeps_throw _) fun _ => ?_
  refine keeps_ite (fun _ => keeps_throw _) fun _ => keeps_check_bind fun registry => ?_
  refine keeps_bind (keeps_modify ?_) fun _ => keeps_pure _
  intro w hw
  exact hI w _ _ hw

theorem keeps_installReactions (hI : RegistriesClosed I) (reactions : List (ReactionMetadata F)) :
    Keeps I (installReactions reactions) := by
  unfold installReactions
  refine keeps_get_bind fun w => keeps_ite (fun _ => keeps_throw _) fun _ => ?_
  refine keeps_ite (fun _ => keeps_throw _) fun _ => ?_
  refine keeps_check_bind fun gases => keeps_check_bind fun registry => ?_
  refine keeps_bind (keeps_modify ?_) fun _ => keeps_pure _
  intro w hw
  exact hI w _ _ hw

/-! ## Mixture edges -/

theorem keeps_applyAdjacencyMutation (hI : EdgesClosed I) (mutation : AdjacencyMutation F) :
    Keeps I (applyAdjacencyMutation mutation) := by
  unfold applyAdjacencyMutation
  refine keeps_check_bind fun _ => keeps_check_bind fun _ => ?_
  refine keeps_ite (fun _ => keeps_throw _) fun _ => keeps_check_bind fun key => ?_
  refine keeps_get_bind fun world => keeps_ite (fun _ => ?_) fun _ => ?_
  · refine keeps_ite (fun _ => ?_) fun _ => keeps_pure _
    refine keeps_bind (keeps_modify ?_) fun _ => keeps_pure _
    intro w hw
    exact hI w _ _ hw
  · refine keeps_bind (keeps_modify ?_) fun _ => keeps_ite (fun _ => keeps_pure _) fun _ => ?_
    · intro w hw
      exact hI w _ _ hw
    · refine keeps_bind (keeps_modify ?_) fun _ => keeps_pure _
      intro w hw
      exact hI w _ _ hw

theorem keeps_applyAdjacency (hI : EdgesClosed I) (mutations : List (AdjacencyMutation F)) :
    Keeps I (applyAdjacency mutations) := by
  unfold applyAdjacency
  refine keeps_bind ?_ fun changed => ?_
  · refine keeps_foldlM (fun changed mutation _ => ?_) false
    exact keeps_bind (keeps_applyAdjacencyMutation hI mutation) fun _ => keeps_pure _
  · refine keeps_ite (fun _ => ?_) fun _ => keeps_pure _
    exact keeps_check_bind fun _ => keeps_pure _

/-! ## Writing mixtures -/

theorem keeps_requireHandle_bind {α : Type} {handle : MixtureHandle}
    {f : MixtureRecord F → WorldM F α} (hf : ∀ record, Held I record → Keeps I (f record)) :
    Keeps I ((check fun w => w.requireHandle handle) >>= f) :=
  keeps_check_bind_of fun _ record hw hrecord => hf record (held_of_requireHandle hw hrecord)

theorem WriteClosed.settle (hI : WriteClosed I) {w : DogmosWorld F} (slot : Nat) (hw : I w) :
    I (w.writeMixture slot fun record => record) :=
  hI.writeMixture w slot _ (fun _ hrecord => (held_of_visible hw hrecord).licit rfl) hw

theorem keeps_requireHandleMut_bind {α : Type} (hI : WriteClosed I) {handle : MixtureHandle}
    {f : MixtureRecord F → WorldM F α} (hf : ∀ record, Held I record → Keeps I (f record)) :
    Keeps I (requireHandleMut handle >>= f) := by
  unfold requireHandleMut
  simp only [bind_assoc, pure_bind]
  refine keeps_requireHandle_bind fun mixture hmixture => ?_
  exact keeps_bind (keeps_modify fun w hw => hI.settle _ hw) fun _ => hf mixture hmixture

/-- A mutation that does not count as a change writes its amounts as they are. -/
theorem keeps_mutateMixture (hI : WriteClosed I) (handle : MixtureHandle)
    {mutation : MixtureRecord F → Bool × MixtureRecord F}
    (hmutation : ∀ record, Held I record → (mutation record).1 = false →
      Licit I (mutation record).2) :
    Keeps I (mutateMixture handle mutation) := by
  unfold mutateMixture
  refine keeps_requireHandleMut_bind hI fun mixture hmixture => ?_
  refine keeps_ite (fun _ => keeps_throw _) fun _ => ?_
  refine keeps_bind (keeps_modify fun w hw => hI.writeMixture w _ _ (fun _ _ => ?_) hw) fun _ =>
    keeps_pure _
  split
  · exact licit_of_canonical ⟨_, rfl⟩
  · next hunchanged => exact hmutation mixture hmixture (Bool.eq_false_iff.2 hunchanged)

theorem licit_changeIf {changed : Bool} {before after : MixtureRecord F} (h : Held I before)
    (hunchanged : (changeIf changed before after).1 = false) :
    Licit I (changeIf changed before after).2 := by
  unfold changeIf at hunchanged ⊢
  dsimp only at hunchanged ⊢
  rw [if_neg (Bool.eq_false_iff.1 hunchanged)]
  exact h.licit rfl

theorem keeps_mutate_changeIf (hI : WriteClosed I) (handle : MixtureHandle)
    (changed : MixtureRecord F → Bool) (after : MixtureRecord F → MixtureRecord F) :
    Keeps I (mutateMixture handle fun mixture =>
      changeIf (changed mixture) mixture (after mixture)) :=
  keeps_mutateMixture hI handle fun _ hrecord hunchanged => licit_changeIf hrecord hunchanged

theorem keeps_writePair (hI : WriteClosed I) (first second : MixtureHandle)
    {firstAfter secondAfter : Option (MixtureRecord F)}
    (hfirst : ∀ record ∈ firstAfter, Licit I record)
    (hsecond : ∀ record ∈ secondAfter, Licit I record) :
    Keeps I (writePair first second firstAfter secondAfter) := by
  have hwrite : ∀ {after : Option (MixtureRecord F)} {w : DogmosWorld F} (slot : Nat),
      (∀ record ∈ after, Licit I record) → I w →
      I (w.writeMixture slot fun record => after.getD record) := by
    intro after w slot hafter hw
    refine hI.writeMixture w slot _ (fun record hrecord => ?_) hw
    rcases after with _ | record'
    · exact (held_of_visible hw hrecord).licit rfl
    · exact hafter record' rfl
  unfold writePair requireTwoHandlesMut
  refine keeps_bind ?_ fun _ => keeps_modify fun w hw => hwrite _ hsecond (hwrite _ hfirst hw)
  refine keeps_check_bind fun _ => keeps_check_bind fun _ => ?_
  refine keeps_ite (fun _ => keeps_throw _) fun _ => ?_
  exact keeps_bind (keeps_modify fun w hw => hI.settle _ (hI.settle _ hw)) fun _ => keeps_pure _

theorem keeps_applyMixtureState (hI : WriteClosed I)
    (mutations : List (MixtureStateMutation F)) : Keeps I (applyMixtureState mutations) := by
  unfold applyMixtureState
  refine keeps_bind (keeps_forM fun _ _ => keeps_check _) fun _ => ?_
  dsimp only
  have hwrite : Keeps I (mutations.forM fun mutation : MixtureStateMutation F =>
      (modify fun w => w.writeMixture mutation.handle.slot.toNat (applyState mutation) :
        WorldM F PUnit)) := by
    refine keeps_forM fun mutation _ => keeps_modify fun w hw => ?_
    refine hI.writeMixture w _ _ (fun record hrecord => ?_) hw
    unfold applyState
    split
    · exact (held_of_visible hw hrecord).licit rfl
    · exact licit_of_canonical ⟨_, rfl⟩
  split
  · exact keeps_throw _
  · exact keeps_bind hwrite fun _ => keeps_pure _

theorem keeps_reconcilePipenet (hI : WriteClosed I) (handles : List MixtureHandle) :
    Keeps I (reconcilePipenet (F := F) handles) := by
  unfold reconcilePipenet
  refine keeps_bind (keeps_forM fun _ _ => keeps_check _) fun _ => keeps_check_bind fun totals => ?_
  refine keeps_ite (fun _ => keeps_pure _) fun _ => keeps_check_bind fun mutations => ?_
  exact keeps_bind (keeps_applyMixtureState hI mutations) fun _ => keeps_pure _

/-! ## Mixture commands -/

section

variable [FloatFormat D] [FloatCast F D]

theorem keeps_adjustMoles (hI : WriteClosed I) (handle : MixtureHandle) (gas : GasId) (delta : F) :
    Keeps I (adjustMoles (D := D) handle gas delta) := by
  unfold adjustMoles
  refine keeps_check_bind fun index => keeps_check_bind fun _ => ?_
  refine keeps_bind (keeps_mutateMixture hI _ fun record hrecord => ?_) fun updated =>
    keeps_ite (fun _ => ?_) fun _ => ?_
  · split
    · exact fun _ => hrecord.licit rfl
    · split
      · exact fun _ => hrecord.licit rfl
      · exact licit_changeIf hrecord
  · exact keeps_check_bind fun mixture => keeps_ite (fun _ => keeps_throw _) fun _ => keeps_pure _
  · exact keeps_pure _

theorem keeps_adjustMolesTemperature (hI : WriteClosed I) (handle : MixtureHandle) (gas : GasId)
    (amount temperature : F) : Keeps I (adjustMolesTemperature handle gas amount temperature) := by
  unfold adjustMolesTemperature
  refine keeps_check_bind fun _ => keeps_check_bind fun _ => keeps_ite (fun _ => keeps_pure _) ?_
  intro _
  refine keeps_check_bind fun index => keeps_check_bind fun _ => keeps_check_bind fun _ => ?_
  refine keeps_check_bind fun _ => ?_
  exact keeps_bind (keeps_mutate_changeIf hI _ _ _) fun _ => keeps_pure _

omit [FloatFormat D] in
theorem made_writeAdjusted (entries : List (Nat × D)) {progress : Bool × Gases F}
    (h : ∀ index, index < maxGasSlots → Made (HeldIn I) (progress.2.at index)) :
    ∀ index, index < maxGasSlots →
      Made (HeldIn I) ((entries.foldl writeAdjusted progress).2.at index) := by
  induction entries generalizing progress with
  | nil => exact h
  | cons entry entries ih =>
    refine ih fun index hindex => ?_
    unfold writeAdjusted
    dsimp only
    rw [Gases.at_put]
    split
    · exact .dropped _
    · exact h index hindex

theorem keeps_adjustMultiple (hI : WriteClosed I) (handle : MixtureHandle)
    (adjustments : List (GasId × F)) : Keeps I (adjustMultiple (D := D) handle adjustments) := by
  unfold adjustMultiple
  refine keeps_check_bind fun _ => keeps_check_bind fun adjusted => ?_
  refine keeps_bind (keeps_mutateMixture hI _ fun record hrecord _ => ?_) fun _ => keeps_pure _
  split
  · exact hrecord.licit rfl
  · exact made_writeAdjusted adjusted.toList (hrecord.licit rfl)

theorem keeps_adjustHeat (hI : WriteClosed I) (handle : MixtureHandle) (heat : F) :
    Keeps I (adjustHeat handle heat) := by
  unfold adjustHeat
  refine keeps_check_bind fun _ => keeps_check_bind fun _ => keeps_check_bind fun _ => ?_
  exact keeps_bind (keeps_mutate_changeIf hI _ _ _) fun _ => keeps_pure _

theorem keeps_temperatureShareNonGas (hI : WriteClosed I) (handle : MixtureHandle)
    (conductionCoefficient sharerTemperature sharerHeatCapacity : F) :
    Keeps I (temperatureShareNonGas handle conductionCoefficient sharerTemperature
      sharerHeatCapacity) := by
  have hwrite : ∀ (changed : MixtureRecord F → Bool) (after : MixtureRecord F → MixtureRecord F)
      (returned : F),
      Keeps I (do
        let _ ← mutateMixture handle fun mixture =>
          changeIf (changed mixture) mixture (after mixture)
        pure (CommandResult.scalar returned)) :=
    fun _ _ _ => keeps_bind (keeps_mutate_changeIf hI _ _ _) fun _ => keeps_pure _
  unfold temperatureShareNonGas
  dsimp only
  refine keeps_check_bind fun _ => keeps_check_bind fun _ => keeps_check_bind fun _ => ?_
  refine keeps_check_bind fun before => keeps_ite (fun _ => keeps_check_bind fun _ => ?_) fun _ => ?_
  · refine keeps_ite (fun _ => ?_) fun _ => ?_
    · exact keeps_bind (keeps_pure _) fun _ => hwrite _ _ _
    · exact keeps_bind (keeps_pure _) fun _ => hwrite _ _ _
  · exact keeps_bind (keeps_pure _) fun _ => hwrite _ _ _

theorem keeps_copyFrom (hI : WriteClosed I) (receiver giver : MixtureHandle) :
    Keeps I (copyFrom (F := F) receiver giver) := by
  unfold copyFrom
  refine keeps_ite (fun _ => keeps_throw _) fun _ => keeps_check_bind fun _ => ?_
  exact keeps_bind (keeps_mutate_changeIf hI _ _ _) fun _ => keeps_pure _

theorem keeps_equalizeWith (hI : WriteClosed I) (receiver total : MixtureHandle) :
    Keeps I (equalizeWith (F := F) receiver total) := by
  unfold equalizeWith
  refine keeps_ite (fun _ => keeps_throw _) fun _ => keeps_check_bind fun _ => ?_
  refine keeps_ite (fun _ => keeps_pure _) fun _ => ?_
  exact keeps_bind (keeps_mutate_changeIf hI _ _ _) fun _ => keeps_pure _

omit [FloatFormat D] [FloatCast F D] in
theorem keeps_commitPairTemperatures (hI : WriteClosed I) (first second : MixtureHandle)
    (firstTemperature secondTemperature : F) (firstChanged secondChanged : Bool) :
    Keeps I (commitPairTemperatures first second firstTemperature secondTemperature firstChanged
      secondChanged) := by
  have hwarmed : ∀ (changed : Bool) (temperature : F) (record : MixtureRecord F), Held I record →
      ∀ after ∈ (if changed = true then some (MixtureRecord.revised { record with temperature })
        else none), Licit I after := by
    intro changed temperature record hrecord after hafter
    split at hafter
    · cases hafter
      exact hrecord.licit rfl
    · cases hafter
  have hcommit : ∀ firstAfter secondAfter : MixtureRecord F → Option (MixtureRecord F), ∀ count,
      (∀ record, Held I record → ∀ after ∈ firstAfter record, Licit I after) →
      (∀ record, Held I record → ∀ after ∈ secondAfter record, Licit I after) →
      Keeps I (do
        let firstRecord ← check fun w : DogmosWorld F => w.requireHandle first
        let secondRecord ← check fun w : DogmosWorld F => w.requireHandle second
        writePair first second (firstAfter firstRecord) (secondAfter secondRecord)
        pure (count : UInt32)) := by
    intro firstAfter secondAfter count hfirst hsecond
    refine keeps_requireHandle_bind fun firstRecord hfirstRecord => ?_
    refine keeps_requireHandle_bind fun secondRecord hsecondRecord => ?_
    exact keeps_bind (keeps_writePair hI _ _ (hfirst _ hfirstRecord) (hsecond _ hsecondRecord))
      fun _ => keeps_pure _
  unfold commitPairTemperatures
  dsimp only
  refine keeps_ite (fun _ => ?_) fun _ => ?_
  · refine keeps_check_bind fun _ => keeps_check_bind fun _ => keeps_ite (fun _ => ?_) fun _ => ?_
    · refine keeps_check_bind fun _ => keeps_check_bind fun _ => ?_
      exact keeps_ite (fun _ => keeps_pure _) fun _ =>
        hcommit _ _ _ (hwarmed _ _) (hwarmed _ _)
    · exact keeps_ite (fun _ => keeps_pure _) fun _ =>
        hcommit _ _ _ (hwarmed _ _) (hwarmed _ _)
  · refine keeps_ite (fun _ => ?_) fun _ => ?_
    · refine keeps_check_bind fun _ => keeps_check_bind fun _ => ?_
      exact keeps_ite (fun _ => keeps_pure _) fun _ =>
        hcommit _ _ _ (hwarmed _ _) (hwarmed _ _)
    · exact keeps_ite (fun _ => keeps_pure _) fun _ =>
        hcommit _ _ _ (hwarmed _ _) (hwarmed _ _)

theorem keeps_temperatureShare (hI : WriteClosed I) (first second : MixtureHandle)
    (conductionCoefficient : F) :
    Keeps I (temperatureShare first second conductionCoefficient) := by
  have hcommit : ∀ a b : F, ∀ c d : Bool, Keeps I (do
      let _ ← commitPairTemperatures first second a b c d
      pure (CommandResult.scalar b)) :=
    fun _ _ _ _ => keeps_bind (keeps_commitPairTemperatures hI _ _ _ _ _ _) fun _ => keeps_pure _
  unfold temperatureShare
  dsimp only
  refine keeps_ite (fun _ => keeps_throw _) fun _ => keeps_check_bind fun _ => ?_
  refine keeps_check_bind fun firstBefore => keeps_check_bind fun secondBefore => ?_
  refine keeps_ite (fun _ => ?_) fun _ => keeps_bind (keeps_pure _) fun _ => hcommit _ _ _ _
  refine keeps_check_bind fun _ => keeps_check_bind fun _ => keeps_ite (fun _ => ?_) fun _ => ?_
  · exact keeps_bind (keeps_pure _) fun _ => hcommit _ _ _ _
  · exact keeps_bind (keeps_pure _) fun _ => hcommit _ _ _ _

theorem keeps_mergeMixtures (hI : WriteClosed I) (receiver giver : MixtureHandle) :
    Keeps I (mergeMixtures (F := F) receiver giver) := by
  unfold mergeMixtures
  refine keeps_ite (fun _ => keeps_throw _) fun _ => keeps_check_bind fun _ => ?_
  refine keeps_check_bind fun _ => keeps_ite (fun _ => keeps_check_bind fun _ => ?_) fun _ => ?_
  · exact keeps_bind (keeps_mutateMixture hI _ fun _ _ => nofun) fun _ => keeps_pure _
  · exact keeps_pure _

omit [FloatFormat D] [FloatCast F D] in
theorem eq_clamp_of_requireRatio {first second : MixtureHandle} {ratio clamped : F}
    (h : requireRatio first second ratio = .ok clamped) :
    clamped = FloatFormat.clamp ratio 0.0 1.0 := by
  unfold requireRatio at h
  split at h
  · cases h
  · split at h
    · cases h
    · cases h
      rfl

theorem keeps_removeRatioInto (hI : WriteClosed I) (source destination : MixtureHandle)
    (ratio : F) (canonicalizeTraces : Bool) :
    Keeps I (removeRatioInto source destination ratio canonicalizeTraces) := by
  unfold removeRatioInto
  dsimp only
  refine keeps_check_bind_of fun _ removal _ hremoval => ?_
  refine keeps_requireHandle_bind fun sourceBefore hsource => ?_
  refine keeps_check_bind fun destinationBefore => ?_
  refine keeps_ite (fun _ => keeps_pure _) fun _ => keeps_check_bind fun _ => ?_
  refine keeps_check_bind fun _ => ?_
  -- without the clean-up, a part of what the source holds moves and the rest stays
  have hmade : ∀ index, index < maxGasSlots →
      Made (HeldIn I) (Gases.at (sourceBefore.gases.map fun amount =>
        quantizedRemoval amount removal) index) ∧
      Made (HeldIn I) (Gases.at (Vector.zipWith (· - ·) sourceBefore.gases
        (sourceBefore.gases.map fun amount => quantizedRemoval amount removal)) index) := by
    intro index hindex
    rw [Gases.at_zipWith _ _ _ hindex, Gases.at_map _ _ hindex]
    refine ⟨?_, .left (hsource index hindex) removal⟩
    rw [eq_clamp_of_requireRatio hremoval]
    exact .removed (hsource index hindex) ratio
  refine keeps_bind (keeps_writePair hI _ _ ?_ ?_) fun _ => keeps_pure _
  · intro after hafter
    split at hafter
    · cases hafter
    · cases hafter
      cases canonicalizeTraces
      · exact fun index hindex => (hmade index hindex).2
      · exact licit_of_canonical ⟨_, rfl⟩
  · intro after hafter
    cases hafter
    cases canonicalizeTraces
    · exact fun index hindex => (hmade index hindex).1
    · exact licit_of_canonical ⟨_, rfl⟩

theorem keeps_transferGases (hI : WriteClosed I) (source destination : MixtureHandle)
    (ratio : F) (gases : List GasId) : Keeps I (transferGases source destination ratio gases) := by
  unfold transferGases
  dsimp only
  refine keeps_ite (fun _ => keeps_throw _) fun _ => keeps_check_bind fun _ => ?_
  refine keeps_check_bind fun _ => keeps_check_bind fun _ => keeps_check_bind fun _ => ?_
  refine keeps_ite (fun _ => keeps_pure _) fun _ => keeps_check_bind fun _ => ?_
  refine keeps_check_bind fun _ => keeps_check_bind fun _ => keeps_check_bind fun _ => ?_
  refine keeps_bind (keeps_writePair hI _ _ ?_ ?_) fun _ => keeps_pure _
  · rintro _ ⟨⟩
    exact licit_of_canonical ⟨_, rfl⟩
  · rintro _ ⟨⟩
    exact licit_of_canonical ⟨_, rfl⟩

/-- A record that is written if it changed, with the next revision. -/
theorem licit_revised {changed : Bool} {record : MixtureRecord F} (h : Licit I record) :
    ∀ after ∈ (if changed = true then some (MixtureRecord.revised record) else none),
      Licit I after := by
  intro after hafter
  split at hafter
  · cases hafter
    exact h
  · cases hafter

theorem licit_canonicalRecord {record s : MixtureRecord F} (h : Held I record)
    (hrecomputed : Recomputed record s) : Licit I (canonicalRecord s) := by
  unfold canonicalRecord
  split
  · next himmutable =>
    rw [hrecomputed.same (hrecomputed.immutable ▸ himmutable)]
    exact h.licit rfl
  · exact licit_of_canonical ⟨_, rfl⟩

theorem keeps_transferRatioTo (hI : WriteClosed I) (source destination : MixtureHandle)
    (ratio : F) : Keeps I (transferRatioTo source destination ratio) := by
  unfold transferRatioTo
  dsimp only
  refine keeps_check_bind fun removal => keeps_requireHandle_bind fun sourceBefore hsource => ?_
  refine keeps_requireHandle_bind fun destinationBefore hdestination => ?_
  have hsourceAfter : Licit I (if sourceBefore.immutable = true then sourceBefore
      else
        { sourceBefore with
          gases := canonicalizeGases (Vector.zipWith (· - ·) sourceBefore.gases
            (sourceBefore.gases.map fun amount => quantizedRemoval amount removal)) }) := by
    split
    · exact hsource.licit rfl
    · exact licit_of_canonical ⟨_, rfl⟩
  refine keeps_ite (fun _ => keeps_pure _) fun _ => keeps_ite (fun _ => ?_) fun _ => ?_
  · refine keeps_pure_bind (keeps_check_bind fun _ => keeps_check_bind fun _ => ?_)
    refine keeps_ite (fun _ => keeps_pure _) fun _ => ?_
    exact keeps_bind (keeps_writePair hI _ _ (licit_revised hsourceAfter)
      (licit_revised (hdestination.licit rfl))) fun _ => keeps_pure _
  · refine keeps_check_bind fun registry => keeps_pure_bind (keeps_check_bind fun _ => ?_)
    refine keeps_check_bind fun _ => keeps_ite (fun _ => keeps_pure _) fun _ => ?_
    exact keeps_bind (keeps_writePair hI _ _ (licit_revised hsourceAfter)
      (licit_revised (licit_of_canonical ⟨_, rfl⟩))) fun _ => keeps_pure _

theorem keeps_shareRatio (hI : WriteClosed I) (first second : MixtureHandle) (ratio : F)
    (oneWay : Bool) : Keeps I (shareRatio first second ratio oneWay) := by
  unfold shareRatio
  dsimp only
  refine keeps_check_bind fun removal => keeps_check_bind fun registry => ?_
  refine keeps_requireHandle_bind fun firstBefore hfirst => ?_
  refine keeps_requireHandle_bind fun secondBefore hsecond => ?_
  refine keeps_check_bind fun _ => keeps_check_bind fun _ => ?_
  have hshared := recomputed_sharedRecords firstBefore secondBefore removal oneWay
    registry.specificHeats
  refine keeps_ite (fun _ => ?_) fun _ => keeps_pure _
  exact keeps_bind (keeps_writePair hI _ _ (licit_revised (licit_canonicalRecord hfirst hshared.1))
    (licit_revised (licit_canonicalRecord hsecond hshared.2))) fun _ => keeps_pure _

theorem keeps_transferByFlags (hI : WriteClosed I) (source destination : MixtureHandle)
    (flags : UInt32) (amount : F) : Keeps I (transferByFlags source destination flags amount) := by
  unfold transferByFlags
  dsimp only
  refine keeps_ite (fun _ => keeps_pure _) fun _ => keeps_check_bind fun _ => ?_
  refine keeps_ite (fun _ => keeps_pure _) fun _ => keeps_check_bind fun _ => ?_
  refine keeps_ite (fun _ => keeps_pure _) fun _ => ?_
  exact keeps_bind (keeps_transferGases hI _ _ _ _) fun _ => keeps_pure _

theorem licit_addToAll (amount : F) {record : MixtureRecord F} (h : Held I record) :
    Licit I (addToAll (D := D) amount record).2 := by
  unfold addToAll
  split
  · exact h.licit rfl
  · intro index hindex
    dsimp only
    rw [Gases.at_eq_getElem _ hindex, Vector.getElem_mapIdx]
    split
    · exact .dropped _
    · rw [← Gases.at_eq_getElem _ hindex]
      exact .held (h index hindex)

theorem licit_multiplyAll (factor : F) {record : MixtureRecord F} (h : Held I record) :
    Licit I (multiplyAll (D := D) factor record).2 := by
  unfold multiplyAll
  split
  · exact h.licit rfl
  · intro index hindex
    dsimp only
    rw [Gases.at_map _ _ hindex]
    exact .dropped _

/-- **Commands that write mixtures** keep what their writes keep. -/
theorem keeps_writeCommand (hI : WriteClosed I) (command : Command F) :
    Keeps I (writeCommand command) := by
  have hmutate : ∀ (handle : MixtureHandle) (changed : MixtureRecord F → Bool)
      (after : MixtureRecord F → MixtureRecord F), Keeps I (do
        let updated ← mutateMixture handle fun mixture =>
          changeIf (changed mixture) mixture (after mixture)
        pure (appliedIf updated : CommandResult F)) :=
    fun _ _ _ => keeps_bind (keeps_mutate_changeIf hI _ _ _) fun _ => keeps_pure _
  cases command with
  | setMoles handle gas amount =>
    exact keeps_check_bind fun _ => keeps_check_bind fun _ => hmutate _ _ _
  | adjustMoles handle gas delta => exact keeps_adjustMoles hI _ _ _
  | adjustMolesTemperature handle gas amount temperature =>
    exact keeps_adjustMolesTemperature hI _ _ _ _
  | adjustMultiple handle adjustments => exact keeps_adjustMultiple hI _ _
  | setTemperature handle temperature => exact keeps_check_bind fun _ => hmutate _ _ _
  | setVolume handle volume => exact keeps_check_bind fun _ => hmutate _ _ _
  | setMinimumHeatCapacity handle amount => exact keeps_check_bind fun _ => hmutate _ _ _
  | clear handle => exact hmutate _ _ _
  | add handle amount =>
    refine keeps_check_bind fun _ => keeps_bind (keeps_mutateMixture hI _ ?_) fun _ => keeps_pure _
    exact fun _ hrecord _ => licit_addToAll amount hrecord
  | multiply handle factor =>
    refine keeps_check_bind fun _ => keeps_bind (keeps_mutateMixture hI _ ?_) fun _ => keeps_pure _
    exact fun _ hrecord _ => licit_multiplyAll factor hrecord
  | adjustHeat handle heat => exact keeps_adjustHeat hI _ _
  | temperatureShareNonGas handle coefficient temperature capacity =>
    exact keeps_temperatureShareNonGas hI _ _ _ _
  | markImmutable handle => exact hmutate _ _ _
  | copyFrom receiver giver => exact keeps_copyFrom hI _ _
  | equalizeWith receiver total => exact keeps_equalizeWith hI _ _
  | temperatureShare first second coefficient => exact keeps_temperatureShare hI _ _ _
  | merge receiver giver =>
    exact keeps_bind (keeps_mergeMixtures hI _ _) fun _ => keeps_check_bind fun _ => keeps_pure _
  | removeRatioInto source destination ratio =>
    exact keeps_bind (keeps_removeRatioInto hI _ _ _ _) fun _ => keeps_pure _
  | removeAmountInto source destination amount =>
    exact keeps_check_bind fun _ => keeps_bind (keeps_removeRatioInto hI _ _ _ _) fun _ => keeps_pure _
  | transferGases source destination ratio gases =>
    exact keeps_bind (keeps_transferGases hI _ _ _ _) fun _ => keeps_pure _
  | transferAmount source destination amount =>
    exact keeps_check_bind fun _ => keeps_bind (keeps_transferRatioTo hI _ _ _) fun _ => keeps_pure _
  | transferRatio source destination ratio =>
    exact keeps_bind (keeps_transferRatioTo hI _ _ _) fun _ => keeps_pure _
  | transferByFlags source destination flags amount => exact keeps_transferByFlags hI _ _ _ _
  | shareRatio first second ratio oneWay =>
    exact keeps_bind (keeps_shareRatio hI _ _ _ _) fun _ => keeps_pure _
  | _ => exact keeps_pure _

/-- A command that does not resume a reaction keeps what the writes to mixtures keep. -/
theorem keeps_applyCommand_of_not_resume (hI : WriteClosed I) (command : Command F)
    (clock : Nat → F) (hcommand : ∀ token, command ≠ .resumeReaction token) :
    Keeps I (applyCommand command clock) := by
  unfold applyCommand
  split
  · next token => exact absurd rfl (hcommand token)
  · refine keeps_check_bind fun result => ?_
    split
    · exact keeps_pure _
    · exact keeps_writeCommand hI _

/-! ## Reaction sequences -/

omit [FloatFormat D] [FloatCast F D] in
theorem keeps_writeSequence (hI : WriteClosed I) (handle : MixtureHandle)
    (sequence : ReactionSequence F) : Keeps I (writeSequence handle sequence) := by
  unfold writeSequence
  refine keeps_ite (fun _ => ?_) fun _ => keeps_pure _
  refine keeps_requireHandleMut_bind hI fun _ _ => keeps_modify fun w hw => ?_
  exact hI.writeMixture w _ _ (fun _ _ => licit_of_canonical ⟨_, rfl⟩) hw

theorem keeps_reactMixture (hI : SequenceClosed I)
    (hallocate : ∀ continuation, Keeps I (allocateContinuation continuation))
    (mixture : MixtureHandle)
    (target : GameplayHandle) (threshold : Option F) (eventLimit : UInt32) (clock : Nat → F) :
    Keeps I (reactMixture mixture target threshold eventLimit clock) := by
  have hpush : ∀ sequence : ReactionSequence F, ∀ events, Keeps I (do
      writeSequence mixture sequence
      modify fun w => w.pushEvents (sequence.events ++ events)
      pure (⟨sequence.flags, sequence.workItems, sequence.pending.isSome⟩ : ReactionProgress)) := by
    intro sequence events
    refine keeps_bind (keeps_writeSequence hI.toWriteClosed _ _) fun _ => ?_
    exact keeps_bind (keeps_modify fun w hw => hI.events w _ hw) fun _ => keeps_pure _
  unfold reactMixture
  refine keeps_check_bind fun _ => keeps_check_bind fun sequence => keeps_check_bind fun _ => ?_
  split
  · exact keeps_bind (keeps_pure _) fun _ => hpush _ _
  · refine keeps_bind (hallocate _) fun token => ?_
    exact keeps_bind (keeps_pure _) fun _ => hpush _ _

omit [FloatFormat F] in
theorem requireContinuation_of_requireResumable {w : DogmosWorld F}
    {token : ReactionContinuationToken} {continuation : ReactionContinuation F}
    (h : w.requireResumable token = .ok continuation) :
    w.requireContinuation token = .ok continuation := by
  unfold requireResumable at h
  rcases hrequire : w.requireContinuation token with error | found
  · rw [hrequire] at h
    cases h
  · rw [hrequire] at h
    rcases hhandle : w.requireHandle found.mixture with error | record
    · simp [bind, Except.bind, hhandle] at h
    · simp only [bind, Except.bind, hhandle] at h
      rcases hturf : found.turf with _ | handle
      · rw [hturf] at h
        exact h
      · rw [hturf] at h
        dsimp only at h
        rcases hrequire : w.requireTurfHandle handle with error | turf
        · rw [hrequire] at h
          cases h
        · rw [hrequire] at h
          dsimp only at h
          split at h
          · cases h
          · exact h

theorem keeps_resumeReactionInner (hI : SequenceClosed I) (token : ReactionContinuationToken)
    (reactionResult eventLimit : UInt32) (clock : Nat → F) :
    Keeps I (resumeReactionInner token reactionResult eventLimit clock) := by
  have hpush : ∀ handle, ∀ sequence : ReactionSequence F, ∀ events, Triple I (do
      writeSequence handle sequence
      modify fun w => w.pushEvents (sequence.events ++ events)
      pure ((⟨sequence.flags, sequence.workItems, sequence.pending.isSome⟩ : ReactionProgress),
        sequence.nativeUpdates)) (fun _ => I) fun _ => I := by
    intro handle sequence events
    refine triple_of_keeps (keeps_bind (keeps_writeSequence hI.toWriteClosed _ _) fun _ => ?_)
      fun _ _ hw => hw
    exact keeps_bind (keeps_modify fun w hw => hI.events w _ hw) fun _ => keeps_pure _
  have hcomplete : ∀ {P : DogmosWorld F → Prop}, (∀ w, P w → I w) →
      Triple P (completeContinuation token) (fun _ => I) fun _ => I :=
    fun hP => triple_mono (triple_of_keeps (hI.complete token) fun _ _ hw => hw) hP
      (fun _ _ hw => hw) fun _ _ hw => hw
  have htriple : Triple I (resumeReactionInner token reactionResult eventLimit clock)
      (fun _ => I) fun _ => I := by
    unfold resumeReactionInner
    refine triple_ite (fun _ => triple_throw fun _ hw => hw) fun _ => ?_
    refine triple_check_bind (fun continuation => ?_) fun _ _ hw _ => hw
    refine triple_ite (fun _ => ?_) fun _ => ?_
    · exact triple_bind (hcomplete fun _ hw => hw.1) fun _ => triple_pure fun _ hw => hw
    · refine triple_check_bind (fun sequence => ?_) fun _ _ hw _ => hw.1
      refine triple_check_bind (fun _ => ?_) fun _ _ hw _ => hw.1.1
      split
      · refine triple_bind (hcomplete fun _ hw => hw.1.1.1) fun _ => ?_
        exact triple_bind (triple_pure fun _ hw => hw) fun _ => hpush _ _ _
      · next pending _ =>
        refine triple_bind (Q := fun _ => I) ?_ fun _ =>
          triple_bind (triple_pure fun _ hw => hw) fun _ => hpush _ _ _
        rintro w ⟨⟨⟨hw, hresumable⟩, -⟩, -⟩
        -- the rotated continuation is about the mixture of the one it replaces
        have hrotated := hI.settle w _ (.rotate w token
          { continuation with nextReactionIndex := pending.nextReactionIndex } fun found hfound => by
            rw [requireContinuation_of_requireResumable hresumable] at hfound
            cases hfound
            rfl) hw
        unfold final at hrotated
        split
        · next heq => rwa [heq] at hrotated
        · next heq => rwa [heq] at hrotated
  exact fun w hw => htriple.final hw

theorem keeps_resumeReactionWithResult (hI : SequenceClosed I) (token : ReactionContinuationToken)
    (reactionResult eventLimit : UInt32) (clock : Nat → F) :
    Keeps I (resumeReactionWithResult token reactionResult eventLimit clock) :=
  keeps_bind (keeps_resumeReactionInner hI _ _ _ _) fun _ => keeps_pure _

/-- **Every command** keeps what the writes of requests and resumed sequences keep. -/
theorem keeps_applyCommand (hI : SequenceClosed I) (command : Command F) (clock : Nat → F) :
    Keeps I (applyCommand command clock) := by
  by_cases hcommand : ∃ token, command = .resumeReaction token
  · obtain ⟨token, rfl⟩ := hcommand
    refine keeps_get_bind fun w => keeps_bind ?_ fun _ => keeps_pure _
    exact keeps_bind (keeps_resumeReactionInner hI _ _ _ _) fun _ => keeps_pure _
  · refine keeps_applyCommand_of_not_resume hI.toWriteClosed command clock ?_
    intro token heq
    exact hcommand ⟨token, heq⟩

end

end

end DogmosWorld

end Dogmos
