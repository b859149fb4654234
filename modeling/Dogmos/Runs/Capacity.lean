import Dogmos.Components.Scratch
import Dogmos.Runs.ReverseIndexes
import Dogmos.Runs.Registries
import Dogmos.Runs.Rounds
import Dogmos.Runs.Tokens
import Dogmos.Runs.Transactions

/-!
# Component stages have room for what they touch

A component stage prepares its transaction for the slots of all mixtures and for as many entries as
the frontier has turfs.  Turfs are linked to mixtures with slots only, and no operation takes slots
away (`linksWithin_of_reachable`), so that is enough for every component until the stage ends.

* `Stocked` — the scratch of component stages between two operations, running and kept.
* `stocked_of_reachable` — every reachable world is in such order.
* `Fails` — how a chunk fails: what is left can be cleared, and room did not run out.
* `transaction_consistent` — transactions over all runs, and over component stages.
-/

namespace Dogmos

namespace DogmosWorld

open Exec Chunk

variable {F D : Type} {w w' : DogmosWorld F} {slots : Nat}

/-! ## Links and slots -/

/-- The turfs are linked to mixtures with slots among the first ones. -/
def LinksWithin (w : DogmosWorld F) (slots : Nat) : Prop :=
  ∀ slot mixture, w.linkOf slot = some mixture → mixture.slot.toNat < slots

theorem Live.lt_length {mixture : MixtureHandle} (h : w.Live mixture) :
    mixture.slot.toNat < w.mixtures.length := by
  obtain ⟨_, hrecord⟩ := h
  by_contra hout
  unfold mixtureAt at hrecord
  rw [List.getElem?_eq_none (Nat.le_of_not_lt hout)] at hrecord
  cases hrecord

theorem LinksWithin.requireTurfHandle (h : w.LinksWithin slots) {turf : TurfHandle}
    {record : TurfRecord F} {mixture : MixtureHandle}
    (hturf : w.requireTurfHandle turf = .ok record)
    (hmixture : record.mixture = some mixture) : mixture.slot.toNat < slots :=
  h turf.slot mixture (linkOf_eq_some.2 ⟨turf.generation, record, hturf, hmixture⟩)

section Steps

variable [FloatFormat F] [FloatFormat D] [FloatCast F D]

/-- Turfs are linked to mixtures that are live then, and slots are never taken away. -/
theorem LinksWithin.step (hlinks : w.LinksWithin w.mixtures.length) (h : w.ExactIndexes)
    (hagrees : w.Agrees) (op : Op F D) :
    (DogmosWorld.step w op).LinksWithin (DogmosWorld.step w op).mixtures.length := by
  intro slot mixture hlink
  refine Nat.lt_of_lt_of_le ?_ (hasSlots_step (Nat.le_refl _ : w.HasSlots w.mixtures.length) op)
  by_cases hmixtures : ∃ mutations, op = .applyLifecycle mutations
  · obtain ⟨mutations, rfl⟩ := hmixtures
    unfold DogmosWorld.step exec at hlink
    rw [final_discard, final_applyLifecycle] at hlink
    split at hlink
    · exact hlinks slot mixture (((h.turfs.commitLifecycle mutations).2 slot mixture).1 hlink).1
    · exact hlinks slot mixture hlink
  have hmixtures : ∀ mutations, op ≠ .applyLifecycle mutations :=
    fun mutations heq => hmixtures ⟨mutations, heq⟩
  by_cases hturfs : ∃ mutations, op = .applyTurfLifecycle mutations
  · obtain ⟨mutations, rfl⟩ := hturfs
    unfold DogmosWorld.step exec at hlink
    rw [final_discard] at hlink
    rcases final_applyTurfLifecycle w mutations with hsame | ⟨⟨projected, hprojected⟩, hcommit⟩
    · rw [hsame] at hlink
      exact hlinks slot mixture hlink
    · rw [hcommit] at hlink
      rcases (h.turfs.commitTurfLifecycle mutations).2 slot mixture hlink with hold | hnew
      · exact hlinks slot mixture hold
      · obtain ⟨mutation, hmutation, hmixture⟩ := hnew
        exact (live_of_projectTurfMutation mutations hprojected hmutation hmixture).lt_length
  · have hsame := sameLinks_step hagrees hmixtures fun mutations heq => hturfs ⟨mutations, heq⟩
    exact hlinks slot mixture ((hsame.1 slot).symm.trans hlink)

/-- **Every link has a slot**, also one that was left when its mixture was displaced. -/
theorem linksWithin_of_reachable (h : Reachable (D := D) w) : w.LinksWithin w.mixtures.length := by
  refine reachableWhere_induct (I := fun w => w.LinksWithin w.mixtures.length) ?_ ?_ h
  · rintro w ⟨mixtureSlotBytes, turfSlotBytes, maxWorldBytes, maxEvents, maxContinuations, rfl⟩
    intro slot mixture hlink
    cases hlink
  · intro w op hreachable _ hlinks
    exact hlinks.step (indexed_of_reachable hreachable) (wired_of_reachable hreachable).agrees op

end Steps

/-! ## The scratch of component stages -/

/-- The scratch of a running component stage, in a world whose links have slots. -/
def Running (w : DogmosWorld F) (state : StageComponentState F) : Prop :=
  ∃ slots, w.LinksWithin slots ∧ w.nextFrontierIndex.toNat ≤ w.frontier.committed.length ∧
    state.Ready slots (min w.frontier.committed.length slots) w.nextFrontierIndex.toNat

/-- Kept scratch can be used again. -/
structure Stored (w : DogmosWorld F) : Prop where
  tracked : w.Tracked
  agrees : w.Agrees
  kept : ∀ state, w.cachedComponents = some state → state.Kept

/-- Running scratch can be cleared and kept. -/
structure Salvageable (w : DogmosWorld F) : Prop extends Stored w where
  salvage : ∀ state, w.stageComponents = some state → state.Kept

/-- Running scratch is in order. -/
structure Stocked (w : DogmosWorld F) : Prop extends Stored w where
  running : ∀ state, w.stageComponents = some state → w.Running state

theorem Stocked.salvageable (h : w.Stocked) : w.Salvageable := by
  refine ⟨h.toStored, fun state hstate => ?_⟩
  obtain ⟨slots, _, _, hready⟩ := h.running state hstate
  exact hready.toKept

theorem Stored.idle (h : w.Stored) (hnone : w.stageComponents = none) : w.Stocked :=
  ⟨h, fun state hstate => by cases hnone.symm.trans hstate⟩

/-- What running scratch depends on besides itself. -/
theorem Running.same {state : StageComponentState F} (h : w.Running state)
    (hlinks : ∀ slot, w'.linkOf slot = w.linkOf slot)
    (hcommitted : w'.frontier.committed = w.frontier.committed)
    (hindex : w'.nextFrontierIndex = w.nextFrontierIndex) : w'.Running state := by
  obtain ⟨slots, hwithin, hle, hready⟩ := h
  refine ⟨slots, fun slot mixture hlink => hwithin slot mixture (hlinks slot ▸ hlink), ?_, ?_⟩
  · rw [hindex, hcommitted]
    exact hle
  · rw [hindex, hcommitted]
    exact hready

variable [FloatFormat F]

/-- Units leave kept scratch alone. -/
theorem Stored.unitStep (h : w.Stored) (hstep : UnitStep w w') : w'.Stored := by
  refine ⟨⟨sound_of_unitStep hstep h.tracked.sound, kinded_of_unitStep hstep h.tracked.kinded⟩,
    (keepsShapes_of_unitStep hstep).agrees h.agrees, ?_⟩
  cases hstep with
  | stageMixture slot id candidate _ _ =>
    unfold stageMixture
    split <;> exact h.kept
  | writePreparedTurf slot id f _ _ =>
    unfold writePreparedTurf stageTurf
    split
    · split <;> exact h.kept
    · exact h.kept
  | _ => exact h.kept

/-- A unit that leaves scratch, frontier and position alone. -/
theorem Stocked.unitStep (h : w.Stocked) (hstep : UnitStep w w')
    (hsame : w'.stageComponents = w.stageComponents) (hcursor : w'.stageCursor = w.stageCursor) :
    w'.Stocked := by
  refine ⟨h.toStored.unitStep hstep, fun state hstate => ?_⟩
  have hframe := StageFrame.unitStep hstep
  refine (h.running state (hsame ▸ hstate)).same
    (linkOf_of_turfShape (hframe.shapes.shapes h.agrees)) hframe.committed ?_
  unfold nextFrontierIndex
  rw [hcursor]

theorem Stocked.stageMixture (h : w.Stocked) {id : PublicationId}
    (hid : w.tokens.Has id) (slot : Nat) {candidate : MixtureRecord F}
    (hcandidate : candidate.Canonical) : (w.stageMixture slot id candidate).Stocked := by
  refine h.unitStep (.stageMixture w slot id candidate hid (.inl hcandidate)) ?_ ?_
  all_goals
    unfold DogmosWorld.stageMixture
    split <;> rfl

/-- New scratch for the same stage. -/
theorem Stocked.rewrite (h : w.Stocked) {state state' : StageComponentState F}
    (hstate : w.stageComponents = some state)
    (hpublication : state'.publication = state.publication)
    (hready : ∀ slots, w.LinksWithin slots →
      w.nextFrontierIndex.toNat ≤ w.frontier.committed.length →
      state.Ready slots (min w.frontier.committed.length slots) w.nextFrontierIndex.toNat →
      state'.Ready slots (min w.frontier.committed.length slots) w.nextFrontierIndex.toNat) :
    { w with stageComponents := some state' }.Stocked := by
  have htoken : w.tokens.components = some state'.publication := by
    unfold tokens
    rw [hstate, hpublication]
    rfl
  refine ⟨h.toStored.unitStep (.components w state' htoken), fun found hfound => ?_⟩
  cases hfound
  obtain ⟨slots, hwithin, hle, hbefore⟩ := h.running state hstate
  exact ⟨slots, hwithin, hle, hready slots hwithin hle hbefore⟩

/-- New scratch that can be kept. -/
theorem Stocked.salvaged (h : w.Stocked) {state state' : StageComponentState F}
    (hstate : w.stageComponents = some state)
    (hpublication : state'.publication = state.publication)
    (hkept : state'.Kept) : { w with stageComponents := some state' }.Salvageable := by
  have htoken : w.tokens.components = some state'.publication := by
    unfold tokens
    rw [hstate, hpublication]
    rfl
  refine ⟨h.toStored.unitStep (.components w state' htoken), fun found hfound => ?_⟩
  cases hfound
  exact hkept

/-! ## Units of a component stage -/

/-- How a chunk fails: the scratch can be kept, and a chunk that was opened had room. -/
def Fails (opened : Prop) (error : WorldError) (w : DogmosWorld F) : Prop :=
  w.Salvageable ∧ (opened → error ≠ .stateCapacityExceeded)

variable {opened : Prop} {α : Type}

omit [FloatFormat F] in
theorem Stocked.fails (h : w.Stocked) {error : WorldError}
    (herror : error ≠ .stateCapacityExceeded) : Fails opened error w :=
  ⟨h.salvageable, fun _ => herror⟩

omit [FloatFormat F] in
/-- What follows the read of the scratch. -/
theorem triple_withState {P : DogmosWorld F → Prop} {g : StageComponentState F → WorldM F α}
    {R : α → DogmosWorld F → Prop} (hP : ∀ w, P w → w.Stocked)
    (h : ∀ w state, P w → w.stageComponents = some state →
      Triple (fun v => v = w) (g state) R (Fails opened)) :
    Triple P (componentState >>= g) R (Fails opened) := by
  intro w hw
  unfold componentState
  rw [run_bind, run_check]
  rcases hstate : w.stageComponents with _ | state
  · exact (hP w hw).fails (by simp)
  · exact h w state hw hstate w rfl

/-- New scratch, and a result. -/
theorem Stocked.triple_set (h : w.Stocked) {state state' : StageComponentState F}
    (hstate : w.stageComponents = some state)
    (hpublication : state'.publication = state.publication)
    (hready : ∀ slots most count, state.Ready slots most count → state'.Ready slots most count)
    (a : α) :
    Triple (fun v => v = w) (do
      setComponents state'
      return a : WorldM F α) (fun _ => Stocked) (Fails opened) := by
  rintro v rfl
  exact h.rewrite hstate hpublication fun slots _ _ hbefore => hready _ _ _ hbefore

theorem triple_discovery :
    Triple Stocked (advanceStageComponentDiscovery (F := F)) (fun _ => Stocked) (Fails opened) := by
  unfold advanceStageComponentDiscovery
  refine triple_withState (fun _ hw => hw) fun w state hw hstate => triple_get_bind fun v hv => ?_
  subst hv
  split
  · split
    · refine hw.triple_set hstate ?_ ?_ true
      · rfl
      · exact fun _ _ _ h => { h with }
    · next neighbor _ =>
      dsimp only
      split
      · next hactive =>
        refine hw.triple_set hstate ?_ ?_ true
        · rfl
        · intro slots most count h
          have hmoved : StageComponentState.Ready slots most count
              { state with nextNeighbor := state.nextNeighbor + 1 } := { h with }
          exact hmoved.visit (h.targeted _ _ hactive)
      · refine hw.triple_set hstate ?_ ?_ true
        · rfl
        · exact fun _ _ _ h => { h with }
  · split
    · refine hw.triple_set hstate ?_ ?_ false
      · rfl
      · exact fun _ _ _ h => { h with }
    · split
      · exact triple_pure fun s hs => hs ▸ hw
      · next seed hseed =>
        refine hw.triple_set hstate ?_ ?_ true
        · rfl
        · intro slots most count h
          have hmoved : StageComponentState.Ready slots most count
              { state with nextSeed := state.nextSeed + 1 } := { h with }
          exact hmoved.visit (List.mem_of_getElem? hseed)

omit [FloatFormat F] in
theorem requireHandle_ne_full (w : DogmosWorld F) (handle : MixtureHandle) :
    w.requireHandle handle ≠ .error .stateCapacityExceeded := by
  intro h
  unfold requireHandle at h
  repeat' split at h
  all_goals simp [throw, throwThe, MonadExceptOf.throw, pure, Except.pure] at h

omit [FloatFormat F] in
theorem requireTurfHandle_ne_full (w : DogmosWorld F) (handle : TurfHandle) :
    w.requireTurfHandle handle ≠ .error .stateCapacityExceeded := by
  intro h
  unfold requireTurfHandle at h
  repeat' split at h
  all_goals simp [throw, throwThe, MonadExceptOf.throw, pure, Except.pure] at h

omit [FloatFormat F] in
theorem capture_ne_full (kernel : ComponentKernel F) (w : DogmosWorld F) (turf : TurfHandle) :
    kernel.capture w turf ≠ .error .stateCapacityExceeded := by
  unfold ComponentKernel.capture ComponentKernel.captureMixture
  rcases hrecord : w.requireTurfHandle turf with error | record
  · rintro ⟨⟩
    exact w.requireTurfHandle_ne_full turf hrecord
  dsimp only [bind, Except.bind]
  rcases record.mixture with _ | handle
  · rintro ⟨⟩
  dsimp only
  rcases hmixture : w.requireHandle handle with error | mixture
  · rintro ⟨⟩
    exact w.requireHandle_ne_full handle hmixture
  · rintro ⟨⟩

theorem entryCandidate_ne_full (w : DogmosWorld F) (state : StageComponentState F)
    (entry : TransactionEntry (MixtureRecord F)) :
    w.entryCandidate state entry ≠ .error .stateCapacityExceeded := by
  intro h
  unfold entryCandidate at h
  rcases hhandle : w.requireHandle entry.handle with error | current
  all_goals
    rw [hhandle] at h
    simp only [bind, Except.bind, pure, Except.pure, throw, throwThe, MonadExceptOf.throw] at h
    repeat' split at h
    all_goals simp at h

/-- The next turf of the component is captured. -/
theorem triple_capture (turf : TurfHandle) :
    Triple (fun w => w.Stocked ∧ ∃ state, w.stageComponents = some state ∧ state.computed = false ∧
        state.queue[state.preparedTurfs]? = some turf)
      (captureStageComponent (F := F) turf) (fun _ => Stocked) (Fails opened) := by
  unfold captureStageComponent
  refine triple_withState (fun _ hw => hw.1) fun w state hw hstate => ?_
  obtain ⟨hw, found, hfound, hcomputed, hturf⟩ := hw
  rw [hstate] at hfound
  cases hfound
  split
  · exact triple_pure fun s hs => hs ▸ hw
  · next kernel hkernel =>
    rintro v rfl
    unfold setComponents
    rw [run_bind, run_modify]
    dsimp only
    rw [run_bind, run_check]
    rcases hcapture : kernel.capture { v with
        stageComponents := some { state with preparedTurfs := state.preparedTurfs + 1 } } turf with
      error | kernel'
    · have hmoved : Stocked { v with
          stageComponents := some { state with preparedTurfs := state.preparedTurfs + 1 } } :=
        hw.rewrite hstate rfl fun _ _ _ h => h.moveOn hturf
      refine ⟨hmoved.salvageable, ?_⟩
      rintro _ rfl
      exact capture_ne_full _ _ _ hcapture
    · exact hw.rewrite hstate rfl fun _ hlinks _ h => h.capture hcomputed hturf hkernel hcapture
        fun record mixture hrecord hmixture => hlinks.requireTurfHandle hrecord hmixture

/-- Whether a component was captured or computed. -/
def Begun (w : DogmosWorld F) : Prop :=
  ∃ state, w.stageComponents = some state ∧ state.computed = false ∧ state.computation.isSome

/-- A poll of the computation; when it has returned, the component is computed. -/
theorem triple_poll :
    Triple (fun w => w.Stocked ∧ w.Begun) (pollStageComponent (F := F))
      (fun computed w => w.Stocked ∧ (computed = true →
        ∃ state, w.stageComponents = some state ∧ state.computed = true)) (Fails opened) := by
  unfold pollStageComponent
  refine triple_withState (fun _ hw => hw.1) fun w state hw hstate => ?_
  obtain ⟨hw, found, hfound, hcomputed, hbegun⟩ := hw
  rw [hstate] at hfound
  cases hfound
  split
  · next hnone =>
    rw [hnone] at hbegun
    cases hbegun
  · next computation hcomputation =>
    refine triple_ite (fun _ => ?_) fun _ => ?_
    · rintro v rfl
      exact ⟨hw.rewrite hstate rfl fun _ _ _ h => h.polled hcomputation _, fun h => by cases h⟩
    · rintro v rfl
      obtain ⟨slots, _, _, hready⟩ := hw.running state hstate
      unfold setComponents
      rw [run_bind, run_modify]
      dsimp only
      rw [run_bind, run_check]
      rcases hresult : computation.result with error | _
      · refine ⟨hw.salvaged hstate rfl (hready.kept_finished hcomputation), ?_⟩
        rintro _ rfl
        exact (hready.running computation hcomputation).2 hresult
      · exact ⟨hw.rewrite hstate rfl fun _ _ _ h => h.finished hcomputation, fun _ => ⟨_, rfl, rfl⟩⟩

/-! ## A component that is ready -/

section Chunks

variable [FloatFormat D]

theorem Stored.stageStep (h : w.Stored) (hstep : StageStep (D := D) w w')
    (hkept : ∀ state, w'.cachedComponents = some state → state.Kept) : w'.Stored :=
  ⟨tracked_of_stageStep hstep h.tracked, (keepsShapes_of_stageStep hstep).agrees h.agrees, hkept⟩

/-- The stage goes on to the next component. -/
theorem Stocked.nextComponent (h : w.Stocked) {state : StageComponentState F}
    (hstate : w.stageComponents = some state)
    (hfree : w.publications.undecided state.publication = true)
    (hcomputed : state.computed = true)
    (hdone : state.transaction.entries[state.publicationIndex]? = none) :
    Stocked { (w.published state.publication).withToken with
      events := w.events ++ state.stagedEvents
      stageComponents := some (publishedComponent state w.publications.fresh) } := by
  have hstep := StageStep.nextComponent (D := F) w state hstate hfree
  have hshapes := keepsShapes_of_stageStep hstep
  refine ⟨h.toStored.stageStep hstep h.kept, fun found hfound => ?_⟩
  cases hfound
  obtain ⟨slots, hlinks, hle, hready⟩ := h.running state hstate
  have hrunning : w.Running (publishedComponent state w.publications.fresh) :=
    ⟨slots, hlinks, hle, hready.published hcomputed hdone _⟩
  exact hrunning.same (linkOf_of_turfShape (hshapes.shapes h.agrees)) rfl rfl

variable [FloatCast F D]

/-- A component that is ready is captured, or computed. -/
theorem triple_computeReadyComponent (stage : WorldStage) (shouldCancel : Nat → Bool) :
    Triple (fun chunk : Chunk F => chunk.world.Stocked ∧
        ∀ state, chunk.world.stageComponents = some state → state.computed = false)
      (computeReadyComponent (D := D) stage shouldCancel)
      (fun computed chunk => chunk.world.Stocked ∧ (computed = true →
        ∃ state, chunk.world.stageComponents = some state ∧ state.computed = true))
      fun error chunk => Fails opened error chunk.world := by
  have htake : Triple (fun w : DogmosWorld F => w.Stocked ∧
        ∀ state, w.stageComponents = some state → state.computed = false) takeKernel
      (fun state w => w.Stocked ∧ w.stageComponents = some state ∧ state.computed = false ∧
        (state.componentKernel.isSome ∨ state.computation.isSome)) (Fails opened) := by
    unfold takeKernel
    refine triple_withState (fun _ hw => hw.1) fun w state hw hstate => ?_
    refine triple_get_bind fun v hv => ?_
    subst hv
    rintro u rfl
    refine ⟨hw.1.rewrite hstate ?_ ?_, rfl, ?_, ?_⟩
    · unfold DogmosWorld.withKernel
      split <;> rfl
    · exact fun _ _ _ h => h.withKernel u
    · unfold DogmosWorld.withKernel
      split <;> exact hw.2 state hstate
    · unfold DogmosWorld.withKernel
      split
      · exact .inl rfl
      · next hheld =>
        rw [Bool.and_eq_true, not_and_or] at hheld
        rcases hheld with hkernel | hcomputation
        · exact .inl (by simpa [Option.isSome_iff_ne_none] using hkernel)
        · exact .inr (by simpa [Option.isSome_iff_ne_none] using hcomputation)
  unfold computeReadyComponent
  refine triple_bind (secured_onWorld htake) fun state => ?_
  split
  · next turf hturf =>
    have hcapture : Triple (fun w : DogmosWorld F => w.Stocked ∧ w.stageComponents = some state ∧
          state.computed = false ∧ (state.componentKernel.isSome ∨ state.computation.isSome))
        (captureStageComponent turf) (fun _ => Stocked) (Fails opened) :=
      triple_mono (triple_capture turf) (fun w hw => ⟨hw.1, state, hw.2.1, hw.2.2.1, hturf⟩)
        (fun _ _ h => h) fun _ _ h => h
    exact triple_bind (secured_onWorld hcapture) fun _ => triple_pure fun _ hs =>
      ⟨hs, fun h => by cases h⟩
  · have hbegin : Triple (fun w : DogmosWorld F => w.Stocked ∧ w.stageComponents = some state ∧
          state.computed = false ∧ (state.componentKernel.isSome ∨ state.computation.isSome))
        (setComponents (withComputation (D := D) state stage))
        (fun _ w => w.Stocked ∧ w.Begun) (Fails opened) := by
      rintro w ⟨hw, hstate, hcomputed, hheld⟩
      refine ⟨hw.rewrite hstate ?_ ?_, _, rfl, ?_, ?_⟩
      · exact publication_withComputation state stage
      · exact fun slots _ hle h => h.withComputation (by omega) hcomputed stage
      · unfold DogmosWorld.withComputation
        split <;> exact hcomputed
      · unfold DogmosWorld.withComputation
        split
        · rfl
        · next hnot =>
          rcases hcomputation : state.computation with _ | computation
          · rcases hkernel : state.componentKernel with _ | kernel
            · rw [hcomputation, hkernel] at hheld
              simp at hheld
            · exact absurd hkernel (hnot kernel hcomputation)
          · rfl
    refine triple_bind (secured_onWorld hbegin) fun _ => ?_
    refine triple_bind (secured_checkCancelled (J := fun w => w.Stocked ∧ w.Begun)
      shouldCancel fun w hw => hw.1.fails (by simp)) fun _ => ?_
    exact secured_onWorld triple_poll

omit [FloatFormat D] [FloatCast F D] in
/-- An entry is staged. -/
theorem triple_stageEntry (entry : TransactionEntry (MixtureRecord F)) :
    Triple (fun w => w.Stocked ∧ ∃ state, w.stageComponents = some state ∧ state.computed = true ∧
        state.transaction.entries[state.publicationIndex]? = some entry)
      (stageEntry (F := F) entry) (fun _ => Stocked) (Fails opened) := by
  unfold stageEntry
  refine triple_withState (fun _ hw => hw.1) fun w state hw hstate => triple_get_bind fun v hv => ?_
  subst hv
  obtain ⟨hw, found, hfound, hcomputed, hentry⟩ := hw
  rw [hstate] at hfound
  cases hfound
  have hretired : Stocked { v with
      stageComponents := some { state with
        publishedMixtures := state.publishedMixtures.insert entry.handle ()
        transaction := state.transaction.retire state.publicationIndex
        publicationIndex := state.publicationIndex + 1 } } :=
    hw.rewrite hstate rfl fun _ _ _ h => h.retired hcomputed hentry
  rintro u rfl
  unfold setComponents
  rw [run_bind, run_modify]
  dsimp only
  rw [run_bind, run_check]
  rcases hcandidate : u.entryCandidate state entry with error | candidate
  · refine ⟨hretired.salvageable, ?_⟩
    rintro _ rfl
    exact entryCandidate_ne_full _ _ _ hcandidate
  · exact hretired.stageMixture (.inr (.inr (.inr rfl))) _ (canonical_of_entryCandidate hcandidate)

omit [FloatFormat F] in
/-- How the publication of a component fails. -/
theorem triple_publish_fails (eventCapacity : Nat) :
    Triple (fun _ => True) (publishStageComponent (F := F) eventCapacity) (fun _ _ => True)
      fun error _ => error ≠ .stateCapacityExceeded := by
  unfold publishStageComponent componentState
  refine triple_check_bind (fun state => ?_) fun w error _ herror => ?_
  · refine triple_check_bind (fun _ => ?_) fun w error _ herror => ?_
    · refine triple_bind (Q := fun _ _ => True) ?_ fun _ => fun w _ => trivial
      unfold publishOr
      refine triple_get_bind fun w _ => ?_
      split
      · exact fun v _ => by simp [run_throw]
      · exact fun v _ => trivial
    · rintro rfl
      unfold requireEventCapacity at herror
      split at herror <;> simp [throw, throwThe, MonadExceptOf.throw, pure, Except.pure] at herror
  · rintro rfl
    split at herror <;> simp [throw, throwThe, MonadExceptOf.throw, pure, Except.pure] at herror

/-- An entry is staged, or the component is published. -/
theorem triple_publishReadyComponent (eventCapacity : Nat) :
    Triple (fun w => w.Stocked ∧ ∃ state, w.stageComponents = some state ∧ state.computed = true)
      (publishReadyComponent (F := F) eventCapacity) (fun _ => Stocked) (Fails opened) := by
  unfold publishReadyComponent
  refine triple_withState (fun _ hw => hw.1) fun w state hw hstate => ?_
  obtain ⟨hw, found, hfound, hcomputed⟩ := hw
  rw [hstate] at hfound
  cases hfound
  split
  · next entry hentry =>
    refine triple_mono (triple_stageEntry entry) (fun v hv => ?_) (fun _ _ h => h) fun _ _ h => h
    subst hv
    exact ⟨hw, state, hstate, hcomputed, hentry⟩
  · next hdone =>
    have hpublish := triple_componentPublication (J := fun v => v = w) (Q := Stocked)
      (E := fun _ => Salvageable) eventCapacity (fun _ v hv => hv ▸ hw.salvageable)
      fun v found hv hfound hfree => by
        subst hv
        rw [hstate] at hfound
        cases hfound
        exact hw.nextComponent hstate hfree hcomputed hdone
    refine triple_mono (hpublish.and (triple_publish_fails eventCapacity))
      (fun v hv => ⟨hv, trivial⟩) (fun _ _ h => h.1) fun _ _ h => ⟨h.1, fun _ => h.2⟩

/-- A step of a component that is ready. -/
theorem triple_processReady (stage : WorldStage) (eventCapacity : Nat) (shouldCancel : Nat → Bool) :
    Secured Stocked
      (processReadyStageComponent (F := F) (D := D) stage eventCapacity shouldCancel) Stocked
      (Fails opened) := by
  have hread : Triple Stocked (componentState (F := F))
      (fun state w => w.Stocked ∧ w.stageComponents = some state) (Fails opened) := by
    intro w hw
    unfold componentState
    rw [run_check]
    rcases hstate : w.stageComponents with _ | state
    · exact hw.fails (by simp)
    · exact ⟨hw, hstate⟩
  have hpublish : ∀ computed : Bool, Triple
      (fun chunk : Chunk F => chunk.world.Stocked ∧ (computed = true →
        ∃ state, chunk.world.stageComponents = some state ∧ state.computed = true))
      (if computed then onWorld (publishReadyComponent (F := F) eventCapacity) else pure ())
      (fun _ chunk => chunk.world.Stocked) fun error chunk => Fails opened error chunk.world := by
    intro computed
    refine triple_ite (fun hcomputed => ?_) fun _ => triple_pure fun _ hs => hs.1
    exact triple_mono (secured_onWorld (triple_publishReadyComponent eventCapacity))
      (fun _ hs => ⟨hs.1, hs.2 hcomputed⟩) (fun _ _ hs => hs) fun _ _ hs => hs
  unfold processReadyStageComponent
  refine triple_bind (secured_onWorld hread) fun state => ?_
  refine triple_ite (fun hcomputed => ?_) fun hnot => ?_
  · exact triple_mono (hpublish true) (fun _ hs => ⟨hs.1, fun _ => ⟨state, hs.2, hcomputed⟩⟩)
      (fun _ _ hs => hs) fun _ _ hs => hs
  · refine triple_bind (triple_mono (triple_computeReadyComponent stage shouldCancel)
      (fun chunk hs => ⟨hs.1, fun found hfound => ?_⟩) (fun _ _ hs => hs) fun _ _ hs => hs)
      fun computed => hpublish computed
    rw [hs.2] at hfound
    cases hfound
    simpa using hnot

/-- A unit of a component stage. -/
theorem secured_advanceComponents (stage : WorldStage) (eventCapacity : Nat)
    (shouldCancel : Nat → Bool) :
    Secured Stocked (advanceComponents (F := F) (D := D) stage eventCapacity shouldCancel) Stocked
      (Fails opened) := by
  refine triple_get_bind fun chunk hchunk => ?_
  refine triple_mono (P := fun chunk : Chunk F => chunk.world.Stocked) ?_ (fun s hs => hs ▸ hchunk)
    (fun _ _ hs => hs) fun _ _ hs => hs
  refine triple_ite (fun _ => ?_) fun _ => secured_onWorld triple_discovery
  refine triple_bind (secured_checkCancelled (J := Stocked) shouldCancel
    fun w hw => hw.fails (by simp)) fun _ => ?_
  exact triple_bind (triple_processReady stage eventCapacity shouldCancel) fun _ =>
    triple_pure fun _ hs => hs

omit [FloatFormat D] [FloatCast F D] in
/-- A stage that is done keeps its scratch. -/
theorem Stocked.finish (h : w.Stocked) {state : StageComponentState F}
    (hstate : w.stageComponents = some state) :
    Stocked { w.cacheComponents state with stageCursor := none } := by
  refine Stored.idle (h.toStored.stageStep (D := F) (.finishComponents w state hstate) ?_) rfl
  intro found hfound
  cases hfound
  exact (h.salvageable.salvage state hstate).clear _

/-- The phases of a component stage behind the preparation. -/
theorem triple_runComponents (stage : WorldStage) (eventCapacity workLimit : Nat)
    (shouldCancel : Nat → Bool) :
    Triple (fun chunk : Chunk F => chunk.world.Stocked)
      (runComponents (F := F) (D := D) stage eventCapacity workLimit shouldCancel)
      (fun result chunk => AfterChunk Stocked Stocked result chunk.world)
      fun error chunk => Fails opened error chunk.world := by
  have hfinish : Triple Stocked (finishStageComponents (F := F))
      (fun _ w => Stocked { w with stageCursor := none }) (Fails opened) := by
    unfold finishStageComponents
    refine triple_withState (fun _ hw => hw) fun w state hw hstate => ?_
    rintro v rfl
    exact hw.finish hstate
  refine triple_phase _ _ (secured_advanceComponents stage eventCapacity shouldCancel) ?_
  refine triple_get_bind fun chunk hchunk => ?_
  exact triple_commit (fun s hs => hs ▸ hchunk.1) hfinish fun _ => ⟨_, rfl, rfl⟩

/-! ## Whole chunks -/

/-- The scratch after a turf was taken from the frontier, before the position moves on. -/
structure Taken (w : DogmosWorld F) : Prop extends Stored w where
  index : (w.nextFrontierIndex + 1).toNat = w.nextFrontierIndex.toNat + 1
  left : w.nextFrontierIndex.toNat < w.frontier.committed.length
  running : ∀ state, w.stageComponents = some state → ∃ slots, w.LinksWithin slots ∧
    state.Ready slots (min w.frontier.committed.length slots) (w.nextFrontierIndex.toNat + 1)

omit [FloatFormat D] [FloatCast F D] in
theorem Taken.advance (h : w.Taken) :
    Stocked { w with
      stageCursor := w.stageCursor.map fun cursor =>
        { cursor with nextFrontierIndex := cursor.nextFrontierIndex + 1 } } := by
  rcases hcursor : w.stageCursor with _ | cursor
  · have hsame : { w with
        stageCursor := (none : Option StageCursor).map fun cursor =>
          { cursor with nextFrontierIndex := cursor.nextFrontierIndex + 1 } } = w := by
      show { w with stageCursor := none } = w
      rw [← hcursor]
    rw [hsame]
    exact h.toStored.idle
      (Option.map_eq_none_iff.1 (idle_of_cursor h.tracked.sound hcursor .components))
  · refine ⟨h.toStored.unitStep (.advance w cursor _ hcursor), fun state hstate => ?_⟩
    have hindex : w.nextFrontierIndex = cursor.nextFrontierIndex := by
      unfold nextFrontierIndex
      rw [hcursor]
    obtain ⟨slots, hlinks, hready⟩ := h.running state hstate
    have hgrown := h.index
    have hleft := h.left
    rw [hindex] at hready hgrown hleft
    refine ⟨slots, hlinks, ?_, ?_⟩
    · show (cursor.nextFrontierIndex + 1).toNat ≤ w.frontier.committed.length
      omega
    · show state.Ready slots (min w.frontier.committed.length slots)
        (cursor.nextFrontierIndex + 1).toNat
      rw [hgrown]
      exact hready

omit [FloatFormat F] [FloatFormat D] [FloatCast F D] in
/-- A turf is left while the preparation goes on. -/
theorem Stocked.taken (h : w.Stocked) (hremaining : w.remainingPreparation ≠ 0) : w.Taken := by
  have hclamp := w.preparationLength_le
  have hsmall := w.preparationLength.toNat_lt
  unfold remainingPreparation at hremaining
  refine ⟨h.toStored, ?_, by omega, fun state hstate => ?_⟩
  · rw [UInt32.toNat_add]
    show (w.nextFrontierIndex.toNat + 1) % 2 ^ 32 = _
    omega
  · obtain ⟨slots, hlinks, _, hready⟩ := h.running state hstate
    exact ⟨slots, hlinks, hready.mono (Nat.le_succ _)⟩

omit [FloatFormat D] [FloatCast F D] in
/-- A unit of the preparation. -/
theorem triple_prepareNext {stage : WorldStage} (hkind : stageKind stage = .components) :
    Triple (fun w => w.Stocked ∧ w.remainingPreparation ≠ 0) (prepareNext (F := F) stage)
      (fun _ => Stocked) (Fails opened) := by
  have hadvance : Triple Taken (advanceCursor (F := F)) (fun _ => Stocked) (Fails opened) :=
    triple_modify fun _ hw => hw.advance
  have hturf : prepareStageTurf (F := F) stage = prepareStageComponentTurf := by
    cases stage <;> first | rfl | cases hkind
  unfold prepareNext
  refine triple_get_bind fun w hw => ?_
  have htaken := hw.1.taken hw.2
  split
  · next turf _ =>
    refine triple_bind (Q := fun _ => Taken) ?_ fun _ => hadvance
    rw [hturf]
    unfold prepareStageComponentTurf
    refine triple_get_bind fun v hv => ?_
    subst hv
    split
    · exact triple_pure fun s hs => hs ▸ htaken
    · refine triple_withState (fun _ hs => hs ▸ hw.1) fun u state hu hstate => ?_
      subst hu
      rintro t rfl
      have htoken : t.tokens.components = some state.publication := by
        unfold tokens
        rw [hstate]
        rfl
      refine ⟨hw.1.toStored.unitStep (.components t _ htoken), htaken.index, htaken.left, ?_⟩
      intro found hfound
      cases hfound
      obtain ⟨slots, hlinks, _, hready⟩ := hw.1.running state hstate
      exact ⟨slots, hlinks, hready.target turf⟩
  · exact triple_mono hadvance (fun s hs => hs ▸ htaken) (fun _ _ h => h) fun _ _ h => h

omit [FloatCast F D] in
/-- A component stage starts with scratch in order. -/
theorem Stocked.startComponents (h : w.Stocked) (hlinks : w.LinksWithin w.mixtures.length)
    {request : StageChunkRequest D} (hkind : stageKind request.stage = .components)
    (hcursor : w.stageCursor = none) : (run (startStage request) w).2.Stocked := by
  have hidle : w.stageComponents = none :=
    Option.map_eq_none_iff.1 (idle_of_cursor h.tracked.sound hcursor .components)
  have hstart : startStage (F := F) request = (do
      let state ← DogmosWorld.startComponents
      setCursor request
      setComponents state) := by
    unfold startStage
    cases hstage : request.stage <;> first | rfl | (rw [hstage] at hkind; cases hkind)
  obtain ⟨hfinal, hpublication⟩ := run_startComponents w
  rw [hstart, run_bind]
  split
  · next state w' heq =>
    have hready : state.Ready w.mixtures.length w.componentEntries 0 := by
      unfold DogmosWorld.startComponents at heq
      rw [run_bind, run_get] at heq
      rcases hcached : w.cachedComponents with _ | kept
      · simp only [hcached, newPublication, run_bind, run_get, run_modify, run_pure,
          run_check] at heq
        rcases htry : IndexedTransaction.tryNew w.mixtures.length w.componentEntries with
          error | transaction
        · rw [htry] at heq
          simp [Except.mapError] at heq
        · rw [htry] at heq
          simp only [Except.mapError, Prod.mk.injEq, Except.ok.injEq] at heq
          obtain ⟨hempty, hwidth, hroom⟩ := IndexedTransaction.tryNew_sizes htry
          rw [← hwidth, ← hroom, ← heq.1]
          exact StageComponentState.ready_around _ (IndexedTransaction.wellFormed_tryNew htry)
            hempty
      · simp only [hcached, newPublication, run_bind, run_get, run_modify, run_pure,
          run_check] at heq
        have hkept := h.kept kept hcached
        rcases hprepare : (kept.clear w.publications.fresh).transaction.prepare w.mixtures.length
          w.componentEntries with error | transaction
        · rw [hprepare] at heq
          simp [Except.mapError] at heq
        · rw [hprepare] at heq
          simp only [Except.mapError, Prod.mk.injEq, Except.ok.injEq] at heq
          obtain ⟨hempty, hwidth, hroom⟩ := IndexedTransaction.prepare_sizes hprepare
          rw [← hwidth, ← hroom, ← heq.1]
          exact hkept.ready _ ((hkept.clear _).transaction.prepare hprepare) hempty
    rw [heq] at hfinal hpublication
    cases hfinal
    have hstep := StageStep.startComponents (D := D) w request state hcursor hkind
      (hpublication state rfl)
    have hshapes := keepsShapes_of_stageStep hstep
    refine ⟨h.toStored.stageStep hstep fun found hfound => (by cases hfound), ?_⟩
    intro found hfound
    cases hfound
    refine ⟨w.mixtures.length, fun slot mixture hlink => hlinks slot mixture ?_, Nat.zero_le _,
      hready⟩
    rw [← linkOf_of_turfShape (hshapes.shapes h.agrees)]
    exact hlink
  · next error w' heq =>
    rw [heq] at hfinal
    cases hfinal
    exact (h.toStored.stageStep (.claimComponents (D := D) w hcursor)
      fun found hfound => by cases hfound).idle hidle

omit [FloatFormat D] [FloatCast F D] in
/-- A chunk that fails leaves scratch in order. -/
theorem Salvageable.abortStage (h : w.Salvageable) : w.abortStage.Stocked := by
  have hsound := h.tracked.sound
  have hother : ∀ kind, (w.holder (.running kind)).isSome → kind ≠ .components →
      w.stageComponents = none := by
    intro kind hkind hne
    by_contra hsome
    refine hne (hsound.lone kind .components hkind ?_)
    exact (Option.isSome_map).trans (Option.isSome_iff_ne_none.2 hsome)
  have hstep := StageStep.abort (D := F) w
  rcases abortStage_eq hsound with ⟨hidle, heq⟩ | ⟨state, hstate, heq⟩ | ⟨state, hstate, heq⟩ |
    ⟨state, hstate, heq⟩ | ⟨state, hstate, heq⟩
  all_goals rw [heq] at hstep ⊢
  · exact (h.toStored.stageStep hstep h.kept).idle (Option.map_eq_none_iff.1 (hidle .components))
  · exact (h.toStored.stageStep hstep h.kept).idle
      (hother .diffusion (by simp [holder, hstate]) (by decide))
  · exact (h.toStored.stageStep hstep h.kept).idle
      (hother .heat (by simp [holder, hstate]) (by decide))
  · exact (h.toStored.stageStep hstep h.kept).idle
      (hother .reactions (by simp [holder, hstate]) (by decide))
  · refine (h.toStored.stageStep hstep fun found hfound => ?_).idle rfl
    cases hfound
    exact (h.salvage state hstate).clear _

/-- **A chunk of a component stage** keeps scratch in order; when the stage is opened, it does not
run out of room. -/
theorem triple_componentChunk (hlinks : w.LinksWithin w.mixtures.length) (hw : w.Stocked)
    {request : StageChunkRequest D} (hkind : stageKind request.stage = .components)
    (eventLimit : UInt32) (shouldCancel : Nat → Bool) :
    Triple (fun v => v = w) (processStageChunk request eventLimit shouldCancel)
      (AfterChunk Stocked Stocked) fun error v => v.Stocked ∧
        ((run (openStage request) w).1 = .ok () → error ≠ .stateCapacityExceeded) := by
  refine triple_chunk_of_inner (E := Fails ((run (openStage request) w).1 = .ok ())) eventLimit
    shouldCancel (fun v hv => ?_) fun error v hv => ⟨hv.1.abortStage, hv.2⟩
  subst hv
  have hopens : Triple (fun u => u = v) (openStage request) (fun _ => Stocked)
      (Fails ((run (openStage request) v).1 = .ok ())) := by
    have hopened : Triple (fun u => u = v) (openStage request) (fun _ => Stocked)
        fun _ => Salvageable := by
      refine triple_openStage_of_start (fun _ u hu => hu ▸ hw.salvageable)
        (fun _ u hu => hu.salvageable) (fun u _ hu _ _ => hu ▸ hw) fun u hu hcursor => ?_
      subst hu
      exact hw.startComponents hlinks hkind hcursor
    intro u hu
    subst hu
    have hresult := hopened u rfl
    rcases hrun : run (openStage request) u with ⟨error | _, u'⟩
    · rw [hrun] at hresult
      exact ⟨hresult, fun hok => by cases hok⟩
    · rw [hrun] at hresult
      exact hresult
  have hopen : OpenRules request (fun u => u = v) Stocked
      (Fails ((run (openStage request) v).1 = .ok ())) :=
    ⟨fun u hu => hu.fails (by simp), hopens, triple_prepareNext hkind⟩
  refine hopen.triple_inner shouldCancel ?_
  have hrun : runStage (F := F) request (min v.maxEvents eventLimit).toNat shouldCancel =
      runComponents (D := D) request.stage (min v.maxEvents eventLimit).toNat
        request.workLimit.toNat shouldCancel := by
    unfold runStage
    cases hstage : request.stage <;> first | rfl | (rw [hstage] at hkind; cases hkind)
  rw [hrun]
  exact triple_runComponents request.stage _ _ shouldCancel

/-! ## Chunks of other stages -/

/-- No component stage runs. -/
structure Parked (w : DogmosWorld F) : Prop extends Stored w where
  idle : w.stageComponents = none

omit [FloatFormat F] [FloatFormat D] [FloatCast F D] in
theorem Parked.stocked (h : w.Parked) : w.Stocked := h.toStored.idle h.idle

omit [FloatCast F D] in
theorem Parked.stageStep (h : w.Parked) (hstep : StageStep (D := D) w w')
    (hcached : w'.cachedComponents = w.cachedComponents) (hidle : w'.stageComponents = none) :
    w'.Parked :=
  ⟨h.toStored.stageStep hstep fun state hstate => h.kept state (hcached ▸ hstate), hidle⟩

omit [FloatFormat D] [FloatCast F D] in
theorem Parked.unitStep (h : w.Parked) (hstep : UnitStep w w') : w'.Parked := by
  refine ⟨h.toStored.unitStep hstep, ?_⟩
  cases hstep with
  | components state htoken =>
    unfold tokens at htoken
    rw [h.idle] at htoken
    cases htoken
  | stageMixture slot id candidate _ _ =>
    unfold DogmosWorld.stageMixture
    split <;> exact h.idle
  | writePreparedTurf slot id f _ _ =>
    unfold writePreparedTurf stageTurf
    split
    · split <;> exact h.idle
    · exact h.idle
  | _ => exact h.idle

omit [FloatCast F D] in
/-- A stage of another kind that starts. -/
theorem Parked.start (h : w.Parked) {request : StageChunkRequest D}
    (hkind : stageKind request.stage ≠ .components) (hcursor : w.stageCursor = none) :
    (run (startStage request) w).2.Parked := by
  have hclaimed : ∀ {α : Type} (cached : Option α),
      ((w.opened request).claimed cached).cachedComponents = w.cachedComponents ∧
        ((w.opened request).claimed cached).stageComponents = none := by
    intro α cached
    unfold claimed
    split <;> exact ⟨rfl, rfl⟩
  unfold startStage
  cases hstage : request.stage with
  | processTurfs =>
    rw [run_bind]
    show (run startDiffusion (w.opened request)).2.Parked
    rw [run_startDiffusion]
    exact h.stageStep (.startDiffusion w request hcursor (by rw [hstage]; rfl))
      (hclaimed w.cachedDiffusion).1 (hclaimed w.cachedDiffusion).2
  | turfHeat =>
    rw [run_bind]
    show (run DogmosWorld.startHeat (w.opened request)).2.Parked
    rw [run_startHeat]
    exact h.stageStep (.startHeat w request hcursor (by rw [hstage]; rfl))
      (hclaimed w.cachedHeat).1 (hclaimed w.cachedHeat).2
  | react =>
    rw [run_bind, run_check]
    rcases w.requireRegistries with error | _
    · exact h
    · dsimp only
      rw [run_bind]
      show (run startReactions (w.opened request)).2.Parked
      rw [run_startReactions]
      exact h.stageStep (.startReactions w request hcursor (by rw [hstage]; rfl))
        (hclaimed w.cachedReactions).1 (hclaimed w.cachedReactions).2
  | equalize => exact absurd (by rw [hstage]; rfl) hkind
  | excitedGroups => exact absurd (by rw [hstage]; rfl) hkind

omit [FloatFormat F] [FloatFormat D] [FloatCast F D] in
theorem Parked.salvageable (h : w.Parked) : w.Salvageable := h.stocked.salvageable

omit [FloatFormat D] [FloatCast F D] in
/-- While another stage runs, component scratch is not touched. -/
theorem stageRules_parked {stage : WorldStage} (hkind : stageKind stage ≠ .components)
    (eventCapacity : Nat) :
    StageRules (F := F) stage eventCapacity Parked Parked fun _ => Salvageable where
  unit _ _ hstep hw := hw.unitStep hstep
  error _ _ hw := hw.salvageable
  diffusion _ := triple_diffusionCommit (fun _ _ hw => hw.salvageable)
    (fun _ w hw => (hw.stageStep (D := F) (.dropDiffusion w) rfl hw.idle).salvageable)
    fun w state hw hstate hfree =>
      hw.stageStep (D := F) (.finishDiffusion w state hstate hfree) rfl hw.idle
  heat _ := triple_heatCommit eventCapacity (fun _ _ hw => hw.salvageable)
    (fun _ w hw => (hw.stageStep (D := F) (.dropHeat w) rfl hw.idle).salvageable)
    fun w state hw hstate hfree =>
      hw.stageStep (D := F) (.finishHeat w state hstate hfree) rfl hw.idle
  reactions _ := by
    refine triple_reactionCommit eventCapacity (fun w w' hstep hw => ?_)
      (fun _ _ hw => hw.salvageable)
      (fun _ w hw => (hw.stageStep (D := F) (.dropReactions w) rfl hw.idle).salvageable)
      fun w state events hw hstate hfree =>
        hw.stageStep (D := F) (.finishReactions w state hstate hfree events) rfl hw.idle
    have hsame : w'.cachedComponents = w.cachedComponents ∧
        w'.stageComponents = w.stageComponents :=
      ContinuationClosed.continuations
        (I := fun v => v.cachedComponents = w.cachedComponents ∧
          v.stageComponents = w.stageComponents) (fun _ _ _ hv => hv) hstep ⟨rfl, rfl⟩
    exact hw.stageStep (D := F) (.continuations hstep) hsame.1 (hsame.2.trans hw.idle)
  publish h := absurd h hkind
  finish h := absurd h hkind

/-- A chunk of another stage. -/
theorem triple_otherChunk (hw : w.Stocked) {request : StageChunkRequest D}
    (hkind : stageKind request.stage ≠ .components) (eventLimit : UInt32)
    (shouldCancel : Nat → Bool) :
    Triple (fun v => v = w) (processStageChunk request eventLimit shouldCancel)
      (AfterChunk Parked Parked) fun _ => Stocked := by
  refine triple_processStageChunk eventLimit shouldCancel (fun v hv => ?_)
    (fun v _ => stageRules_parked hkind _) fun _ v hv => hv.abortStage
  subst hv
  refine triple_openStage_of_start (fun _ u hu => hu ▸ hw.salvageable)
    (fun _ _ hu => hu.salvageable)
    (fun u cursor hu hcursor hsame => ?_) fun u hu hcursor => ?_
  · subst hu
    refine ⟨hw.toStored, ?_⟩
    by_contra hrunning
    obtain ⟨found, hfound, hother⟩ := hw.tracked.kinded .components
      ((Option.isSome_map).trans (Option.isSome_iff_ne_none.2 hrunning))
    rw [hcursor] at hfound
    cases hfound
    exact hkind (hsame ▸ hother)
  · subst hu
    have hidle : u.stageComponents = none :=
      Option.map_eq_none_iff.1 (idle_of_cursor hw.tracked.sound hcursor .components)
    exact Parked.start ⟨hw.toStored, hidle⟩ hkind hcursor

/-- **A chunk** keeps the scratch of component stages in order. -/
theorem Stocked.processStageChunk (hw : w.Stocked) (hlinks : w.LinksWithin w.mixtures.length)
    (request : StageChunkRequest D) (eventLimit : UInt32) (shouldCancel : Nat → Bool) :
    (run (DogmosWorld.processStageChunk request eventLimit shouldCancel) w).2.Stocked := by
  by_cases hkind : stageKind request.stage = .components
  · have hchunk := triple_componentChunk hlinks hw hkind eventLimit shouldCancel w rfl
    unfold AfterChunk at hchunk
    simp only [ite_self] at hchunk
    rcases hrun : run (DogmosWorld.processStageChunk request eventLimit shouldCancel) w with
      ⟨error | result, v⟩
    all_goals rw [hrun] at hchunk
    · exact hchunk.1
    · exact hchunk
  · have hchunk := triple_otherChunk hw hkind eventLimit shouldCancel w rfl
    unfold AfterChunk at hchunk
    simp only [ite_self] at hchunk
    rcases hrun : run (DogmosWorld.processStageChunk request eventLimit shouldCancel) w with
      ⟨error | result, v⟩
    all_goals rw [hrun] at hchunk
    · exact hchunk
    · exact hchunk.stocked

/-! ## Every operation -/

theorem Stocked.step (hw : w.Stocked) (hlinks : w.LinksWithin w.mixtures.length) (hwired : w.Wired)
    (op : Op F D) : (DogmosWorld.step w op).Stocked := by
  by_cases hchunk : op.IsChunk
  · cases hchunk with
    | processStageChunk request eventLimit shouldCancel =>
      unfold DogmosWorld.step exec
      rw [final_discard]
      exact hw.processStageChunk hlinks request eventLimit shouldCancel
  have hscratch := scratch_step (w := w) hchunk
  have hrunning : (DogmosWorld.step w op).stageComponents = w.stageComponents :=
    congrArg StageScratch.components hscratch
  have hkept : (DogmosWorld.step w op).cachedComponents = w.cachedComponents :=
    congrArg StageScratch.keptComponents hscratch
  have hcursor : (DogmosWorld.step w op).stageCursor = w.stageCursor :=
    congrArg StageScratch.cursor hscratch
  have hstored : (DogmosWorld.step w op).Stored :=
    ⟨tracked_step hw.tracked op, (wired_step hwired op).agrees,
      fun state hstate => hw.kept state (hkept ▸ hstate)⟩
  refine ⟨hstored, fun state hstate => ?_⟩
  rw [hrunning] at hstate
  -- while a component stage runs, neither its turfs nor its frontier change
  have hactive : w.stageCursor.isSome := by
    obtain ⟨cursor, hfound, _⟩ := hw.tracked.kinded .components
      (by simp [holder, hstate])
    rw [hfound]
    rfl
  have hframe := stageFrame_step hactive hchunk
  refine (hw.running state hstate).same (linkOf_of_turfShape (hframe.shapes.shapes hw.agrees))
    hframe.committed ?_
  unfold nextFrontierIndex
  rw [hcursor]

/-- **The scratch of component stages is in order** in every reachable world. -/
theorem stocked_of_reachable (h : Reachable (D := D) w) : w.Stocked := by
  refine reachableWhere_induct (I := Stocked) (fun w hinit => ?_) (fun w op hreachable _ hw => ?_) h
  · refine Stored.idle ⟨tracked_of_initial hinit, (wired_of_initial hinit).agrees, ?_⟩ ?_
    all_goals obtain ⟨_, _, _, _, _, rfl⟩ := hinit
    · exact fun state hstate => by cases hstate
    · rfl
  · exact hw.step (linksWithin_of_reachable hreachable) (wired_of_reachable hreachable) op

/-- **Transactions are consistent** after every run that retires live entries only and clears
retired ones only, and a component stage that is opened never runs out of room in its own. -/
theorem transaction_consistent :
    (∀ (T : Type) (r : TransactionRun T),
      System.ReachableWhere TransactionRun.Initial TransactionRun.step TransactionRun.Admissible r →
        r.Described) ∧
    ∀ w : DogmosWorld F, Reachable (D := D) w → ∀ (request : StageChunkRequest D) eventLimit
      shouldCancel, request.stage = .equalize ∨ request.stage = .excitedGroups →
        (run (openStage request) w).1 = .ok () →
          (run (processStageChunk request eventLimit shouldCancel) w).1 ≠
            .error .stateCapacityExceeded := by
  refine ⟨fun T r hr => (TransactionRun.indexed_of_reachable hr).described, ?_⟩
  intro w hw request eventLimit shouldCancel hstage hopened
  have hkind : stageKind request.stage = .components := by
    rcases hstage with hstage | hstage <;> rw [hstage] <;> rfl
  have hchunk := triple_componentChunk (linksWithin_of_reachable hw) (stocked_of_reachable hw) hkind
    eventLimit shouldCancel w rfl
  intro hfull
  rcases hrun : run (processStageChunk request eventLimit shouldCancel) w with ⟨result, v⟩
  rw [hrun] at hchunk hfull
  cases hfull
  exact hchunk.2 hopened rfl

end Chunks

/-! ## A stage and some transactions -/

section Examples

/-- A world whose frontier has two turfs that share gas, one with an empty mixture. -/
def joinedMixtures : DogmosWorld F32 :=
  System.run (step (D := F64)) (newWithCapacities 0 0 100000 4 4)
    [.installGases [oxygen], .applyLifecycle [⟨.register, ⟨0, 1⟩⟩, ⟨.register, ⟨1, 1⟩⟩],
      .applyTurfLifecycle [.register ⟨0, 1⟩ (some ⟨0, 1⟩), .register ⟨1, 1⟩ (some ⟨1, 1⟩)],
      .applyTurfAdjacency [⟨⟨0, 1⟩, ⟨1, 1⟩, true⟩],
      .applyCommand (.setMoles ⟨0, 1⟩ ⟨0⟩ 100.0) unprofiled, .beginFrontier 1 2 enoughMemory,
      .appendFrontier 1 0 [⟨0, 1⟩, ⟨1, 1⟩] enoughMemory, .commitFrontier 1]

/-- A request that equalizes them. -/
def equalizeRequest : StageChunkRequest F64 :=
  { stage := .equalize, frontierEpoch := 1, stageEpoch := 1, workLimit := 1000,
    secondsPerTick := 0.5 }

/-- The world in which the component of both is computed, and has still to be published. -/
abbrev joinedComponent : DogmosWorld F32 :=
  step joinedMixtures (.processStageChunk equalizeRequest 4 (fun _ => false) : Op F32 F64)

/-- A transaction for one slot, with what was done to it. -/
def oneSlot (maxEntries : Nat) (ops : List (TransactionOp Unit)) : TransactionRun Unit :=
  ops.foldl TransactionRun.step
    { transaction := { slotToIndex := [unusedIndex], touchedBits := List.replicate 64 false,
                       entries := [], maxEntries }
      retired := [], slotCount := 1, maxEntries }

theorem initial_oneSlot : (oneSlot 1 []).Initial := ⟨rfl, rfl⟩

/-- A transaction for two slots, with what was done to it. -/
def twoSlots (maxEntries : Nat) (ops : List (TransactionOp Nat)) : TransactionRun Nat :=
  ops.foldl TransactionRun.step
    { transaction := { slotToIndex := [unusedIndex, unusedIndex],
                       touchedBits := List.replicate 64 false, entries := [], maxEntries }
      retired := [], slotCount := 2, maxEntries}

/-- Two handles are touched, retired and cleared; both are touched again, and the second one is
retired and touched once more. -/
abbrev touchedAgain : TransactionRun Nat :=
  twoSlots 3 [.touch ⟨0, 1⟩ 0 5, .touch ⟨1, 1⟩ 0 7, .retire 0, .retire 1, .clearRetired,
    .touch ⟨1, 1⟩ 0 3, .touch ⟨0, 1⟩ 1 9, .retire 0, .touch ⟨1, 1⟩ 2 4]

theorem reachableWhere_touchedAgain :
    System.ReachableWhere TransactionRun.Initial TransactionRun.step TransactionRun.Admissible
      touchedAgain := by
  have hstart : System.ReachableWhere TransactionRun.Initial TransactionRun.step
      TransactionRun.Admissible (twoSlots 3 []) := .start ⟨rfl, rfl⟩
  have htouched := (hstart.next (TransactionOp.touch ⟨0, 1⟩ 0 5) trivial).next
    (TransactionOp.touch ⟨1, 1⟩ 0 7) trivial
  have hretired := (htouched.next (TransactionOp.retire 0) ⟨0, List.not_mem_nil, _, rfl, rfl⟩).next
    (TransactionOp.retire 1) ⟨1, by decide, _, rfl, rfl⟩
  have hcleared := hretired.next TransactionOp.clearRetired (by
    rintro (_ | _ | index) slot ⟨hlive, _, hentry, -⟩
    · exact hlive (by decide)
    · exact hlive (by decide)
    · cases hentry)
  have hagain := (hcleared.next (TransactionOp.touch ⟨1, 1⟩ 0 3) trivial).next
    (TransactionOp.touch ⟨0, 1⟩ 1 9) trivial
  exact (hagain.next (TransactionOp.retire 0) ⟨1, List.not_mem_nil, _, rfl, rfl⟩).next
    (TransactionOp.touch ⟨1, 1⟩ 2 4) trivial

theorem transaction_consistent_joinedMixtures :
    (touchedAgain.Described ∧ touchedAgain.retired = [0] ∧
      touchedAgain.transaction.entries.map TransactionEntry.handle = [⟨1, 1⟩, ⟨0, 1⟩, ⟨1, 1⟩] ∧
      touchedAgain.transaction.candidate ⟨1, 1⟩ = some 4) ∧
    (run (processStageChunk equalizeRequest 4 fun _ => false) joinedMixtures).1 ≠
      .error .stateCapacityExceeded ∧
    (run (processStageChunk equalizeRequest 4 fun _ => false) joinedComponent).1 ≠
      .error .stateCapacityExceeded := by
  obtain ⟨hruns, hstages⟩ := transaction_consistent (F := F32) (D := F64)
  have hreachable : Reachable (D := F64) joinedMixtures :=
    System.reachable_run ⟨0, 0, 100000, 4, 4, rfl⟩ _
  have hopened : ∀ w : DogmosWorld F32, (run (openStage equalizeRequest) w).1.isOk = true →
      (run (openStage equalizeRequest) w).1 = .ok () := by
    intro w hok
    rcases hresult : (run (openStage equalizeRequest) w).1 with error | _
    · rw [hresult] at hok
      cases hok
    · rfl
  refine ⟨⟨hruns Nat _ reachableWhere_touchedAgain, rfl, rfl, rfl⟩, ?_, ?_⟩
  · exact hstages joinedMixtures hreachable equalizeRequest 4 _ (.inl rfl)
      (hopened _ (by decide +kernel))
  · exact hstages joinedComponent (hreachable.next _ trivial) equalizeRequest 4 _ (.inl rfl)
      (hopened _ (by decide +kernel))

/-- **One handle fills a transaction for one entry** when it is touched, retired and touched again;
a handle outside the slots finds no room at once; and retiring an entry twice hides the live entry
that has its slot. -/
theorem retired_entries_fill :
    (System.ReachableWhere TransactionRun.Initial TransactionRun.step TransactionRun.Admissible
        (oneSlot 1 [.touch ⟨0, 1⟩ 0 (), .retire 0]) ∧
      (∀ entry ∈ (oneSlot 1 [.touch ⟨0, 1⟩ 0 (), .retire 0]).transaction.entries,
        entry.handle = ⟨0, 1⟩) ∧
      (oneSlot 1 [.touch ⟨0, 1⟩ 0 (), .retire 0]).maxEntries = 1 ∧
      (oneSlot 1 [.touch ⟨0, 1⟩ 0 (), .retire 0]).transaction.touch ⟨0, 1⟩ 0 () =
        .error .capacityExceeded) ∧
    (oneSlot 1 []).transaction.touch ⟨1, 1⟩ 0 () = .error .capacityExceeded ∧
    (oneSlot 2 [.touch ⟨0, 1⟩ 0 (), .retire 0, .touch ⟨0, 1⟩ 0 (), .retire 0]).LiveAt 1 0 ∧
    (oneSlot 2 [.touch ⟨0, 1⟩ 0 (), .retire 0, .touch ⟨0, 1⟩ 0 (),
      .retire 0]).transaction.touchedBits[0]? = some false := by
  refine ⟨⟨?_, ?_, rfl, rfl⟩, rfl, ⟨by decide, _, rfl, rfl⟩, rfl⟩
  · have hstart : System.ReachableWhere TransactionRun.Initial TransactionRun.step
        TransactionRun.Admissible (oneSlot 1 []) := .start initial_oneSlot
    have htouched := hstart.next (TransactionOp.touch ⟨0, 1⟩ 0 ()) trivial
    exact htouched.next (TransactionOp.retire 0) ⟨0, List.not_mem_nil, _, rfl, rfl⟩
  · intro entry hentry
    have hentry : entry ∈ [(⟨⟨0, 1⟩, 0, ()⟩ : TransactionEntry Unit)] := hentry
    rw [List.mem_singleton.1 hentry]

end Examples

end DogmosWorld

end Dogmos
