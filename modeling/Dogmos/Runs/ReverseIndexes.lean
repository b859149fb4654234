import Dogmos.Runs.FrontierCalls
import Dogmos.Runs.Ownership

/-!
# The reverse indexes of a world

Both reverse indexes are exact in every reachable world, rejected batches
included (`indexed_of_reachable`).  A mixture that becomes stale loses its edges.
Its links go when it is unregistered, but a batch that registers another
generation over a linked mixture without unregistering it (`Displaces`) leaves
links to a handle that names nothing: `reverse_indexes` says that this is the only
way, and `dangling_link` is a run that takes it.
-/

namespace Dogmos

namespace DogmosWorld

open Exec SetIndex

variable {F D : Type} {w w' : DogmosWorld F}

/-- Both reverse indexes are exact. -/
structure ExactIndexes (w : DogmosWorld F) : Prop where
  turfs : w.OwnsTurfs
  edges : w.OwnsEdges

section Steps

variable [FloatFormat F] [FloatFormat D] [FloatCast F D]

/-! ## What no batch touches -/

omit [FloatFormat F] [FloatFormat D] [FloatCast F D] in
theorem indexed_of_initial (h : Initial w) : w.ExactIndexes := by
  obtain ⟨mixtureSlotBytes, turfSlotBytes, maxWorldBytes, maxEvents, maxContinuations, rfl⟩ := h
  refine ⟨⟨fun mixture slot => ?_, tight_empty⟩, ⟨fun slot key => ?_, tight_empty⟩⟩
  · refine ⟨fun hmember => absurd hmember not_members_empty, fun hlink => ?_⟩
    have hnone : linkOf (newWithCapacities (F := F) mixtureSlotBytes turfSlotBytes maxWorldBytes
      maxEvents maxContinuations) slot = none := rfl
    rw [hnone] at hlink
    cases hlink
  · refine ⟨fun hmember => absurd hmember not_members_empty, fun hedge => ?_⟩
    exact absurd hedge.1 Std.TreeMap.not_mem_emptyc

/-- The edges of the second world are those of the first one. -/
def SameEdges (w w' : DogmosWorld F) : Prop :=
  w'.edges = w.edges ∧ w'.mixtureEdges = w.mixtureEdges

omit [FloatFormat F] in
theorem sameEdges_writeTurf (w v : DogmosWorld F) (slot : Nat) (f : TurfRecord F → TurfRecord F)
    (h : SameEdges w v) : SameEdges w (v.writeTurf slot f) := by
  unfold writeTurf
  split <;> exact h

theorem groundClosed_sameEdges (w : DogmosWorld F) : GroundClosed (SameEdges w) where
  writeMixture v slot f _ h := by
    unfold writeMixture
    split <;> exact h
  configuration _ _ _ h := h
  events _ _ h := h
  settle _ _ := ContinuationClosed.settle fun _ _ _ h => h
  writeTurf v slot f h := sameEdges_writeTurf w v slot f h
  putTurf _ _ _ _ h := h
  growTurfs _ _ h := h
  heatActive _ _ h := h
  topology _ _ h := h
  mixtureTurfs _ _ h := h

omit [FloatCast F D] in
/-- What is neither a record, a turf nor an index stays the same over a step of a chunk. -/
theorem indexes_of_stageStep (h : StageStep (D := D) w w') :
    SameEdges w w' ∧ w'.mixtureTurfs = w.mixtureTurfs := by
  have hground := (effect_of_stageStep h).1
  refine ⟨⟨congrArg Ground.edges hground, congrArg Ground.mixtureEdges hground⟩, ?_⟩
  exact congrArg Ground.mixtureTurfs hground

omit [FloatCast F D] in
theorem keepsLive_of_stageStep (h : StageStep (D := D) w w') : KeepsLive w w' := by
  have hclosed := KeepsLive.commitClosed w
  have hstart : ∀ {α : Type} (request : StageChunkRequest D) (cached : Option α),
      KeepsLive w ((w.opened request).claimed cached) := fun request cached =>
    hclosed.claimed cached (.of_same rfl rfl)
  cases h with
  | unit h => exact .unitStep h
  | startDiffusion request _ _ => exact (hstart request _).trans (.of_same rfl rfl)
  | startHeat request _ _ => exact (hstart request _).trans (.of_same rfl rfl)
  | startReactions request _ _ => exact (hstart request _).trans (.of_same rfl rfl)
  | claimComponents _ => exact (hclosed.token w (.refl w)).trans (.of_same rfl rfl)
  | startComponents request state _ _ _ =>
    exact (hclosed.token w (.refl w)).trans (.of_same rfl rfl)
  | continuations h =>
    cases h with
    | allocate continuation => exact KeepsLive.allocate w continuation w (.refl w)
    | settle h =>
      exact ContinuationClosed.settle (I := KeepsLive w)
        (fun _ _ _ hv => hv.trans (.of_same rfl rfl)) h (.refl w)
  | finishDiffusion state _ hfree =>
    exact (hclosed.token _ ((hclosed.publish w _ hfree (.refl w)).trans
      (.of_same rfl rfl))).trans (.of_same rfl rfl)
  | finishHeat state _ hfree =>
    exact (hclosed.token _ ((hclosed.publish w _ hfree (.refl w)).trans
      (.of_same rfl rfl))).trans (.of_same rfl rfl)
  | finishReactions state _ hfree events =>
    exact (hclosed.token _ ((hclosed.publish w _ hfree (.refl w)).trans
      (.of_same rfl rfl))).trans (.of_same rfl rfl)
  | nextComponent state _ hfree =>
    exact (hclosed.token _ (hclosed.publish w _ hfree (.refl w))).trans (.of_same rfl rfl)
  | finishComponents state _ => exact (hclosed.token w (.refl w)).trans (.of_same rfl rfl)
  | abort => exact hclosed.abortStage (.refl w)
  | _ => exact .of_same rfl rfl

/-- Only batches that register mixtures make handles stale. -/
theorem keepsLive_step {op : Op F D} (hop : ∀ mutations, op ≠ .applyLifecycle mutations) :
    KeepsLive w (step w op) := by
  have hclosed := KeepsLive.turfBatchClosed w
  by_cases hbatch : op.IsBatch
  · refine keeps_exec_of_groundClosed hclosed.toGroundClosed hbatch ?_ w (.refl w)
    exact fun mutations heq => absurd heq (hop mutations)
  · have hreaction : ReactionClosed (KeepsLive w) :=
      { hclosed.toResumeClosed with allocate := KeepsLive.allocate w }
    exact keeps_exec hreaction hclosed.frontier
      (fun _ _ h hv => hv.trans (keepsLive_of_stageStep h)) hbatch w (.refl w)

/-! ## Links -/

omit [FloatFormat D] [FloatCast F D] in
/-- A batch of heat writes changes no link. -/
theorem keepsLinks_applyTurfHeat (mutations : List (TurfHeatMutation F)) :
    Keeps (KeepsLinks w) (applyTurfHeat mutations) := by
  have hactivate : ∀ handle, Keeps (KeepsLinks w) (activateTurfHeat handle) := by
    intro handle
    unfold activateTurfHeat
    refine keeps_check_bind fun turf => keeps_ite (fun _ => keeps_get_bind fun v => ?_) fun _ => ?_
    · refine keeps_ite (fun _ => keeps_throw _) fun _ => keeps_modify fun u hu => ?_
      have hlonger : KeepsLinks u { u with heatActive := u.heatActive ++ [handle] } :=
        ⟨fun _ => rfl, rfl, rfl⟩
      exact (hu.trans hlonger).trans (.writeTurf _ _ fun _ => rfl)
    · exact keeps_pure _
  have hmutation : ∀ mutation, Keeps (KeepsLinks w) (applyTurfHeatMutation mutation) := by
    intro mutation
    unfold applyTurfHeatMutation
    refine keeps_get_bind fun _ => ?_
    refine keeps_bind (keeps_modify fun v hv => hv.trans (.writeTurf v _ fun _ => rfl)) fun _ => ?_
    refine keeps_check_bind fun temperature => ?_
    have hremove : Keeps (KeepsLinks w) (if mutation.state.isNone = true then
        modify fun v => v.removeIncidentHeatEdges mutation.handle.slot
      else pure () : WorldM F Unit) :=
      keeps_ite (fun _ => keeps_modify fun v hv => hv.trans (.removeHeat v _)) fun _ => keeps_pure _
    refine keeps_ite (fun _ => ?_) fun _ => ?_
    · exact keeps_bind (hactivate _) fun _ => hremove
    · exact keeps_bind (keeps_modify fun v hv => hv.trans (.deactivate v _)) fun _ => hremove
  unfold applyTurfHeat
  refine keeps_bind (keeps_rejectActiveStage _) fun _ => ?_
  refine keeps_bind (keeps_forM fun _ _ => keeps_check _) fun _ => ?_
  exact keeps_bind (keeps_forM fun mutation _ => hmutation mutation) fun _ => keeps_pure _

/-- The second world has the links and the turf index of the first one. -/
def SameLinks (w w' : DogmosWorld F) : Prop :=
  (∀ slot, w'.linkOf slot = w.linkOf slot) ∧ w'.mixtureTurfs = w.mixtureTurfs

/-- Only batches that register turfs or mixtures change links. -/
theorem sameLinks_step (hagrees : w.Agrees) {op : Op F D}
    (hmixtures : ∀ mutations, op ≠ .applyLifecycle mutations)
    (hturfs : ∀ mutations, op ≠ .applyTurfLifecycle mutations) : SameLinks w (step w op) := by
  by_cases hbatch : op.IsBatch
  · have htopology : ∀ v topology, KeepsLinks w v → KeepsLinks w { v with topology } :=
      fun v topology hv => hv.trans (.topology v topology)
    have hkeeps : Keeps (KeepsLinks w) (exec op) := by
      cases hbatch with
      | applyLifecycle mutations => exact absurd rfl (hmixtures mutations)
      | applyTurfLifecycle mutations => exact absurd rfl (hturfs mutations)
      | applyTurfHeat mutations => exact keeps_discard (keepsLinks_applyTurfHeat mutations)
      | applyTurfHeatAdjacency mutations =>
        exact keeps_discard
          (keeps_batch _ mutations (keeps_applyTurfHeatAdjacencyMutation htopology))
      | applyTurfAdjacency mutations =>
        exact keeps_discard (keeps_batch _ mutations (keeps_applyTurfAdjacencyMutation htopology))
      | applyTurfFirelocks mutations =>
        exact keeps_discard (keeps_batch _ mutations (keeps_applyTurfFirelock htopology))
    have hlinks := hkeeps w (.refl w)
    exact ⟨hlinks.links, hlinks.index⟩
  · have hshapes := reactionClosed_keepsShapes w
    have hclosed : ReactionClosed fun v => KeepsShapes w v ∧ v.mixtureTurfs = w.mixtureTurfs := {
      writeMixture := fun v slot f _ hv => ⟨hv.1.trans (keepsShapes_writeMixture v slot f), by
        unfold writeMixture
        split <;> exact hv.2⟩
      edges := fun v _ _ hv => ⟨hshapes.edges v _ _ hv.1, hv.2⟩
      registries := fun v _ _ hv => ⟨hshapes.registries v _ _ hv.1, hv.2⟩
      configuration := fun v _ _ hv => ⟨hshapes.configuration v _ _ hv.1, hv.2⟩
      events := fun v _ hv => ⟨hshapes.events v _ hv.1, hv.2⟩
      settle := fun v v' h hv => ⟨hshapes.settle v v' h hv.1,
        ContinuationClosed.settle (I := fun u => u.mixtureTurfs = w.mixtureTurfs)
          (fun _ _ _ hu => hu) h hv.2⟩
      allocate := keeps_allocateContinuation fun _ _ _ hv => ⟨hv.1.trans (.of_turfs rfl rfl), hv.2⟩ }
    have hkept := keeps_exec hclosed (fun _ _ hv => ⟨hv.1.trans (.of_turfs rfl rfl), hv.2⟩)
      (fun v v' h hv => ⟨hv.1.trans (keepsShapes_of_stageStep h),
        (indexes_of_stageStep h).2.trans hv.2⟩) hbatch w ⟨.refl w, rfl⟩
    exact ⟨linkOf_of_turfShape (hkept.1.shapes hagrees), hkept.2⟩

/-- Only batches that register or connect mixtures change the edges of mixtures. -/
theorem sameEdges_step {op : Op F D} (hmixtures : ∀ mutations, op ≠ .applyLifecycle mutations)
    (hadjacency : ∀ mutations, op ≠ .applyAdjacency mutations) : SameEdges w (step w op) := by
  have hclosed := groundClosed_sameEdges w
  by_cases hbatch : op.IsBatch
  · refine keeps_exec_of_groundClosed hclosed hbatch ?_ w ⟨rfl, rfl⟩
    exact fun mutations heq => absurd heq (hmixtures mutations)
  · refine keeps_exec_of_sequenceClosed hclosed.toSequenceClosed hbatch
      (fun mutations heq => absurd heq (hadjacency mutations))
      (keeps_exec_of_isInstall fun _ _ _ hv => hv) (keeps_exec_of_isFrontier fun _ _ hv => hv) (fun hrun => ?_) w ⟨rfl, rfl⟩
    cases hrun with
    | reactMixture mixture target threshold eventLimit clock =>
      exact keeps_discard (keeps_reactMixture hclosed.toSequenceClosed
        (keeps_allocateContinuation fun _ _ _ hv => hv) _ _ _ _ _)
    | processStageChunk request eventLimit shouldCancel =>
      refine keeps_discard fun v hv => ?_
      refine processStageChunk_induct (fun u u' h hu => ?_) v request eventLimit shouldCancel hv
      obtain ⟨hedges, hindex⟩ := (indexes_of_stageStep h).1
      exact ⟨hedges.trans hu.1, hindex.trans hu.2⟩

/-! ## Batches -/

omit [FloatFormat D] [FloatCast F D] in
/-- The state an accepted or rejected batch on mixtures leaves. -/
theorem final_applyLifecycle (w : DogmosWorld F) (mutations : List LifecycleMutation) :
    (applyLifecycle mutations).final w =
      if (mutations.foldlM w.projectMutation ∅).isOk then w.commitLifecycle mutations else w := by
  unfold applyLifecycle final
  rw [run_bind, run_check]
  rcases mutations.foldlM w.projectMutation ∅ with error | projected <;> rfl

omit [FloatFormat D] [FloatCast F D] [FloatFormat F] in
/-- The state an accepted or rejected batch on turfs leaves. -/
theorem final_applyTurfLifecycle (w : DogmosWorld F) (mutations : List TurfLifecycleMutation) :
    (applyTurfLifecycle mutations).final w = w ∨
      (∃ projected, mutations.foldlM w.projectTurfMutation ∅ = .ok projected) ∧
        (applyTurfLifecycle mutations).final w = w.commitTurfLifecycle mutations := by
  unfold applyTurfLifecycle rejectActiveStage final
  rw [run_bind, run_check]
  by_cases hactive : w.stageCursor.isSome = true
  · rw [if_pos hactive]
    exact .inl rfl
  · rw [if_neg hactive]
    dsimp only [pure, Except.pure]
    rw [run_bind, run_check]
    rcases hprojected : mutations.foldlM w.projectTurfMutation ∅ with error | projected
    · exact .inl rfl
    · exact .inr ⟨⟨projected, rfl⟩, rfl⟩

omit [FloatFormat D] [FloatCast F D] [FloatFormat F] in
/-- A mixture that an accepted batch on turfs links is registered. -/
theorem live_of_projectTurfMutation (mutations : List TurfLifecycleMutation)
    {projected projected' : Projection}
    (h : mutations.foldlM w.projectTurfMutation projected = .ok projected') {mixture : MixtureHandle}
    {mutation : TurfLifecycleMutation} (hmutation : mutation ∈ mutations)
    (hmixture : (turfMutationTarget mutation).2 = some mixture) : w.Live mixture := by
  induction mutations generalizing projected with
  | nil => cases hmutation
  | cons first rest ih =>
    rw [List.foldlM_cons] at h
    rcases hnext : w.projectTurfMutation projected first with error | next
    · rw [hnext] at h
      cases h
    · rw [hnext] at h
      rcases List.mem_cons.1 hmutation with rfl | hrest
      · unfold projectTurfMutation at hnext
        rcases htarget : turfMutationTarget mutation with ⟨handle, link⟩
        rw [htarget] at hmixture hnext
        cases hmixture
        dsimp only at hnext
        rcases hrecord : w.requireHandle mixture with error | record
        · rw [hrecord] at hnext
          cases hnext
        · exact live_of_requireHandle hrecord
      · exact ih h hrest

/-- **Both indexes stay exact** over every operation, rejected ones included. -/
theorem ExactIndexes.step (h : w.ExactIndexes) (hagrees : w.Agrees) (op : Op F D) :
    (DogmosWorld.step w op).ExactIndexes := by
  by_cases hmixtures : ∃ mutations, op = .applyLifecycle mutations
  · obtain ⟨mutations, rfl⟩ := hmixtures
    unfold DogmosWorld.step exec
    rw [final_discard, final_applyLifecycle]
    split
    · exact ⟨(h.turfs.commitLifecycle mutations).1, (h.edges.commitLifecycle mutations).1⟩
    · exact h
  · have hmixtures : ∀ mutations, op ≠ .applyLifecycle mutations :=
      fun mutations heq => hmixtures ⟨mutations, heq⟩
    refine ⟨?_, ?_⟩
    · by_cases hturfs : ∃ mutations, op = .applyTurfLifecycle mutations
      · obtain ⟨mutations, rfl⟩ := hturfs
        have hkeeps : Keeps OwnsTurfs (applyTurfLifecycle (F := F) mutations) := by
          unfold applyTurfLifecycle
          refine keeps_bind (keeps_rejectActiveStage _) fun _ => keeps_check_bind fun _ => ?_
          refine keeps_bind (keeps_modify fun v hv => ?_) fun _ => keeps_pure _
          exact (hv.commitTurfLifecycle mutations).1
        exact keeps_discard hkeeps w h.turfs
      · have hsame := sameLinks_step hagrees hmixtures fun mutations heq => hturfs ⟨mutations, heq⟩
        exact h.turfs.of_same hsame.1 hsame.2
    · by_cases hadjacency : ∃ mutations, op = .applyAdjacency mutations
      · obtain ⟨mutations, rfl⟩ := hadjacency
        exact keeps_discard (keeps_ownsEdges_applyAdjacency mutations) w h.edges
      · have hsame := sameEdges_step (w := w) hmixtures
          fun mutations heq => hadjacency ⟨mutations, heq⟩
        exact h.edges.of_same hsame.1 hsame.2

theorem indexed_of_reachable (h : Reachable (D := D) w) : w.ExactIndexes := by
  have hboth : w.ExactIndexes ∧ Wired w := reachable_induct
    (I := fun w => w.ExactIndexes ∧ Wired w)
    (fun _ hinit => ⟨indexed_of_initial hinit, wired_of_initial hinit⟩)
    (fun w op hw => ⟨hw.1.step hw.2.agrees op, wired_step hw.2 op⟩) h
  exact hboth.1

/-! ## Mixtures that become stale -/

omit [FloatFormat D] [FloatCast F D] in
/-- A mutation that registers the handle again, or is about another slot, leaves the record. -/
theorem live_applyMutation_of_same {progress : DogmosWorld F × Std.TreeSet UInt32}
    {mutation : LifecycleMutation} {mixture : MixtureHandle}
    (h : mutation.handle.slot = mixture.slot →
      mutation = { action := .register, handle := mixture })
    (hlive : progress.1.Live mixture) : (applyMutation progress mutation).1.Live mixture := by
  by_cases hslot : mutation.handle.slot = mixture.slot
  · rw [h hslot]
    refine (keepsLive_applyMutation (w := progress.1) rfl (fun other hother hsame => ?_) (.refl _)
      ⟨rfl, rfl, rfl, rfl, rfl⟩).1 mixture hlive
    exact hother.eq hlive hsame
  · obtain ⟨v, invalidated⟩ := progress
    have hwritten : ∀ f : MixtureSlot F → MixtureSlot F,
        ((v.invalidateContinuationsForMixtureSlot mutation.handle.slot).putMixture
          mutation.handle.slot f).Live mixture :=
      fun f => (live_invalidate_putMixture f fun heq => hslot heq.symm).2 hlive
    unfold applyMutation
    dsimp only
    split
    · split
      · exact hwritten _
      · exact hlive
    · exact hwritten _

omit [FloatFormat F] [FloatFormat D] [FloatCast F D] in
/-- A checked mutation on the slot of a live mixture: it registers the mixture again, registers
another one over it or unregisters it. -/
theorem projectMutation_of_live {projected projected' : Projection} {mixture : MixtureHandle}
    (hprojected : (projected[mixture.slot]?).getD (w.projectedSlot mixture.slot) =
      { generation := some mixture.generation, occupied := true })
    {mutation : LifecycleMutation} (h : w.projectMutation projected mutation = .ok projected')
    (hslot : mutation.handle.slot = mixture.slot) :
    mutation.handle = mixture ∧ (mutation.action = .register →
        (projected'[mixture.slot]?).getD (w.projectedSlot mixture.slot) =
          { generation := some mixture.generation, occupied := true }) ∨
      mutation.handle ≠ mixture ∧ mutation.action = .register := by
  unfold projectMutation at h
  dsimp only at h
  rw [hslot, hprojected] at h
  rcases hcapacity : w.validateSlotCapacity mixture.slot with error | _
  · rw [hcapacity] at h
    cases h
  · rw [hcapacity] at h
    simp only [bind, Except.bind] at h
    split at h
    · cases h
    · by_cases hsame : mutation.handle = mixture
      · refine .inl ⟨hsame, fun haction => ?_⟩
        rw [haction] at h
        dsimp only at h
        split at h
        · cases h
        · cases h
          rw [Std.TreeMap.getElem?_insert_self, hsame]
          rfl
      · refine .inr ⟨hsame, ?_⟩
        cases haction : mutation.action with
        | register => rfl
        | unregister =>
          rw [haction] at h
          dsimp only at h
          have hgeneration : mutation.handle.generation ≠ mixture.generation := by
            intro heq
            refine hsame ?_
            calc mutation.handle = ⟨mutation.handle.slot, mutation.handle.generation⟩ := rfl
              _ = ⟨mixture.slot, mixture.generation⟩ := by rw [hslot, heq]
          rw [if_pos hgeneration] at h
          cases h

omit [FloatFormat F] [FloatFormat D] [FloatCast F D] in
/-- A checked mutation says nothing about other slots. -/
theorem projectMutation_of_ne {projected projected' : Projection} {mutation : LifecycleMutation}
    (h : w.projectMutation projected mutation = .ok projected') {slot : UInt32}
    (hslot : mutation.handle.slot ≠ slot) : projected'[slot]? = projected[slot]? := by
  have hinsert : ∀ found : ProjectedSlot,
      (projected.insert mutation.handle.slot found)[slot]? = projected[slot]? := by
    intro found
    rw [Std.TreeMap.getElem?_insert, if_neg fun heq => ?_]
    exact hslot (Std.LawfulEqCmp.compare_eq_iff_eq.1 heq)
  unfold projectMutation at h
  dsimp only at h
  rcases hcapacity : w.validateSlotCapacity mutation.handle.slot with error | _
  · rw [hcapacity] at h
    cases h
  · rw [hcapacity] at h
    simp only [bind, Except.bind] at h
    split at h
    · cases h
    · split at h
      · split at h
        · split at h
          · cases h
          · cases h
            exact hinsert _
        · cases h
          exact hinsert _
      · split at h
        · cases h
        · split at h
          · cases h
          · split at h
            · cases h
            · cases h
              exact hinsert _

omit [FloatFormat D] [FloatCast F D] in
/-- A live mixture that a checked batch neither unregisters nor replaces stays. -/
theorem live_foldl_applyMutation {mixture : MixtureHandle} (mutations : List LifecycleMutation)
    (progress : DogmosWorld F × Std.TreeSet UInt32) {projected projected' : Projection}
    (hprojected : (projected[mixture.slot]?).getD (w.projectedSlot mixture.slot) =
      { generation := some mixture.generation, occupied := true })
    (h : mutations.foldlM w.projectMutation projected = .ok projected')
    (hunregister : { action := .unregister, handle := mixture } ∉ mutations)
    (hregister : ∀ mutation ∈ mutations, mutation.action = .register →
      mutation.handle.slot = mixture.slot → mutation.handle = mixture)
    (hlive : progress.1.Live mixture) : (mutations.foldl applyMutation progress).1.Live mixture := by
  induction mutations generalizing projected progress with
  | nil => exact hlive
  | cons mutation rest ih =>
    rw [List.foldlM_cons] at h
    rcases hnext : w.projectMutation projected mutation with error | next
    · rw [hnext] at h
      cases h
    · rw [hnext] at h
      have hrest := fun other hother => hregister other (List.mem_cons_of_mem _ hother)
      have hkept := fun hmem => hunregister (List.mem_cons_of_mem _ hmem)
      by_cases hslot : mutation.handle.slot = mixture.slot
      · -- the slot is about to be checked: nothing is left but to register the mixture again
        have hsame : mutation = { action := .register, handle := mixture } := by
          obtain ⟨action, handle⟩ := mutation
          rcases projectMutation_of_live hprojected hnext hslot with ⟨hhandle, -⟩ | ⟨hne, haction⟩
          · dsimp only at hhandle
            subst hhandle
            cases action with
            | register => rfl
            | unregister => exact absurd List.mem_cons_self hunregister
          · exact absurd (hregister _ List.mem_cons_self haction hslot) hne
        have hagain : (next[mixture.slot]?).getD (w.projectedSlot mixture.slot) =
            { generation := some mixture.generation, occupied := true } := by
          rcases projectMutation_of_live hprojected hnext hslot with ⟨-, hkeeps⟩ | ⟨hne, -⟩
          · exact hkeeps (by rw [hsame])
          · exact absurd (by rw [hsame]) hne
        exact ih _ hagain h hkept hrest (live_applyMutation_of_same (fun _ => hsame) hlive)
      · refine ih _ ?_ h hkept hrest (live_applyMutation_of_same (fun heq => absurd heq hslot) hlive)
        rw [projectMutation_of_ne hnext hslot]
        exact hprojected

omit [FloatFormat D] [FloatCast F D] in
theorem live_commitLifecycle {mixture : MixtureHandle} {mutations : List LifecycleMutation}
    {projected : Projection} (hlive : w.Live mixture)
    (h : mutations.foldlM w.projectMutation ∅ = .ok projected)
    (hunregister : { action := .unregister, handle := mixture } ∉ mutations)
    (hregister : ∀ mutation ∈ mutations, mutation.action = .register →
      mutation.handle.slot = mixture.slot → mutation.handle = mixture) :
    (w.commitLifecycle mutations).Live mixture := by
  have hprojected : ((∅ : Projection)[mixture.slot]?).getD (w.projectedSlot mixture.slot) =
      { generation := some mixture.generation, occupied := true } := by
    rw [Std.TreeMap.getElem?_emptyc]
    exact projectedSlot_of_live hlive
  have hgrown := KeepsLive.growMixtures w (mutations.map fun mutation => mutation.handle.slot)
    mixture hlive
  have happlied := live_foldl_applyMutation mutations ({ w with
    mixtures := growSlots w.mixtures (mutations.map fun mutation => mutation.handle.slot)
      { generation := none, mixture := .vacant } }, ∅) hprojected h hunregister hregister hgrown
  unfold commitLifecycle
  dsimp only
  generalize mutations.foldl (applyMutation (F := F)) _ = applied at happlied ⊢
  have hframe := removeIncidentMixtureEdges_frame applied.1 applied.2.toList
  have hcut := KeepsLive.of_same hframe.1 hframe.2.1 mixture happlied
  generalize applied.2.toList.foldl removeIncidentMixtureEdges applied.1 = cut at hcut ⊢
  exact foldl_invariant
    (fun _ gone hv => (KeepsLive.turfBatchClosed cut).toGroundClosed.detachMixture gone hv)
    _ (.refl cut) mixture hcut

/-- The operation registers another generation over a linked mixture that it does not
unregister. -/
def Displaces (w : DogmosWorld F) (op : Op F D) (mixture : MixtureHandle) : Prop :=
  ∃ mutations, op = .applyLifecycle mutations ∧
    (mutations.foldlM w.projectMutation ∅).isOk = true ∧
    (∃ mutation ∈ mutations, mutation.action = .register ∧
      mutation.handle.slot = mixture.slot ∧ mutation.handle ≠ mixture) ∧
    { action := .unregister, handle := mixture } ∉ mutations ∧
    w.Live mixture ∧ ∃ slot, w.linkOf slot = some mixture

/-- **A mixture that becomes stale** has no edges left, and no links unless it was displaced. -/
theorem released_step (h : w.ExactIndexes) {op : Op F D} {mixture : MixtureHandle}
    (hlive : w.Live mixture) (hgone : ¬(step w op).Live mixture) :
    (step w op).Unconnected mixture ∧
      ((step w op).Unlinked mixture ↔ ¬w.Displaces op mixture) := by
  by_cases hop : ∀ mutations, op ≠ .applyLifecycle mutations
  · exact absurd (keepsLive_step hop mixture hlive) hgone
  · simp only [not_forall, not_not] at hop
    obtain ⟨mutations, rfl⟩ := hop
    unfold step exec at hgone ⊢
    rw [final_discard, final_applyLifecycle] at hgone ⊢
    by_cases hok : (mutations.foldlM w.projectMutation ∅).isOk = true
    · rw [if_pos hok] at hgone ⊢
      obtain ⟨hturfs, hlinks⟩ := h.turfs.commitLifecycle mutations
      refine ⟨(h.edges.commitLifecycle mutations).2 mixture hlive hgone, ?_⟩
      constructor
      · rintro ⟨hunlinked, -⟩ ⟨_, heq, -, -, hkept, -, slot, hslot⟩
        cases heq
        exact hunlinked slot ((hlinks slot mixture).2 ⟨hslot, hkept⟩)
      · intro hnot
        refine hturfs.unlinked fun slot hslot => ?_
        obtain ⟨hbefore, hkept⟩ := (hlinks slot mixture).1 hslot
        obtain ⟨projected, hprojected⟩ : ∃ projected,
            mutations.foldlM w.projectMutation ∅ = .ok projected := by
          rcases hresult : mutations.foldlM w.projectMutation ∅ with error | projected
          · rw [hresult] at hok
            cases hok
          · exact ⟨projected, rfl⟩
        refine hgone (live_commitLifecycle hlive hprojected hkept ?_)
        intro mutation hmutation haction hsame
        by_contra hne
        exact hnot ⟨mutations, rfl, hok, ⟨mutation, hmutation, haction, hsame, hne⟩, hkept, hlive,
          slot, hbefore⟩
    · rw [if_neg hok] at hgone
      exact absurd hlive hgone

/-- Every link names a mixture. -/
def LinksLive (w : DogmosWorld F) : Prop :=
  ∀ slot mixture, w.linkOf slot = some mixture → w.Live mixture

theorem LinksLive.step (hlinks : w.LinksLive) (h : w.ExactIndexes) (hagrees : w.Agrees) {op : Op F D}
    (hop : ∀ mixture, ¬w.Displaces op mixture) : (DogmosWorld.step w op).LinksLive := by
  intro slot mixture hlink
  by_cases hmixtures : ∃ mutations, op = .applyLifecycle mutations
  · have hlive : w.Live mixture := by
      obtain ⟨mutations, rfl⟩ := hmixtures
      unfold DogmosWorld.step exec at hlink
      rw [final_discard, final_applyLifecycle] at hlink
      split at hlink
      · exact hlinks slot mixture (((h.turfs.commitLifecycle mutations).2 slot mixture).1 hlink).1
      · exact hlinks slot mixture hlink
    by_contra hgone
    exact ((released_step h hlive hgone).2.2 (hop mixture)).1 slot hlink
  · have hmixtures : ∀ mutations, op ≠ .applyLifecycle mutations :=
      fun mutations heq => hmixtures ⟨mutations, heq⟩
    refine keepsLive_step hmixtures mixture ?_
    by_cases hturfs : ∃ mutations, op = .applyTurfLifecycle mutations
    · obtain ⟨mutations, rfl⟩ := hturfs
      unfold DogmosWorld.step exec at hlink
      rw [final_discard] at hlink
      rcases final_applyTurfLifecycle w mutations with hsame | ⟨⟨projected, hprojected⟩, hcommit⟩
      · rw [hsame] at hlink
        exact hlinks slot mixture hlink
      · rw [hcommit] at hlink
        rcases (h.turfs.commitTurfLifecycle mutations).2 slot mixture hlink with hold | hnew
        · exact hlinks slot mixture hold
        · obtain ⟨mutation, hmutation, hmixture⟩ := hnew
          exact live_of_projectTurfMutation mutations hprojected hmutation hmixture
    · have hsame := sameLinks_step hagrees hmixtures fun mutations heq => hturfs ⟨mutations, heq⟩
      exact hlinks slot mixture ((hsame.1 slot).symm.trans hlink)

/-- **The reverse indexes are exact** in every reachable world, and a mixture that becomes stale
has no edges left.  Links to it are left exactly when it was displaced, so in runs that displace
no mixture every link names one. -/
theorem reverse_indexes :
    (∀ w : DogmosWorld F, Reachable (D := D) w → w.OwnsTurfs ∧ w.OwnsEdges ∧
      ∀ (op : Op F D) mixture, w.Live mixture → ¬(step w op).Live mixture →
        (step w op).Unconnected mixture ∧
          ((step w op).Unlinked mixture ↔ ¬w.Displaces op mixture)) ∧
    ∀ w : DogmosWorld F,
      ReachableWhere (fun w (op : Op F D) => ∀ mixture, ¬w.Displaces op mixture) w →
        ∀ slot mixture, w.linkOf slot = some mixture → w.Live mixture := by
  refine ⟨fun w hw => ?_, fun w hw => ?_⟩
  · have hindexed := indexed_of_reachable hw
    exact ⟨hindexed.turfs, hindexed.edges, fun op mixture => released_step hindexed⟩
  · refine reachableWhere_induct (I := LinksLive) ?_ ?_ hw
    · rintro w ⟨mixtureSlotBytes, turfSlotBytes, maxWorldBytes, maxEvents, maxContinuations, rfl⟩
      intro slot mixture hlink
      cases hlink
    · intro w op hreachable hop hlinks
      have hall := System.ReachableWhere.mono (fun _ _ _ => trivial) hreachable
      exact hlinks.step (indexed_of_reachable hall) (wired_of_reachable hall).agrees hop

end Steps

/-! ## A mixture that is displaced -/

section Displaced

/-- A world with a mixture and a turf that is linked to it. -/
def linkedTurf : DogmosWorld F32 :=
  System.run (step (D := F64)) (newWithCapacities 0 0 100000 4 4)
    [.applyLifecycle [⟨.register, ⟨0, 1⟩⟩], .applyTurfLifecycle [.register ⟨0, 1⟩ (some ⟨0, 1⟩)]]

theorem reverse_indexes_linkedTurf :
    linkedTurf.OwnsTurfs ∧ linkedTurf.Live ⟨0, 1⟩ ∧
      (step linkedTurf (.applyLifecycle [⟨.unregister, ⟨0, 1⟩⟩] : Op F32 F64)).Unlinked ⟨0, 1⟩ := by
  have hstart : ReachableWhere (D := F64) (fun w op => ∀ mixture, ¬w.Displaces op mixture)
      (newWithCapacities (F := F32) 0 0 100000 4 4) := .start ⟨0, 0, 100000, 4, 4, rfl⟩
  have hregistered := hstart.next (.applyLifecycle [⟨.register, ⟨0, 1⟩⟩]) fun mixture => by
    rintro ⟨-, -, -, -, -, -, slot, hslot⟩
    cases hslot
  have hlinked := hregistered.next (.applyTurfLifecycle [.register ⟨0, 1⟩ (some ⟨0, 1⟩)])
    fun mixture => by
      rintro ⟨mutations, heq, -⟩
      cases heq
  have hrun : ReachableWhere (D := F64) (fun w op => ∀ mixture, ¬w.Displaces op mixture)
      linkedTurf := hlinked
  have hlive := (reverse_indexes (D := F64)).2 linkedTurf hrun 0 ⟨0, 1⟩ (by decide +kernel)
  obtain ⟨howns, -, hreleased⟩ := (reverse_indexes (D := F64)).1 linkedTurf
    (System.ReachableWhere.mono (fun _ _ _ => trivial) hrun)
  have hgone : ((step linkedTurf (.applyLifecycle [⟨.unregister, ⟨0, 1⟩⟩] :
      Op F32 F64)).mixtureAt 0).isSome = false := by decide +kernel
  refine ⟨howns, hlive, (hreleased _ _ hlive fun hafter => ?_).2.2 ?_⟩
  · exact absurd hafter.2 (Bool.eq_false_iff.1 hgone)
  · rintro ⟨mutations, heq, -, -, hkept, -⟩
    cases heq
    exact hkept List.mem_cons_self

/-- **A dangling link**: a turf stays linked to a mixture that another one has replaced. -/
theorem dangling_link : ∃ w : DogmosWorld F32, Reachable (D := F64) w ∧ w.Live ⟨0, 1⟩ ∧
    Accepted w (.applyLifecycle [⟨.register, ⟨0, 2⟩⟩] : Op F32 F64) ∧
    ¬(step w (.applyLifecycle [⟨.register, ⟨0, 2⟩⟩] : Op F32 F64)).Live ⟨0, 1⟩ ∧
    (step w (.applyLifecycle [⟨.register, ⟨0, 2⟩⟩] : Op F32 F64)).linkOf 0 = some ⟨0, 1⟩ := by
  have hgeneration : (step linkedTurf (.applyLifecycle [⟨.register, ⟨0, 2⟩⟩] :
      Op F32 F64)).mixtureGeneration 0 = some 2 := by decide +kernel
  refine ⟨linkedTurf, .run (.start ⟨0, 0, 100000, 4, 4, rfl⟩) _, ⟨by decide +kernel,
    by decide +kernel⟩, accepted_of_isOk (by decide +kernel), fun hlive => ?_, by decide +kernel⟩
  have hsame := hgeneration.symm.trans hlive.1
  cases hsame

end Displaced

end DogmosWorld

end Dogmos
