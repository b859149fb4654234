import Dogmos.Runs.Adjacency
import Dogmos.Runs.SingleUse

/-!
# Handles that name a mixture

A handle is live when its slot has its generation and holds a record.  Nothing
but a batch that unregisters or replaces mixtures makes a live handle stale
(`KeepsLive`), and such a batch settles the continuations of the slots it
touches, so every continuation that waits is about a live mixture (`Anchored`).
While a stage runs, no batch makes a live handle stale
(`keepsLive_applyLifecycle`).
-/

namespace Dogmos

namespace DogmosWorld

open Exec Chunk

variable {F D : Type} {w w' w'' : DogmosWorld F}

/-- The handle names a mixture. -/
def Live (w : DogmosWorld F) (mixture : MixtureHandle) : Prop :=
  w.mixtureGeneration mixture.slot = some mixture.generation ∧
    (w.mixtureAt mixture.slot.toNat).isSome

theorem live_of_requireHandle {mixture : MixtureHandle} {record : MixtureRecord F}
    (h : w.requireHandle mixture = .ok record) : w.Live mixture := by
  obtain ⟨hgeneration, hat⟩ := requireHandle_eq_ok.1 h
  exact ⟨hgeneration, by rw [hat]; rfl⟩

/-- Two live handles of one slot are the same. -/
theorem Live.eq {m m' : MixtureHandle} (h : w.Live m) (h' : w.Live m') (hslot : m.slot = m'.slot) :
    m = m' := by
  obtain ⟨slot, generation⟩ := m
  obtain ⟨slot', generation'⟩ := m'
  cases hslot
  have hsame := h.1.symm.trans h'.1
  cases hsame
  rfl

/-- What names a mixture names one still. -/
def KeepsLive (w w' : DogmosWorld F) : Prop := ∀ mixture, w.Live mixture → w'.Live mixture

namespace KeepsLive

theorem refl (w : DogmosWorld F) : KeepsLive w w := fun _ h => h

theorem trans (h : KeepsLive w w') (h' : KeepsLive w' w'') : KeepsLive w w'' :=
  fun mixture hlive => h' mixture (h mixture hlive)

/-- A record that is there stays there when more tokens are visible. -/
theorem isSome_asRef {T : Type} (record : Versioned T) {publications publications' : Publications}
    (hvisible : ∀ id, publications.visible id = true → publications'.visible id = true)
    (h : (record.asRef publications).isSome) : (record.asRef publications').isSome := by
  obtain ⟨current, _ | ⟨id, candidate⟩⟩ := record
  · exact h
  · unfold Versioned.asRef at h ⊢
    dsimp only at h ⊢
    by_cases hid : publications'.visible id = true
    · rw [if_pos hid]
      rfl
    · rw [if_neg hid]
      rwa [if_neg fun hold => hid (hvisible id hold)] at h

/-- Staging a candidate leaves a record that is there. -/
theorem isSome_asRef_stage {T : Type} (record : Versioned T) {publications : Publications}
    {id : PublicationId} {candidate : T} (h : (record.asRef publications).isSome) :
    ((record.stage publications id candidate).asRef publications).isSome := by
  obtain ⟨current, pending⟩ := record
  unfold Versioned.stage
  split
  · next hcandidate =>
    unfold Versioned.asRef
    dsimp only
    split
    · rfl
    · next hhidden =>
      rcases pending with _ | ⟨token, staged⟩
      · exact h
      · have htoken : token = id := by
          by_contra hne
          simp [Versioned.candidate, hne] at hcandidate
        unfold Versioned.asRef at h
        dsimp only at h
        rwa [htoken, if_neg hhidden] at h
  · unfold Versioned.asRef
    dsimp only
    split
    · rfl
    · exact h

theorem of_mixtures (hmixtures : w'.mixtures = w.mixtures)
    (hvisible : ∀ id, w.publications.visible id = true → w'.publications.visible id = true) :
    KeepsLive w w' := by
  rintro mixture ⟨hgeneration, hat⟩
  refine ⟨?_, ?_⟩
  · unfold mixtureGeneration at hgeneration ⊢
    rw [hmixtures]
    exact hgeneration
  · unfold mixtureAt at hat ⊢
    rw [hmixtures]
    rcases hentry : w.mixtures[mixture.slot.toNat]? with _ | entry
    · rw [hentry] at hat
      cases hat
    · rw [hentry] at hat
      exact isSome_asRef entry.mixture hvisible hat

theorem of_same (hmixtures : w'.mixtures = w.mixtures) (hpublications : w'.publications = w.publications) :
    KeepsLive w w' := of_mixtures hmixtures fun _ h => hpublications ▸ h

theorem writeMixture (w : DogmosWorld F) (slot : Nat) (f : MixtureRecord F → MixtureRecord F) :
    KeepsLive w (w.writeMixture slot f) := by
  rintro mixture ⟨hgeneration, hat⟩
  refine ⟨(mixtureGeneration_writeMixture ..).trans hgeneration, ?_⟩
  rw [mixtureAt_writeMixture]
  split
  · rwa [Option.isSome_map]
  · exact hat

theorem writeTurf (w : DogmosWorld F) (slot : Nat) (f : TurfRecord F → TurfRecord F) :
    KeepsLive w (w.writeTurf slot f) := by
  refine of_mixtures ?_ fun id h => (visible_writeTurf w slot f id).trans h
  unfold DogmosWorld.writeTurf
  split <;> rfl

theorem stageMixture (w : DogmosWorld F) (slot : Nat) (id : PublicationId)
    (candidate : MixtureRecord F) : KeepsLive w (w.stageMixture slot id candidate) := by
  unfold DogmosWorld.stageMixture
  rcases hentry : w.mixtures[slot]? with _ | entry
  · exact refl w
  · have hlen := (List.getElem?_eq_some_iff.1 hentry).1
    rintro mixture ⟨hgeneration, hat⟩
    unfold Live mixtureGeneration mixtureAt at *
    dsimp only
    by_cases hslot : slot = mixture.slot.toNat
    · subst hslot
      rw [hentry] at hgeneration hat
      rw [List.getElem?_set_self hlen]
      refine ⟨hgeneration, ?_⟩
      exact isSome_asRef _ (fun other h => (Versioned.visible_stageTokens ..).trans h)
        (isSome_asRef_stage entry.mixture hat)
    · rw [List.getElem?_set_ne hslot]
      refine ⟨hgeneration, ?_⟩
      rcases hother : w.mixtures[mixture.slot.toNat]? with _ | other
      · rw [hother] at hat
        cases hat
      · rw [hother] at hat
        exact isSome_asRef other.mixture (fun id h => (Versioned.visible_stageTokens ..).trans h) hat

theorem unitStep [FloatFormat F] (h : UnitStep w w') : KeepsLive w w' := by
  cases h with
  | stageMixture slot id candidate _ _ => exact stageMixture w slot id candidate
  | writePreparedTurf slot id f _ _ =>
    unfold writePreparedTurf stageTurf
    split
    · split
      · exact refl w
      · exact of_mixtures rfl fun id h => (Versioned.visible_stageTokens ..).trans h
    · exact refl w
  | _ => exact of_same rfl rfl

theorem commitClosed (w : DogmosWorld F) : CommitClosed (KeepsLive w) where
  scratch _ _ _ _ _ _ _ _ h := h.trans (of_same rfl rfl)
  idle _ h := h.trans (of_same rfl rfl)
  reactions _ _ _ h := h.trans (of_same rfl rfl)
  token _ h := h.trans (of_mixtures rfl fun _ hid => (Publications.visible_withFresh _ _).trans hid)
  publish _ _ _ h := h.trans (of_mixtures rfl fun _ hid => by
    show Publications.visible (Publications.publish _ _) _ = true
    rw [Publications.visible_publish, hid]
    rfl)
  events _ _ h := h.trans (of_same rfl rfl)
  heatActive _ _ h := h.trans (of_same rfl rfl)

theorem turfBatchClosed [FloatFormat F] (w : DogmosWorld F) : TurfBatchClosed (KeepsLive w) where
  writeMixture v slot f _ h := h.trans (writeMixture v slot f)
  edges _ _ _ h := h.trans (of_same rfl rfl)
  registries _ _ _ h := h.trans (of_same rfl rfl)
  configuration _ _ _ h := h.trans (of_same rfl rfl)
  events _ _ h := h.trans (of_same rfl rfl)
  settle _ _ := ContinuationClosed.settle fun _ _ _ h => h.trans (of_same rfl rfl)
  frontier _ _ h := h.trans (of_same rfl rfl)
  writeTurf v slot f h := h.trans (writeTurf v slot f)
  putTurf _ _ _ _ h := h.trans (of_same rfl rfl)
  growTurfs _ _ h := h.trans (of_same rfl rfl)
  heatActive _ _ h := h.trans (of_same rfl rfl)
  topology _ _ h := h.trans (of_same rfl rfl)
  mixtureTurfs _ _ h := h.trans (of_same rfl rfl)

theorem allocate (w : DogmosWorld F) (continuation : ReactionContinuation F) :
    Keeps (KeepsLive w) (allocateContinuation continuation) :=
  keeps_allocateContinuation (fun _ _ _ h => h.trans (of_same rfl rfl)) continuation

end KeepsLive

/-! ## Continuations are about live mixtures -/

/-- Every continuation that waits is about a live mixture. -/
def Anchored (w : DogmosWorld F) : Prop :=
  ∀ entry ∈ w.continuations, ∀ continuation, entry.continuation = some continuation →
    w.Live continuation.mixture

namespace Anchored

theorem same (h : w.Anchored) (hsame : SameContinuations w w') (hlive : KeepsLive w w') :
    w'.Anchored := by
  intro entry hentry continuation hcontinuation
  rw [hsame.continuations] at hentry
  exact hlive _ (h entry hentry continuation hcontinuation)

theorem of_requireContinuation (h : w.Anchored) {token : ReactionContinuationToken}
    {continuation : ReactionContinuation F}
    (hrequire : w.requireContinuation token = .ok continuation) : w.Live continuation.mixture := by
  rw [requireContinuation_eq_ok] at hrequire
  unfold SlotPool.Holds at hrequire
  rw [pool_slots, Option.map_eq_some_iff] at hrequire
  obtain ⟨entry, hentry, hpair⟩ := hrequire
  exact h entry (List.mem_of_getElem? hentry) continuation (Prod.mk.inj hpair).2

theorem setContinuation (h : w.Anchored) (slot : Nat) (entry : ContinuationSlot F)
    (hentry : ∀ continuation, entry.continuation = some continuation → w.Live continuation.mixture) :
    (w.setContinuation slot entry).Anchored := by
  intro found hfound continuation hcontinuation
  rcases List.mem_or_eq_of_mem_set hfound with hold | rfl
  · exact h found hold continuation hcontinuation
  · exact hentry continuation hcontinuation

theorem settle (h : w.Anchored) (hstep : SettleStep w w') : w'.Anchored := by
  cases hstep with
  | rotate token continuation hmixture =>
    rcases final_rotateContinuation w token continuation with heq | ⟨found, hfound, -, heq⟩
    · rw [heq]
      exact h
    · rw [heq]
      refine h.setContinuation _ _ fun other hother => ?_
      cases hother
      rw [hmixture found hfound]
      exact h.of_requireContinuation hfound
  | complete token =>
    rcases final_completeContinuation w token with heq | ⟨found, hfound, heq⟩
    · rw [heq]
      exact h
    · rw [heq]
      exact h.setContinuation _ ⟨token.generation, none⟩ fun _ hnone => by
        cases hnone
  | invalidate p =>
    intro entry hentry continuation hcontinuation
    rw [continuations_invalidateContinuations] at hentry
    obtain ⟨found, hfound, rfl⟩ := List.mem_map.1 hentry
    have hlive : w.Live continuation.mixture := by
      split at hcontinuation
      · cases hcontinuation
      · exact h found hfound continuation hcontinuation
    have hmixtures : (w.invalidateContinuations p).mixtures = w.mixtures ∧
        (w.invalidateContinuations p).publications = w.publications :=
      invalidateContinuations_induct
        (I := fun v => v.mixtures = w.mixtures ∧ v.publications = w.publications)
        (fun _ _ _ _ hv _ => hv) w p ⟨rfl, rfl⟩
    exact KeepsLive.of_same hmixtures.1 hmixtures.2 _ hlive

end Anchored

/-! ## Batches that register mixtures -/

section Lifecycle

variable (slot : UInt32) (f : MixtureSlot F → MixtureSlot F)

theorem live_putMixture_of_ne {mixture : MixtureHandle} (h : mixture.slot ≠ slot) :
    (w.putMixture slot f).Live mixture ↔ w.Live mixture := by
  have hslot : slot.toNat ≠ mixture.slot.toNat := fun heq => h (UInt32.toNat_inj.1 heq).symm
  unfold Live mixtureGeneration mixtureAt putMixture
  simp [hslot]

theorem KeepsLive.growMixtures (w : DogmosWorld F) (slots : List UInt32) :
    KeepsLive w { w with
      mixtures := growSlots w.mixtures slots { generation := none, mixture := .vacant } } := by
  rintro mixture ⟨hgeneration, hat⟩
  unfold Live mixtureGeneration mixtureAt at *
  rcases hentry : w.mixtures[mixture.slot.toNat]? with _ | entry
  · rw [hentry] at hat
    cases hat
  · have hgrown : (growSlots w.mixtures slots ⟨none, .vacant⟩)[mixture.slot.toNat]? =
        w.mixtures[mixture.slot.toNat]? := by
      rcases getElem?_growSlots slots ⟨none, .vacant⟩ mixture.slot.toNat w.mixtures with
        hsame | ⟨hnone, -⟩
      · exact hsame
      · rw [hentry] at hnone
        cases hnone
    dsimp only
    rw [hgrown]
    exact ⟨hgeneration, hat⟩

/-- A slot whose continuations were invalidated may be written. -/
theorem Anchored.putMixture (h : w.Anchored) :
    ((w.invalidateContinuationsForMixtureSlot slot).putMixture slot f).Anchored := by
  intro entry hentry continuation hcontinuation
  have hinvalidated := h.settle (.invalidate w fun continuation => continuation.mixture.slot = slot)
  refine (live_putMixture_of_ne slot f ?_).2 (hinvalidated entry hentry continuation hcontinuation)
  have hentry : entry ∈ (w.invalidateContinuations fun continuation =>
      decide (continuation.mixture.slot = slot)).continuations := hentry
  rw [continuations_invalidateContinuations] at hentry
  obtain ⟨found, hfound, rfl⟩ := List.mem_map.1 hentry
  intro heq
  by_cases hany : found.continuation.any fun continuation => decide (continuation.mixture.slot = slot)
  · rw [if_pos hany] at hcontinuation
    cases hcontinuation
  · rw [if_neg hany] at hcontinuation
    rw [hcontinuation] at hany
    exact hany (decide_eq_true heq)

variable [FloatFormat F]

theorem Anchored.applyMutation {progress : DogmosWorld F × Std.TreeSet UInt32}
    (h : progress.1.Anchored) (mutation : LifecycleMutation) :
    (applyMutation progress mutation).1.Anchored := by
  obtain ⟨w, invalidated⟩ := progress
  unfold DogmosWorld.applyMutation
  dsimp only
  split
  · split
    · exact Anchored.putMixture _ _ h
    · exact h
  · exact Anchored.putMixture _ _ h

theorem turfBatchClosed_anchored : TurfBatchClosed (Anchored (F := F)) where
  writeMixture w slot f _ h := h.same (.writeMixture w slot f) (.writeMixture w slot f)
  edges _ _ _ h := h.same ⟨rfl, rfl, rfl⟩ (.of_same rfl rfl)
  registries _ _ _ h := h.same ⟨rfl, rfl, rfl⟩ (.of_same rfl rfl)
  configuration _ _ _ h := h.same ⟨rfl, rfl, rfl⟩ (.of_same rfl rfl)
  events _ _ h := h.same ⟨rfl, rfl, rfl⟩ (.of_same rfl rfl)
  settle _ _ hstep h := h.settle hstep
  frontier _ _ h := h.same ⟨rfl, rfl, rfl⟩ (.of_same rfl rfl)
  writeTurf w slot f h := h.same (.writeTurf w slot f) (.writeTurf w slot f)
  putTurf _ _ _ _ h := h.same ⟨rfl, rfl, rfl⟩ (.of_same rfl rfl)
  growTurfs _ _ h := h.same ⟨rfl, rfl, rfl⟩ (.of_same rfl rfl)
  heatActive _ _ h := h.same ⟨rfl, rfl, rfl⟩ (.of_same rfl rfl)
  topology _ _ h := h.same ⟨rfl, rfl, rfl⟩ (.of_same rfl rfl)
  mixtureTurfs _ _ h := h.same ⟨rfl, rfl, rfl⟩ (.of_same rfl rfl)

theorem Anchored.commitLifecycle (h : w.Anchored) (mutations : List LifecycleMutation) :
    (w.commitLifecycle mutations).Anchored := by
  have hclosed := turfBatchClosed_anchored (F := F)
  have hfold : ∀ (l : List LifecycleMutation) (progress : DogmosWorld F × Std.TreeSet UInt32),
      progress.1.Anchored → (l.foldl DogmosWorld.applyMutation progress).1.Anchored := by
    intro l
    induction l with
    | nil => exact fun _ h => h
    | cons mutation rest ih => exact fun progress h => ih _ (h.applyMutation mutation)
  unfold DogmosWorld.commitLifecycle
  refine foldl_invariant (fun _ mixture h => hclosed.detachMixture mixture h) _ ?_
  refine foldl_invariant (fun _ slot h => hclosed.edges.removeIncidentMixtureEdges slot h) _ ?_
  exact hfold mutations _ (h.same ⟨rfl, rfl, rfl⟩ (.growMixtures w _))

omit [FloatFormat F] in
/-- What one checked mutation does while a stage runs. -/
theorem projectMutation_active (hactive : w.stageCursor.isSome) {projected projected' : Projection}
    {mutation : LifecycleMutation} (h : w.projectMutation projected mutation = .ok projected') :
    mutation.action = .register ∧
      (((projected[mutation.handle.slot]?).getD (w.projectedSlot mutation.handle.slot)).occupied = true →
        ((projected[mutation.handle.slot]?).getD (w.projectedSlot mutation.handle.slot)).generation =
          some mutation.handle.generation) ∧
      projected' = projected.insert mutation.handle.slot
        { generation := some mutation.handle.generation, occupied := true } := by
  unfold projectMutation at h
  dsimp only at h
  rcases hcapacity : w.validateSlotCapacity mutation.handle.slot with error | _
  · rw [hcapacity] at h
    cases h
  · rw [hcapacity] at h
    simp only [bind, Except.bind] at h
    generalize (projected[mutation.handle.slot]?).getD (w.projectedSlot mutation.handle.slot) =
      current at h ⊢
    by_cases hconflict : conflictsWithActiveStage mutation current
    · rw [if_pos ⟨hactive, hconflict⟩] at h
      cases h
    · rw [if_neg fun hboth => hconflict hboth.2] at h
      unfold conflictsWithActiveStage at hconflict
      cases haction : mutation.action with
      | unregister =>
        rw [haction] at hconflict
        exact absurd rfl hconflict
      | register =>
        rw [haction] at hconflict h
        refine ⟨rfl, ?_, ?_⟩
        · intro hoccupied
          by_contra hne
          exact hconflict (by simp [hoccupied, hne])
        · dsimp only at h
          split at h
          · split at h
            · cases h
            · exact (Except.ok.inj h).symm
          · exact (Except.ok.inj h).symm

omit [FloatFormat F] in
theorem projectedSlot_of_live {mixture : MixtureHandle} (h : w.Live mixture) :
    w.projectedSlot mixture.slot = { generation := some mixture.generation, occupied := true } := by
  obtain ⟨hgeneration, hat⟩ := h
  unfold mixtureGeneration at hgeneration
  unfold mixtureAt at hat
  unfold projectedSlot
  rcases hentry : w.mixtures[mixture.slot.toNat]? with _ | entry
  · rw [hentry] at hat
    cases hat
  · rw [hentry] at hgeneration hat
    exact congrArg₂ ProjectedSlot.mk hgeneration hat

omit [FloatFormat F] in
/-- What a checked batch does while a stage runs: it registers, and not over a live mixture. -/
theorem register_of_projectMutation (hactive : w.stageCursor.isSome) (mutations : List LifecycleMutation)
    {projected projected' : Projection}
    (hprojected : ∀ mixture, w.Live mixture →
      (projected[mixture.slot]?).getD (w.projectedSlot mixture.slot) =
        { generation := some mixture.generation, occupied := true })
    (h : mutations.foldlM w.projectMutation projected = .ok projected') :
    ∀ mutation ∈ mutations, mutation.action = .register ∧
      ∀ mixture, w.Live mixture → mixture.slot = mutation.handle.slot → mixture = mutation.handle := by
  induction mutations generalizing projected with
  | nil => exact fun _ hmutation => absurd hmutation List.not_mem_nil
  | cons mutation rest ih =>
    rw [List.foldlM_cons] at h
    rcases hnext : w.projectMutation projected mutation with error | next
    · rw [hnext] at h
      cases h
    · rw [hnext] at h
      obtain ⟨haction, hgeneration, rfl⟩ := projectMutation_active hactive hnext
      have hsame : ∀ mixture, w.Live mixture → mixture.slot = mutation.handle.slot →
          mixture = mutation.handle := by
        intro mixture hlive hslot
        have hcurrent := hprojected mixture hlive
        rw [hslot] at hcurrent
        rw [hcurrent] at hgeneration
        calc mixture = ⟨mixture.slot, mixture.generation⟩ := rfl
          _ = ⟨mutation.handle.slot, mutation.handle.generation⟩ := by
            rw [hslot, Option.some.inj (hgeneration rfl)]
      have hrest := ih (fun mixture hlive => ?_) h
      · intro other hother
        rcases List.mem_cons.1 hother with rfl | hother
        · exact ⟨haction, hsame⟩
        · exact hrest other hother
      · rw [Std.TreeMap.getElem?_insert]
        split
        · next hslot =>
          rw [hsame mixture hlive (Std.LawfulEqOrd.eq_of_compare hslot).symm]
          rfl
        · exact hprojected mixture hlive

/-- The turfs, their edges, the active heat list, the frontier and the tokens are the same. -/
structure SameGround (w w' : DogmosWorld F) : Prop where
  turfs : w'.turfs = w.turfs
  topology : w'.topology = w.topology
  frontier : w'.frontier = w.frontier
  active : w'.heatActive = w.heatActive
  publications : w'.publications = w.publications

omit [FloatFormat F] in
theorem SameGround.trans {w' w'' : DogmosWorld F} (h : SameGround w w') (h' : SameGround w' w'') :
    SameGround w w'' :=
  ⟨h'.turfs.trans h.turfs, h'.topology.trans h.topology, h'.frontier.trans h.frontier,
    h'.active.trans h.active, h'.publications.trans h.publications⟩

omit [FloatFormat F] in
theorem removeIncidentMixtureEdges_frame (w : DogmosWorld F) (slots : List UInt32) :
    (slots.foldl removeIncidentMixtureEdges w).mixtures = w.mixtures ∧
      (slots.foldl removeIncidentMixtureEdges w).publications = w.publications ∧
      SameGround w (slots.foldl removeIncidentMixtureEdges w) := by
  refine foldl_invariant (I := fun v => v.mixtures = w.mixtures ∧
    v.publications = w.publications ∧ SameGround w v) (fun v slot h => ?_) slots
    ⟨rfl, rfl, rfl, rfl, rfl, rfl, rfl⟩
  unfold removeIncidentMixtureEdges
  split
  · exact h
  · refine foldl_invariant (I := fun u => u.mixtures = w.mixtures ∧
      u.publications = w.publications ∧ SameGround w u) ?_ _ ?_
    · rintro u key ⟨hmixtures, hpublications, hground⟩
      exact ⟨hmixtures, hpublications, hground.trans ⟨rfl, rfl, rfl, rfl, rfl⟩⟩
    · obtain ⟨hmixtures, hpublications, hground⟩ := h
      exact ⟨hmixtures, hpublications, hground.trans ⟨rfl, rfl, rfl, rfl, rfl⟩⟩

/-- A registration that is not over a live mixture makes no live handle stale. -/
theorem keepsLive_applyMutation {progress : DogmosWorld F × Std.TreeSet UInt32}
    {mutation : LifecycleMutation} (haction : mutation.action = .register)
    (h : ∀ mixture, w.Live mixture → mixture.slot = mutation.handle.slot → mixture = mutation.handle)
    (hlive : KeepsLive w progress.1) (hground : SameGround w progress.1) :
    KeepsLive w (applyMutation progress mutation).1 ∧
      SameGround w (applyMutation progress mutation).1 := by
  obtain ⟨v, invalidated⟩ := progress
  unfold DogmosWorld.applyMutation
  rw [haction]
  dsimp only at hlive hground ⊢
  by_cases hreplaces : v.replacesMixture mutation.handle
  · rw [if_pos hreplaces]
    have hsame : (v.invalidateContinuationsForMixtureSlot mutation.handle.slot).mixtures = v.mixtures ∧
        (v.invalidateContinuationsForMixtureSlot mutation.handle.slot).publications =
          v.publications ∧
        SameGround w (v.invalidateContinuationsForMixtureSlot mutation.handle.slot) :=
      invalidateContinuations_induct
        (I := fun u => u.mixtures = v.mixtures ∧ u.publications = v.publications ∧ SameGround w u)
        (fun _ _ _ _ hv _ => ⟨hv.1, hv.2.1, hv.2.2.trans ⟨rfl, rfl, rfl, rfl, rfl⟩⟩) v _
        ⟨rfl, rfl, hground⟩
    refine ⟨fun mixture hmixture => ?_, hsame.2.2.trans ⟨rfl, rfl, rfl, rfl, rfl⟩⟩
    have hkept := hlive mixture hmixture
    by_cases hslot : mixture.slot = mutation.handle.slot
    · -- the slot holds the record of the handle, so nothing is replaced
      rw [h mixture hmixture hslot] at hkept
      obtain ⟨hgeneration, hat⟩ := hkept
      unfold mixtureGeneration at hgeneration
      unfold mixtureAt at hat
      unfold replacesMixture at hreplaces
      rcases hentry : v.mixtures[mutation.handle.slot.toNat]? with _ | entry
      · rw [hentry] at hat
        cases hat
      · rw [hentry] at hgeneration hat hreplaces
        dsimp only [Option.bind_some] at hgeneration hat hreplaces
        rw [hgeneration] at hreplaces
        simp only [ne_eq, not_true, decide_false, Bool.false_or] at hreplaces
        rw [Option.isNone_iff_eq_none] at hreplaces
        rw [hreplaces] at hat
        cases hat
    · exact (live_putMixture_of_ne _ _ hslot).2 (KeepsLive.of_same hsame.1 hsame.2.1 _ hkept)
  · rw [if_neg hreplaces]
    exact ⟨hlive, hground⟩

/-- While a stage runs, a batch makes no live handle stale and changes no turf. -/
theorem keepsLive_commitLifecycle (mutations : List LifecycleMutation)
    (h : ∀ mutation ∈ mutations, mutation.action = .register ∧
      ∀ mixture, w.Live mixture → mixture.slot = mutation.handle.slot → mixture = mutation.handle) :
    KeepsLive w (w.commitLifecycle mutations) ∧ SameGround w (w.commitLifecycle mutations) := by
  have hfold : ∀ (l : List LifecycleMutation) (progress : DogmosWorld F × Std.TreeSet UInt32),
      (∀ mutation ∈ l, mutation ∈ mutations) →
      KeepsLive w progress.1 → SameGround w progress.1 →
        KeepsLive w (l.foldl applyMutation progress).1 ∧
          SameGround w (l.foldl applyMutation progress).1 := by
    intro l
    induction l with
    | nil => exact fun _ _ hlive hground => ⟨hlive, hground⟩
    | cons mutation rest ih =>
      intro progress hmem hlive hground
      obtain ⟨haction, hhandle⟩ := h mutation (hmem mutation List.mem_cons_self)
      obtain ⟨hlive, hground⟩ := keepsLive_applyMutation haction hhandle hlive hground
      exact ih _ (fun other hother => hmem other (List.mem_cons_of_mem _ hother)) hlive hground
  have hnone : unregistering mutations = ∅ := by
    have hfilter : (mutations.filter fun mutation => mutation.action = .unregister) = [] := by
      rw [List.filter_eq_nil_iff]
      intro mutation hmutation hunregister
      rw [(h mutation hmutation).1] at hunregister
      cases of_decide_eq_true hunregister
    unfold unregistering
    rw [hfilter]
    rfl
  unfold commitLifecycle
  dsimp only
  rw [hnone]
  obtain ⟨hlive, hground⟩ := hfold mutations ({ w with
    mixtures := growSlots w.mixtures (mutations.map fun mutation => mutation.handle.slot)
      { generation := none, mixture := .vacant } }, ∅) (fun _ hmutation => hmutation)
    (.growMixtures w _) ⟨rfl, rfl, rfl, rfl, rfl⟩
  have hedges := removeIncidentMixtureEdges_frame (mutations.foldl applyMutation ({ w with
    mixtures := growSlots w.mixtures (mutations.map fun mutation => mutation.handle.slot)
      { generation := none, mixture := .vacant } }, ∅)).1 (mutations.foldl applyMutation ({ w with
    mixtures := growSlots w.mixtures (mutations.map fun mutation => mutation.handle.slot)
      { generation := none, mixture := .vacant } }, ∅)).2.toList
  exact ⟨hlive.trans (.of_same hedges.1 hedges.2.1), hground.trans hedges.2.2⟩

end Lifecycle

end DogmosWorld

end Dogmos
