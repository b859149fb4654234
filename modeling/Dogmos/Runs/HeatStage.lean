import Dogmos.Runs.HeatIndex
import Dogmos.Runs.Live

/-!
# The active heat list over a heat stage

A heat stage rebuilds the active list on a copy, and the positions on candidates
of the turf records.  Until the stage publishes, neither is visible, and what is
visible stays in order.  `Staging` says what the copy is meanwhile: with the seeds
that are still to come behind it, it is in order with the positions the candidates
store.  The units that take seeds and stage nodes keep this, so publication swaps
one list in order for another, and a stage that fails leaves the old one
(`heatInOrder_of_reachable`).
-/

namespace Dogmos

/-! ## Candidates -/

namespace Versioned

variable {T : Type} (record : Versioned T) {publications publications' : Publications}
  (id : PublicationId)

theorem prepared_congr (h : ∀ id, publications'.visible id = publications.visible id) :
    record.prepared publications' id = record.prepared publications id := by
  unfold prepared
  rw [record.asRef_congr _ h]

theorem prepared_stage (publications publications' : Publications) (candidate : T) :
    (record.stage publications id candidate).prepared publications' id = some candidate := by
  unfold prepared Versioned.candidate
  rw [pending_stage]
  simp

variable {record}

/-- A token that is undecided after a record was settled was so before, and the record has no
candidate under it. -/
theorem undecided_of_settleTokens
    (h : (record.settleTokens publications).undecided id = true) :
    publications.undecided id = true ∧ record.candidate id = none := by
  unfold settleTokens at h
  unfold Versioned.candidate
  split at h
  · next token candidate hpending =>
    rw [Publications.undecided_invalidate, Bool.and_eq_true] at h
    refine ⟨h.1, ?_⟩
    have hne : id ≠ token := by simpa using h.2
    rw [if_neg (Ne.symm hne)]
  · next hpending => exact ⟨h, rfl⟩

theorem undecided_of_stageTokens {other : PublicationId}
    (h : (record.stageTokens publications other).undecided id = true) :
    publications.undecided id = true := by
  unfold stageTokens at h
  split at h
  · exact h
  · exact (undecided_of_settleTokens id h).1

end Versioned

variable {F D : Type}

/-- The position of a turf on the active list, and whether it has heat. -/
def TurfRecord.place (turf : TurfRecord F) : Option UInt32 × Bool :=
  (turf.heatActiveIndex, turf.heat.isSome)

/-- A write to a turf record that changes neither its position nor whether it has heat. -/
def KeepsPlace (f : TurfRecord F → TurfRecord F) : Prop := ∀ turf, (f turf).place = turf.place

namespace DogmosWorld

open Exec Chunk

section Candidates

variable (w : DogmosWorld F) (slot other : Nat) (id : PublicationId)
  (f : TurfRecord F → TurfRecord F)

theorem turfAt_of_turfs {w w' : DogmosWorld F} (hturfs : w'.turfs = w.turfs)
    (hvisible : ∀ id, w'.publications.visible id = w.publications.visible id) (slot : Nat) :
    w'.turfAt slot = w.turfAt slot := by
  unfold turfAt
  rw [hturfs]
  congr 1
  funext entry
  exact entry.turf.asRef_congr _ hvisible

theorem preparedTurf_of_turfs {w w' : DogmosWorld F} (hturfs : w'.turfs = w.turfs)
    (hvisible : ∀ id, w'.publications.visible id = w.publications.visible id) (slot : Nat) :
    w'.preparedTurf slot id = w.preparedTurf slot id := by
  unfold preparedTurf
  rw [hturfs]
  congr 1
  funext entry
  exact entry.turf.prepared_congr id hvisible

theorem visible_stageTurf (candidate : TurfRecord F) (other : PublicationId) :
    (w.stageTurf slot id candidate).publications.visible other = w.publications.visible other := by
  unfold stageTurf
  split
  · rfl
  · exact Versioned.visible_stageTokens _ _ _ _

theorem visible_writePreparedTurf (other : PublicationId) :
    (w.writePreparedTurf slot id f).publications.visible other = w.publications.visible other := by
  unfold writePreparedTurf
  split
  · exact visible_stageTurf ..
  · rfl

theorem visible_stageMixture (candidate : MixtureRecord F) (other : PublicationId) :
    (w.stageMixture slot id candidate).publications.visible other = w.publications.visible other := by
  unfold stageMixture
  split
  · rfl
  · exact Versioned.visible_stageTokens _ _ _ _

theorem turfs_stageMixture (candidate : MixtureRecord F) :
    (w.stageMixture slot id candidate).turfs = w.turfs := by
  unfold stageMixture
  split <;> rfl

/-- A candidate written through is the one the slot hands out next. -/
theorem preparedTurf_writePreparedTurf :
    (w.writePreparedTurf slot id f).preparedTurf other id =
      if other = slot then (w.preparedTurf other id).map f else w.preparedTurf other id := by
  unfold writePreparedTurf
  rcases hprepared : w.preparedTurf slot id with _ | candidate
  · by_cases hother : other = slot
    · rw [if_pos hother, hother, hprepared]
      rfl
    · rw [if_neg hother]
  · dsimp only
    obtain ⟨entry, hentry, -⟩ := Option.bind_eq_some_iff.1 hprepared
    unfold stageTurf
    rw [hentry]
    dsimp only
    unfold preparedTurf
    by_cases hother : other = slot
    · subst hother
      have hlen := (List.getElem?_eq_some_iff.1 hentry).1
      have hcandidate : w.turfs[other]?.bind (fun entry => entry.turf.prepared w.publications id) =
          some candidate := hprepared
      dsimp only
      rw [if_pos rfl, List.getElem?_set_self hlen, Option.bind_some, hcandidate, Option.map_some]
      exact Versioned.prepared_stage _ _ _ _ _
    · dsimp only
      rw [if_neg hother, List.getElem?_set_ne (Ne.symm hother)]
      congr 1
      funext found
      exact found.turf.prepared_congr id fun token => Versioned.visible_stageTokens _ _ _ _

/-- Candidates are hidden while their token is. -/
theorem turfAt_writePreparedTurf (hid : w.publications.visible id = false) :
    (w.writePreparedTurf slot id f).turfAt other = w.turfAt other := by
  unfold writePreparedTurf
  rcases hprepared : w.preparedTurf slot id with _ | candidate
  · rfl
  · dsimp only
    obtain ⟨entry, hentry, -⟩ := Option.bind_eq_some_iff.1 hprepared
    unfold stageTurf
    rw [hentry]
    dsimp only
    have hsame : ∀ found : TurfSlot F, found.turf.asRef
        (entry.turf.stageTokens w.publications id) = found.turf.asRef w.publications :=
      fun found => found.turf.asRef_congr _ fun token => Versioned.visible_stageTokens _ _ _ _
    unfold turfAt
    dsimp only
    by_cases hother : other = slot
    · subst hother
      have hlen := (List.getElem?_eq_some_iff.1 hentry).1
      rw [List.getElem?_set_self hlen, hentry, Option.bind_some, Option.bind_some]
      rw [Versioned.asRef_congr _ _ fun token => Versioned.visible_stageTokens _ _ _ _]
      exact Versioned.asRef_stage _ _ _ _ hid
    · rw [List.getElem?_set_ne (Ne.symm hother)]
      congr 1
      funext found
      exact hsame found

theorem turfGeneration_writePreparedTurf (slot' : UInt32) :
    (w.writePreparedTurf slot id f).turfGeneration slot' = w.turfGeneration slot' := by
  unfold writePreparedTurf
  rcases hprepared : w.preparedTurf slot id with _ | candidate
  · rfl
  · dsimp only
    obtain ⟨entry, hentry, -⟩ := Option.bind_eq_some_iff.1 hprepared
    unfold stageTurf
    rw [hentry]
    unfold turfGeneration
    dsimp only
    by_cases hother : slot'.toNat = slot
    · subst hother
      have hlen := (List.getElem?_eq_some_iff.1 hentry).1
      rw [List.getElem?_set_self hlen, hentry]
      rfl
    · rw [List.getElem?_set_ne (Ne.symm hother)]

theorem undecided_of_writePreparedTurf {w : DogmosWorld F} {slot : Nat} {id : PublicationId}
    {f : TurfRecord F → TurfRecord F} {other : PublicationId}
    (h : (w.writePreparedTurf slot id f).publications.undecided other = true) :
    w.publications.undecided other = true := by
  unfold writePreparedTurf stageTurf at h
  split at h
  · split at h
    · exact h
    · exact Versioned.undecided_of_stageTokens other h
  · exact h

theorem heatActive_writePreparedTurf :
    (w.writePreparedTurf slot id f).heatActive = w.heatActive := by
  unfold writePreparedTurf stageTurf
  split
  · split <;> rfl
  · rfl

theorem stageHeat_writePreparedTurf :
    (w.writePreparedTurf slot id f).stageHeat = w.stageHeat := by
  unfold writePreparedTurf stageTurf
  split
  · split <;> rfl
  · rfl

theorem stageHeat_prepareMixture : (w.prepareMixture slot id).stageHeat = w.stageHeat := by
  unfold prepareMixture stageMixture
  split
  · split <;> rfl
  · rfl

/-- Publication makes the candidates the records. -/
theorem turfAt_published (hid : w.publications.undecided id = true) :
    (w.published id).turfAt slot = w.preparedTurf slot id := by
  unfold turfAt preparedTurf published
  dsimp only
  congr 1
  funext entry
  unfold Versioned.prepared Versioned.candidate
  rcases hpending : entry.turf.pending with _ | ⟨token, candidate⟩
  · simp [Versioned.asRef, hpending]
  · by_cases htoken : token = id
    · subst htoken
      simp [Versioned.asRef, hpending, Publications.visible_publish, hid]
    · simp [Versioned.asRef, hpending, Publications.visible_publish, htoken]

end Candidates

/-! ## Places -/

/-- A list is in order with the records that `read` finds: the turfs on it store their position,
and those that store one have heat. -/
structure Placed (read : Nat → Option (TurfRecord F)) (l : List TurfHandle)
    (generation : UInt32 → Option UInt32) : Prop where
  indexed : Indexed l generation fun slot => storedIndex (read slot.toNat)
  heated : ∀ (slot : UInt32) turf, read slot.toNat = some turf → turf.heatActiveIndex.isSome →
    turf.heat.isSome

theorem HeatInOrder.placed {w : DogmosWorld F} (h : w.HeatInOrder) :
    Placed w.turfAt w.heatActive w.turfGeneration := ⟨h.indexed, h.heated⟩

theorem Placed.heatInOrder {w : DogmosWorld F} (h : Placed w.turfAt w.heatActive w.turfGeneration) :
    w.HeatInOrder := ⟨h.indexed, h.heated⟩

theorem storedIndex_of_place {turf turf' : Option (TurfRecord F)}
    (h : turf'.map TurfRecord.place = turf.map TurfRecord.place) :
    storedIndex turf' = storedIndex turf := by
  have hplace : ∀ turf : Option (TurfRecord F),
      storedIndex turf = ((turf.map TurfRecord.place).bind Prod.fst).map UInt32.toNat := by
    rintro (_ | turf) <;> rfl
  rw [hplace, h, ← hplace]

/-- Records with the same places are in order with the same lists. -/
theorem Placed.congr {read read' : Nat → Option (TurfRecord F)} {l : List TurfHandle}
    {generation generation' : UInt32 → Option UInt32} (h : Placed read l generation)
    (hgeneration : ∀ slot, generation' slot = generation slot)
    (hread : ∀ slot, (read' slot).map TurfRecord.place = (read slot).map TurfRecord.place) :
    Placed read' l generation' := by
  refine ⟨h.indexed.congr (fun _ _ => hgeneration _) fun slot => storedIndex_of_place (hread _), ?_⟩
  intro slot turf hturf hindex
  have hplace := hread slot.toNat
  rw [hturf, Option.map_some] at hplace
  obtain ⟨old, hold, hsame⟩ := Option.map_eq_some_iff.1 hplace.symm
  have hheat := h.heated slot old hold
  unfold TurfRecord.place at hsame
  rw [Prod.mk.injEq] at hsame
  rw [hsame.1, hsame.2] at hheat
  exact hheat hindex

/-- The second world has the places of the first one, on the records that are visible and, while
a token is undecided, on those with its candidates. -/
structure SamePlaces (id : PublicationId) (w w' : DogmosWorld F) : Prop where
  active : w'.heatActive = w.heatActive
  generation : ∀ slot, w'.turfGeneration slot = w.turfGeneration slot
  visible : ∀ slot, (w'.turfAt slot).map TurfRecord.place = (w.turfAt slot).map TurfRecord.place
  undecided : w'.publications.undecided id = true → w.publications.undecided id = true
  prepared : w'.publications.undecided id = true → ∀ slot,
    (w'.preparedTurf slot id).map TurfRecord.place = (w.preparedTurf slot id).map TurfRecord.place

section Places

variable {id : PublicationId} {w w' w'' : DogmosWorld F}

theorem SamePlaces.refl (id : PublicationId) (w : DogmosWorld F) : SamePlaces id w w :=
  ⟨rfl, fun _ => rfl, fun _ => rfl, fun h => h, fun _ _ => rfl⟩

theorem SamePlaces.trans (h : SamePlaces id w w') (h' : SamePlaces id w' w'') :
    SamePlaces id w w'' where
  active := h'.active.trans h.active
  generation slot := (h'.generation slot).trans (h.generation slot)
  visible slot := (h'.visible slot).trans (h.visible slot)
  undecided hfree := h.undecided (h'.undecided hfree)
  prepared hfree slot := (h'.prepared hfree slot).trans (h.prepared (h'.undecided hfree) slot)

theorem SamePlaces.of_turfs (hactive : w'.heatActive = w.heatActive) (hturfs : w'.turfs = w.turfs)
    (hvisible : ∀ id, w'.publications.visible id = w.publications.visible id)
    (hundecided : w'.publications.undecided id = true → w.publications.undecided id = true) :
    SamePlaces id w w' where
  active := hactive
  generation slot := by
    unfold turfGeneration
    rw [hturfs]
  visible slot := by rw [turfAt_of_turfs hturfs hvisible]
  undecided := hundecided
  prepared _ slot := by rw [preparedTurf_of_turfs id hturfs hvisible]

/-- Nothing but the rest of a world changes. -/
theorem SamePlaces.of_rest (hactive : w'.heatActive = w.heatActive) (hturfs : w'.turfs = w.turfs)
    (hpublications : w'.publications = w.publications) : SamePlaces id w w' :=
  .of_turfs hactive hturfs (fun _ => by rw [hpublications]) fun h => by rwa [← hpublications]

theorem SamePlaces.heatInOrder (h : SamePlaces id w w') (hw : w.HeatInOrder) : w'.HeatInOrder := by
  refine Placed.heatInOrder ?_
  rw [h.active]
  exact hw.placed.congr h.generation h.visible

theorem samePlaces_writeMixture (w : DogmosWorld F) (slot : Nat)
    (f : MixtureRecord F → MixtureRecord F) : SamePlaces id w (w.writeMixture slot f) := by
  refine .of_turfs ?_ (turfs_writeMixture w slot f) (visible_writeMixture w slot f) fun h => ?_
  · unfold writeMixture
    split <;> rfl
  · unfold writeMixture at h
    split at h
    · exact h
    · exact (Versioned.undecided_of_settleTokens id h).1

theorem samePlaces_stageMixture (id : PublicationId) (w : DogmosWorld F) (slot : Nat)
    (token : PublicationId) (candidate : MixtureRecord F) :
    SamePlaces id w (w.stageMixture slot token candidate) := by
  refine .of_turfs ?_ (turfs_stageMixture w slot token candidate)
    (visible_stageMixture w slot token candidate) fun h => ?_
  · unfold stageMixture
    split <;> rfl
  · unfold stageMixture at h
    split at h
    · exact h
    · exact Versioned.undecided_of_stageTokens id h

theorem samePlaces_prepareMixture (id : PublicationId) (w : DogmosWorld F) (slot : Nat)
    (token : PublicationId) : SamePlaces id w (w.prepareMixture slot token) := by
  unfold prepareMixture
  split
  · exact samePlaces_stageMixture ..
  · exact .refl id w

theorem samePlaces_writePreparedTurf (w : DogmosWorld F) (slot : Nat)
    {f : TurfRecord F → TurfRecord F} (hf : KeepsPlace f) (hid : w.publications.visible id = false) :
    SamePlaces id w (w.writePreparedTurf slot id f) where
  active := heatActive_writePreparedTurf ..
  generation := turfGeneration_writePreparedTurf w slot id f
  visible other := by rw [turfAt_writePreparedTurf _ _ _ _ _ hid]
  undecided := undecided_of_writePreparedTurf
  prepared _ other := by
    rw [preparedTurf_writePreparedTurf]
    split
    · rw [Option.map_map]
      exact congrArg (fun g => (w.preparedTurf other id).map g) (funext hf)
    · rfl

end Places

/-! ## The staged list -/

/-- The handle names a turf with heat. -/
def Heated (w : DogmosWorld F) (handle : TurfHandle) : Prop :=
  w.turfGeneration handle.slot = some handle.generation ∧
    ∃ turf, w.turfAt handle.slot.toNat = some turf ∧ turf.heat.isSome

/-- The staged list, with the active turfs behind it that are still to be taken as seeds, is in
order with the records of the stage; `taken` counts a seed that is being taken. -/
structure Staged (taken : Nat) (w : DogmosWorld F) (state : StageHeatState F) : Prop where
  placed : Placed (fun slot => w.preparedTurf slot state.publication)
    (state.stagedHeatActive ++ w.heatActive.drop (state.nextActiveSeed + taken)) w.turfGeneration
  nodes : ∀ node ∈ state.nodes, w.Heated node.handle

/-- The scratch of a running heat stage is in order while the stage can still publish. -/
def Staging (taken : Nat) (w : DogmosWorld F) : Prop :=
  ∀ state, w.stageHeat = some state → w.publications.undecided state.publication = true →
    w.Staged taken state

section Staging

variable {taken : Nat} {id : PublicationId} {w w' : DogmosWorld F} {state state' : StageHeatState F}

theorem SamePlaces.heated (h : SamePlaces id w w') {handle : TurfHandle} (hw : w.Heated handle) :
    w'.Heated handle := by
  obtain ⟨hgeneration, turf, hturf, hheat⟩ := hw
  have hplace := h.visible handle.slot.toNat
  rw [hturf, Option.map_some] at hplace
  obtain ⟨turf', hturf', hsame⟩ := Option.map_eq_some_iff.1 hplace
  unfold TurfRecord.place at hsame
  rw [Prod.mk.injEq] at hsame
  exact ⟨(h.generation _).trans hgeneration, turf', hturf', hsame.2.trans hheat⟩

theorem Staged.of_same (h : w.Staged taken state) (hsame : SamePlaces state.publication w w')
    (hfree : w'.publications.undecided state.publication = true) : w'.Staged taken state := by
  refine ⟨?_, fun node hnode => hsame.heated (h.nodes node hnode)⟩
  rw [hsame.active]
  exact h.placed.congr hsame.generation (hsame.prepared hfree)

theorem Staged.sameList (h : w.Staged taken state) (hsame : SameList state state') :
    w.Staged taken state' := by
  obtain ⟨hpublication, hactive, hseed, hnodes⟩ := hsame
  refine ⟨?_, fun node hnode => ?_⟩
  · rw [hpublication, hactive, hseed]
    exact h.placed
  · have hmem := List.mem_map_of_mem (f := StageHeatNode.handle) hnode
    rw [hnodes] at hmem
    obtain ⟨old, hold, hhandle⟩ := List.mem_map.1 hmem
    rw [← hhandle]
    exact h.nodes old hold

theorem Staging.of_same (h : w.Staging taken) (hheat : w'.stageHeat = w.stageHeat)
    (hsame : ∀ state, w.stageHeat = some state →
      w'.publications.undecided state.publication = true → SamePlaces state.publication w w') :
    w'.Staging taken := by
  intro state hstate hfree
  rw [hheat] at hstate
  have hplaces := hsame state hstate hfree
  exact (h state hstate (hplaces.undecided hfree)).of_same hplaces hfree

theorem Staging.of_idle (hheat : w.stageHeat = none) : w.Staging taken := by
  intro state hstate
  rw [hheat] at hstate
  cases hstate

/-- Scratch that is rewritten with the same list, seeds and nodes. -/
theorem Staging.rewrite (h : w.Staging taken) (hstate : w.stageHeat = some state)
    (hsame : SameList state state') :
    Staging taken { w with stageHeat := some state' } := by
  intro found hfound hfree
  cases hfound
  have hstaged := h state hstate (by rw [← hsame.publication]; exact hfree)
  have hkept := hstaged.sameList hsame
  exact ⟨hkept.placed, hkept.nodes⟩

/-! ## Units that leave the list alone -/

/-- The second world is the first one with other heat scratch, of the same list, seeds and
nodes. -/
structure Reworked (w w' : DogmosWorld F) : Prop where
  turfs : w'.turfs = w.turfs
  publications : w'.publications = w.publications
  active : w'.heatActive = w.heatActive
  scratch : ∀ state', w'.stageHeat = some state' →
    ∃ state, w.stageHeat = some state ∧ SameList state state'

theorem Reworked.refl (w : DogmosWorld F) : Reworked w w :=
  ⟨rfl, rfl, rfl, fun state hstate => ⟨state, hstate, rfl, rfl, rfl, rfl⟩⟩

theorem Staging.reworked (h : w.Staging taken) (hw : Reworked w w') : w'.Staging taken := by
  intro state' hstate' hfree
  obtain ⟨state, hstate, hsame⟩ := hw.scratch state' hstate'
  rw [hw.publications, hsame.publication] at hfree
  refine ((h state hstate hfree).sameList hsame).of_same (.of_rest hw.active hw.turfs hw.publications) ?_
  rwa [hw.publications, hsame.publication]

/-- The scratch of a heat stage that took all its seeds is in order while it can still
publish. -/
def FullyStaged (w : DogmosWorld F) : Prop :=
  ∀ state, w.stageHeat = some state → w.publications.undecided state.publication = true →
    w.Staged 0 state ∧ w.heatActive.length ≤ state.nextActiveSeed

theorem FullyStaged.staging (h : w.FullyStaged) : w.Staging 0 :=
  fun state hstate hfree => (h state hstate hfree).1

theorem FullyStaged.of_same (h : w.FullyStaged) (hheat : w'.stageHeat = w.stageHeat)
    (hsame : ∀ state, w.stageHeat = some state →
      w'.publications.undecided state.publication = true → SamePlaces state.publication w w') :
    w'.FullyStaged := by
  intro state hstate hfree
  rw [hheat] at hstate
  have hplaces := hsame state hstate hfree
  obtain ⟨hstaged, hseeded⟩ := h state hstate (hplaces.undecided hfree)
  exact ⟨hstaged.of_same hplaces hfree, hplaces.active ▸ hseeded⟩

theorem FullyStaged.reworked (h : w.FullyStaged) (hw : Reworked w w') : w'.FullyStaged := by
  intro state' hstate' hfree
  refine ⟨h.staging.reworked hw state' hstate' hfree, ?_⟩
  obtain ⟨state, hstate, hsame⟩ := hw.scratch state' hstate'
  rw [hw.publications, hsame.publication] at hfree
  rw [hw.active, hsame.seed]
  exact (h state hstate hfree).2

theorem heatScratch_reworked (w : DogmosWorld F) :
    HeatScratch (Reworked w) fun state' => ∃ state, w.stageHeat = some state ∧ SameList state state' where
  read v hv := by
    unfold heatState
    rw [run_check]
    refine ⟨hv, fun state' hstate' => ?_⟩
    split at hstate'
    · next found hfound =>
      cases hstate'
      exact hv.scratch _ hfound
    · cases hstate'
  write hread hsame := by
    obtain ⟨state, hstate, hread⟩ := hread
    refine keeps_modify fun v hv => ⟨hv.turfs, hv.publications, hv.active, fun found hfound => ?_⟩
    cases hfound
    exact ⟨state, hstate, hread.trans hsame⟩

/-! ## Capturing turfs -/

theorem samePlaces_prepareHeatRecords (handle : TurfHandle) (mixture : Option MixtureHandle)
    (hfree : (w.prepareHeatRecords id handle mixture).publications.undecided id = true) :
    SamePlaces id w (w.prepareHeatRecords id handle mixture) := by
  have hturf : (w.prepareTurf handle.slot.toNat id).publications.undecided id = true →
      SamePlaces id w (w.prepareTurf handle.slot.toNat id) := fun hfree =>
    samePlaces_writePreparedTurf w _ (fun _ => rfl)
      (Publications.not_visible_of_undecided (undecided_of_writePreparedTurf hfree))
  unfold prepareHeatRecords at hfree ⊢
  cases mixture with
  | none => exact hturf hfree
  | some mixture =>
    have hmixture := samePlaces_prepareMixture id (w.prepareTurf handle.slot.toNat id)
      mixture.slot.toNat id
    exact (hturf (hmixture.undecided hfree)).trans hmixture

theorem stageHeat_prepareHeatRecords (handle : TurfHandle) (mixture : Option MixtureHandle) :
    (w.prepareHeatRecords id handle mixture).stageHeat = w.stageHeat := by
  have hturf : (w.prepareTurf handle.slot.toNat id).stageHeat = w.stageHeat :=
    stageHeat_writePreparedTurf ..
  unfold prepareHeatRecords
  cases mixture with
  | none => exact hturf
  | some mixture => exact (stageHeat_prepareMixture ..).trans hturf

theorem heated_of_capturableHeat {handle : TurfHandle}
    {captured : Option MixtureHandle × TurfHeatState F} (h : w.capturableHeat handle = some captured) :
    w.Heated handle := by
  unfold capturableHeat at h
  rcases hturf : w.requireTurfHandle handle with error | turf
  · rw [hturf] at h
    cases h
  · rw [hturf] at h
    obtain ⟨heat, hheat, -⟩ := Option.map_eq_some_iff.1 h
    obtain ⟨hgeneration, hrecord⟩ := requireTurfHandle_eq_ok.1 hturf
    exact ⟨hgeneration, turf, hrecord, by rw [hheat]; rfl⟩

theorem map_modify_of_same {α β : Type} {g : α → β} {f : α → α} (h : ∀ a, g (f a) = g a) (l : List α)
    (n : Nat) : (l.modify n f).map g = l.map g := by
  refine List.ext_getElem? fun m => ?_
  rw [List.getElem?_map, List.getElem?_map, List.getElem?_modify]
  rcases l[m]? with _ | a
  · rfl
  · by_cases hm : n = m
    · simp [hm, h]
    · simp [hm]

section Capture

variable [FloatFormat F]

theorem keeps_staging_appendStageHeatTurf (handle : TurfHandle) (canContinue : Bool) :
    Keeps (Staging taken) (appendStageHeatTurf (F := F) handle canContinue) := by
  intro w hw
  unfold appendStageHeatTurf heatState
  rw [run_bind, run_get]
  dsimp only
  rcases hcaptured : w.capturableHeat handle with _ | ⟨mixture, heat⟩
  · exact hw
  dsimp only
  rw [run_bind, run_check]
  rcases hstate : w.stageHeat with _ | state
  · exact hw
  dsimp only [pure, Except.pure]
  rcases hindex : state.indexBySlot.get handle.slot with _ | index
  · dsimp only
    by_cases hlength : 2 ^ 32 ≤ state.nodes.length
    · rw [if_pos hlength]
      exact hw
    · rw [if_neg hlength, run_bind]
      show Staging taken (DogmosWorld.prepareHeatRecords
        { w with stageHeat := some (capturedHeatTurf state handle heat mixture canContinue) }
        state.publication handle mixture)
      -- the turf is heated, so the scratch with its node is in order
      have hcapture : Staging taken
          { w with stageHeat := some (capturedHeatTurf state handle heat mixture canContinue) } := by
        intro found hfound hfree
        cases hfound
        obtain ⟨hplaced, hnodes⟩ := hw state hstate hfree
        refine ⟨hplaced, fun node hnode => ?_⟩
        rcases List.mem_append.1 hnode with hold | hnew
        · exact hnodes node hold
        · cases List.mem_singleton.1 hnew
          exact heated_of_capturableHeat hcaptured
      refine hcapture.of_same (stageHeat_prepareHeatRecords _ _) fun found hfound hfree => ?_
      cases hfound
      exact samePlaces_prepareHeatRecords _ _ hfree
  · refine hw.rewrite hstate ⟨rfl, rfl, rfl, ?_⟩
    exact map_modify_of_same (g := StageHeatNode.handle)
      (f := fun node => { node with canContinue := node.canContinue || canContinue })
      (fun _ => rfl) state.nodes index

theorem keeps_staging_prepareStageHeatTurf (handle : TurfHandle) (canContinue : Bool) :
    Keeps (Staging taken) (prepareStageHeatTurf (F := F) handle canContinue) := by
  unfold prepareStageHeatTurf
  refine keeps_get_bind fun v => ?_
  refine keeps_bind (keeps_staging_appendStageHeatTurf handle canContinue) fun _ => ?_
  exact keeps_forM fun neighbor _ => keeps_staging_appendStageHeatTurf neighbor.handle true

/-- A seed moves from the active list to the staged one. -/
theorem triple_staging_prepareSeed :
    Triple (Staging (F := F) 0) prepareSeed (fun _ => Staging 0) fun _ _ => True := by
  intro w hw
  unfold prepareSeed heatState
  rw [run_bind, run_check]
  rcases hstate : w.stageHeat with _ | state
  · trivial
  dsimp only [pure, Except.pure]
  rw [run_bind, run_get]
  dsimp only
  rcases hseed : w.heatActive[state.nextActiveSeed]? with _ | handle
  · exact hw
  dsimp only
  rw [run_bind]
  have htaken : Staging 1
      { w with stageHeat := some { state with
        stagedHeatActive := state.stagedHeatActive ++ [handle] } } := by
    intro found hfound hfree
    cases hfound
    obtain ⟨hplaced, hnodes⟩ := hw state hstate hfree
    obtain ⟨hlt, hget⟩ := List.getElem?_eq_some_iff.1 hseed
    rw [Nat.add_zero, List.drop_eq_getElem_cons hlt, hget] at hplaced
    refine ⟨?_, hnodes⟩
    rw [List.append_assoc]
    exact hplaced
  unfold setHeat
  rw [run_modify]
  dsimp only
  rw [run_bind]
  have hcaptured := keeps_staging_prepareStageHeatTurf handle true _ htaken
  rcases hrun : run (prepareStageHeatTurf handle true)
    { w with stageHeat := some { state with
      stagedHeatActive := state.stagedHeatActive ++ [handle] } } with ⟨error | _, v⟩
  · trivial
  · rw [hrun] at hcaptured
    dsimp only
    rw [run_bind, run_check]
    rcases hnext : v.stageHeat with _ | next
    · trivial
    · intro found hfound hfree
      cases hfound
      obtain ⟨hplaced, hnodes⟩ := hcaptured next hnext hfree
      exact ⟨hplaced, hnodes⟩

end Capture

/-! ## Staging nodes -/

/-- The candidate of a turf with heat has heat. -/
theorem heated_prepared (hagrees : w.Agrees) {handle : TurfHandle} (h : w.Heated handle)
    (id : PublicationId) :
    ∃ turf, w.preparedTurf handle.slot.toNat id = some turf ∧ turf.heat.isSome := by
  obtain ⟨-, turf, hturf, hheat⟩ := h
  obtain ⟨entry, hentry, hrecord⟩ := Option.bind_eq_some_iff.1 hturf
  have hentryAgrees := hagrees entry (List.mem_of_getElem? hentry)
  have hshape := (hentryAgrees.shape_prepared w.publications id).trans
    (hentryAgrees.shape_asRef w.publications).symm
  rw [hrecord, Option.map_some] at hshape
  obtain ⟨candidate, hcandidate, hsame⟩ := Option.map_eq_some_iff.1 hshape
  unfold TurfRecord.shape at hsame
  rw [Prod.mk.injEq] at hsame
  refine ⟨candidate, ?_, hsame.2.trans hheat⟩
  unfold preparedTurf
  rw [hentry]
  exact hcandidate

/-- A position stored in the candidate of a slot that has a record. -/
theorem storedIndex_writePreparedTurf (w : DogmosWorld F) (slot : UInt32)
    (hslot : (w.preparedTurf slot.toNat id).isSome) (index : Option UInt32) :
    (fun other : UInt32 => storedIndex ((w.writePreparedTurf slot.toNat id
        (TurfRecord.withIndex index)).preparedTurf other.toNat id)) =
      Function.update (fun other : UInt32 => storedIndex (w.preparedTurf other.toNat id)) slot
        (index.map UInt32.toNat) := by
  obtain ⟨turf, hturf⟩ := Option.isSome_iff_exists.1 hslot
  funext other
  rw [preparedTurf_writePreparedTurf]
  by_cases hother : other = slot
  · rw [if_pos (congrArg UInt32.toNat hother), hother, Function.update_self, hturf]
    rfl
  · rw [if_neg fun heq => hother (UInt32.toNat_inj.1 heq), Function.update_of_ne hother]

theorem heat_writePreparedTurf (w : DogmosWorld F) (id : PublicationId) (slot other : Nat)
    (index : Option UInt32) :
    ((w.writePreparedTurf slot id (TurfRecord.withIndex index)).preparedTurf other id).map
        TurfRecord.heat = (w.preparedTurf other id).map TurfRecord.heat := by
  rw [preparedTurf_writePreparedTurf]
  split
  · rw [Option.map_map]
    rfl
  · rfl

theorem Heated.writePreparedTurf {handle : TurfHandle} (h : w.Heated handle) (slot : Nat)
    (f : TurfRecord F → TurfRecord F) (hid : w.publications.visible id = false) :
    (w.writePreparedTurf slot id f).Heated handle := by
  obtain ⟨hgeneration, turf, hturf, hheat⟩ := h
  refine ⟨(turfGeneration_writePreparedTurf ..).trans hgeneration, turf, ?_, hheat⟩
  rw [turfAt_writePreparedTurf _ _ _ _ _ hid]
  exact hturf

/-- The staged list of a stage that took all its seeds. -/
theorem Staged.complete (h : w.Staged 0 state) (hseeded : w.heatActive.length ≤ state.nextActiveSeed) :
    Placed (fun slot => w.preparedTurf slot state.publication) state.stagedHeatActive
      w.turfGeneration := by
  have hplaced := h.placed
  rwa [Nat.add_zero, List.drop_eq_nil_of_le hseeded, List.append_nil] at hplaced

/-- A node joins the staged list. -/
theorem Staged.activate (h : w.Staged 0 state) (hseeded : w.heatActive.length ≤ state.nextActiveSeed)
    (hagrees : w.Agrees) (hid : w.publications.visible state.publication = false)
    {node : StageHeatNode F} (hnode : node ∈ state.nodes)
    (hindex : (w.preparedTurf node.handle.slot.toNat state.publication).bind
      TurfRecord.heatActiveIndex = none) :
    Staged 0
      (w.writePreparedTurf node.handle.slot.toNat state.publication
        (TurfRecord.withIndex (some (UInt32.ofNat state.stagedHeatActive.length))))
      { state with stagedHeatActive := state.stagedHeatActive ++ [node.handle] } := by
  have hplaced := h.complete hseeded
  have hheated := h.nodes node hnode
  obtain ⟨turf, hturf, hheat⟩ := heated_prepared hagrees hheated state.publication
  have hnone : storedIndex (w.preparedTurf node.handle.slot.toNat state.publication) = none := by
    unfold storedIndex
    rw [hindex]
    rfl
  have hlength := hplaced.indexed.length_lt hnone
  have hpushed := hplaced.indexed.push hnone hheated.1
  refine ⟨⟨?_, fun other turf' hturf' hsome => ?_⟩, fun other hother =>
    (h.nodes other hother).writePreparedTurf _ _ hid⟩
  · dsimp only
    rw [heatActive_writePreparedTurf, Nat.add_zero, List.drop_eq_nil_of_le hseeded, List.append_nil,
      storedIndex_writePreparedTurf w _ (by rw [hturf]; rfl), Option.map_some,
      UInt32.toNat_ofNat_of_lt' hlength]
    exact hpushed.congr (fun _ _ => turfGeneration_writePreparedTurf ..) fun _ => rfl
  · have hsame := heat_writePreparedTurf w state.publication node.handle.slot.toNat
      other.toNat (some (UInt32.ofNat state.stagedHeatActive.length))
    dsimp only at hturf'
    rw [hturf', Option.map_some] at hsame
    obtain ⟨old, hold, holdHeat⟩ := Option.map_eq_some_iff.1 hsame.symm
    rw [← holdHeat]
    by_cases hother : other = node.handle.slot
    · rw [hother, hturf] at hold
      cases hold
      exact hheat
    · refine hplaced.heated other old hold ?_
      rw [preparedTurf_writePreparedTurf, if_neg fun heq => hother (UInt32.toNat_inj.1 heq), hold]
        at hturf'
      cases hturf'
      exact hsome

/-- The worlds after a node leaves the staged list. -/
def deactivated (w : DogmosWorld F) (id : PublicationId) (l : List TurfHandle) (slot index : UInt32) :
    DogmosWorld F :=
  (match l[index.toNat]? with
    | some moved => w.writePreparedTurf moved.slot.toNat id (TurfRecord.withIndex (some index))
    | none => w).writePreparedTurf slot.toNat id (TurfRecord.withIndex none)

/-- A node leaves the staged list; the last turf takes its place. -/
theorem Staged.deactivate (h : w.Staged 0 state)
    (hseeded : w.heatActive.length ≤ state.nextActiveSeed)
    (hid : w.publications.visible state.publication = false) {slot index : UInt32}
    (hindex : (w.preparedTurf slot.toNat state.publication).bind TurfRecord.heatActiveIndex =
      some index) :
    Staged 0
      (w.deactivated state.publication (swapRemove state.stagedHeatActive index.toNat) slot index)
      { state with stagedHeatActive := swapRemove state.stagedHeatActive index.toNat } := by
  have hplaced := h.complete hseeded
  have hstored : storedIndex (w.preparedTurf slot.toNat state.publication) = some index.toNat := by
    unfold storedIndex
    rw [hindex]
    rfl
  have hremoved := hplaced.indexed.remove hstored
  have hself : (w.preparedTurf slot.toNat state.publication).isSome := by
    obtain ⟨turf, hturf, -⟩ := Option.bind_eq_some_iff.1 hindex
    rw [hturf]
    rfl
  have hindexes : (fun other : UInt32 => storedIndex ((w.deactivated state.publication
      (swapRemove state.stagedHeatActive index.toNat) slot index).preparedTurf other.toNat
        state.publication)) =
      indexRemoved state.stagedHeatActive
        (fun other => storedIndex (w.preparedTurf other.toNat state.publication)) slot index.toNat := by
    unfold deactivated indexRemoved
    rcases hmoved : (swapRemove state.stagedHeatActive index.toNat)[index.toNat]? with _ | moved
    · exact storedIndex_writePreparedTurf w _ hself none
    · have hmovedSome : (w.preparedTurf moved.slot.toNat state.publication).isSome := by
        have hlisted := hplaced.indexed.back.mem_iff.1 (List.mem_map_of_mem (f := TurfHandle.slot)
          (mem_of_mem_swapRemove (List.mem_of_getElem? hmoved)))
        rcases hturf : w.preparedTurf moved.slot.toNat state.publication with _ | turf
        · rw [hturf] at hlisted
          cases hlisted
        · rfl
      dsimp only
      rw [storedIndex_writePreparedTurf _ slot, storedIndex_writePreparedTurf w _ hmovedSome]
      · rfl
      · rw [preparedTurf_writePreparedTurf]
        split
        · rw [Option.isSome_map]
          exact hself
        · exact hself
  have hheat : ∀ other, ((w.deactivated state.publication (swapRemove state.stagedHeatActive
      index.toNat) slot index).preparedTurf other state.publication).map TurfRecord.heat =
      (w.preparedTurf other state.publication).map TurfRecord.heat := by
    intro other
    unfold deactivated
    rw [heat_writePreparedTurf]
    split
    · exact heat_writePreparedTurf ..
    · rfl
  have hgeneration : ∀ other, (w.deactivated state.publication (swapRemove state.stagedHeatActive
      index.toNat) slot index).turfGeneration other = w.turfGeneration other := by
    intro other
    unfold deactivated
    rw [turfGeneration_writePreparedTurf]
    split
    · exact turfGeneration_writePreparedTurf ..
    · rfl
  have hactive : (w.deactivated state.publication (swapRemove state.stagedHeatActive index.toNat)
      slot index).heatActive = w.heatActive := by
    unfold deactivated
    rw [heatActive_writePreparedTurf]
    split
    · exact heatActive_writePreparedTurf ..
    · rfl
  refine ⟨⟨?_, fun other turf' hturf' hsome => ?_⟩, fun other hother => ?_⟩
  · dsimp only
    rw [hactive, Nat.add_zero, List.drop_eq_nil_of_le hseeded, List.append_nil, hindexes]
    exact hremoved.congr (fun _ _ => hgeneration _) fun _ => rfl
  · have hsame := hheat other.toNat
    dsimp only at hturf'
    rw [hturf', Option.map_some] at hsame
    obtain ⟨old, hold, holdHeat⟩ := Option.map_eq_some_iff.1 hsame.symm
    rw [← holdHeat]
    -- a turf that still has a position is still listed, so it had a position before
    have hafter := congrFun hindexes other
    have hlisted : other ∈ (swapRemove state.stagedHeatActive index.toNat).map TurfHandle.slot := by
      rw [hremoved.back.mem_iff, ← hafter, hturf', storedIndex_isSome]
      exact hsome
    obtain ⟨handle, hmem, rfl⟩ := List.mem_map.1 hlisted
    have hbefore := hplaced.indexed.back.mem_iff.1
      (List.mem_map_of_mem (f := TurfHandle.slot) (mem_of_mem_swapRemove hmem))
    rw [hold, storedIndex_isSome] at hbefore
    exact hplaced.heated _ old hold hbefore
  · unfold deactivated
    have hnode := h.nodes other hother
    split
    · refine (hnode.writePreparedTurf _ _ hid).writePreparedTurf _ _ ?_
      rw [visible_writePreparedTurf]
      exact hid
    · exact hnode.writePreparedTurf _ _ hid

/-- The token of a running heat stage is decided: it cannot publish any more. -/
def Decided (w : DogmosWorld F) : Prop :=
  ∀ state, w.stageHeat = some state → w.publications.undecided state.publication = false

theorem Decided.completed (h : w.Decided) : w.FullyStaged := by
  intro state hstate hfree
  rw [h state hstate] at hfree
  cases hfree

theorem undecided_of_unitStep [FloatFormat F] (h : UnitStep w w')
    (hfree : w'.publications.undecided id = true) :
    w.publications.undecided id = true := by
  cases h with
  | stageMixture slot token candidate _ _ =>
    exact (samePlaces_stageMixture _ w slot token candidate).undecided hfree
  | writePreparedTurf slot token f _ _ => exact undecided_of_writePreparedTurf hfree
  | _ => exact hfree

/-- Units of work decide tokens and make none. -/
theorem keeps_decided [FloatFormat F] {α : Type} {m : WorldM F α}
    (hm : ∀ origin tokens, Keeps (Within origin tokens) m) : Keeps (Decided (F := F)) m := by
  intro w hw
  obtain ⟨hsteps, htokens⟩ := hm w w.tokens w (Within.refl w)
  have hundecided : ∀ id, (run m w).2.publications.undecided id = true →
      w.publications.undecided id = true := by
    intro id
    generalize (run m w).2 = w' at hsteps
    induction hsteps with
    | refl => exact fun h => h
    | tail _ hstep ih => exact fun h => ih (undecided_of_unitStep hstep h)
  intro state' hstate'
  have hheat := congrArg RunningTokens.heat htokens
  unfold tokens at hheat
  rw [hstate'] at hheat
  obtain ⟨state, hstate, hpublication⟩ := Option.map_eq_some_iff.1 hheat.symm
  by_contra hfree
  have := hundecided _ (Bool.not_eq_false _ ▸ hfree)
  rw [← hpublication, hw state hstate] at this
  cases this

section Publish

variable [FloatFormat F]

/-- The place of a node on the staged list: the last step of its staging. -/
def placeNode (node : StageHeatNode F) (threshold temperature : F) (oldIndex : Option UInt32) :
    WorldM F Unit :=
  if threshold ≤ temperature then
    if oldIndex.isNone then activateStaged node else pure ()
  else
    match oldIndex with
    | some index => deactivateStaged node index
    | none => pure ()

theorem completed_placeNode (h : w.FullyStaged) (hagrees : w.Agrees)
    (hstate : w.stageHeat = some state) {node : StageHeatNode F} (hnode : node ∈ state.nodes)
    (threshold temperature : F) {oldIndex : Option UInt32}
    (hindex : (w.preparedTurf node.handle.slot.toNat state.publication).bind
      TurfRecord.heatActiveIndex = oldIndex) :
    (run (placeNode node threshold temperature oldIndex) w).2.FullyStaged := by
  unfold placeNode
  by_cases hfree : w.publications.undecided state.publication = true
  · obtain ⟨⟨hplaced, hnodes⟩, hseeded⟩ := h state hstate hfree
    have hid := Publications.not_visible_of_undecided hfree
    rcases oldIndex with _ | index
    · dsimp only
      split
      · rw [Option.isNone_none, if_pos rfl]
        unfold activateStaged heatState setHeat
        rw [run_bind, run_check, hstate]
        dsimp only [pure, Except.pure]
        rw [run_bind, run_modify]
        dsimp only
        rw [run_modify]
        intro found hfound _
        rw [stageHeat_writePreparedTurf] at hfound
        cases hfound
        have hstaged : Staged 0 { w with stageHeat := some { state with
            stagedHeatActive := state.stagedHeatActive ++ [node.handle] } } state := ⟨hplaced, hnodes⟩
        refine ⟨hstaged.activate hseeded hagrees hid hnode hindex, ?_⟩
        rw [heatActive_writePreparedTurf]
        exact hseeded
      · exact h
    · dsimp only
      split
      · rw [Option.isNone_some, if_neg Bool.false_ne_true]
        exact h
      · have hstaged : Staged 0 { w with stageHeat := some { state with
            stagedHeatActive := swapRemove state.stagedHeatActive index.toNat } } state :=
          ⟨hplaced, hnodes⟩
        have hleft := hstaged.deactivate hseeded hid hindex
        unfold deactivated at hleft
        unfold deactivateStaged heatState setHeat
        rw [run_bind, run_check, hstate]
        dsimp only [pure, Except.pure]
        rw [run_bind, run_modify]
        dsimp only
        rcases hmoved : (swapRemove state.stagedHeatActive index.toNat)[index.toNat]? with _ | moved
        · rw [hmoved] at hleft
          dsimp only at hleft ⊢
          rw [run_modify]
          intro found hfound _
          rw [stageHeat_writePreparedTurf] at hfound
          cases hfound
          refine ⟨hleft, ?_⟩
          rw [heatActive_writePreparedTurf]
          exact hseeded
        · rw [hmoved] at hleft
          dsimp only at hleft ⊢
          rw [run_bind, run_modify]
          dsimp only
          rw [run_modify]
          intro found hfound _
          rw [stageHeat_writePreparedTurf, stageHeat_writePreparedTurf] at hfound
          cases hfound
          refine ⟨hleft, ?_⟩
          rw [heatActive_writePreparedTurf, heatActive_writePreparedTurf]
          exact hseeded
  · have hdecided : w.Decided := by
      intro found hfound
      rw [hstate] at hfound
      cases hfound
      exact Bool.eq_false_iff.2 hfree
    split
    · split
      · exact (keeps_decided (fun origin tokens => keeps_activateStaged origin tokens node) w
          hdecided).completed
      · exact h
    · split
      · exact (keeps_decided (fun origin tokens => keeps_deactivateStaged origin tokens node _) w
          hdecided).completed
      · exact h

theorem completed_publishNode (h : w.FullyStaged) (hagrees : w.Agrees)
    (hstate : w.stageHeat = some state) {node : StageHeatNode F} (hnode : node ∈ state.nodes) :
    (run (publishNode node) w).2.FullyStaged := by
  have hplace : KeepsPlace (TurfRecord.withTemperature
      ((state.temperatures[state.publicationIndex]?).getD 0.0)) :=
    fun turf => Prod.ext rfl Option.isSome_map
  set written := w.writePreparedTurf node.handle.slot.toNat state.publication
    (TurfRecord.withTemperature ((state.temperatures[state.publicationIndex]?).getD 0.0)) with hw₁
  have hstate₁ : written.stageHeat = some state := (stageHeat_writePreparedTurf ..).trans hstate
  have hagrees₁ : written.Agrees :=
    (keepsShapes_writePreparedTurf w _ _ (keepsShape_withTemperature _)).agrees hagrees
  have hcompleted : written.FullyStaged := by
    refine h.of_same (stageHeat_writePreparedTurf ..) fun found hfound hfree => ?_
    rw [hstate] at hfound
    cases hfound
    exact samePlaces_writePreparedTurf w _ hplace
      (Publications.not_visible_of_undecided (undecided_of_writePreparedTurf hfree))
  unfold publishNode heatState
  rw [run_bind, run_check, hstate]
  dsimp only [pure, Except.pure]
  rw [run_bind, run_modify]
  dsimp only
  rw [← hw₁, run_bind, run_get]
  dsimp only
  rcases node.mixture with _ | handle
  · exact completed_placeNode hcompleted hagrees₁ hstate₁ hnode _ _ rfl
  · dsimp only
    rw [run_bind, run_modify]
    dsimp only
    have hprepared : ∀ slot, (written.prepareMixture handle.slot.toNat state.publication).preparedTurf
        slot state.publication = written.preparedTurf slot state.publication := by
      intro slot
      unfold prepareMixture
      split
      · exact preparedTurf_of_turfs _ (turfs_stageMixture ..) (visible_stageMixture _ _ _ _) slot
      · rfl
    refine completed_placeNode (hcompleted.of_same (stageHeat_prepareMixture ..) fun _ _ _ =>
      samePlaces_prepareMixture ..) ?_ ((stageHeat_prepareMixture ..).trans hstate₁) hnode _ _
      (by rw [hprepared])
    unfold prepareMixture
    split
    · exact (keepsShapes_stageMixture ..).agrees hagrees₁
    · exact hagrees₁

theorem triple_advanceStageHeatPublication :
    Triple (fun w : DogmosWorld F => w.Agrees ∧ w.FullyStaged) advanceStageHeatPublication
      (fun _ => FullyStaged) fun _ _ => True := by
  rintro w ⟨hagrees, hw⟩
  unfold advanceStageHeatPublication heatState
  rw [run_bind, run_check]
  rcases hstate : w.stageHeat with _ | state
  · trivial
  dsimp only [pure, Except.pure]
  rcases hentry : state.stagedMixtures.minEntry? with _ | ⟨handle, mixture⟩
  · dsimp only
    rcases hnode : state.nodes[state.publicationIndex]? with _ | node
    · exact hw
    · dsimp only
      rw [run_bind]
      have hpublished := completed_publishNode hw hagrees hstate (List.mem_of_getElem? hnode)
      rcases hrun : run (publishNode node) w with ⟨error | _, v⟩
      · trivial
      · rw [hrun] at hpublished
        dsimp only
        rw [run_bind, run_check]
        rcases hnext : v.stageHeat with _ | next
        · trivial
        · refine hpublished.reworked ⟨rfl, rfl, rfl, fun found hfound => ?_⟩
          cases hfound
          exact ⟨next, hnext, rfl, rfl, rfl, rfl⟩
  · dsimp only
    unfold setHeat
    rw [run_bind, run_modify]
    dsimp only
    rw [run_bind, run_modify]
    have herased : FullyStaged
        { w with stageHeat := some { state with stagedMixtures := state.stagedMixtures.erase handle } } :=
      hw.reworked ⟨rfl, rfl, rfl, fun found hfound => by
        cases hfound
        exact ⟨state, hstate, rfl, rfl, rfl, rfl⟩⟩
    refine herased.of_same ?_ fun _ _ _ => samePlaces_stageMixture ..
    unfold stageMixture
    split <;> rfl

end Publish

/-! ## What is visible -/

/-- Heat scratch without a list, nodes or seeds. -/
structure Blank (state : StageHeatState F) : Prop where
  active : state.stagedHeatActive = []
  nodes : state.nodes = []
  seed : state.nextActiveSeed = 0

/-- What a stage leaves as it is until it publishes. -/
structure HeatVisible (w : DogmosWorld F) : Prop where
  tracked : w.Tracked
  agrees : w.Agrees
  order : w.HeatInOrder
  blank : ∀ state, w.cachedHeat = some state → Blank state

/-- The active heat list of a world is in order, and so is what a heat stage prepares. -/
structure HeatSound (w : DogmosWorld F) : Prop extends HeatVisible w where
  staging : w.Staging 0

theorem heatVisible_of_unitStep [FloatFormat F] (h : UnitStep w w') (hw : w.HeatVisible) :
    w'.HeatVisible := by
  have htracked : w'.Tracked :=
    ⟨sound_of_unitStep h hw.tracked.sound, kinded_of_unitStep h hw.tracked.kinded⟩
  have hagrees := (keepsShapes_of_unitStep h).agrees hw.agrees
  cases h with
  | stageMixture slot token candidate _ _ =>
    refine ⟨htracked, hagrees, ?_, ?_⟩
    · exact (samePlaces_stageMixture token w slot token candidate).heatInOrder hw.order
    · unfold stageMixture
      split <;> exact hw.blank
  | writePreparedTurf slot token f htoken _ =>
    have hid := hw.tracked.sound.hidden (.running .heat) token htoken
    refine ⟨htracked, hagrees, ?_, ?_⟩
    · exact hw.order.of_same (heatActive_writePreparedTurf ..)
        (fun _ _ => turfGeneration_writePreparedTurf ..)
        fun other => turfAt_writePreparedTurf _ _ _ _ _ hid
    · unfold writePreparedTurf stageTurf
      split
      · split <;> exact hw.blank
      · exact hw.blank
  | _ => exact ⟨htracked, hagrees, heatInOrder_of_rest hw.order rfl rfl rfl, hw.blank⟩

/-- Units of a heat stage, from what they do to its scratch. -/
theorem triple_heatVisible [FloatFormat F] {α : Type} {m : WorldM F α} {P : DogmosWorld F → Prop}
    {Q : DogmosWorld F → Prop} (hm : ∀ origin tokens, Keeps (Within origin tokens) m)
    (h : Triple (fun w => w.HeatVisible ∧ P w) m (fun _ => Q) fun _ _ => True) :
    Triple (fun w => w.HeatVisible ∧ P w) m (fun _ w => w.HeatVisible ∧ Q w)
      fun _ => HeatVisible := by
  have hvisible : Triple HeatVisible m (fun _ => HeatVisible) fun _ => HeatVisible :=
    triple_of_keeps (keeps_of_units (fun _ _ => heatVisible_of_unitStep) hm) fun _ _ hw => hw
  exact triple_mono (hvisible.and h) (fun _ hw => ⟨hw.1, hw⟩) (fun _ _ hw => hw) fun _ _ hw => hw.1

section Steps

variable [FloatFormat F] [FloatFormat D]

theorem HeatVisible.step (hw : w.HeatVisible) (h : StageStep (D := D) w w') (horder : w'.HeatInOrder)
    (hblank : ∀ state, w'.cachedHeat = some state → Blank state) : w'.HeatVisible :=
  ⟨tracked_of_stageStep h hw.tracked, (keepsShapes_of_stageStep h).agrees hw.agrees, horder, hblank⟩

omit [FloatFormat D] in
theorem blank_clear (state : StageHeatState F) (publication : PublicationId) :
    Blank (state.clear publication) := ⟨rfl, rfl, rfl⟩

omit [FloatFormat F] [FloatFormat D] in
/-- Turfs and the list are the same, and so is what is visible. -/
theorem HeatInOrder.of_visible (h : w.HeatInOrder) (hactive : w'.heatActive = w.heatActive)
    (hturfs : w'.turfs = w.turfs)
    (hvisible : ∀ id, w'.publications.visible id = w.publications.visible id) : w'.HeatInOrder :=
  h.of_turfs hactive hturfs fun id _ => hvisible id

omit [FloatFormat D] in
theorem idle_abortStage (h : w.ledger.Sound) : w.abortStage.stageHeat = none := by
  have hother : ∀ kind, (w.holder (.running kind)).isSome → kind ≠ .heat → w.stageHeat = none := by
    intro kind hkind hne
    by_contra hsome
    refine hne (h.lone kind .heat hkind ?_)
    exact (Option.isSome_map).trans (Option.isSome_iff_ne_none.2 hsome)
  rcases abortStage_eq h with ⟨hidle, heq⟩ | ⟨state, hstate, heq⟩ | ⟨state, hstate, heq⟩ |
    ⟨state, hstate, heq⟩ | ⟨state, hstate, heq⟩
  · rw [heq]
    exact Option.map_eq_none_iff.1 (hidle .heat)
  · rw [heq]
    exact hother .diffusion (by simp [holder, hstate]) (by decide)
  · rw [heq]
    rfl
  · rw [heq]
    exact hother .reactions (by simp [holder, hstate]) (by decide)
  · rw [heq]
    exact hother .components (by simp [holder, hstate]) (by decide)

omit [FloatFormat D] in
/-- A stage that fails leaves what was visible. -/
theorem HeatVisible.abortStage (hw : w.HeatVisible) : w.abortStage.HeatSound := by
  have hsound := hw.tracked.sound
  refine ⟨hw.step (D := F) (.abort w) ?_ ?_, .of_idle (idle_abortStage hsound)⟩
  · rcases abortStage_eq hsound with ⟨-, heq⟩ | ⟨state, -, heq⟩ | ⟨state, -, heq⟩ |
      ⟨state, -, heq⟩ | ⟨state, -, heq⟩
    · rw [heq]
      exact heatInOrder_of_rest hw.order rfl rfl rfl
    all_goals
      rw [heq]
      exact hw.order.of_visible rfl rfl fun id => Publications.visible_withFresh _ _
  · intro state hstate
    rcases abortStage_eq hsound with ⟨-, heq⟩ | ⟨running, -, heq⟩ | ⟨running, -, heq⟩ |
      ⟨running, -, heq⟩ | ⟨running, -, heq⟩
    all_goals rw [heq] at hstate
    · exact hw.blank state hstate
    · exact hw.blank state hstate
    · cases hstate
      exact blank_clear ..
    · exact hw.blank state hstate
    · exact hw.blank state hstate

/-! ## The start of a stage -/

omit [FloatFormat F] [FloatFormat D] in
theorem turfs_of_claimed {α : Type} (v : DogmosWorld F) (cached : Option α) :
    (v.claimed cached).turfs = v.turfs ∧ (v.claimed cached).heatActive = v.heatActive ∧
      (v.claimed cached).cachedHeat = v.cachedHeat ∧
      ∀ id, (v.claimed cached).publications.visible id = v.publications.visible id := by
  unfold claimed
  split
  · exact ⟨rfl, rfl, rfl, fun _ => rfl⟩
  · exact ⟨rfl, rfl, rfl, fun id => Publications.visible_withFresh _ _⟩

/-- A stage that starts and is no heat stage. -/
theorem HeatVisible.start (hw : w.HeatVisible) {request : StageChunkRequest D}
    (hstage : request.stage ≠ .turfHeat) (hcursor : w.stageCursor = none) :
    (run (startStage request) w).2.HeatVisible ∧ (run (startStage request) w).2.stageHeat = none := by
  have hidle : w.stageHeat = none :=
    Option.map_eq_none_iff.1 (idle_of_cursor hw.tracked.sound hcursor .heat)
  have hcomponents : stageKind request.stage = .components →
      (run (do
        let state ← startComponents
        setCursor request
        setComponents state : WorldM F Unit) w).2.HeatVisible ∧
      (run (do
        let state ← startComponents
        setCursor request
        setComponents state : WorldM F Unit) w).2.stageHeat = none := by
    intro hkind
    obtain ⟨hfinal, hpublication⟩ := run_startComponents w
    rw [run_bind]
    split
    · next state w' heq =>
      rw [heq] at hfinal hpublication
      cases hfinal
      refine ⟨hw.step (.startComponents w request state hcursor hkind (hpublication state rfl)) ?_
        hw.blank, rfl⟩
      exact hw.order.of_visible rfl rfl fun id => Publications.visible_withFresh _ _
    · next error w' heq =>
      rw [heq] at hfinal
      cases hfinal
      refine ⟨hw.step (D := D) (.claimComponents w hcursor) ?_ hw.blank, hidle⟩
      exact hw.order.of_visible rfl rfl fun id => Publications.visible_withFresh _ _
  unfold startStage
  cases hkind : request.stage with
  | processTurfs =>
    obtain ⟨hturfs, hactive, hcached, hvisible⟩ := turfs_of_claimed (w.opened request)
      w.cachedDiffusion
    rw [run_bind]
    show (run startDiffusion (w.opened request)).2.HeatVisible ∧
      (run startDiffusion (w.opened request)).2.stageHeat = none
    rw [run_startDiffusion]
    refine ⟨hw.step (.startDiffusion w request hcursor (by rw [hkind]; rfl)) ?_ ?_, ?_⟩
    · exact hw.order.of_visible hactive hturfs hvisible
    · exact fun state hstate => hw.blank state (hcached ▸ hstate)
    · show ((w.opened request).claimed w.cachedDiffusion).stageHeat = none
      unfold claimed
      split <;> rfl
  | turfHeat => exact absurd hkind hstage
  | react =>
    rw [run_bind, run_check]
    rcases w.requireRegistries with error | _
    · exact ⟨hw, hidle⟩
    · obtain ⟨hturfs, hactive, hcached, hvisible⟩ := turfs_of_claimed (w.opened request)
        w.cachedReactions
      dsimp only
      rw [run_bind]
      show (run startReactions (w.opened request)).2.HeatVisible ∧
        (run startReactions (w.opened request)).2.stageHeat = none
      rw [run_startReactions]
      refine ⟨hw.step (.startReactions w request hcursor (by rw [hkind]; rfl)) ?_ ?_, ?_⟩
      · exact hw.order.of_visible hactive hturfs hvisible
      · exact fun state hstate => hw.blank state (hcached ▸ hstate)
      · show ((w.opened request).claimed w.cachedReactions).stageHeat = none
        unfold claimed
        split <;> rfl
  | equalize => exact hcomponents (by rw [hkind]; rfl)
  | excitedGroups => exact hcomponents (by rw [hkind]; rfl)

omit [FloatFormat F] [FloatFormat D] in
/-- Without candidates under a token, its records are those that are visible. -/
theorem preparedTurf_of_unnamed (h : ¬w.turfToken id) (slot : Nat) :
    w.preparedTurf slot id = w.turfAt slot := by
  unfold preparedTurf turfAt
  rcases hentry : w.turfs[slot]? with _ | entry
  · rfl
  · rw [Option.bind_some, Option.bind_some]
    unfold Versioned.prepared Versioned.candidate
    split
    · next token candidate hpending =>
      have hne : token ≠ id := by
        rintro rfl
        exact h ⟨entry, List.mem_of_getElem? hentry, candidate, hpending⟩
      rw [if_neg hne]
      rfl
    · rfl

/-- A heat stage that starts takes the active list as its seeds. -/
theorem HeatVisible.startHeat (hw : w.HeatVisible) {request : StageChunkRequest D}
    (hstage : request.stage = .turfHeat) (hcursor : w.stageCursor = none) :
    (run (startStage request) w).2.HeatSound := by
  obtain ⟨hturfs, hactive, hcached, hvisible⟩ := turfs_of_claimed (w.opened request) w.cachedHeat
  have hunnamed : ¬w.turfToken (w.opened request).startingHeat.publication := by
    intro htoken
    unfold startingHeat at htoken
    rcases hkept : w.cachedHeat with _ | state
    · have hmade := hw.tracked.sound.turfMade _ htoken
      simp only [opened, hkept, Option.getD_none] at hmade
      exact absurd hmade (Nat.lt_irrefl _)
    · simp only [opened, hkept, Option.getD_some] at htoken
      have hheld := hw.tracked.sound.turfs _ htoken (.cached .heat)
        (congrArg (Option.map StageHeatState.publication) hkept)
      cases hheld
  have hblank : Blank (w.opened request).startingHeat := by
    unfold startingHeat
    rcases hkept : w.cachedHeat with _ | state
    · simp only [opened, hkept, Option.getD_none]
      exact ⟨rfl, rfl, rfl⟩
    · simp only [opened, hkept, Option.getD_some]
      exact hw.blank state hkept
  unfold startStage
  rw [hstage]
  dsimp only
  rw [run_bind]
  show (run DogmosWorld.startHeat (w.opened request)).2.HeatSound
  rw [run_startHeat]
  have horder : HeatInOrder { (w.opened request).claimed w.cachedHeat with
      cachedHeat := none, stageHeat := some (w.opened request).startingHeat } :=
    hw.order.of_visible hactive hturfs hvisible
  refine ⟨hw.step (.startHeat w request hcursor (by rw [hstage]; rfl)) horder ?_, ?_⟩
  · exact fun state hstate => by cases hstate
  · intro state hstate _
    cases hstate
    refine ⟨?_, fun node hnode => ?_⟩
    · rw [hblank.active, hblank.seed]
      refine horder.placed.congr (fun _ => rfl) fun slot => ?_
      rw [preparedTurf_of_unnamed]
      · rfl
      · rintro ⟨entry, hentry, hnamed⟩
        exact hunnamed ⟨entry, hturfs ▸ hentry, hnamed⟩
    · rw [hblank.nodes] at hnode
      cases hnode

/-! ## The end of a stage -/

omit [FloatFormat D] in
/-- Publication swaps the active list for the staged one. -/
theorem HeatVisible.finishHeat (hw : w.HeatVisible) (hcompleted : w.FullyStaged)
    (hstate : w.stageHeat = some state)
    (hfree : w.publications.undecided state.publication = true) :
    HeatSound
      { cacheHeat
          { w.published state.publication with
            stageHeat := none
            heatActive := state.stagedHeatActive
            events := w.events ++ state.stagedEvents } state with
        stageCursor := none } := by
  obtain ⟨hstaged, hseeded⟩ := hcompleted state hstate hfree
  have hplaced := hstaged.complete hseeded
  refine ⟨hw.step (D := F) (.finishHeat w state hstate hfree) (Placed.heatInOrder ?_) ?_, ?_⟩
  · have hturf : ∀ v : DogmosWorld F, v.turfs = (w.published state.publication).turfs →
        v.publications = (w.published state.publication).publications.withFresh → ∀ slot,
        v.turfAt slot = w.preparedTurf slot state.publication := by
      intro v hturfs hpublications slot
      rw [← turfAt_published w slot state.publication hfree]
      refine turfAt_of_turfs hturfs (fun id => ?_) slot
      rw [hpublications, Publications.visible_withFresh]
    refine hplaced.congr (fun _ => rfl) fun slot => congrArg _ ?_
    apply hturf <;> rfl
  · intro found hfound
    cases hfound
    exact blank_clear ..
  · exact .of_idle rfl

omit [FloatFormat F] [FloatFormat D] in
/-- Publication of a stage that is no heat stage makes no candidate of a turf visible. -/
theorem HeatVisible.published (hw : w.HeatVisible) (kind : StageKind) (hkind : kind ≠ .heat)
    (hid : w.holder (.running kind) = some id) (hactive : w'.heatActive = w.heatActive)
    (hturfs : w'.turfs = w.turfs)
    (hpublications : w'.publications = (w.publications.publish id).withFresh) : w'.HeatInOrder := by
  refine hw.order.of_turfs hactive hturfs fun token htoken => ?_
  rw [hpublications, Publications.visible_withFresh, Publications.visible_publish]
  have hne : token ≠ id := by
    rintro rfl
    have hheld := hw.tracked.sound.turfs token htoken (.running kind) hid
    cases hheld
    exact hkind rfl
  simp [hne]

omit [FloatFormat D] in
/-- While another stage runs, there is nothing to keep in order but what is visible. -/
theorem stageRules_heatVisible {stage : WorldStage} (hstage : stage ≠ .turfHeat)
    (eventCapacity : Nat) :
    StageRules (F := F) stage eventCapacity (fun w => w.HeatVisible ∧ w.stageHeat = none) HeatSound
      fun _ => HeatVisible where
  unit w w' h hw := by
    refine ⟨heatVisible_of_unitStep h hw.1, ?_⟩
    cases h with
    | heat state htoken =>
      unfold tokens at htoken
      rw [hw.2] at htoken
      cases htoken
    | stageMixture slot token candidate _ _ =>
      unfold stageMixture
      split <;> exact hw.2
    | writePreparedTurf slot token f htoken _ =>
      unfold tokens at htoken
      rw [hw.2] at htoken
      cases htoken
    | _ => exact hw.2
  error _ _ hw := hw.1
  diffusion _ := by
    refine triple_diffusionCommit (fun _ _ hw => hw.1) (fun _ w hw => ?_) fun w state hw hstate hfree => ?_
    · exact hw.1.step (D := F) (.dropDiffusion w) (heatInOrder_of_rest hw.1.order rfl rfl rfl) hw.1.blank
    · refine ⟨hw.1.step (D := F) (.finishDiffusion w state hstate hfree) ?_ hw.1.blank,
        .of_idle hw.2⟩
      exact hw.1.published .diffusion (by decide)
        (congrArg (Option.map StageDiffusionState.publication) hstate) rfl rfl rfl
  heat h := absurd h hstage
  reactions _ := by
    refine triple_reactionCommit eventCapacity (fun w w' h hw => ?_) (fun _ _ hw => hw.1)
      (fun _ w hw => ?_) fun w state events hw hstate hfree => ?_
    · have hkept : w'.HeatInOrder ∧ w'.cachedHeat = w.cachedHeat ∧ w'.stageHeat = w.stageHeat :=
        ContinuationClosed.continuations
          (I := fun v => v.HeatInOrder ∧ v.cachedHeat = w.cachedHeat ∧ v.stageHeat = w.stageHeat)
          (fun _ _ _ hv => ⟨heatInOrder_of_rest hv.1 rfl rfl rfl, hv.2⟩) h ⟨hw.1.order, rfl, rfl⟩
      refine ⟨hw.1.step (D := F) (.continuations h) hkept.1 fun state hstate => ?_,
        hkept.2.2.trans hw.2⟩
      exact hw.1.blank state (hkept.2.1 ▸ hstate)
    · exact hw.1.step (D := F) (.dropReactions w) (heatInOrder_of_rest hw.1.order rfl rfl rfl) hw.1.blank
    · refine ⟨hw.1.step (D := F) (.finishReactions w state hstate hfree events) ?_ hw.1.blank,
        .of_idle hw.2⟩
      exact hw.1.published .reactions (by decide)
        (congrArg (Option.map StageReactionState.publication) hstate) rfl rfl rfl
  publish _ := by
    refine triple_componentPublication eventCapacity (fun _ _ hw => hw.1)
      fun w state hw hstate hfree => ⟨?_, hw.2⟩
    refine hw.1.step (D := F) (.nextComponent w state hstate hfree) ?_ hw.1.blank
    exact hw.1.published .components (by decide)
      (congrArg (Option.map StageComponentState.publication) hstate) rfl rfl rfl
  finish _ := by
    refine triple_componentCommit (fun _ _ hw => hw.1) fun w state hw hstate => ?_
    refine ⟨hw.1.step (D := F) (.finishComponents w state hstate) ?_ hw.1.blank, .of_idle hw.2⟩
    exact hw.1.order.of_visible rfl rfl fun id => Publications.visible_withFresh _ _

omit [FloatFormat D] in
/-- Units of a heat stage that leave the staged list alone. -/
theorem triple_reworked {α : Type} {m : WorldM F α}
    (hm : ∀ origin tokens, Keeps (Within origin tokens) m) (h : ∀ w, Keeps (Reworked w) m) :
    Triple (fun w => w.HeatVisible ∧ w.FullyStaged) m (fun _ w => w.HeatVisible ∧ w.FullyStaged)
      fun _ => HeatVisible := by
  refine triple_heatVisible hm (triple_mono (triple_of_keeps (J := FullyStaged)
    (fun w hw => hw.reworked (h w w (.refl w))) fun _ _ _ => trivial) (fun _ hw => hw.2)
    (fun _ _ hw => hw) fun _ _ hw => hw)

variable [FloatCast F D]

/-- What a heat stage keeps in order. -/
theorem heatRules (secondsPerTick : F) (eventCapacity : Nat) :
    HeatRules (F := F) (D := D) secondsPerTick eventCapacity HeatSound
      (fun w => w.HeatVisible ∧ w.FullyStaged) HeatSound fun _ => HeatVisible where
  cancelled _ hw := hw.toHeatVisible
  seed := by
    refine triple_mono (triple_heatVisible (P := Staging 0) (Q := Staging 0)
      (fun origin tokens => keeps_prepareSeed origin tokens) ?_)
      (fun _ hw => ⟨hw.1.toHeatVisible, hw.1.staging⟩) (fun _ _ hw => ⟨hw.1, hw.2⟩) fun _ _ hw => hw
    exact triple_mono triple_staging_prepareSeed (fun _ hw => hw.2) (fun _ _ hw => hw) fun _ _ hw => hw
  seeded w hw hremaining := by
    refine ⟨hw.toHeatVisible, fun state hstate hfree => ⟨hw.staging state hstate hfree, ?_⟩⟩
    unfold remainingSeeds at hremaining
    rw [hstate] at hremaining
    exact Nat.sub_eq_zero_iff_le.1 hremaining
  later _ hw := ⟨hw.1, hw.2.staging⟩
  node := triple_reworked
    (fun origin tokens => (heatScratch_within origin tokens).keeps_computeNextHeatNode _)
    fun w => (heatScratch_reworked w).keeps_computeNextHeatNode _
  topology := triple_reworked
    (fun origin tokens => (heatScratch_within origin tokens).keeps_advanceStageHeatTopology)
    fun w => (heatScratch_reworked w).keeps_advanceStageHeatTopology
  start := triple_reworked
    (fun origin tokens => (heatScratch_within origin tokens).keeps_prepareStageHeatConduction _)
    fun w => (heatScratch_reworked w).keeps_prepareStageHeatConduction _
  conduction := triple_reworked
    (fun origin tokens => (heatScratch_within origin tokens).keeps_advanceStageHeatConduction)
    fun w => (heatScratch_reworked w).keeps_advanceStageHeatConduction
  publication := by
    refine triple_heatVisible (fun origin tokens => keeps_advanceStageHeatPublication origin tokens) ?_
    exact triple_mono triple_advanceStageHeatPublication (fun _ hw => ⟨hw.1.agrees, hw.2⟩)
      (fun _ _ hw => hw) fun _ _ hw => hw
  commit := triple_heatCommit eventCapacity (fun _ _ hw => hw.1)
    (fun _ w hw => hw.1.step (D := F) (.dropHeat w) (heatInOrder_of_rest hw.1.order rfl rfl rfl)
      hw.1.blank)
    fun _ _ hw hstate hfree => hw.1.finishHeat hw.2 hstate hfree

/-! ## Every operation -/

omit [FloatFormat D] [FloatCast F D] in
theorem keeps_staging_prepareNext {request : StageChunkRequest D}
    (hstage : request.stage = .turfHeat) :
    Keeps (Staging taken) (prepareNext (F := F) request.stage) := by
  have hadvance : Keeps (Staging taken) (advanceCursor (F := F)) :=
    keeps_modify fun w hw => hw.of_same rfl fun _ _ _ => .of_rest rfl rfl rfl
  rw [hstage]
  unfold prepareNext
  refine keeps_get_bind fun w => ?_
  split
  · exact keeps_bind (keeps_staging_prepareStageHeatTurf _ _) fun _ => hadvance
  · exact hadvance

/-- **A chunk** leaves the active list in order, whether it succeeds, fails or is cancelled. -/
theorem heatSound_processStageChunk (request : StageChunkRequest D) (eventLimit : UInt32)
    (shouldCancel : Nat → Bool) :
    Keeps HeatSound (processStageChunk (F := F) request eventLimit shouldCancel) := by
  have habort : ∀ (error : WorldError) (w : DogmosWorld F), w.HeatVisible → w.abortStage.HeatSound :=
    fun _ _ hw => hw.abortStage
  have hchunk : Triple HeatSound (processStageChunk (F := F) request eventLimit shouldCancel)
      (AfterChunk HeatSound HeatSound) fun _ => HeatSound := by
    by_cases hstage : request.stage = .turfHeat
    · refine triple_chunk_of_inner (E := fun _ => HeatVisible) eventLimit shouldCancel
        (fun w hw => ?_) habort
      have hopen : OpenRules request (fun v => v = w) HeatSound fun _ => HeatVisible := by
        refine ⟨fun _ hw => hw.toHeatVisible, ?_, ?_⟩
        · refine triple_openStage_of_start (fun _ v hv => ?_) (fun _ _ hv => hv.toHeatVisible)
            (fun v _ hv _ _ => ?_) fun v hv hcursor => ?_
          · exact hv ▸ hw.toHeatVisible
          · exact hv ▸ hw
          · subst hv
            exact hw.startHeat hstage hcursor
        · refine triple_mono (triple_heatVisible (P := Staging 0) (Q := Staging 0)
            (fun origin tokens => keeps_prepareNext origin tokens request.stage) ?_)
            (fun _ hv => ⟨hv.1.toHeatVisible, hv.1.staging⟩) (fun _ _ hv => ⟨hv.1, hv.2⟩)
            fun _ _ hv => hv
          exact triple_mono (triple_of_keeps (keeps_staging_prepareNext hstage)
            fun _ _ _ => trivial) (fun _ hv => hv.2) (fun _ _ hv => hv) fun _ _ hv => hv
      refine hopen.triple_inner shouldCancel ?_
      have hrun : runStage (F := F) request (min w.maxEvents eventLimit).toNat shouldCancel =
          runHeat (narrow request.secondsPerTick) (min w.maxEvents eventLimit).toNat
            request.workLimit.toNat shouldCancel := by
        unfold runStage
        rw [hstage]
      rw [hrun]
      exact (heatRules _ _).triple_runHeat _ _
    · refine triple_mono (triple_processStageChunk (P := HeatSound)
        (J := fun w => w.HeatVisible ∧ w.stageHeat = none) (Q := HeatSound)
        (E := fun _ => HeatVisible) eventLimit shouldCancel (fun w hw => ?_)
        (fun w _ => stageRules_heatVisible hstage _) habort) (fun _ hw => hw) ?_ fun _ _ hw => hw
      · refine triple_openStage_of_start (fun _ v hv => ?_) (fun _ _ hv => hv.1)
          (fun v cursor hv hcursor hsame => ?_) fun v hv hcursor => ?_
        · exact hv ▸ hw.toHeatVisible
        · subst hv
          refine ⟨hw.toHeatVisible, ?_⟩
          by_contra hrunning
          obtain ⟨found, hfound, hkind⟩ := hw.tracked.kinded .heat
            ((Option.isSome_map).trans (Option.isSome_iff_ne_none.2 hrunning))
          rw [hcursor] at hfound
          cases hfound
          rw [hsame] at hkind
          cases hrequest : request.stage <;> rw [hrequest] at hkind hstage <;>
            first | exact hstage rfl | cases hkind
        · subst hv
          exact hw.toHeatVisible.start hstage hcursor
      · intro result w hw
        unfold AfterChunk at hw ⊢
        split
        · next hpending =>
          rw [if_pos hpending] at hw
          exact ⟨hw.1, .of_idle hw.2⟩
        · next hdone =>
          rwa [if_neg hdone] at hw
  intro w hw
  have hresult := hchunk w hw
  unfold AfterChunk at hresult
  simp only [ite_self] at hresult
  rcases hrun : run (processStageChunk request eventLimit shouldCancel) w with ⟨error | result, v⟩
  · rw [hrun] at hresult
    exact hresult
  · rw [hrun] at hresult
    exact hresult

omit [FloatFormat D] [FloatCast F D] in
theorem reactionClosed_samePlaces (id : PublicationId) (w : DogmosWorld F) :
    ReactionClosed (SamePlaces id w) where
  writeMixture v slot f _ h := h.trans (samePlaces_writeMixture v slot f)
  edges _ _ _ h := h.trans (.of_rest rfl rfl rfl)
  registries _ _ _ h := h.trans (.of_rest rfl rfl rfl)
  configuration _ _ _ h := h.trans (.of_rest rfl rfl rfl)
  events _ _ h := h.trans (.of_rest rfl rfl rfl)
  settle _ _ := ContinuationClosed.settle fun _ _ _ h => h.trans (.of_rest rfl rfl rfl)
  allocate := keeps_allocateContinuation fun _ _ _ h => h.trans (.of_rest rfl rfl rfl)

/-- Operations that are neither chunks nor batches leave all places alone. -/
theorem samePlaces_step (id : PublicationId) {op : Op F D} (hchunk : ¬op.IsChunk)
    (hbatch : ¬op.IsBatch) : SamePlaces id w (step w op) := by
  have hclosed := reactionClosed_samePlaces id w
  refine keeps_exec_of_resumeClosed hclosed.toResumeClosed hbatch (keeps_exec_of_isFrontier
    fun _ _ hv => hv.trans (.of_rest rfl rfl rfl)) (fun hrun => ?_) w (.refl id w)
  cases hrun with
  | reactMixture mixture target threshold eventLimit clock =>
    exact keeps_discard (keeps_reactMixture hclosed.toSequenceClosed hclosed.allocate _ _ _ _ _)
  | processStageChunk request eventLimit shouldCancel => exact absurd (.processStageChunk ..) hchunk

/-- While a stage runs, batches leave all places alone. -/
theorem samePlaces_of_isBatch (id : PublicationId) (hactive : w.stageCursor.isSome) {op : Op F D}
    (hbatch : op.IsBatch) : SamePlaces id w (step w op) := by
  have hrejected : ∀ {v : DogmosWorld F}, v = w → SamePlaces id w v := fun hv => hv ▸ .refl id w
  unfold step
  cases hbatch with
  | applyLifecycle mutations =>
    unfold exec
    rw [final_discard]
    unfold DogmosWorld.applyLifecycle final
    rw [run_bind, run_check]
    rcases hprojected : mutations.foldlM w.projectMutation ∅ with error | projected
    · exact .refl id w
    · have hregister := register_of_projectMutation hactive mutations (fun mixture hlive => by
        rw [Std.TreeMap.getElem?_emptyc, Option.getD_none]
        exact projectedSlot_of_live hlive) hprojected
      have hground := (keepsLive_commitLifecycle mutations hregister).2
      exact .of_rest hground.active hground.turfs hground.publications
  | applyTurfLifecycle mutations =>
    unfold exec
    rw [final_discard]
    exact hrejected (final_rejected hactive ..)
  | applyTurfHeat mutations =>
    unfold exec
    rw [final_discard]
    exact hrejected (final_rejected hactive ..)
  | applyTurfHeatAdjacency mutations =>
    unfold exec
    rw [final_discard]
    exact hrejected (final_rejected hactive ..)
  | applyTurfAdjacency mutations =>
    unfold exec
    rw [final_discard]
    exact hrejected (final_rejected hactive ..)
  | applyTurfFirelocks mutations =>
    unfold exec
    rw [final_discard]
    exact hrejected (final_rejected hactive ..)

theorem heatSound_step (hwired : w.Wired) (hw : w.HeatSound) (op : Op F D) : (step w op).HeatSound := by
  have htracked := tracked_step hw.tracked op
  have hagrees := (wired_step hwired op).agrees
  by_cases hchunk : op.IsChunk
  · cases hchunk with
    | processStageChunk request eventLimit shouldCancel =>
      exact keeps_discard (heatSound_processStageChunk request eventLimit shouldCancel) w hw
  have hscratch := scratch_step (w := w) hchunk
  have hheat : (step w op).stageHeat = w.stageHeat := congrArg StageScratch.heat hscratch
  have hkept : (step w op).cachedHeat = w.cachedHeat := congrArg StageScratch.keptHeat hscratch
  have hblank : ∀ state, (step w op).cachedHeat = some state → Blank state := fun state hstate =>
    hw.blank state (hkept ▸ hstate)
  by_cases hbatch : op.IsBatch
  · refine ⟨⟨htracked, hagrees, keeps_heatInOrder_exec_of_isBatch hbatch w hw.order, hblank⟩, ?_⟩
    rcases hactive : w.stageCursor with _ | cursor
    · refine .of_idle (hheat.trans ?_)
      exact Option.map_eq_none_iff.1 (idle_of_cursor hw.tracked.sound hactive .heat)
    · exact hw.staging.of_same hheat fun state _ _ =>
        samePlaces_of_isBatch state.publication (by rw [hactive]; rfl) hbatch
  · refine ⟨⟨htracked, hagrees, ?_, hblank⟩, ?_⟩
    · exact (samePlaces_step 0 hchunk hbatch).heatInOrder hw.order
    · exact hw.staging.of_same hheat fun state _ _ => samePlaces_step state.publication hchunk hbatch

theorem heatInOrder_of_reachable (h : Reachable (D := D) w) : w.HeatInOrder := by
  have hsound : w.Wired ∧ w.HeatSound := by
    refine reachable_induct (I := fun w => w.Wired ∧ w.HeatSound) (fun w hinit => ?_)
      (fun w op hw => ⟨wired_step hw.1 op, heatSound_step hw.1 hw.2 op⟩) h
    refine ⟨wired_of_initial hinit, ⟨tracked_of_initial hinit, (wired_of_initial hinit).agrees, ?_, ?_⟩,
      ?_⟩
    all_goals obtain ⟨_, _, _, _, _, rfl⟩ := hinit
    · exact ⟨⟨.nil, fun _ hmem => (List.not_mem_nil hmem).elim⟩, fun _ _ hturf => by cases hturf⟩
    · exact fun state hstate => by cases hstate
    · exact .of_idle rfl
  exact hsound.2.order

/-! ## The active list and its positions -/

omit [FloatFormat F] in
/-- The turf that a listed handle names stores the position of the handle. -/
theorem HeatInOrder.listed (h : w.HeatInOrder) {i : Nat} {handle : TurfHandle}
    (hlisted : w.heatActive[i]? = some handle) :
    ∃ turf, w.requireTurfHandle handle = .ok turf ∧ turf.heat.isSome ∧
      turf.heatActiveIndex.map UInt32.toNat = some i := by
  have hcurrent := h.indexed.current handle (List.mem_of_getElem? hlisted)
  have hindex : w.heatIndexAt handle.slot = some i := by
    refine (h.indexed.back i handle.slot).1 ?_
    rw [List.getElem?_map, hlisted]
    rfl
  unfold heatIndexAt storedIndex at hindex
  rcases hturf : w.turfAt handle.slot.toNat with _ | turf
  · rw [hturf] at hindex
    cases hindex
  · rw [hturf] at hindex
    refine ⟨turf, requireTurfHandle_eq_ok.2 ⟨hcurrent, hturf⟩, ?_, hindex⟩
    refine h.heated handle.slot turf hturf ?_
    rcases hstored : turf.heatActiveIndex with _ | index
    · rw [Option.bind_some, hstored] at hindex
      cases hindex
    · rfl

omit [FloatFormat F] in
/-- The position that a turf stores is that of its handle. -/
theorem HeatInOrder.stored (h : w.HeatInOrder) {handle : TurfHandle} {turf : TurfRecord F}
    {index : UInt32} (hturf : w.requireTurfHandle handle = .ok turf)
    (hindex : turf.heatActiveIndex = some index) :
    w.heatActive[index.toNat]? = some handle := by
  obtain ⟨hgeneration, hrecord⟩ := requireTurfHandle_eq_ok.1 hturf
  have hstored : w.heatIndexAt handle.slot = some index.toNat := by
    unfold heatIndexAt storedIndex
    rw [hrecord, Option.bind_some, hindex]
    rfl
  have hslot := (h.indexed.back index.toNat handle.slot).2 hstored
  rw [List.getElem?_map] at hslot
  obtain ⟨listed, hlisted, heq⟩ := Option.map_eq_some_iff.1 hslot
  have hcurrent := h.indexed.current listed (List.mem_of_getElem? hlisted)
  rw [heq, hgeneration] at hcurrent
  have hsame : listed = handle := by
    obtain ⟨slot, generation⟩ := listed
    obtain ⟨slot', generation'⟩ := handle
    cases heq
    cases hcurrent
    rfl
  rw [hlisted, hsame]

/-- **The active list and the positions are inverse to each other** in every reachable world: no
turf is listed twice, a listed handle is that of a registered turf with heat that stores its
position, and a registered turf that stores a position is listed there. -/
theorem active_list_inverse (h : Reachable (D := D) w) :
    w.heatActive.Nodup ∧
    (∀ i handle, w.heatActive[i]? = some handle → ∃ turf, w.requireTurfHandle handle = .ok turf ∧
      turf.heat.isSome ∧ turf.heatActiveIndex.map UInt32.toNat = some i) ∧
    ∀ handle turf index, w.requireTurfHandle handle = .ok turf →
      turf.heatActiveIndex = some index → w.heatActive[index.toNat]? = some handle := by
  have horder := heatInOrder_of_reachable h
  refine ⟨?_, fun i handle hlisted => horder.listed hlisted,
    fun handle turf index hturf hindex => horder.stored hturf hindex⟩
  exact List.Nodup.of_map _ horder.indexed.back.nodup

end Steps

end Staging

section Active

open FloatFormat

/-- A turf hot enough to conduct. -/
def hotState : TurfHeatState F32 := ⟨700.0, 0.5, 10000.0, false⟩

/-- A world in which four turfs conducted heat and the second one has stopped, so that the last one
has taken its place. -/
def hotTurfs : DogmosWorld F32 :=
  System.run (step (D := F64)) (newWithCapacities 0 0 100000 4 4)
    [.applyTurfLifecycle
        [.register ⟨0, 1⟩ none, .register ⟨1, 1⟩ none, .register ⟨2, 1⟩ none, .register ⟨3, 1⟩ none],
      .applyTurfHeat [⟨⟨0, 1⟩, some hotState⟩, ⟨⟨1, 1⟩, some hotState⟩, ⟨⟨2, 1⟩, some hotState⟩,
        ⟨⟨3, 1⟩, some hotState⟩],
      .applyTurfHeat [⟨⟨1, 1⟩, none⟩]]

theorem active_list_inverse_hotTurfs :
    hotTurfs.heatActive = [⟨0, 1⟩, ⟨3, 1⟩, ⟨2, 1⟩] ∧ hotTurfs.heatActive.Nodup ∧
      (∃ turf, hotTurfs.requireTurfHandle ⟨3, 1⟩ = .ok turf ∧ turf.heat.isSome ∧
        turf.heatActiveIndex.map UInt32.toNat = some 1) ∧
      ∀ turf index, hotTurfs.requireTurfHandle ⟨2, 1⟩ = .ok turf →
        turf.heatActiveIndex = some index → hotTurfs.heatActive[index.toNat]? = some ⟨2, 1⟩ := by
  have hactive : hotTurfs.heatActive = [⟨0, 1⟩, ⟨3, 1⟩, ⟨2, 1⟩] := by decide +kernel
  have hreachable : Reachable (D := F64) hotTurfs :=
    System.reachable_run ⟨0, 0, 100000, 4, 4, rfl⟩ _
  obtain ⟨hnodup, hlisted, hstored⟩ := active_list_inverse hreachable
  exact ⟨hactive, hnodup, hlisted 1 ⟨3, 1⟩ (by rw [hactive]; rfl), hstored ⟨2, 1⟩⟩

end Active

end DogmosWorld

end Dogmos
