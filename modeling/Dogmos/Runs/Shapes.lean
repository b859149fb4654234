import Dogmos.Runs.Chunks
import Dogmos.Runs.Records

/-!
# The shapes of turfs

The shape of a turf is its mixture and whether it has heat.  Only the turf and
lifecycle batches change shapes: everything else, every step of a stage
included, keeps the shape of every turf and the topology (`KeepsShapes`).  The
reason is that a candidate of a turf always has the shape of the record it
stands next to (`Agrees`), so it does not matter which of the two is visible.
-/

namespace Dogmos

variable {F D : Type}

/-- The mixture of a turf, and whether it has heat. -/
def TurfRecord.shape (turf : TurfRecord F) : Option MixtureHandle × Bool :=
  (turf.mixture, turf.heat.isSome)

/-- The candidate of a turf slot, if there is one, has the shape of the record. -/
def TurfSlot.Agrees (entry : TurfSlot F) : Prop :=
  ∀ id candidate, entry.turf.pending = some (id, candidate) →
    entry.turf.current.map TurfRecord.shape = some candidate.shape

/-- The generation of a turf slot and the shape of its record. -/
def TurfSlot.outline (entry : TurfSlot F) : Option UInt32 × Option (Option MixtureHandle × Bool) :=
  (entry.generation, entry.turf.current.map TurfRecord.shape)

theorem TurfSlot.Agrees.shape_asRef {entry : TurfSlot F} (h : entry.Agrees)
    (publications : Publications) :
    (entry.turf.asRef publications).map TurfRecord.shape =
      entry.turf.current.map TurfRecord.shape := by
  unfold Versioned.asRef
  split
  · next id candidate hpending =>
    split
    · exact (h id candidate hpending).symm
    · rfl
  · rfl

theorem TurfSlot.Agrees.shape_prepared {entry : TurfSlot F} (h : entry.Agrees)
    (publications : Publications) (id : PublicationId) :
    (entry.turf.prepared publications id).map TurfRecord.shape =
      entry.turf.current.map TurfRecord.shape := by
  unfold Versioned.prepared Versioned.candidate
  split
  · next token candidate hpending =>
    split
    · exact (h token candidate hpending).symm
    · exact h.shape_asRef publications
  · exact h.shape_asRef publications

/-- Staging a candidate of the right shape. -/
theorem TurfSlot.Agrees.stage {entry : TurfSlot F} (h : entry.Agrees) (publications : Publications)
    (id : PublicationId) {candidate : TurfRecord F}
    (hcandidate : entry.turf.current.map TurfRecord.shape = some candidate.shape) :
    TurfSlot.Agrees { entry with turf := entry.turf.stage publications id candidate } ∧
      TurfSlot.outline { entry with turf := entry.turf.stage publications id candidate } =
        entry.outline := by
  have hcurrent : (entry.turf.stage publications id candidate).current.map TurfRecord.shape =
      entry.turf.current.map TurfRecord.shape := by
    unfold Versioned.stage
    split
    · rfl
    · exact h.shape_asRef publications
  refine ⟨?_, ?_⟩
  · intro token staged hpending
    rw [Versioned.pending_stage] at hpending
    cases hpending
    rw [hcurrent]
    exact hcandidate
  · unfold TurfSlot.outline
    rw [hcurrent]

namespace DogmosWorld

/-- Every candidate of a turf has the shape of the record it stands next to. -/
def Agrees (w : DogmosWorld F) : Prop := ∀ entry ∈ w.turfs, entry.Agrees

/-- The shape of a turf that is registered. -/
def turfShape (w : DogmosWorld F) (handle : TurfHandle) : Option (Option MixtureHandle × Bool) :=
  if w.turfGeneration handle.slot = some handle.generation then
    (w.turfAt handle.slot.toNat).map TurfRecord.shape
  else none

theorem turfShape_eq_some {w : DogmosWorld F} {handle : TurfHandle}
    {shape : Option MixtureHandle × Bool} :
    w.turfShape handle = some shape ↔
      ∃ turf, w.requireTurfHandle handle = .ok turf ∧ turf.shape = shape := by
  unfold turfShape
  by_cases hgeneration : w.turfGeneration handle.slot = some handle.generation
  · rw [if_pos hgeneration, Option.map_eq_some_iff]
    refine exists_congr fun turf => and_congr_left fun _ => ?_
    rw [requireTurfHandle_eq_ok]
    exact ⟨fun h => ⟨hgeneration, h⟩, fun h => h.2⟩
  · rw [if_neg hgeneration]
    constructor
    · intro h
      cases h
    · rintro ⟨turf, hturf, -⟩
      exact absurd (requireTurfHandle_eq_ok.1 hturf).1 hgeneration

/-- The second world has the shapes and the topology of the first one. -/
structure KeepsShapes (w w' : DogmosWorld F) : Prop where
  agrees : w.Agrees → w'.Agrees
  shapes : w.Agrees → w'.turfShape = w.turfShape
  topology : w'.topology = w.topology

theorem KeepsShapes.refl (w : DogmosWorld F) : KeepsShapes w w := ⟨id, fun _ => rfl, rfl⟩

theorem KeepsShapes.trans {w w' w'' : DogmosWorld F} (h : KeepsShapes w w')
    (h' : KeepsShapes w' w'') : KeepsShapes w w'' :=
  ⟨fun hw => h'.agrees (h.agrees hw), fun hw => (h'.shapes (h.agrees hw)).trans (h.shapes hw),
    h'.topology.trans h.topology⟩

/-- Worlds with the same outlines have the same shapes. -/
theorem turfShape_congr {w w' : DogmosWorld F} (h : w.Agrees) (h' : w'.Agrees)
    (houtline : ∀ slot : Nat, w'.turfs[slot]?.map TurfSlot.outline =
      w.turfs[slot]?.map TurfSlot.outline) : w'.turfShape = w.turfShape := by
  have hshape : ∀ world : DogmosWorld F, world.Agrees → ∀ slot : Nat,
      (world.turfAt slot).map TurfRecord.shape =
        (world.turfs[slot]?.map TurfSlot.outline).bind Prod.snd := by
    intro world hworld slot
    unfold turfAt
    rcases hentry : world.turfs[slot]? with _ | entry
    · rfl
    · exact (hworld entry (List.mem_of_getElem? hentry)).shape_asRef world.publications
  have hgeneration : ∀ world : DogmosWorld F, ∀ slot : UInt32, world.turfGeneration slot =
      (world.turfs[slot.toNat]?.map TurfSlot.outline).bind Prod.fst := by
    intro world slot
    unfold turfGeneration
    rcases world.turfs[slot.toNat]? with _ | entry <;> rfl
  funext handle
  unfold turfShape
  rw [hshape w h, hshape w' h', hgeneration w, hgeneration w', houtline]

/-- A world whose turf slots and topology are the same keeps the shapes. -/
theorem KeepsShapes.of_turfs {w w' : DogmosWorld F} (hturfs : w'.turfs = w.turfs)
    (htopology : w'.topology = w.topology) : KeepsShapes w w' := by
  have hagrees : w.Agrees → w'.Agrees := by
    intro h entry hentry
    rw [hturfs] at hentry
    exact h entry hentry
  refine ⟨hagrees, fun h => turfShape_congr h (hagrees h) fun slot => ?_, htopology⟩
  rw [hturfs]

/-- A world in which one turf slot was rewritten to one of the same outline keeps the shapes. -/
theorem KeepsShapes.of_set {w w' : DogmosWorld F} {slot : Nat} {entry entry' : TurfSlot F}
    (hentry : w.turfs[slot]? = some entry) (hturfs : w'.turfs = w.turfs.set slot entry')
    (hagrees : entry.Agrees → entry'.Agrees ∧ entry'.outline = entry.outline)
    (htopology : w'.topology = w.topology) : KeepsShapes w w' := by
  have hlen := (List.getElem?_eq_some_iff.1 hentry).1
  have hw' : w.Agrees → w'.Agrees := by
    intro h found hfound
    rw [hturfs] at hfound
    rcases List.mem_or_eq_of_mem_set hfound with hold | rfl
    · exact h found hold
    · exact (hagrees (h entry (List.mem_of_getElem? hentry))).1
  refine ⟨hw', fun h => turfShape_congr h (hw' h) fun other => ?_, htopology⟩
  rw [hturfs]
  by_cases hother : slot = other
  · subst hother
    rw [List.getElem?_set_self hlen, hentry, Option.map_some, Option.map_some,
      (hagrees (h entry (List.mem_of_getElem? hentry))).2]
  · rw [List.getElem?_set_ne hother]

/-! ## Writes that keep the shapes -/

theorem keepsShapes_writeTurf (w : DogmosWorld F) (slot : Nat) {f : TurfRecord F → TurfRecord F}
    (hf : KeepsShape f) : KeepsShapes w (w.writeTurf slot f) := by
  unfold writeTurf
  rcases hentry : w.turfs[slot]? with _ | entry
  · exact .refl w
  · refine .of_set hentry rfl (fun hagrees => ⟨?_, ?_⟩) rfl
    · intro id candidate hpending
      cases hpending
    · have hshape : TurfRecord.shape ∘ f = TurfRecord.shape :=
        funext fun turf => Prod.ext (hf turf).1 (hf turf).2
      unfold TurfSlot.outline
      dsimp only
      rw [Option.map_map, hshape]
      exact Prod.ext rfl (hagrees.shape_asRef w.publications)

theorem keepsShapes_stageTurf (w : DogmosWorld F) (slot : Nat) (id : PublicationId)
    {candidate : TurfRecord F}
    (hcandidate : ∀ entry, w.turfs[slot]? = some entry → entry.Agrees →
      entry.turf.current.map TurfRecord.shape = some candidate.shape) :
    KeepsShapes w (w.stageTurf slot id candidate) := by
  unfold stageTurf
  rcases hentry : w.turfs[slot]? with _ | entry
  · exact .refl w
  · exact .of_set hentry rfl
      (fun hagrees => hagrees.stage w.publications id (hcandidate entry hentry hagrees)) rfl

theorem keepsShapes_writePreparedTurf (w : DogmosWorld F) (slot : Nat) (id : PublicationId)
    {f : TurfRecord F → TurfRecord F} (hf : KeepsShape f) :
    KeepsShapes w (w.writePreparedTurf slot id f) := by
  unfold writePreparedTurf
  split
  · next candidate hprepared =>
    refine keepsShapes_stageTurf w slot id fun entry hentry hagrees => ?_
    unfold preparedTurf at hprepared
    rw [hentry, Option.bind_some] at hprepared
    rw [← hagrees.shape_prepared w.publications id, hprepared, Option.map_some]
    exact congrArg some (Prod.ext (hf candidate).1 (hf candidate).2).symm
  · exact .refl w

theorem keepsShapes_stageMixture (w : DogmosWorld F) (slot : Nat) (id : PublicationId)
    (candidate : MixtureRecord F) : KeepsShapes w (w.stageMixture slot id candidate) := by
  unfold stageMixture
  split
  · exact .refl w
  · exact .of_turfs rfl rfl

theorem keepsShapes_writeMixture (w : DogmosWorld F) (slot : Nat)
    (f : MixtureRecord F → MixtureRecord F) : KeepsShapes w (w.writeMixture slot f) := by
  unfold writeMixture
  split
  · exact .refl w
  · exact .of_turfs rfl rfl

/-! ## Requests and stages keep the shapes -/

theorem reactionClosed_keepsShapes [FloatFormat F] (origin : DogmosWorld F) :
    ReactionClosed (KeepsShapes origin) where
  writeMixture w slot f _ h := h.trans (keepsShapes_writeMixture w slot f)
  edges _ _ _ h := h.trans (.of_turfs rfl rfl)
  registries _ _ _ h := h.trans (.of_turfs rfl rfl)
  configuration _ _ _ h := h.trans (.of_turfs rfl rfl)
  events _ _ h := h.trans (.of_turfs rfl rfl)
  settle _ _ := ContinuationClosed.settle fun _ _ _ h => h.trans (.of_turfs rfl rfl)
  allocate := keeps_allocateContinuation fun _ _ _ h => h.trans (.of_turfs rfl rfl)

theorem keepsShapes_of_unitStep [FloatFormat F] {w w' : DogmosWorld F} (h : UnitStep w w') :
    KeepsShapes w w' := by
  cases h with
  | diffusion state h => exact .of_turfs rfl rfl
  | heat state h => exact .of_turfs rfl rfl
  | reactions state h => exact .of_turfs rfl rfl
  | components state h => exact .of_turfs rfl rfl
  | advance cursor nextFrontierIndex h => exact .of_turfs rfl rfl
  | stageMixture slot id candidate h _ => exact keepsShapes_stageMixture w slot id candidate
  | writePreparedTurf slot id f h hf => exact keepsShapes_writePreparedTurf w slot id hf

section Stages

variable [FloatFormat F] [FloatFormat D]

omit [FloatFormat F] in
theorem turfs_claimed {α : Type} (w : DogmosWorld F) (cached : Option α) :
    (w.claimed cached).turfs = w.turfs ∧ (w.claimed cached).topology = w.topology := by
  unfold claimed
  split <;> exact ⟨rfl, rfl⟩

theorem turfs_abortStage (w : DogmosWorld F) :
    w.abortStage.turfs = w.turfs ∧ w.abortStage.topology = w.topology := by
  unfold abortStage
  rcases w.stageDiffusion with _ | _ <;> rcases w.stageHeat with _ | _ <;>
    rcases w.stageReactions with _ | _ <;> rcases w.stageComponents with _ | _ <;> exact ⟨rfl, rfl⟩

theorem keepsShapes_of_stageStep {w w' : DogmosWorld F} (h : StageStep (D := D) w w') :
    KeepsShapes w w' := by
  cases h with
  | unit h => exact keepsShapes_of_unitStep h
  | startDiffusion request h hkind =>
    exact .of_turfs (turfs_claimed (w.opened request) _).1 (turfs_claimed (w.opened request) _).2
  | startHeat request h hkind =>
    exact .of_turfs (turfs_claimed (w.opened request) _).1 (turfs_claimed (w.opened request) _).2
  | startReactions request h hkind =>
    exact .of_turfs (turfs_claimed (w.opened request) _).1 (turfs_claimed (w.opened request) _).2
  | claimComponents h => exact .of_turfs rfl rfl
  | startComponents request state h hkind hstate => exact .of_turfs rfl rfl
  | continuations h => exact (reactionClosed_keepsShapes w).continuations h (.refl w)
  | dropDiffusion => exact .of_turfs rfl rfl
  | dropHeat => exact .of_turfs rfl rfl
  | dropReactions => exact .of_turfs rfl rfl
  | finishDiffusion state h hfree => exact .of_turfs rfl rfl
  | finishHeat state h hfree => exact .of_turfs rfl rfl
  | finishReactions state h hfree events => exact .of_turfs rfl rfl
  | nextComponent state h hfree => exact .of_turfs rfl rfl
  | finishComponents state h => exact .of_turfs rfl rfl
  | abort => exact .of_turfs (turfs_abortStage w).1 (turfs_abortStage w).2

end Stages

end DogmosWorld

end Dogmos
