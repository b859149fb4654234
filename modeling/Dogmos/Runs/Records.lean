import Dogmos.Core.TurfOps

/-!
# Reading records after a write

What `requireHandle` and `requireTurfHandle` find after each of the writes to the
mixture and the turf slots.  A write to one slot is seen there and nowhere else,
and tokens that are invalidated on the way are never visible ones.
-/

namespace Dogmos

namespace DogmosWorld

variable {F : Type}

/-- The generation of a mixture slot. -/
def mixtureGeneration (w : DogmosWorld F) (slot : UInt32) : Option UInt32 :=
  w.mixtures[slot.toNat]?.bind MixtureSlot.generation

theorem requireHandle_eq_ok {w : DogmosWorld F} {handle : MixtureHandle} {mixture : MixtureRecord F} :
    w.requireHandle handle = .ok mixture ↔
      w.mixtureGeneration handle.slot = some handle.generation ∧
        w.mixtureAt handle.slot.toNat = some mixture := by
  unfold requireHandle mixtureGeneration mixtureAt
  rcases w.mixtures[handle.slot.toNat]? with _ | ⟨_ | generation, record⟩
  · simp [throw, throwThe, MonadExceptOf.throw]
  · simp [throw, throwThe, MonadExceptOf.throw]
  · by_cases hgeneration : generation = handle.generation
    · rcases hrecord : record.asRef w.publications with _ | found
      · simp [hgeneration, hrecord, throw, throwThe, MonadExceptOf.throw]
      · simp [hgeneration, hrecord, pure, Except.pure]
    · simp [hgeneration, throw, throwThe, MonadExceptOf.throw]

theorem requireTurfHandle_eq_ok {w : DogmosWorld F} {handle : TurfHandle} {turf : TurfRecord F} :
    w.requireTurfHandle handle = .ok turf ↔
      w.turfGeneration handle.slot = some handle.generation ∧
        w.turfAt handle.slot.toNat = some turf := by
  unfold requireTurfHandle turfGeneration turfAt
  rcases w.turfs[handle.slot.toNat]? with _ | ⟨_ | generation, record⟩
  · simp [throw, throwThe, MonadExceptOf.throw]
  · simp [throw, throwThe, MonadExceptOf.throw]
  · by_cases hgeneration : generation = handle.generation
    · rcases hrecord : record.asRef w.publications with _ | found
      · simp [hgeneration, hrecord, throw, throwThe, MonadExceptOf.throw]
      · simp [hgeneration, hrecord, pure, Except.pure]
    · simp [hgeneration, throw, throwThe, MonadExceptOf.throw]

theorem currentTurfHandle_eq_ok {w : DogmosWorld F} {slot : UInt32} {handle : TurfHandle} :
    w.currentTurfHandle slot = .ok handle ↔
      handle.slot = slot ∧ ∃ turf, w.requireTurfHandle handle = .ok turf := by
  unfold currentTurfHandle
  rcases hgeneration : w.turfs[slot.toNat]?.bind TurfSlot.generation with _ | generation
  · constructor
    · intro h
      cases h
    · rintro ⟨rfl, turf, hturf⟩
      obtain ⟨hfound, -⟩ := requireTurfHandle_eq_ok.1 hturf
      unfold turfGeneration at hfound
      rw [hgeneration] at hfound
      cases hfound
  · dsimp only
    constructor
    · intro h
      rcases hturf : w.requireTurfHandle ⟨slot, generation⟩ with error | turf
      · rw [hturf] at h
        cases h
      · rw [hturf] at h
        cases h
        exact ⟨rfl, turf, hturf⟩
    · rintro ⟨rfl, turf, hturf⟩
      obtain ⟨hfound, -⟩ := requireTurfHandle_eq_ok.1 hturf
      have hsame : generation = handle.generation := by
        unfold turfGeneration at hfound
        rw [hgeneration] at hfound
        exact Option.some.inj hfound
      subst hsame
      rw [hturf]
      rfl

/-! ## Turf slots -/

section Turfs

variable (w : DogmosWorld F) (slot other : Nat) (f : TurfRecord F → TurfRecord F)

theorem visible_writeTurf (id : PublicationId) :
    (w.writeTurf slot f).publications.visible id = w.publications.visible id := by
  unfold writeTurf
  split
  · rfl
  · exact Versioned.visible_settleTokens _ _ _

theorem length_writeTurf : (w.writeTurf slot f).turfs.length = w.turfs.length := by
  unfold writeTurf
  split
  · rfl
  · exact List.length_set

theorem turfAt_writeTurf :
    (w.writeTurf slot f).turfAt other =
      if other = slot then (w.turfAt other).map f else w.turfAt other := by
  unfold turfAt
  unfold writeTurf
  rcases hentry : w.turfs[slot]? with _ | entry
  · by_cases hother : other = slot
    · simp [hother, hentry]
    · simp [hother]
  · dsimp only
    by_cases hother : other = slot
    · subst hother
      have hlen := (List.getElem?_eq_some_iff.1 hentry).1
      rw [List.getElem?_set_self hlen, if_pos rfl, hentry]
      rfl
    · rw [List.getElem?_set_ne (Ne.symm hother), if_neg hother]
      congr 1
      funext found
      exact found.turf.asRef_congr _ fun id => Versioned.visible_settleTokens _ _ _

theorem turfGeneration_writeTurf (slot' : UInt32) :
    (w.writeTurf slot f).turfGeneration slot' = w.turfGeneration slot' := by
  unfold turfGeneration
  unfold writeTurf
  rcases hentry : w.turfs[slot]? with _ | entry
  · rfl
  · dsimp only
    by_cases hother : slot'.toNat = slot
    · subst hother
      have hlen := (List.getElem?_eq_some_iff.1 hentry).1
      rw [List.getElem?_set_self hlen, hentry]
      rfl
    · rw [List.getElem?_set_ne (Ne.symm hother)]

end Turfs

section PutTurf

variable (w : DogmosWorld F) (slot : UInt32) (f : TurfSlot F → TurfSlot F)

theorem turfAt_putTurf_of_ne {other : Nat} (h : other ≠ slot.toNat) :
    (w.putTurf slot f).turfAt other = w.turfAt other := by
  unfold turfAt putTurf
  simp [Ne.symm h]

theorem turfGeneration_putTurf_of_ne {other : UInt32} (h : other ≠ slot) :
    (w.putTurf slot f).turfGeneration other = w.turfGeneration other := by
  unfold turfGeneration putTurf
  have hslot : slot.toNat ≠ other.toNat := fun heq => h (UInt32.toNat_inj.1 heq).symm
  simp [hslot]

theorem turfs_putTurf_self : (w.putTurf slot f).turfs[slot.toNat]? = w.turfs[slot.toNat]?.map f := by
  unfold putTurf
  dsimp only
  rw [List.getElem?_modify_eq]
  rfl

end PutTurf

/-! ## Mixture slots -/

section Mixtures

variable (w : DogmosWorld F) (slot other : Nat) (f : MixtureRecord F → MixtureRecord F)

theorem visible_writeMixture (id : PublicationId) :
    (w.writeMixture slot f).publications.visible id = w.publications.visible id := by
  unfold writeMixture
  split
  · rfl
  · exact Versioned.visible_settleTokens _ _ _

theorem turfs_writeMixture : (w.writeMixture slot f).turfs = w.turfs := by
  unfold writeMixture
  split <;> rfl

theorem mixtureAt_writeMixture :
    (w.writeMixture slot f).mixtureAt other =
      if other = slot then (w.mixtureAt other).map f else w.mixtureAt other := by
  unfold mixtureAt
  unfold writeMixture
  rcases hentry : w.mixtures[slot]? with _ | entry
  · by_cases hother : other = slot
    · simp [hother, hentry]
    · simp [hother]
  · dsimp only
    by_cases hother : other = slot
    · subst hother
      have hlen := (List.getElem?_eq_some_iff.1 hentry).1
      rw [List.getElem?_set_self hlen, if_pos rfl, hentry]
      rfl
    · rw [List.getElem?_set_ne (Ne.symm hother), if_neg hother]
      congr 1
      funext found
      exact found.mixture.asRef_congr _ fun id => Versioned.visible_settleTokens _ _ _

theorem mixtureGeneration_writeMixture (slot' : UInt32) :
    (w.writeMixture slot f).mixtureGeneration slot' = w.mixtureGeneration slot' := by
  unfold mixtureGeneration
  unfold writeMixture
  rcases hentry : w.mixtures[slot]? with _ | entry
  · rfl
  · dsimp only
    by_cases hother : slot'.toNat = slot
    · subst hother
      have hlen := (List.getElem?_eq_some_iff.1 hentry).1
      rw [List.getElem?_set_self hlen, hentry]
      rfl
    · rw [List.getElem?_set_ne (Ne.symm hother)]

end Mixtures

end DogmosWorld

end Dogmos
