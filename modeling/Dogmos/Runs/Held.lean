import Dogmos.Core.Commands
import Dogmos.Runs.Records

/-!
# What mixtures come to hold

Wherever a world writes amounts into a mixture, it has dropped the traces, or it writes amounts that
a mixture holds already, or what a removal takes or leaves.  `Made` says so of one amount, and
`Licit I` of the amounts of a record that worlds which meet `I` may write.
-/

namespace Dogmos

variable {F D : Type} [FloatFormat F]

/-! ## Arrays -/

section Arrays

variable {index : Nat}

theorem Gases.at_eq_getElem (gases : Gases F) (h : index < maxGasSlots) :
    gases.at index = gases[index] := by
  simp [Gases.at, Vector.getElem?_eq_getElem h]

theorem Gases.at_of_le (gases : Gases F) (h : maxGasSlots ≤ index) : gases.at index = 0.0 := by
  simp [Gases.at, Vector.getElem?_eq_none h]

theorem Gases.at_map (gases : Gases F) (f : F → F) (h : index < maxGasSlots) :
    Gases.at (gases.map f) index = f (gases.at index) := by
  rw [at_eq_getElem _ h, at_eq_getElem _ h, Vector.getElem_map]

theorem Gases.at_zipWith (left right : Gases F) (f : F → F → F) (h : index < maxGasSlots) :
    Gases.at (Vector.zipWith f left right) index = f (left.at index) (right.at index) := by
  rw [at_eq_getElem _ h, at_eq_getElem _ h, at_eq_getElem _ h, Vector.getElem_zipWith]

theorem Gases.at_ofFn (f : Fin maxGasSlots → F) (h : index < maxGasSlots) :
    Gases.at (Vector.ofFn f) index = f ⟨index, h⟩ := by
  rw [at_eq_getElem _ h, Vector.getElem_ofFn]

theorem Gases.at_noGases (index : Nat) : Gases.at (noGases : Gases F) index = 0.0 := by
  by_cases h : index < maxGasSlots
  · rw [at_eq_getElem _ h, noGases, Vector.getElem_replicate]
  · exact at_of_le _ (Nat.le_of_not_lt h)

theorem Gases.at_put (gases : Gases F) (index other : Nat) (amount : F) :
    (gases.put index amount).at other =
      if other = index ∧ index < maxGasSlots then amount else gases.at other := by
  unfold Gases.put Gases.at
  rw [Vector.getElem?_setIfInBounds]
  by_cases h : index = other
  · subst h
    by_cases hlt : index < maxGasSlots
    · simp [hlt]
    · simp [hlt]
  · rw [if_neg h, if_neg fun hboth => h hboth.1.symm]

end Arrays

/-! ## Amounts -/

/-- The amounts of a record are what `canonicalize_gases` returns. -/
def MixtureRecord.Canonical (record : MixtureRecord F) : Prop :=
  ∃ gases, record.gases = canonicalizeGases gases

/-- What a write makes of amounts that are held. -/
inductive Made (held : F → Prop) : F → Prop
  | held {a : F} (h : held a) : Made held a
  | dropped (a : F) : Made held (dropTrace a)
  | removed {a : F} (h : held a) (ratio : F) :
      Made held (quantizedRemoval a (FloatFormat.clamp ratio 0.0 1.0))
  | left {a : F} (h : held a) (ratio : F) : Made held (a - quantizedRemoval a ratio)

namespace DogmosWorld

/-- An amount of a visible record of a world that meets a property. -/
def HeldIn (I : DogmosWorld F → Prop) (a : F) : Prop :=
  ∃ w slot record, I w ∧ w.mixtureAt slot = some record ∧
    ∃ index, index < maxGasSlots ∧ record.gases.at index = a

/-- Every amount of a record is held. -/
def Held (I : DogmosWorld F → Prop) (record : MixtureRecord F) : Prop :=
  ∀ index, index < maxGasSlots → HeldIn I (record.gases.at index)

/-- Every amount of a record is made of amounts that are held. -/
def Licit (I : DogmosWorld F → Prop) (record : MixtureRecord F) : Prop :=
  ∀ index, index < maxGasSlots → Made (HeldIn I) (record.gases.at index)

section Licit

variable {I : DogmosWorld F → Prop} {w : DogmosWorld F} {record r : MixtureRecord F}

theorem held_of_visible {slot : Nat} (hw : I w) (h : w.mixtureAt slot = some record) :
    Held I record :=
  fun index hindex => ⟨w, slot, record, hw, h, index, hindex, rfl⟩

theorem held_of_requireHandle {handle : MixtureHandle} (hw : I w)
    (h : w.requireHandle handle = .ok record) : Held I record :=
  held_of_visible hw (requireHandle_eq_ok.1 h).2

theorem Held.licit (h : Held I r) (hgases : record.gases = r.gases) : Licit I record := by
  intro index hindex
  rw [hgases]
  exact .held (h index hindex)

theorem licit_of_canonical (h : record.Canonical) : Licit I record := by
  obtain ⟨gases, hgases⟩ := h
  intro index hindex
  rw [hgases, canonicalizeGases, Gases.at_map _ _ hindex]
  exact .dropped _

end Licit

/-! ## Records computed again -/

variable [FloatFormat D] [FloatCast F D]

/-- The record computed again, at the same revision; an immutable one stays. -/
structure Recomputed (r s : MixtureRecord F) : Prop where
  revision : s.revision = r.revision
  immutable : s.immutable = r.immutable
  same : r.immutable = true → s = r

omit [FloatFormat F] [FloatFormat D] [FloatCast F D] in
theorem Recomputed.refl (r : MixtureRecord F) : Recomputed r r := ⟨rfl, rfl, fun _ => rfl⟩

omit [FloatFormat F] [FloatFormat D] [FloatCast F D] in
theorem Recomputed.trans {r s t : MixtureRecord F} (h : Recomputed r s) (h' : Recomputed s t) :
    Recomputed r t := by
  refine ⟨h'.revision.trans h.revision, h'.immutable.trans h.immutable, fun hr => ?_⟩
  rw [h'.same (h.immutable.trans hr), h.same hr]

theorem recomputed_mergeRecord (receiver giver : MixtureRecord F) (specificHeats : List F) :
    Recomputed receiver (mergeRecord receiver giver specificHeats) := by
  unfold mergeRecord
  split
  · exact .refl _
  · next hmutable => exact ⟨rfl, rfl, fun himmutable => absurd himmutable hmutable⟩

omit [FloatFormat D] [FloatCast F D] in
theorem recomputed_removeRatioIntoRecord (source destination : MixtureRecord F) (ratio : F) :
    Recomputed source (removeRatioIntoRecord source destination ratio).1 := by
  unfold removeRatioIntoRecord
  split
  · exact .refl _
  · dsimp only
    split
    · exact .refl _
    · next hmutable => exact ⟨rfl, rfl, fun himmutable => absurd himmutable hmutable⟩

omit [FloatFormat D] [FloatCast F D] in
theorem recomputed_canonicalRecord (mixture : MixtureRecord F) :
    Recomputed mixture (canonicalRecord mixture) := by
  unfold canonicalRecord
  split
  · exact .refl _
  · next hmutable => exact ⟨rfl, rfl, fun himmutable => absurd himmutable hmutable⟩

theorem recomputed_sharedRecords (first second : MixtureRecord F) (ratio : F) (oneWay : Bool)
    (specificHeats : List F) :
    Recomputed first (sharedRecords first second ratio oneWay specificHeats).1 ∧
      Recomputed second (sharedRecords first second ratio oneWay specificHeats).2 := by
  unfold sharedRecords
  split
  · exact ⟨(recomputed_removeRatioIntoRecord _ _ _).trans (recomputed_mergeRecord _ _ _), .refl _⟩
  · exact ⟨(recomputed_removeRatioIntoRecord _ _ _).trans (recomputed_mergeRecord _ _ _),
      (recomputed_removeRatioIntoRecord _ _ _).trans (recomputed_mergeRecord _ _ _)⟩

end DogmosWorld

end Dogmos
