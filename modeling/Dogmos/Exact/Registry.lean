import Dogmos.Exact.Amounts
import Dogmos.Runs.Registries

/-!
# The gas registry

Gases are numbered by their place in the registry and every specific heat is positive, because a
registry is installed only when its constructor accepts it (`equipped_of_reachable`).
-/

namespace Dogmos

open Exec

variable {F D : Type} [FloatFormat F]

/-- A registry as its constructor builds it. -/
structure GasMetadataRegistry.WellFormed (registry : GasMetadataRegistry F) : Prop where
  length : registry.gases.length ≤ maxGasSlots
  numbered : ∀ (i : Nat) (gas : GasMetadata F), registry.gases[i]? = some gas → gas.id.index = i
  valid : ∀ gas ∈ registry.gases, validateGas gas registry.gases.length = .ok ()
  specificHeats : registry.specificHeats = registry.gases.map GasMetadata.specificHeat

/-- One round of the checks. -/
theorem collectGasKeys_cons {gasCount expected : Nat} {gas : GasMetadata F}
    {rest : List (GasMetadata F)} {idsByKey result : Std.TreeMap String GasId}
    (h : collectGasKeys gasCount (gas :: rest) expected idsByKey = .ok result) :
    gas.id = ⟨UInt16.ofNat expected⟩ ∧ validateGas gas gasCount = .ok () ∧
      collectGasKeys gasCount rest (expected + 1) (idsByKey.insert gas.key gas.id) =
        .ok result := by
  unfold collectGasKeys at h
  simp only [bind, Except.bind] at h
  by_cases hid : gas.id ≠ ⟨UInt16.ofNat expected⟩
  · rw [if_pos hid] at h
    cases h
  by_cases hkey : gas.key = ""
  · rw [if_neg hid, if_pos hkey] at h
    cases h
  by_cases hnew : idsByKey.contains gas.key = true
  · rw [if_neg hid, if_neg hkey, if_pos hnew] at h
    cases h
  rw [if_neg hid, if_neg hkey, if_neg hnew] at h
  rcases hvalid : validateGas gas gasCount with error | valid
  · rw [hvalid] at h
    cases h
  · rw [hvalid] at h
    exact ⟨of_not_not hid, rfl, h⟩

theorem collectGasKeys_ok {gasCount : Nat} : ∀ {gases : List (GasMetadata F)} {expected : Nat}
    {idsByKey idsByKey' : Std.TreeMap String GasId},
    collectGasKeys gasCount gases expected idsByKey = .ok idsByKey' →
      ∀ (i : Nat) (gas : GasMetadata F), gases[i]? = some gas →
        gas.id = ⟨UInt16.ofNat (expected + i)⟩ ∧ validateGas gas gasCount = .ok () := by
  intro gases
  induction gases with
  | nil =>
    intro _ _ _ _ i gas h
    simp at h
  | cons gas rest ih =>
    intro expected idsByKey idsByKey' h i other hother
    obtain ⟨hid, hvalid, hrest⟩ := collectGasKeys_cons h
    rcases i with _ | i
    · cases hother
      exact ⟨hid, hvalid⟩
    · obtain ⟨hplace, hother⟩ := ih hrest i other hother
      refine ⟨?_, hother⟩
      rw [hplace]
      congr 2
      omega

/-- A collected key is that of the gas it leads to. -/
theorem collectGasKeys_key {gasCount : Nat} : ∀ {gases : List (GasMetadata F)} {expected : Nat}
    {idsByKey idsByKey' : Std.TreeMap String GasId},
    collectGasKeys gasCount gases expected idsByKey = .ok idsByKey' →
      ∀ (key : String) (id : GasId), idsByKey'[key]? = some id →
        idsByKey[key]? = some id ∨ ∃ gas ∈ gases, gas.key = key ∧ gas.id = id := by
  intro gases
  induction gases with
  | nil =>
    intro _ _ _ h key id hkey
    cases h
    exact .inl hkey
  | cons gas rest ih =>
    intro expected idsByKey idsByKey' h key id hkey
    obtain ⟨-, -, hrest⟩ := collectGasKeys_cons h
    rcases ih hrest key id hkey with hnew | ⟨other, hother, heq⟩
    · rw [Std.TreeMap.getElem?_insert] at hnew
      split at hnew
      · next hsame =>
        exact .inr ⟨gas, List.mem_cons_self, by simpa using hsame, Option.some.inj hnew⟩
      · exact .inl hnew
    · exact .inr ⟨other, List.mem_cons_of_mem _ hother, heq⟩

/-- No key is collected twice. -/
theorem collectGasKeys_distinct {gasCount : Nat} : ∀ {gases : List (GasMetadata F)} {expected : Nat}
    {idsByKey idsByKey' : Std.TreeMap String GasId},
    collectGasKeys gasCount gases expected idsByKey = .ok idsByKey' →
      (∀ gas ∈ gases, idsByKey.contains gas.key = false) ∧
        (gases.map GasMetadata.key).Nodup := by
  intro gases
  induction gases with
  | nil => exact fun _ => ⟨fun gas hgas => (by cases hgas), List.nodup_nil⟩
  | cons gas rest ih =>
    intro expected idsByKey idsByKey' h
    have hnew : idsByKey.contains gas.key = false := by
      unfold collectGasKeys at h
      simp only [bind, Except.bind] at h
      split at h
      · cases h
      split at h
      · cases h
      split at h
      · cases h
      · next hnew => exact Bool.eq_false_iff.2 hnew
    obtain ⟨hrest, hnodup⟩ := ih (collectGasKeys_cons h).2.2
    simp only [Std.TreeMap.contains_insert, Bool.or_eq_false_iff] at hrest
    refine ⟨List.forall_mem_cons.2 ⟨hnew, fun other hother => (hrest other hother).2⟩, ?_⟩
    rw [List.map_cons, List.nodup_cons]
    refine ⟨fun hrepeated => ?_, hnodup⟩
    obtain ⟨other, hother, heq⟩ := List.mem_map.1 hrepeated
    have hdiffers := (hrest other hother).1
    rw [heq] at hdiffers
    simp at hdiffers

/-- How a constructor call that is accepted builds the registry. -/
theorem GasMetadataRegistry.tryNew_ok {list : List (GasMetadata F)}
    {registry : GasMetadataRegistry F} (h : GasMetadataRegistry.tryNew list = .ok registry) :
    registry.gases.length ≤ maxGasSlots ∧
      collectGasKeys registry.gases.length registry.gases 0 ∅ = .ok registry.idsByKey ∧
      registry.specificHeats = registry.gases.map GasMetadata.specificHeat := by
  unfold GasMetadataRegistry.tryNew at h
  simp only [bind, Except.bind] at h
  by_cases hmany : maxGasSlots < list.length
  · rw [if_pos hmany] at h
    cases h
  rw [if_neg hmany] at h
  have hlength := List.length_insertionSort (fun a b : GasMetadata F => a.id.val ≤ b.id.val) list
  generalize list.insertionSort (fun a b => a.id.val ≤ b.id.val) = sorted at h hlength
  rcases hrepeated : firstRepeated GasMetadata.id sorted with _ | duplicate
  · rw [hrepeated] at h
    dsimp only [pure, Except.pure] at h
    rcases hkeys : collectGasKeys sorted.length sorted 0 ∅ with error | idsByKey
    · rw [hkeys] at h
      cases h
    · rw [hkeys] at h
      cases h
      exact ⟨Nat.le_trans (Nat.le_of_eq hlength) (Nat.le_of_not_lt hmany), hkeys, rfl⟩
  · rw [hrepeated] at h
    cases h

theorem GasMetadataRegistry.wellFormed_of_tryNew {list : List (GasMetadata F)}
    {registry : GasMetadataRegistry F} (h : GasMetadataRegistry.tryNew list = .ok registry) :
    registry.WellFormed := by
  obtain ⟨hlength, hkeys, hheats⟩ := tryNew_ok h
  have hplaces := collectGasKeys_ok hkeys
  refine ⟨hlength, fun i gas hgas => ?_, fun gas hgas => ?_, hheats⟩
  · have hi : i < registry.gases.length := (List.getElem?_eq_some_iff.1 hgas).1
    have hsmall : i < 65536 := by
      unfold maxGasSlots at hlength
      omega
    rw [(hplaces i gas hgas).1, Nat.zero_add]
    exact UInt16.toNat_ofNat_of_lt' hsmall
  · obtain ⟨i, hi⟩ := List.mem_iff_getElem?.1 hgas
    exact (hplaces i gas hi).2

/-- The gas that a registry finds by a key has this key, and its id is its place. -/
theorem GasMetadataRegistry.byKey_of_tryNew {list : List (GasMetadata F)}
    {registry : GasMetadataRegistry F} (h : GasMetadataRegistry.tryNew list = .ok registry)
    {key : String} {gas : GasMetadata F} (hgas : registry.byKey key = some gas) :
    gas.key = key ∧ registry.gases[gas.id.index]? = some gas := by
  have hformed := wellFormed_of_tryNew h
  unfold GasMetadataRegistry.byKey GasMetadataRegistry.byId at hgas
  obtain ⟨id, hid, hplace⟩ := Option.bind_eq_some_iff.1 hgas
  have hindex := hformed.numbered id.index gas hplace
  rw [hindex]
  refine ⟨?_, hplace⟩
  obtain ⟨-, hkeys, -⟩ := tryNew_ok h
  rcases collectGasKeys_key hkeys key id hid with hempty | ⟨other, hother, hkey, hotherId⟩
  · simp at hempty
  · obtain ⟨i, hi⟩ := List.mem_iff_getElem?.1 hother
    have hotherIndex := hformed.numbered i other hi
    rw [hotherId] at hotherIndex
    rw [← hotherIndex, hplace] at hi
    rw [Option.some.inj hi, hkey]

theorem specificHeat_of_validateGas {gas : GasMetadata ℚ} {gasCount : Nat}
    (h : validateGas gas gasCount = .ok ()) : 0 < gas.specificHeat := by
  by_contra hheat
  unfold validateGas at h
  simp only [bind, Except.bind] at h
  rw [if_pos (by simpa using hheat)] at h
  cases h

namespace DogmosWorld

/-- The installed gases are a registry as its constructor builds it. -/
def Equipped (w : DogmosWorld F) : Prop :=
  ∀ registry, w.gasRegistry = some registry → registry.WellFormed

theorem keeps_equipped_installGases (gases : List (GasMetadata F)) :
    Keeps Equipped (installGases gases) := by
  unfold installGases
  refine keeps_get_bind_at fun w hw => ?_
  dsimp only
  by_cases hgas : w.gasRegistry.isSome
  · rw [if_pos hgas]
    exact hw
  by_cases hempty : ¬w.mixtures.isEmpty
  · rw [if_neg hgas, if_pos hempty]
    exact hw
  rw [if_neg hgas, if_neg hempty, run_bind, run_check]
  rcases hbuilt : GasMetadataRegistry.tryNew gases with error | registry
  · exact hw
  · intro installed hinstalled
    cases hinstalled
    exact GasMetadataRegistry.wellFormed_of_tryNew hbuilt

theorem keeps_equipped_installReactions (reactions : List (ReactionMetadata F)) :
    Keeps Equipped (installReactions reactions) := by
  unfold installReactions
  refine keeps_get_bind_at fun w hw => ?_
  dsimp only
  by_cases hregistry : w.reactionRegistry.isSome
  · rw [if_pos hregistry]
    exact hw
  by_cases hempty : ¬w.mixtures.isEmpty
  · rw [if_neg hregistry, if_pos hempty]
    exact hw
  rw [if_neg hregistry, if_neg hempty, run_bind, run_check]
  rcases w.requireGases with error | gases
  · exact hw
  · dsimp only
    rw [run_bind, run_check]
    rcases (ReactionMetadataRegistry.tryNew reactions gases).mapError
      WorldError.reactionMetadata with error | registry <;> exact hw

variable {w : DogmosWorld F} [FloatFormat D] [FloatCast F D]

theorem equipped_of_reachable (h : Reachable (D := D) w) : w.Equipped := by
  refine reachable_induct (fun w hinit => ?_) (fun w op hw => ?_) h
  · obtain ⟨_, _, _, _, _, rfl⟩ := hinit
    exact fun registry hregistry => by cases hregistry
  · by_cases hop : op.IsInstall
    · cases hop with
      | installGases gases => exact keeps_discard (keeps_equipped_installGases gases) w hw
      | installReactions reactions =>
        exact keeps_discard (keeps_equipped_installReactions reactions) w hw
    · intro registry hregistry
      have hsame : (step w op).gasRegistry = w.gasRegistry :=
        congrArg Prod.fst (registries_step (w := w) hop)
      rw [hsame] at hregistry
      exact hw registry hregistry

end DogmosWorld

namespace DogmosWorld

/-- The specific heats of the installed gases. -/
def heats (w : DogmosWorld ℚ) : List ℚ :=
  (w.gasRegistry.map GasMetadataRegistry.specificHeats).getD []

theorem Equipped.heats_nonneg {w : DogmosWorld ℚ} (h : w.Equipped) : HeatsNonneg w.heats := by
  intro index
  unfold heats
  rcases hgas : w.gasRegistry with _ | registry
  · simp [heatAt]
  · obtain ⟨-, -, hvalid, hheats⟩ := h registry hgas
    rw [Option.map_some, Option.getD_some, heatAt, hheats, List.getElem?_map]
    rcases hat : registry.gases[index]? with _ | gas
    · simp
    · exact (specificHeat_of_validateGas (hvalid gas (List.mem_of_getElem? hat))).le

end DogmosWorld

end Dogmos
