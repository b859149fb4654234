import Dogmos.Runs.Adjacency
import Dogmos.Runs.Tokens

/-!
# The active heat list

`heatActive` lists the turfs whose heat is active, and each of them stores its
position.  `HeatInOrder` says that the two are inverse to each other, that the
listed handles are current, and that only turfs with heat are listed.  Here it is
shown for the batches, which edit the list in place; the stage that rebuilds the
list on a copy follows in its own module.
-/

namespace Dogmos

/-- The handles of a list are current, and `index` gives the slot of each its position. -/
structure Indexed (l : List TurfHandle) (generation : UInt32 → Option UInt32)
    (index : UInt32 → Option Nat) : Prop where
  back : BackIndexed (l.map TurfHandle.slot) index
  current : ∀ handle ∈ l, generation handle.slot = some handle.generation

section Indexed

variable {l : List TurfHandle} {generation : UInt32 → Option UInt32} {index : UInt32 → Option Nat}

theorem map_swapRemove {α β : Type} (f : α → β) (l : List α) (i : Nat) :
    (swapRemove l i).map f = swapRemove (l.map f) i := by
  unfold swapRemove
  rw [List.getLast?_map]
  rcases l.getLast? with _ | last
  · rfl
  · simp only [Option.map_some, ← List.map_set, List.map_dropLast]

theorem mem_of_mem_swapRemove {α : Type} {l : List α} {i : Nat} {a : α} (h : a ∈ swapRemove l i) :
    a ∈ l := by
  obtain ⟨j, hj⟩ := List.mem_iff_getElem?.1 h
  rw [getElem?_swapRemove] at hj
  split at hj
  · split at hj
    · exact List.mem_of_getLast? hj
    · exact List.mem_of_getElem? hj
  · cases hj

theorem Indexed.congr (h : Indexed l generation index) {generation' : UInt32 → Option UInt32}
    {index' : UInt32 → Option Nat} (hgeneration : ∀ handle ∈ l,
      generation' handle.slot = generation handle.slot) (hindex : ∀ slot, index' slot = index slot) :
    Indexed l generation' index' :=
  ⟨h.back.congr hindex, fun handle hmem => (hgeneration handle hmem).trans (h.current handle hmem)⟩

/-- A slot without a position is not listed. -/
theorem Indexed.slot_ne (h : Indexed l generation index) {slot : UInt32} (hslot : index slot = none)
    {handle : TurfHandle} (hmem : handle ∈ l) : handle.slot ≠ slot := by
  rintro rfl
  have := h.back.mem_iff.1 (List.mem_map_of_mem (f := TurfHandle.slot) hmem)
  rw [hslot] at this
  cases this

/-- There is a position left for a slot that has none. -/
theorem Indexed.length_lt (h : Indexed l generation index) {slot : UInt32}
    (hslot : index slot = none) : l.length < 2 ^ 32 := by
  have hnot : slot ∉ l.map TurfHandle.slot := by
    rw [h.back.mem_iff, hslot]
    exact Bool.false_ne_true
  have hnodup : ((slot :: l.map TurfHandle.slot).map UInt32.toNat).Nodup := by
    refine List.Nodup.map (fun a b hab => UInt32.toNat_inj.1 hab) ?_
    exact List.nodup_cons.2 ⟨hnot, h.back.nodup⟩
  have hsubset : (slot :: l.map TurfHandle.slot).map UInt32.toNat ⊆ List.range (2 ^ 32) := by
    intro n hn
    obtain ⟨s, -, rfl⟩ := List.mem_map.1 hn
    exact List.mem_range.2 s.toNat_lt
  have hlength := (hnodup.subperm hsubset).length_le
  rw [List.length_range, List.length_map, List.length_cons, List.length_map] at hlength
  omega

theorem Indexed.push (h : Indexed l generation index) {handle : TurfHandle}
    (hslot : index handle.slot = none) (hcurrent : generation handle.slot = some handle.generation) :
    Indexed (l ++ [handle]) generation (Function.update index handle.slot (some l.length)) := by
  refine ⟨?_, ?_⟩
  · rw [List.map_append]
    have hpushed := h.back.push hslot
    rwa [List.length_map] at hpushed
  · intro other hother
    rcases List.mem_append.1 hother with hold | hnew
    · exact h.current other hold
    · cases List.mem_singleton.1 hnew
      exact hcurrent

/-- The positions after the turf of a slot left the list. -/
def indexRemoved (l : List TurfHandle) (index : UInt32 → Option Nat) (slot : UInt32) (i : Nat) :
    UInt32 → Option Nat :=
  Function.update
    (match (swapRemove l i)[i]? with
    | some moved => Function.update index moved.slot (some i)
    | none => index) slot none

theorem Indexed.remove (h : Indexed l generation index) {slot : UInt32} {i : Nat}
    (hslot : index slot = some i) :
    Indexed (swapRemove l i) generation (indexRemoved l index slot i) := by
  refine ⟨?_, fun handle hmem => h.current handle (mem_of_mem_swapRemove hmem)⟩
  rw [map_swapRemove]
  have hsame : indexRemoved l index slot i =
      BackIndexed.removed (l.map TurfHandle.slot) index slot i := by
    unfold indexRemoved BackIndexed.removed
    rw [← map_swapRemove, List.getElem?_map]
    rcases (swapRemove l i)[i]? with _ | moved <;> rfl
  rw [hsame]
  exact h.back.remove hslot

end Indexed

namespace DogmosWorld

open Exec

variable {F D : Type}

/-- The position on the active list that a turf record stores. -/
def storedIndex (turf : Option (TurfRecord F)) : Option Nat :=
  (turf.bind TurfRecord.heatActiveIndex).map UInt32.toNat

/-- The position that the turf of a slot stores. -/
def heatIndexAt (w : DogmosWorld F) (slot : UInt32) : Option Nat := storedIndex (w.turfAt slot.toNat)

/-- The active list and the positions its turfs store are inverse to each other, and its turfs
have heat. -/
structure HeatInOrder (w : DogmosWorld F) : Prop where
  indexed : Indexed w.heatActive w.turfGeneration w.heatIndexAt
  heated : ∀ (slot : UInt32) turf, w.turfAt slot.toNat = some turf →
    turf.heatActiveIndex.isSome → turf.heat.isSome

section

variable {w w' : DogmosWorld F}

theorem HeatInOrder.of_same (h : w.HeatInOrder) (hactive : w'.heatActive = w.heatActive)
    (hgeneration : ∀ handle ∈ w.heatActive,
      w'.turfGeneration handle.slot = w.turfGeneration handle.slot)
    (hturf : ∀ slot, w'.turfAt slot = w.turfAt slot) : w'.HeatInOrder := by
  refine ⟨?_, fun slot turf hslot => h.heated slot turf (hturf slot.toNat ▸ hslot)⟩
  rw [hactive]
  refine h.indexed.congr hgeneration fun slot => ?_
  unfold heatIndexAt
  rw [hturf]

theorem HeatInOrder.of_turfs (h : w.HeatInOrder) (hactive : w'.heatActive = w.heatActive)
    (hturfs : w'.turfs = w.turfs)
    (hvisible : ∀ id, w.turfToken id → w'.publications.visible id = w.publications.visible id) :
    w'.HeatInOrder := by
  refine h.of_same hactive (fun handle _ => ?_) fun slot => ?_
  · unfold turfGeneration
    rw [hturfs]
  · unfold turfAt
    rw [hturfs]
    rcases hentry : w.turfs[slot]? with _ | entry
    · rfl
    · rw [Option.bind_some, Option.bind_some]
      unfold Versioned.asRef
      split
      · next id candidate hpending =>
        rw [hvisible id ⟨entry, List.mem_of_getElem? hentry, candidate, hpending⟩]
      · rfl

/-! ## Turf records written in place -/

theorem heatIndexAt_writeTurf (w : DogmosWorld F) (slot other : UInt32)
    (f : TurfRecord F → TurfRecord F) :
    (w.writeTurf slot.toNat f).heatIndexAt other =
      if other = slot then storedIndex ((w.turfAt slot.toNat).map f) else w.heatIndexAt other := by
  unfold heatIndexAt
  rw [turfAt_writeTurf]
  by_cases hother : other = slot
  · rw [if_pos hother, if_pos (congrArg UInt32.toNat hother), hother]
  · rw [if_neg hother, if_neg fun heq => hother (UInt32.toNat_inj.1 heq)]

theorem heatActive_writeTurf (w : DogmosWorld F) (slot : Nat) (f : TurfRecord F → TurfRecord F) :
    (w.writeTurf slot f).heatActive = w.heatActive := by
  unfold writeTurf
  split <;> rfl

/-- A position stored in the record of a slot that holds one. -/
theorem heatIndexAt_withIndex (w : DogmosWorld F) {slot : UInt32}
    (hslot : (w.turfAt slot.toNat).isSome) (index : Option UInt32) :
    (w.writeTurf slot.toNat (TurfRecord.withIndex index)).heatIndexAt =
      Function.update w.heatIndexAt slot (index.map UInt32.toNat) := by
  obtain ⟨turf, hturf⟩ := Option.isSome_iff_exists.1 hslot
  funext other
  rw [heatIndexAt_writeTurf]
  by_cases hother : other = slot
  · rw [if_pos hother, hother, Function.update_self, hturf]
    rfl
  · rw [if_neg hother, Function.update_of_ne hother]

/-- A write that keeps positions and heat. -/
theorem heatInOrder_writeTurf (h : w.HeatInOrder) (slot : UInt32) {f : TurfRecord F → TurfRecord F}
    (hindex : ∀ turf, (f turf).heatActiveIndex = turf.heatActiveIndex)
    (hheat : ∀ turf, turf.heat.isSome → (f turf).heat.isSome) :
    (w.writeTurf slot.toNat f).HeatInOrder := by
  refine ⟨?_, ?_⟩
  · rw [heatActive_writeTurf]
    refine h.indexed.congr (fun handle _ => turfGeneration_writeTurf ..) fun other => ?_
    rw [heatIndexAt_writeTurf]
    by_cases hother : other = slot
    · rw [if_pos hother, hother]
      unfold heatIndexAt storedIndex
      rcases w.turfAt slot.toNat with _ | turf
      · rfl
      · rw [Option.map_some, Option.bind_some, Option.bind_some, hindex]
    · rw [if_neg hother]
  · intro other turf hturf hsome
    rw [turfAt_writeTurf] at hturf
    split at hturf
    · obtain ⟨old, hold, rfl⟩ := Option.map_eq_some_iff.1 hturf
      rw [hindex] at hsome
      exact hheat old (h.heated _ old hold hsome)
    · exact h.heated other turf hturf hsome

theorem storedIndex_isSome {turf : TurfRecord F} :
    (storedIndex (some turf)).isSome = turf.heatActiveIndex.isSome := by
  unfold storedIndex
  rw [Option.bind_some, Option.isSome_map]

/-! ## Activation and deactivation -/

/-- The turf of a slot leaves the active list.  Its heat may be gone already. -/
theorem indexed_deactivate (h : Indexed w.heatActive w.turfGeneration w.heatIndexAt)
    (slot : UInt32) :
    Indexed (w.deactivateTurfHeatSlot slot).heatActive
        (w.deactivateTurfHeatSlot slot).turfGeneration
        (w.deactivateTurfHeatSlot slot).heatIndexAt ∧
      (w.deactivateTurfHeatSlot slot).heatIndexAt slot = none := by
  unfold deactivateTurfHeatSlot
  rcases hstored : (w.turfAt slot.toNat).bind TurfRecord.heatActiveIndex with _ | index
  · refine ⟨h, ?_⟩
    unfold heatIndexAt storedIndex
    rw [hstored]
    rfl
  · dsimp only
    have hindex : w.heatIndexAt slot = some index.toNat := by
      unfold heatIndexAt storedIndex
      rw [hstored]
      rfl
    have hremoved := h.remove hindex
    have hself : (w.turfAt slot.toNat).isSome := by
      obtain ⟨turf, hturf, -⟩ := Option.bind_eq_some_iff.1 hstored
      rw [hturf]
      rfl
    set removed := { w with heatActive := swapRemove w.heatActive index.toNat } with hw₁
    have hmovedTurf : ∀ moved ∈ swapRemove w.heatActive index.toNat,
        (removed.turfAt moved.slot.toNat).isSome := by
      intro moved hmem
      have hlisted := h.back.mem_iff.1
        (List.mem_map_of_mem (f := TurfHandle.slot) (mem_of_mem_swapRemove hmem))
      show (w.turfAt moved.slot.toNat).isSome
      rcases hturf : w.turfAt moved.slot.toNat with _ | turf
      · unfold heatIndexAt storedIndex at hlisted
        rw [hturf] at hlisted
        cases hlisted
      · rfl
    unfold indexRemoved at hremoved
    rcases hmoved : (swapRemove w.heatActive index.toNat)[index.toNat]? with _ | moved
    · rw [hmoved] at hremoved
      dsimp only at hremoved ⊢
      rw [heatIndexAt_withIndex removed hself, heatActive_writeTurf]
      exact ⟨hremoved.congr (fun handle _ => turfGeneration_writeTurf ..) fun _ => rfl,
        Function.update_self ..⟩
    · rw [hmoved] at hremoved
      dsimp only at hremoved ⊢
      have hself' : ((removed.writeTurf moved.slot.toNat
          (TurfRecord.withIndex (some index))).turfAt slot.toNat).isSome := by
        rw [turfAt_writeTurf]
        split
        · rw [Option.isSome_map]
          exact hself
        · exact hself
      rw [heatIndexAt_withIndex _ hself',
        heatIndexAt_withIndex removed (hmovedTurf moved (List.mem_of_getElem? hmoved)),
        heatActive_writeTurf, heatActive_writeTurf]
      refine ⟨hremoved.congr (fun handle _ => ?_) fun _ => rfl, Function.update_self ..⟩
      rw [turfGeneration_writeTurf, turfGeneration_writeTurf]
      rfl

theorem heat_withIndex (w : DogmosWorld F) (slot other : Nat) (index : Option UInt32) :
    ((w.writeTurf slot (TurfRecord.withIndex index)).turfAt other).map TurfRecord.heat =
      (w.turfAt other).map TurfRecord.heat := by
  rw [turfAt_writeTurf]
  split
  · rw [Option.map_map]
    rfl
  · rfl

/-- Leaving the active list touches positions only. -/
theorem heat_deactivate (w : DogmosWorld F) (slot : UInt32) (other : Nat) :
    ((w.deactivateTurfHeatSlot slot).turfAt other).map TurfRecord.heat =
      (w.turfAt other).map TurfRecord.heat := by
  unfold deactivateTurfHeatSlot
  split
  · rfl
  · rw [heat_withIndex]
    dsimp only
    split
    · rw [heat_withIndex]
      rfl
    · rfl

/-- The turfs that have a position keep it, or another one, when one leaves. -/
theorem indexed_of_deactivate (h : Indexed w.heatActive w.turfGeneration w.heatIndexAt)
    {slot other : UInt32} (hother : ((w.deactivateTurfHeatSlot slot).heatIndexAt other).isSome) :
    (w.heatIndexAt other).isSome := by
  have hlisted := (indexed_deactivate h slot).1.back.mem_iff.2 hother
  refine h.back.mem_iff.1 ?_
  obtain ⟨handle, hmem, rfl⟩ := List.mem_map.1 hlisted
  refine List.mem_map_of_mem (f := TurfHandle.slot) ?_
  unfold deactivateTurfHeatSlot at hmem
  split at hmem
  · exact hmem
  · dsimp only at hmem
    rw [heatActive_writeTurf] at hmem
    split at hmem
    · rw [heatActive_writeTurf] at hmem
      exact mem_of_mem_swapRemove hmem
    · exact mem_of_mem_swapRemove hmem

/-- A turf that leaves the active list, when only the others are known to have heat. -/
theorem heatInOrder_deactivate (h : Indexed w.heatActive w.turfGeneration w.heatIndexAt)
    (slot : UInt32) (hheated : ∀ other : UInt32, other ≠ slot → ∀ turf,
      w.turfAt other.toNat = some turf → turf.heatActiveIndex.isSome → turf.heat.isSome) :
    (w.deactivateTurfHeatSlot slot).HeatInOrder := by
  obtain ⟨hindexed, hnone⟩ := indexed_deactivate h slot
  refine ⟨hindexed, fun other turf hturf hsome => ?_⟩
  have hother : ((w.deactivateTurfHeatSlot slot).heatIndexAt other).isSome := by
    unfold heatIndexAt
    rw [hturf, storedIndex_isSome]
    exact hsome
  have hne : other ≠ slot := by
    rintro rfl
    rw [hnone] at hother
    cases hother
  have hheat := heat_deactivate w slot other.toNat
  rw [hturf, Option.map_some] at hheat
  obtain ⟨old, hold, hsame⟩ := Option.map_eq_some_iff.1 hheat.symm
  have holdIndex := indexed_of_deactivate h hother
  unfold heatIndexAt at holdIndex
  rw [hold, storedIndex_isSome] at holdIndex
  rw [← hsame]
  exact hheated other hne old hold holdIndex

/-- A turf with heat joins the end of the active list. -/
theorem heatInOrder_activate (h : w.HeatInOrder) {handle : TurfHandle} {turf : TurfRecord F}
    (hturf : w.requireTurfHandle handle = .ok turf) (hnone : turf.heatActiveIndex = none)
    (hheat : turf.heat.isSome) :
    ({ w with heatActive := w.heatActive ++ [handle] }.writeTurf handle.slot.toNat
      (TurfRecord.withIndex (some (UInt32.ofNat w.heatActive.length)))).HeatInOrder := by
  obtain ⟨hgeneration, hrecord⟩ := requireTurfHandle_eq_ok.1 hturf
  have hstored : w.heatIndexAt handle.slot = none := by
    unfold heatIndexAt storedIndex
    rw [hrecord, Option.bind_some, hnone]
    rfl
  have hlength := h.indexed.length_lt hstored
  have hpushed := h.indexed.push hstored hgeneration
  set pushed := { w with heatActive := w.heatActive ++ [handle] } with hp
  have hself : (pushed.turfAt handle.slot.toNat).isSome := by
    show (w.turfAt handle.slot.toNat).isSome
    rw [hrecord]
    rfl
  refine ⟨?_, fun other found hfound hsome => ?_⟩
  · rw [heatIndexAt_withIndex pushed hself, heatActive_writeTurf, Option.map_some,
      UInt32.toNat_ofNat_of_lt' hlength]
    exact hpushed.congr (fun _ _ => turfGeneration_writeTurf ..) fun _ => rfl
  · have hheats := heat_withIndex pushed handle.slot.toNat other.toNat
      (some (UInt32.ofNat w.heatActive.length))
    rw [hfound, Option.map_some] at hheats
    obtain ⟨old, hold, hsame⟩ := Option.map_eq_some_iff.1 hheats.symm
    rw [← hsame]
    by_cases hother : other = handle.slot
    · subst hother
      rw [show pushed.turfAt handle.slot.toNat = w.turfAt handle.slot.toNat from rfl, hrecord] at hold
      cases hold
      exact hheat
    · rw [turfAt_writeTurf, if_neg fun heq => hother (UInt32.toNat_inj.1 heq)] at hfound
      rw [hfound] at hold
      cases hold
      exact h.heated other found hfound hsome

/-! ## Slots put in their place -/

/-- A slot whose turf is not listed may get any turf that is not listed. -/
theorem heatInOrder_putTurf (h : w.HeatInOrder) {slot : UInt32} (hnone : w.heatIndexAt slot = none)
    {f : TurfSlot F → TurfSlot F}
    (hf : ∀ entry, storedIndex ((f entry).turf.asRef w.publications) = none) :
    (w.putTurf slot f).HeatInOrder := by
  have hstored : (w.putTurf slot f).heatIndexAt slot = none := by
    unfold heatIndexAt turfAt
    rw [turfs_putTurf_self]
    rcases w.turfs[slot.toNat]? with _ | entry
    · rfl
    · exact hf entry
  refine ⟨h.indexed.congr (fun handle hmem => ?_) fun other => ?_, fun other turf hturf hsome => ?_⟩
  · exact turfGeneration_putTurf_of_ne w slot f (h.indexed.slot_ne hnone hmem)
  · by_cases hother : other = slot
    · rw [hother, hstored, hnone]
    · unfold heatIndexAt
      rw [turfAt_putTurf_of_ne w slot f fun heq => hother (UInt32.toNat_inj.1 heq)]
  · by_cases hother : other = slot
    · subst hother
      unfold heatIndexAt at hstored
      rw [hturf] at hstored
      rw [← storedIndex_isSome, hstored] at hsome
      cases hsome
    · rw [turfAt_putTurf_of_ne w slot f fun heq => hother (UInt32.toNat_inj.1 heq)] at hturf
      exact h.heated other turf hturf hsome

/-- A slot whose turf stays keeps its place on the list. -/
theorem heatInOrder_putTurf_of_kept (h : w.HeatInOrder) {handle : TurfHandle}
    (hgeneration : w.turfGeneration handle.slot = some handle.generation) (record : TurfRecord F)
    (hindex : storedIndex (some record) = w.heatIndexAt handle.slot)
    (hheat : record.heatActiveIndex.isSome → record.heat.isSome) :
    (w.putTurf handle.slot fun _ => registeredTurf handle record).HeatInOrder := by
  obtain ⟨entry, hentry, -⟩ := Option.bind_eq_some_iff.1 hgeneration
  have hself : (w.putTurf handle.slot fun _ => registeredTurf handle record).turfs[
      handle.slot.toNat]? = some (registeredTurf handle record) := by
    rw [turfs_putTurf_self, hentry]
    rfl
  have hrecord : (w.putTurf handle.slot fun _ => registeredTurf handle record).turfAt
      handle.slot.toNat = some record := by
    unfold turfAt
    rw [hself]
    rfl
  refine ⟨h.indexed.congr (fun other hmem => ?_) fun other => ?_, fun other turf hturf hsome => ?_⟩
  · by_cases hother : other.slot = handle.slot
    · rw [hother, hgeneration]
      unfold turfGeneration
      rw [hself]
      rfl
    · exact turfGeneration_putTurf_of_ne w _ _ hother
  · by_cases hother : other = handle.slot
    · rw [hother, ← hindex]
      unfold heatIndexAt
      rw [hrecord]
    · unfold heatIndexAt
      rw [turfAt_putTurf_of_ne w _ _ fun heq => hother (UInt32.toNat_inj.1 heq)]
  · by_cases hother : other = handle.slot
    · rw [hother, hrecord] at hturf
      cases hturf
      exact hheat hsome
    · rw [turfAt_putTurf_of_ne w _ _ fun heq => hother (UInt32.toNat_inj.1 heq)] at hturf
      exact h.heated other turf hturf hsome

/-! ## The batches -/

theorem heatInOrder_of_rest (h : w.HeatInOrder) (hactive : w'.heatActive = w.heatActive)
    (hturfs : w'.turfs = w.turfs) (hpublications : w'.publications = w.publications) :
    w'.HeatInOrder :=
  h.of_turfs hactive hturfs fun _ _ => by rw [hpublications]

theorem heatInOrder_detachTurf (h : w.HeatInOrder) (slot : UInt32) :
    (w.detachTurf slot).HeatInOrder := by
  have hwritten := heatInOrder_writeTurf h slot
    (f := fun turf => { turf with mixture := none }) (fun _ => rfl) fun _ hheat => hheat
  exact heatInOrder_of_rest hwritten rfl rfl rfl

theorem heatInOrder_detachMixture (h : w.HeatInOrder) (mixture : MixtureHandle) :
    (w.detachMixture mixture).HeatInOrder := by
  unfold detachMixture
  split
  · exact h
  · refine foldl_invariant (I := HeatInOrder) (fun _ slot h => heatInOrder_detachTurf h slot) _ ?_
    exact heatInOrder_of_rest h rfl rfl rfl

theorem heatInOrder_invalidateContinuations (h : w.HeatInOrder)
    (p : ReactionContinuation F → Bool) : (w.invalidateContinuations p).HeatInOrder := by
  refine foldl_invariant (I := HeatInOrder) (fun w entry h => ?_) _ h
  dsimp only
  split
  · exact heatInOrder_of_rest h rfl rfl rfl
  · exact h

theorem heatInOrder_removeIncidentMixtureEdges (h : w.HeatInOrder) (slot : UInt32) :
    (w.removeIncidentMixtureEdges slot).HeatInOrder := by
  unfold removeIncidentMixtureEdges
  split
  · exact h
  · refine foldl_invariant (I := HeatInOrder) (fun _ _ h => ?_) _ ?_
    · exact heatInOrder_of_rest h rfl rfl rfl
    · exact heatInOrder_of_rest h rfl rfl rfl

theorem heatInOrder_removeIncidentHeatEdges (h : w.HeatInOrder) (slot : UInt32) :
    (w.removeIncidentHeatEdges slot).HeatInOrder := by
  unfold removeIncidentHeatEdges
  split <;> exact heatInOrder_of_rest h rfl rfl rfl

theorem heatInOrder_removeIncidentGasEdges (h : w.HeatInOrder) (slot : UInt32) :
    (w.removeIncidentGasEdges slot).HeatInOrder := by
  unfold removeIncidentGasEdges
  split <;> exact heatInOrder_of_rest h rfl rfl rfl

theorem heatInOrder_linkTurfMixture (h : w.HeatInOrder) (slot : UInt32)
    (mixture : Option MixtureHandle) : (w.linkTurfMixture slot mixture).HeatInOrder := by
  unfold linkTurfMixture
  split
  · exact heatInOrder_of_rest h rfl rfl rfl
  · exact h

theorem heatInOrder_unlinkTurfMixture (h : w.HeatInOrder) (slot : UInt32) :
    (w.unlinkTurfMixture slot).HeatInOrder := by
  unfold unlinkTurfMixture
  split
  · exact heatInOrder_of_rest h rfl rfl rfl
  · exact h

/-- The last steps of registering a turf. -/
theorem heatInOrder_linked (h : w.HeatInOrder) (slot : UInt32) (mixture : Option MixtureHandle)
    (noHeat : Bool) :
    HeatInOrder
      (let w := w.linkTurfMixture slot mixture
      let w := if mixture.isNone then w.removeIncidentGasEdges slot else w
      if noHeat then w.removeIncidentHeatEdges slot else w) := by
  have hlinked := heatInOrder_linkTurfMixture h slot mixture
  have hgas : HeatInOrder (if mixture.isNone then
      (w.linkTurfMixture slot mixture).removeIncidentGasEdges slot
    else w.linkTurfMixture slot mixture) := by
    split
    · exact heatInOrder_removeIncidentGasEdges hlinked slot
    · exact hlinked
  dsimp only
  split
  · exact heatInOrder_removeIncidentHeatEdges hgas slot
  · exact hgas

theorem heatInOrder_registerTurf (h : w.HeatInOrder) (handle : TurfHandle)
    (mixture : Option MixtureHandle) : (w.registerTurf handle mixture).HeatInOrder := by
  unfold registerTurf
  dsimp only
  generalize hinvalidated : (if w.turfGeneration handle.slot ≠ some handle.generation ∨
      (w.turfAt handle.slot.toNat).all (fun turf => decide (turf.mixture ≠ mixture)) = true then
    w.invalidateContinuationsForTurfSlot handle.slot else w) = before
  have hbefore : before.HeatInOrder := by
    rw [← hinvalidated]
    split
    · exact heatInOrder_invalidateContinuations h _
    · exact h
  have hturfs : before.turfs = w.turfs := by
    rw [← hinvalidated]
    split
    · exact (turfs_invalidateContinuations w _).1
    · rfl
  have hgeneration : before.turfGeneration handle.slot = w.turfGeneration handle.slot := by
    unfold turfGeneration
    rw [hturfs]
  by_cases hreplaces : w.turfGeneration handle.slot ≠ some handle.generation
  · simp only [hreplaces, not_false_eq_true, if_true, ne_eq]
    have hleft := heatInOrder_deactivate hbefore.indexed handle.slot fun other _ =>
      hbefore.heated other
    have hcut : ((before.deactivateTurfHeatSlot handle.slot).removeIncidentTurfEdges
        handle.slot).HeatInOrder := heatInOrder_of_rest hleft rfl rfl rfl
    have hput := heatInOrder_putTurf hcut (indexed_deactivate hbefore.indexed handle.slot).2
      (f := fun _ => registeredTurf handle { mixture, heat := none, heatActiveIndex := none })
      fun _ => rfl
    exact heatInOrder_linked hput handle.slot mixture _
  · rw [not_not] at hreplaces
    simp only [hreplaces, ne_eq, not_true_eq_false, if_false]
    have hput := heatInOrder_putTurf_of_kept hbefore (hgeneration.trans hreplaces)
      { mixture
        heat := (before.turfAt handle.slot.toNat).bind TurfRecord.heat
        heatActiveIndex := (before.turfAt handle.slot.toNat).bind TurfRecord.heatActiveIndex }
      rfl ?_
    · exact heatInOrder_linked hput handle.slot mixture _
    · dsimp only
      rcases hturf : before.turfAt handle.slot.toNat with _ | turf
      · exact fun hsome => by cases hsome
      · exact hbefore.heated handle.slot turf hturf

theorem heatInOrder_unregisterTurf (h : w.HeatInOrder) (handle : TurfHandle) :
    (w.unregisterTurf handle).HeatInOrder := by
  have hbefore := heatInOrder_invalidateContinuations h fun continuation =>
    continuation.turf.any fun turf => turf.slot = handle.slot
  have hleft := heatInOrder_deactivate hbefore.indexed handle.slot fun other _ => hbefore.heated other
  have hvacated := heatInOrder_putTurf hleft (indexed_deactivate hbefore.indexed handle.slot).2
    (f := fun entry => { entry with turf := .vacant }) fun _ => rfl
  refine heatInOrder_removeIncidentHeatEdges ?_ handle.slot
  exact heatInOrder_of_rest hvacated rfl rfl rfl

theorem heatInOrder_applyTurfMutation (h : w.HeatInOrder) (mutation : TurfLifecycleMutation) :
    (w.applyTurfMutation mutation).HeatInOrder := by
  cases mutation with
  | register handle mixture =>
    exact heatInOrder_registerTurf (heatInOrder_unlinkTurfMixture h _) handle mixture
  | unregister handle => exact heatInOrder_unregisterTurf (heatInOrder_unlinkTurfMixture h _) handle

theorem heatInOrder_growTurfs (h : w.HeatInOrder) (slots : List UInt32) :
    HeatInOrder { w with
      turfs := growSlots w.turfs slots { generation := none, turf := .vacant } } := by
  have hgrown := getElem?_growSlots slots ({ generation := none, turf := .vacant } : TurfSlot F)
  refine h.of_same rfl (fun handle _ => ?_) fun slot => ?_
  · unfold turfGeneration
    dsimp only
    rcases hgrown handle.slot.toNat w.turfs with hsame | ⟨hnone, hvacant⟩
    · rw [hsame]
    · rw [hvacant, hnone]
      rfl
  · unfold turfAt
    dsimp only
    rcases hgrown slot w.turfs with hsame | ⟨hnone, hvacant⟩
    · rw [hsame]
    · rw [hvacant, hnone]
      rfl

theorem keeps_heatInOrder_applyTurfLifecycle (mutations : List TurfLifecycleMutation) :
    Keeps HeatInOrder (applyTurfLifecycle (F := F) mutations) := by
  unfold applyTurfLifecycle
  refine keeps_bind (keeps_rejectActiveStage _) fun _ => keeps_check_bind fun _ => ?_
  refine keeps_bind (keeps_modify fun w h => ?_) fun _ => keeps_pure _
  exact foldl_invariant (I := HeatInOrder)
    (fun _ mutation h => heatInOrder_applyTurfMutation h mutation) _ (heatInOrder_growTurfs h _)

theorem heatInOrder_activateTurfHeat (h : w.HeatInOrder) (handle : TurfHandle)
    (hheat : ∀ turf, w.requireTurfHandle handle = .ok turf → turf.heat.isSome) :
    (run (activateTurfHeat handle) w).2.HeatInOrder := by
  unfold activateTurfHeat
  rw [run_bind, run_check]
  rcases hturf : w.requireTurfHandle handle with error | turf
  · exact h
  · dsimp only
    by_cases hnone : turf.heatActiveIndex.isNone
    · rw [if_pos hnone, run_bind, run_get]
      dsimp only
      by_cases hlength : 2 ^ 32 ≤ w.heatActive.length
      · rw [if_pos hlength]
        exact h
      · rw [if_neg hlength]
        exact heatInOrder_activate h hturf (Option.isNone_iff_eq_none.1 hnone) (hheat turf hturf)
    · rw [if_neg hnone]
      exact h

variable [FloatFormat F]

theorem heatInOrder_commitLifecycle (h : w.HeatInOrder) (mutations : List LifecycleMutation) :
    (w.commitLifecycle mutations).HeatInOrder := by
  have hmutation : ∀ (progress : DogmosWorld F × Std.TreeSet UInt32) (mutation : LifecycleMutation),
      progress.1.HeatInOrder → (applyMutation progress mutation).1.HeatInOrder := by
    rintro ⟨w, invalidated⟩ mutation h
    have hinvalidated := heatInOrder_invalidateContinuations h fun continuation =>
      decide (continuation.mixture.slot = mutation.handle.slot)
    unfold applyMutation
    dsimp only
    split
    · split
      · exact heatInOrder_of_rest hinvalidated rfl rfl rfl
      · exact h
    · exact heatInOrder_of_rest hinvalidated rfl rfl rfl
  have hfold : ∀ (l : List LifecycleMutation) (progress : DogmosWorld F × Std.TreeSet UInt32),
      progress.1.HeatInOrder → (l.foldl applyMutation progress).1.HeatInOrder := by
    intro l
    induction l with
    | nil => exact fun _ h => h
    | cons mutation rest ih => exact fun progress h => ih _ (hmutation progress mutation h)
  unfold commitLifecycle
  refine foldl_invariant (I := HeatInOrder)
    (fun _ mixture h => heatInOrder_detachMixture h mixture) _ ?_
  refine foldl_invariant (I := HeatInOrder)
    (fun _ slot h => heatInOrder_removeIncidentMixtureEdges h slot) _ ?_
  exact hfold mutations _ (heatInOrder_of_rest h rfl rfl rfl)

/-- A turf that loses its heat leaves the active list at once; one that gets heat may join it. -/
theorem keeps_heatInOrder_applyTurfHeatMutation (mutation : TurfHeatMutation F) :
    Keeps HeatInOrder (applyTurfHeatMutation mutation) := by
  intro w h
  rcases mutation with ⟨handle, _ | heat⟩
  · have hindexed : Indexed w.heatActive
        (w.writeTurf handle.slot.toNat fun turf => { turf with heat := none }).turfGeneration
        (w.writeTurf handle.slot.toNat fun turf => { turf with heat := none }).heatIndexAt := by
      refine h.indexed.congr (fun _ _ => turfGeneration_writeTurf ..) fun other => ?_
      rw [heatIndexAt_writeTurf]
      by_cases hother : other = handle.slot
      · rw [if_pos hother, hother]
        unfold heatIndexAt storedIndex
        rcases w.turfAt handle.slot.toNat with _ | turf <;> rfl
      · rw [if_neg hother]
    rw [← heatActive_writeTurf w handle.slot.toNat fun turf => { turf with heat := none }]
      at hindexed
    have hleft := heatInOrder_deactivate hindexed handle.slot fun other hother turf hturf => by
      rw [turfAt_writeTurf, if_neg fun heq => hother (UInt32.toNat_inj.1 heq)] at hturf
      exact h.heated other turf hturf
    unfold applyTurfHeatMutation
    rw [run_bind, run_get]
    dsimp only
    rw [run_bind, run_modify]
    dsimp only
    rw [run_bind, run_check]
    exact heatInOrder_removeIncidentHeatEdges hleft handle.slot
  · have hheated := heatInOrder_writeTurf h handle.slot
      (f := fun turf => { turf with heat := some heat }) (fun _ => rfl) fun _ _ => rfl
    have hheat : ∀ turf, (w.writeTurf handle.slot.toNat fun turf =>
        { turf with heat := some heat }).requireTurfHandle handle = .ok turf → turf.heat.isSome := by
      intro turf hturf
      obtain ⟨-, hrecord⟩ := requireTurfHandle_eq_ok.1 hturf
      rw [turfAt_writeTurf, if_pos rfl] at hrecord
      obtain ⟨old, -, rfl⟩ := Option.map_eq_some_iff.1 hrecord
      rfl
    have hjoined := heatInOrder_activateTurfHeat hheated handle hheat
    have hfinish : ∀ joins : Bool, (run (do
        if joins then activateTurfHeat handle
        else modify fun w => w.deactivateTurfHeatSlot handle.slot
        if (some heat).isNone then modify fun w => w.removeIncidentHeatEdges handle.slot :
          WorldM F Unit) (w.writeTurf handle.slot.toNat fun turf =>
        { turf with heat := some heat })).2.HeatInOrder := by
      intro joins
      cases joins with
      | false => exact heatInOrder_deactivate hheated.indexed handle.slot fun other _ => hheated.heated other
      | true =>
        simp only [if_true, run_bind]
        split
        · next hrun =>
          rw [hrun] at hjoined
          exact hjoined
        · next hrun =>
          rw [hrun] at hjoined
          exact hjoined
    unfold applyTurfHeatMutation
    rw [run_bind, run_get]
    dsimp only
    rw [run_bind, run_modify]
    dsimp only
    rw [run_bind, run_check]
    generalize DogmosWorld.activationTemperature (F := F) _ _ = temperature
    cases temperature with
    | error error => exact hheated
    | ok found => exact hfinish _

variable [FloatFormat D] [FloatCast F D]

/-- The batches keep the active list in order. -/
theorem keeps_heatInOrder_exec_of_isBatch {op : Op F D} (hop : op.IsBatch) :
    Keeps HeatInOrder (exec op) := by
  have htopology : ∀ (w : DogmosWorld F) topology, w.HeatInOrder →
      HeatInOrder { w with topology } := fun _ _ h => heatInOrder_of_rest h rfl rfl rfl
  cases op with
  | applyLifecycle mutations =>
    refine keeps_discard (keeps_check_bind fun _ => keeps_bind (keeps_modify fun w h => ?_) fun _ =>
      keeps_pure _)
    exact heatInOrder_commitLifecycle h mutations
  | applyTurfLifecycle mutations =>
    exact keeps_discard (keeps_heatInOrder_applyTurfLifecycle mutations)
  | applyTurfHeat mutations =>
    refine keeps_discard (keeps_bind (keeps_rejectActiveStage _) fun _ => ?_)
    refine keeps_bind (keeps_forM fun _ _ => keeps_check _) fun _ => ?_
    refine keeps_bind (keeps_forM fun mutation _ => ?_) fun _ => keeps_pure _
    exact keeps_heatInOrder_applyTurfHeatMutation mutation
  | applyTurfHeatAdjacency mutations =>
    exact keeps_discard (keeps_batch _ mutations (keeps_applyTurfHeatAdjacencyMutation htopology))
  | applyTurfAdjacency mutations =>
    exact keeps_discard (keeps_batch _ mutations (keeps_applyTurfAdjacencyMutation htopology))
  | applyTurfFirelocks mutations =>
    exact keeps_discard (keeps_batch _ mutations (keeps_applyTurfFirelock htopology))
  | _ => cases hop

end

end DogmosWorld

end Dogmos
