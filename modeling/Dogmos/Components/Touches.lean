import Dogmos.Components.Candidates
import Dogmos.Core.Component
import Mathlib.Data.List.Nodup
import Mathlib.Data.List.Perm.Subperm

/-!
# Room in the transaction of a computation

A computation touches mixtures of the turfs its kernel captured, and never retires one.  So the
entries of its transaction are mixtures of captured turfs, one for each slot, and there are never
more of them than captured turfs or slots.

* `Fits` — a transaction with entries for mixtures of the kernel only, and room for all of them.
* `Fits.touch` — touching a mixture of the kernel does not run out of room.
* `fitting_computeEqualize`, `fitting_computeExcitedGroups` — neither does a computation.
-/

namespace Dogmos

namespace KernelView

open Exec

variable {F D : Type}

/-- A mixture of a captured turf. -/
def Links (k : KernelView F) (handle : MixtureHandle) : Prop :=
  ∃ turf ∈ k.handles, (k.turf turf).bind TurfRecord.mixture = some handle

/-- The kernel answers about captured turfs only, and their mixtures have slots among the first
ones. -/
structure Roomy (k : KernelView F) (slots most : Nat) : Prop where
  captured : ∀ turf record, k.turf turf = some record → turf ∈ k.handles
  inside : ∀ handle, k.Links handle → handle.slot.toNat < slots
  room : min k.handles.length slots ≤ most

/-- A transaction for some number of slots and entries whose entries are mixtures of the kernel,
none of them retired. -/
structure Fits (k : KernelView F) (slots most : Nat) (t : IndexedTransaction (MixtureRecord F)) :
    Prop where
  wellFormed : t.WellFormed
  width : t.slotToIndex.length = slots
  room : t.maxEntries = most
  held : ∀ (index : Nat) entry, t.entries[index]? = some entry →
    t.slotToIndex[entry.handle.slot.toNat]? = some index
  linked : ∀ entry ∈ t.entries, k.Links entry.handle

variable {k : KernelView F} {slots most : Nat} {t t' : IndexedTransaction (MixtureRecord F)}
  {handle : MixtureHandle}

/-- The entries have distinct slots. -/
theorem Fits.nodup (h : Fits k slots most t) :
    (t.entries.map fun entry => entry.handle.slot.toNat).Nodup := by
  rw [List.nodup_iff_getElem?_ne_getElem?]
  intro i j hij hj heq
  rw [List.length_map] at hj
  have hi : i < t.entries.length := Nat.lt_trans hij hj
  rw [List.getElem?_map, List.getElem?_map, List.getElem?_eq_getElem hi,
    List.getElem?_eq_getElem hj] at heq
  have hfirst := h.held i _ (List.getElem?_eq_getElem hi)
  have hsecond := h.held j _ (List.getElem?_eq_getElem hj)
  simp only [Option.map_some, Option.some.injEq] at heq
  rw [heq, hsecond, Option.some.injEq] at hfirst
  omega

/-- A slot that leads nowhere leaves room for one more entry. -/
theorem Fits.room_left (h : Fits k slots most t) (hk : k.Roomy slots most)
    (hlink : k.Links handle) (hnew : ∀ entry ∈ t.entries, entry.handle.slot ≠ handle.slot) :
    t.entries.length < t.maxEntries := by
  have hnew : ∀ entry ∈ t.entries, handle.slot.toNat ≠ entry.handle.slot.toNat :=
    fun entry hentry heq => hnew entry hentry (UInt32.toNat_inj.1 heq).symm
  -- one entry for each slot
  have hslots : t.entries.length + 1 ≤ slots := by
    have hnodup :
        (handle.slot.toNat :: t.entries.map fun entry => entry.handle.slot.toNat).Nodup := by
      refine List.nodup_cons.2 ⟨fun hmem => ?_, h.nodup⟩
      obtain ⟨entry, hentry, heq⟩ := List.mem_map.1 hmem
      exact hnew entry hentry heq.symm
    have hsub : (handle.slot.toNat :: t.entries.map fun entry => entry.handle.slot.toNat) ⊆
        List.range slots := by
      intro slot hslot
      rw [List.mem_range]
      rcases List.mem_cons.1 hslot with rfl | hold
      · exact hk.inside handle hlink
      · obtain ⟨entry, hentry, rfl⟩ := List.mem_map.1 hold
        exact hk.inside _ (h.linked entry hentry)
    simpa using (List.subperm_of_subset hnodup hsub).length_le
  -- and one for each captured turf
  have hturfs : t.entries.length + 1 ≤ k.handles.length := by
    have hnodup : (handle :: t.entries.map TransactionEntry.handle).Nodup := by
      refine List.nodup_cons.2 ⟨fun hmem => ?_, ?_⟩
      · obtain ⟨entry, hentry, heq⟩ := List.mem_map.1 hmem
        exact hnew entry hentry (by rw [heq])
      · have hmapped := h.nodup
        rw [show (fun entry : TransactionEntry (MixtureRecord F) => entry.handle.slot.toNat) =
          (fun handle : MixtureHandle => handle.slot.toNat) ∘ TransactionEntry.handle from rfl,
          ← List.map_map] at hmapped
        exact hmapped.of_map _
    have hsub : (handle :: t.entries.map TransactionEntry.handle) ⊆
        k.handles.filterMap fun turf => (k.turf turf).bind TurfRecord.mixture := by
      intro other hother
      have hlinked : k.Links other := by
        rcases List.mem_cons.1 hother with rfl | hold
        · exact hlink
        · obtain ⟨entry, hentry, rfl⟩ := List.mem_map.1 hold
          exact h.linked entry hentry
      obtain ⟨turf, hturf, hmixture⟩ := hlinked
      exact List.mem_filterMap.2 ⟨turf, hturf, hmixture⟩
    have hle := (List.subperm_of_subset hnodup hsub).length_le
    have hfilter := List.length_filterMap_le
      (fun turf => (k.turf turf).bind TurfRecord.mixture) k.handles
    simp only [List.length_cons, List.length_map] at hle
    omega
  have hroom := hk.room
  rw [h.room]
  omega

/-- **Touching a mixture of the kernel** does not run out of room. -/
theorem Fits.touch (h : Fits k slots most t) (hk : k.Roomy slots most) (hlink : k.Links handle)
    (revision : UInt32) (initial : MixtureRecord F) :
    (∀ t', t.touch handle revision initial = .ok t' → Fits k slots most t') ∧
      t.touch handle revision initial ≠ .error .capacityExceeded := by
  have hlt : handle.slot.toNat < t.slotToIndex.length := by
    rw [h.width]
    exact hk.inside handle hlink
  -- an entry that has the slot is found from it
  have hnew : t.slotToIndex[handle.slot.toNat]? = some unusedIndex →
      ∀ entry ∈ t.entries, entry.handle.slot ≠ handle.slot := by
    intro hvacant entry hentry hslot
    obtain ⟨index, hindex⟩ := List.mem_iff_getElem?.1 hentry
    have hheld := h.held index entry hindex
    rw [hslot, hvacant] at hheld
    have hin := (List.getElem?_eq_some_iff.1 hindex).1
    have hshort := h.wellFormed.short
    have hbounded := h.wellFormed.bounded
    have hplace := Option.some.inj hheld
    omega
  constructor
  · intro t' htouch
    rcases IndexedTransaction.touch_ok htouch with rfl | ⟨hvacant, heq⟩
    · exact h
    have hwell := (h.wellFormed.touch (IndexedTransaction.contains_of_unused hvacant) htouch).1
    have hnew := hnew hvacant
    subst heq
    refine ⟨hwell, by simpa using h.width, h.room, ?_, ?_⟩
    · intro index entry hentry
      dsimp only at hentry ⊢
      rcases Nat.lt_or_ge index t.entries.length with hold | hlast
      · rw [List.getElem?_append_left hold] at hentry
        have hslot := hnew entry (List.mem_of_getElem? hentry)
        rw [List.getElem?_set_ne fun heq => hslot (UInt32.toNat_inj.1 heq).symm]
        exact h.held index entry hentry
      · have hindex : index = t.entries.length := by
          have hin := (List.getElem?_eq_some_iff.1 hentry).1
          rw [List.length_append, List.length_singleton] at hin
          omega
        subst hindex
        rw [List.getElem?_concat_length] at hentry
        cases hentry
        exact List.getElem?_set_self hlt
    · intro entry hentry
      rcases List.mem_append.1 hentry with hold | hadded
      · exact h.linked entry hold
      · rw [List.mem_singleton.1 hadded]
        exact hlink
  · intro hfull
    unfold IndexedTransaction.touch at hfull
    dsimp only at hfull
    rw [List.getElem?_eq_getElem hlt] at hfull
    dsimp only at hfull
    split at hfull
    · split at hfull
      · split at hfull
        · cases hfull
        · cases hfull
      · cases hfull
    · next hused =>
      have hvacant : t.slotToIndex[handle.slot.toNat]? = some unusedIndex := by
        rw [List.getElem?_eq_getElem hlt, not_not.1 hused]
      have hroom := h.room_left hk hlink (hnew hvacant)
      rw [if_neg (Nat.not_le_of_lt hroom)] at hfull
      cases hfull

theorem Fits.setCandidate (h : Fits k slots most t) (handle : MixtureHandle)
    (value : MixtureRecord F) : Fits k slots most (t.setCandidate handle value) := by
  have hwell := h.wellFormed.setCandidate handle value
  unfold IndexedTransaction.setCandidate at hwell ⊢
  rcases hindex : t.entryIndex handle with _ | index
  · exact h
  rw [hindex] at hwell
  refine ⟨hwell, h.width, h.room, ?_, ?_⟩
  · intro place entry hentry
    dsimp only at hentry ⊢
    rw [List.getElem?_modify] at hentry
    obtain ⟨old, hold, rfl⟩ := Option.map_eq_some_iff.1 hentry
    have hheld := h.held place old hold
    split
    · exact hheld
    · exact hheld
  · intro entry hentry
    obtain ⟨place, hplace⟩ := List.mem_iff_getElem?.1 hentry
    dsimp only at hplace
    rw [List.getElem?_modify] at hplace
    obtain ⟨old, hold, rfl⟩ := Option.map_eq_some_iff.1 hplace
    have hlinked := h.linked old (List.mem_of_getElem? hold)
    split
    · exact hlinked
    · exact hlinked

/-! ## Steps of a computation -/

/-- The step keeps its transaction fitting, and does not run out of room; what it returns meets a
condition. -/
def Fitting {α : Type} (k : KernelView F) (slots most : Nat) (m : ComponentM F α)
    (Q : α → Prop) : Prop :=
  Triple (fun p : ComponentProgress F => Fits k slots most p.transaction) m
    (fun a p => Fits k slots most p.transaction ∧ Q a)
    fun error p => Fits k slots most p.transaction ∧ error ≠ .stateCapacityExceeded

section Rules

variable {α β : Type} {m : ComponentM F α} {Q : α → Prop} {R : β → Prop}

theorem fitting_pure {a : α} (h : Q a) : Fitting k slots most (pure a) Q :=
  triple_pure fun _ hp => ⟨hp, h⟩

theorem fitting_throw {error : WorldError} (h : error ≠ .stateCapacityExceeded) :
    Fitting k slots most (throw error : ComponentM F α) Q :=
  triple_throw fun _ hp => ⟨hp, h⟩

theorem fitting_bind {f : α → ComponentM F β} (hm : Fitting k slots most m Q)
    (hf : ∀ a, Q a → Fitting k slots most (f a) R) : Fitting k slots most (m >>= f) R := by
  refine triple_bind hm fun a p hp => ?_
  exact hf a hp.2 p hp.1

theorem fitting_lift {result : Except WorldError α} (hok : ∀ a, result = .ok a → Q a)
    (herror : result ≠ .error .stateCapacityExceeded) : Fitting k slots most (lift result) Q :=
  triple_check (fun _ _ hp heq => ⟨hp, hok _ heq⟩) fun _ _ hp heq =>
    ⟨hp, fun hcapacity => herror (hcapacity ▸ heq)⟩

theorem fitting_modify {f : ComponentProgress F → ComponentProgress F}
    (h : ∀ p, Fits k slots most p.transaction → Fits k slots most (f p).transaction) :
    Fitting k slots most (modify f) fun _ => True :=
  triple_modify fun p hp => ⟨h p hp, trivial⟩

theorem fitting_cooperate : Fitting k slots most (cooperate (F := F)) fun _ => True :=
  fitting_modify fun _ hp => hp

theorem fitting_emit (event : WorldEvent F) : Fitting k slots most (emit event) fun _ => True :=
  fitting_modify fun _ hp => hp

theorem fitting_setCandidate (handle : MixtureHandle) (candidate : MixtureRecord F) :
    Fitting k slots most (setCandidate handle candidate) fun _ => True :=
  fitting_modify fun _ hp => hp.setCandidate handle candidate

theorem fitting_currentTransaction :
    Fitting k slots most (currentTransaction (F := F)) fun _ => True :=
  fun _ hp => ⟨hp, trivial⟩

theorem fitting_foldlM {xs : List α} {f : β → α → ComponentM F β}
    (h : ∀ b, R b → ∀ x ∈ xs, Fitting k slots most (f b x) R) {b : β} (hb : R b) :
    Fitting k slots most (xs.foldlM f b) R := by
  induction xs generalizing b with
  | nil => exact fitting_pure hb
  | cons x rest ih =>
    rw [List.foldlM_cons]
    refine fitting_bind (h b hb x List.mem_cons_self) fun b' hb' => ih (fun b hb y hy => ?_) hb'
    exact h b hb y (List.mem_cons_of_mem _ hy)

theorem fitting_forM {xs : List α} {f : α → ComponentM F PUnit}
    (h : ∀ x ∈ xs, Fitting k slots most (f x) fun _ => True) :
    Fitting k slots most (xs.forM f) fun _ => True := by
  induction xs with
  | nil => exact fitting_pure trivial
  | cons x rest ih =>
    refine fitting_bind (h x List.mem_cons_self) fun _ _ => ih fun y hy => ?_
    exact h y (List.mem_cons_of_mem _ hy)

end Rules

theorem fitting_touch (hk : k.Roomy slots most) (hlink : k.Links handle)
    (mixture : MixtureRecord F) : Fitting k slots most (touch handle mixture) fun _ => True := by
  intro p hp
  obtain ⟨hok, hfull⟩ := hp.touch hk hlink mixture.revision mixture
  unfold KernelView.touch currentTransaction KernelView.lift
  simp only [bind_assoc, pure_bind]
  rw [run_bind, run_get]
  dsimp only
  rw [run_bind, run_check]
  rcases htouch : p.transaction.touch handle mixture.revision mixture with error | touched
  · rw [htouch] at hfull
    refine ⟨hp, ?_⟩
    cases error with
    | capacityExceeded => exact absurd rfl hfull
    | _ => simp [transactionWorldError]
  · exact ⟨hok touched htouch, trivial⟩

/-! ## Lookups -/

theorem fitting_requireHandle (handle : MixtureHandle) :
    Fitting k slots most (lift (k.requireHandle handle)) fun _ => True := by
  refine fitting_lift (fun _ _ => trivial) ?_
  unfold KernelView.requireHandle
  split <;> simp [pure, Except.pure, throw, throwThe, MonadExceptOf.throw]

theorem fitting_requireTurfHandle (turf : TurfHandle) :
    Fitting k slots most (lift (k.requireTurfHandle turf)) fun record =>
      k.turf turf = some record := by
  unfold KernelView.requireTurfHandle
  refine fitting_lift (fun record heq => ?_) ?_
  · split at heq
    · next found hfound =>
      cases heq
      exact hfound
    · cases heq
  · split <;> simp [pure, Except.pure, throw, throwThe, MonadExceptOf.throw]

theorem fitting_currentTurfHandle (slot : UInt32) :
    Fitting k slots most (lift (k.currentTurfHandle slot)) fun _ => True := by
  refine fitting_lift (fun _ _ => trivial) ?_
  unfold KernelView.currentTurfHandle
  split <;> simp [pure, Except.pure, throw, throwThe, MonadExceptOf.throw]

theorem fitting_requireRevisable (handle : MixtureHandle) (mixture : MixtureRecord F) :
    Fitting k slots most (lift (requireRevisable handle mixture)) fun _ => True := by
  refine fitting_lift (fun _ _ => trivial) ?_
  unfold requireRevisable
  split <;> simp [pure, Except.pure, throw, throwThe, MonadExceptOf.throw]

variable [FloatFormat F] [FloatFormat D] [FloatCast F D]

/-! ## Excited groups -/

/-- The nodes are captured turfs with their mixtures. -/
def NodesLinked (k : KernelView F) (nodes : ExcitedNodes) : Prop := ∀ node ∈ nodes, k.Links node.2

omit [FloatFormat F] in
theorem fitting_excitedNodes : Fitting k slots most k.excitedNodes (NodesLinked k) := by
  unfold excitedNodes
  refine fitting_bind (Q := fun ordered : Std.TreeMap UInt32 (TurfHandle × MixtureHandle) =>
    ∀ (slot : UInt32) node, ordered[slot]? = some node → k.Links node.2) ?_
    fun ordered hordered => ?_
  · refine fitting_foldlM (fun ordered hordered turf hturf => ?_) ?_
    · refine fitting_bind fitting_cooperate fun _ _ => ?_
      split
      · next mixture hmixture =>
        refine fitting_pure fun slot node hnode => ?_
        rw [Std.TreeMap.getElem?_insert] at hnode
        split at hnode
        · cases hnode
          exact ⟨turf, hturf, hmixture⟩
        · exact hordered slot node hnode
      · exact fitting_pure hordered
    · intro slot node hnode
      simp at hnode
  · refine fitting_foldlM (fun nodes hnodes entry hentry => ?_) fun _ hnode => by cases hnode
    refine fitting_bind fitting_cooperate fun _ _ => fitting_pure fun node hnode => ?_
    rcases List.mem_append.1 hnode with hold | hadded
    · exact hnodes node hold
    · rw [List.mem_singleton.1 hadded]
      exact hordered entry.1 entry.2 (Std.TreeMap.mem_toList_iff_getElem?_eq_some.1 hentry)

theorem fitting_exploreGroup (nodes : ExcitedNodes) (steps : Nat) (search : GroupSearch F) :
    Fitting k slots most (k.exploreGroup nodes steps search) fun _ => True := by
  induction steps generalizing search with
  | zero => exact fitting_pure trivial
  | succ steps ih =>
    unfold exploreGroup
    split
    · exact fitting_pure trivial
    · split
      · exact fitting_pure trivial
      · refine fitting_bind fitting_cooperate fun _ _ => ?_
        split
        · exact fitting_pure trivial
        · refine fitting_bind (fitting_requireHandle _) fun _ _ => ?_
          dsimp only
          split
          · exact ih _
          · split
            · exact ih _
            · exact ih _

theorem fitting_mixGroup (hk : k.Roomy slots most) (heatValues : Gases F)
    {handles : List MixtureHandle} (hhandles : ∀ handle ∈ handles, k.Links handle)
    (workItems : UInt32) :
    Fitting k slots most (k.mixGroup heatValues handles workItems) fun _ => True := by
  unfold mixGroup
  refine fitting_bind (fitting_foldlM (R := fun _ => True) (fun totals _ handle _ => ?_) trivial)
    fun totals _ => fitting_foldlM (fun work _ handle hhandle => ?_) trivial
  · unfold addToGroup
    refine fitting_bind fitting_cooperate fun _ _ => ?_
    refine fitting_bind (fitting_requireHandle _) fun _ _ => ?_
    refine fitting_bind fitting_currentTransaction fun _ _ => ?_
    split
    · exact fitting_bind (Q := fun _ => False) (fitting_throw (by simp)) fun _ h => h.elim
    · exact fitting_bind (fitting_requireRevisable _ _) fun _ _ => fitting_pure trivial
  · unfold writeGroupMean
    refine fitting_bind fitting_cooperate fun _ _ => ?_
    refine fitting_bind (fitting_requireHandle _) fun _ _ => ?_
    refine fitting_bind (fitting_touch hk (hhandles handle hhandle) _) fun _ _ => ?_
    refine fitting_bind fitting_currentTransaction fun _ _ => ?_
    refine fitting_bind (fitting_setCandidate _ _) fun _ _ => ?_
    refine fitting_lift (fun _ _ => trivial) ?_
    split <;> simp [pure, Except.pure, throw, throwThe, MonadExceptOf.throw]

theorem fitting_exciteFrom (hk : k.Roomy slots most) {nodes : ExcitedNodes}
    (hnodes : NodesLinked k nodes) (heatValues : Gases F) (progress : List Bool × UInt32)
    (entry : (TurfHandle × MixtureHandle) × Nat) :
    Fitting k slots most (k.exciteFrom nodes heatValues progress entry) fun _ => True := by
  unfold exciteFrom
  refine fitting_bind fitting_cooperate fun _ _ => ?_
  split
  · exact fitting_pure trivial
  · refine fitting_bind fitting_cooperate fun _ _ => ?_
    refine fitting_bind (fitting_requireHandle _) fun mixture _ => ?_
    split
    · exact fitting_pure trivial
    · refine fitting_bind (fitting_exploreGroup _ _ _) fun search _ => ?_
      split
      · exact fitting_pure trivial
      · refine fitting_bind (fitting_mixGroup hk heatValues ?_ _) fun _ _ => fitting_pure trivial
        intro handle hhandle
        obtain ⟨position, _, hposition⟩ := List.mem_filterMap.1 hhandle
        obtain ⟨node, hnode, rfl⟩ := Option.map_eq_some_iff.1 hposition
        exact hnodes node (List.mem_of_getElem? hnode)

theorem fitting_computeExcitedGroups (hk : k.Roomy slots most) :
    Fitting k slots most k.computeExcitedGroups fun _ => True := by
  unfold computeExcitedGroups
  refine fitting_bind fitting_cooperate fun _ _ => ?_
  refine fitting_bind fitting_excitedNodes fun nodes hnodes => ?_
  split
  · exact fitting_pure trivial
  · split
    · exact fitting_throw (by simp)
    · refine fitting_bind (fitting_foldlM (R := fun _ => True) (fun progress _ entry _ => ?_)
        trivial) fun _ _ => ?_
      · exact fitting_exciteFrom hk hnodes _ progress entry
      · exact fitting_bind fitting_cooperate fun _ _ => fitting_pure trivial

/-! ## Equalization -/

omit [FloatFormat F] in
theorem fitting_collectSlots (slotsOf : List UInt32) :
    Fitting k slots most (collectSlots (F := F) slotsOf) fun _ => True := by
  unfold collectSlots
  exact fitting_foldlM (fun _ _ _ _ =>
    fitting_bind fitting_cooperate fun _ _ => fitting_pure trivial) trivial

omit [FloatFormat F] in
theorem fitting_searchDecompression (slotsOf : Std.TreeSet UInt32) (steps index : Nat)
    (search : SlotSearch) :
    Fitting k slots most (k.searchDecompression slotsOf steps index search) fun _ => True := by
  induction steps generalizing index search with
  | zero => exact fitting_pure trivial
  | succ steps ih =>
    unfold searchDecompression
    split
    · exact fitting_pure trivial
    · refine fitting_bind fitting_cooperate fun _ _ => ?_
      exact fitting_bind (fitting_currentTurfHandle _) fun _ _ => ih _ _

theorem fitting_decompressTurf (removalPerTurf : F) (losses : Std.TreeMap UInt32 F)
    (entry : UInt32 × MixtureHandle) :
    Fitting k slots most (decompressTurf removalPerTurf losses entry) fun _ => True := by
  unfold decompressTurf
  refine fitting_bind fitting_cooperate fun _ _ => ?_
  refine fitting_bind fitting_currentTransaction fun _ _ => ?_
  split
  · exact fitting_pure trivial
  · exact fitting_bind (fitting_setCandidate _ _) fun _ _ => fitting_pure trivial

omit [FloatFormat F] in
theorem fitting_considerFirelocks (slotsOf immutableTurfs : Std.TreeSet UInt32) (left : UInt32) :
    Fitting k slots most (k.considerFirelocks slotsOf immutableTurfs left) fun _ => True := by
  unfold considerFirelocks
  refine fitting_bind fitting_cooperate fun _ _ => ?_
  refine fitting_bind (fitting_currentTurfHandle _) fun _ _ => fitting_forM fun neighbor _ => ?_
  dsimp only
  refine fitting_bind (fitting_currentTurfHandle _) fun _ _ => ?_
  exact fitting_bind (fitting_currentTurfHandle _) fun _ _ => fitting_emit _

theorem fitting_flowFrom (mixturesByTurf : Std.TreeMap UInt32 MixtureHandle)
    (immutableTurfs : Std.TreeSet UInt32) (parents : Std.TreeMap UInt32 UInt32)
    (localLosses accumulated : Std.TreeMap UInt32 F) (sourceSlot : UInt32) :
    Fitting k slots most (k.flowFrom mixturesByTurf immutableTurfs parents localLosses accumulated
      sourceSlot) fun _ => True := by
  unfold flowFrom
  refine fitting_bind fitting_cooperate fun _ _ => ?_
  split
  · exact fitting_pure trivial
  split
  · exact fitting_pure trivial
  next targetSlot _ =>
  have hrest : Fitting k slots most (if immutableTurfs.contains targetSlot then
        if 0.0 < localLosses[sourceSlot]?.getD 0.0 then do
          let turf ← lift (k.currentTurfHandle sourceSlot)
          emit (.decompressionFloorRip turf (localLosses[sourceSlot]?.getD 0.0))
          pure accumulated
        else pure accumulated
      else if mixturesByTurf.contains targetSlot then
        pure (accumulated.insert targetSlot
          (accumulated[targetSlot]?.getD 0.0 + accumulated[sourceSlot]?.getD 0.0))
      else pure accumulated : ComponentM F (Std.TreeMap UInt32 F)) fun _ => True := by
    split
    · split
      · refine fitting_bind (fitting_currentTurfHandle _) fun _ _ => ?_
        exact fitting_bind (fitting_emit _) fun _ _ => fitting_pure trivial
      · exact fitting_pure trivial
    · split
      · exact fitting_pure trivial
      · exact fitting_pure trivial
  dsimp only
  split
  · refine fitting_bind (fitting_currentTurfHandle _) fun _ _ => ?_
    refine fitting_bind (fitting_currentTurfHandle _) fun _ _ => ?_
    exact fitting_bind (fitting_emit _) fun _ _ => hrest
  · exact hrest

theorem fitting_stageDecompressionComponent (component : List UInt32)
    (immutableTurfs : Std.TreeSet UInt32) (mixturesByTurf : Std.TreeMap UInt32 MixtureHandle)
    (componentMoles : F) :
    Fitting k slots most (k.stageDecompressionComponent component immutableTurfs mixturesByTurf
      componentMoles) fun _ => True := by
  unfold stageDecompressionComponent
  refine fitting_bind (fitting_collectSlots _) fun slotsOf _ => ?_
  refine fitting_bind (fitting_collectSlots _) fun reached _ => ?_
  refine fitting_bind (fitting_searchDecompression _ _ _ _) fun search _ => ?_
  unfold decompress
  dsimp only
  split
  · exact fitting_pure trivial
  · refine fitting_bind (fitting_foldlM (R := fun _ => True)
      (fun _ _ _ _ => fitting_decompressTurf _ _ _) trivial) fun _ _ => ?_
    refine fitting_bind (fitting_forM fun _ _ => fitting_considerFirelocks _ _ _) fun _ _ => ?_
    exact fitting_bind (fitting_foldlM (R := fun _ => True)
      (fun _ _ _ _ => fitting_flowFrom _ _ _ _ _ _) trivial) fun _ _ => fitting_pure trivial

omit [FloatFormat F] in
theorem mapError_moleOverflow_ne {α : Type} (result : Except GasId α) :
    result.mapError WorldError.moleOverflow ≠ .error .stateCapacityExceeded := by
  cases result <;> simp [Except.mapError]

theorem fitting_stageEqualizationTransfer (mixturesByTurf : Std.TreeMap UInt32 MixtureHandle)
    (specificHeats : Gases F) (sourceSlot targetSlot : UInt32) (amount : F) :
    Fitting k slots most (k.stageEqualizationTransfer mixturesByTurf specificHeats sourceSlot
      targetSlot amount) fun _ => True := by
  unfold stageEqualizationTransfer
  split
  · next sourceHandle targetHandle _ _ =>
    split
    · exact fitting_bind (Q := fun _ => False) (fitting_throw (by simp)) fun _ h => h.elim
    · refine fitting_bind fitting_currentTransaction fun transaction _ => ?_
      refine fitting_bind (fitting_lift (Q := fun _ => True) (fun _ _ => trivial) ?_) fun _ _ => ?_
      · unfold IndexedTransaction.candidatePair
        split
        · simp [throw, throwThe, MonadExceptOf.throw, Except.mapError, transactionWorldError]
        · split
          · simp [throw, throwThe, MonadExceptOf.throw, Except.mapError, transactionWorldError]
          · split
            · simp [throw, throwThe, MonadExceptOf.throw, Except.mapError, transactionWorldError]
            · simp [pure, Except.pure, Except.mapError]
      refine fitting_bind (fitting_lift (Q := fun _ => True) (fun _ _ => trivial) ?_) fun _ _ => ?_
      · exact mapError_moleOverflow_ne _
      refine fitting_bind (fitting_setCandidate _ _) fun _ _ => ?_
      refine fitting_bind (fitting_setCandidate _ _) fun _ _ => ?_
      split
      · refine fitting_bind (fitting_currentTurfHandle _) fun _ _ => ?_
        exact fitting_bind (fitting_currentTurfHandle _) fun _ _ => fitting_emit _
      · exact fitting_pure trivial
  · exact fitting_pure trivial

omit [FloatFormat F] in
theorem fitting_searchEqualize (steps index : Nat) (search : SlotSearch) :
    Fitting k slots most (k.searchEqualize steps index search) fun _ => True := by
  induction steps generalizing index search with
  | zero => exact fitting_pure trivial
  | succ steps ih =>
    unfold searchEqualize
    split
    · exact fitting_pure trivial
    · exact fitting_bind fitting_cooperate fun _ _ => ih _ _

theorem fitting_scanTurf (hk : k.Roomy slots most) (scan : ComponentScan F) (slot : UInt32) :
    Fitting k slots most (k.scanTurf scan slot) fun _ => True := by
  unfold scanTurf
  refine fitting_bind fitting_cooperate fun _ _ => ?_
  refine fitting_bind (fitting_currentTurfHandle _) fun turfHandle _ => ?_
  refine fitting_bind (fitting_requireTurfHandle _) fun turf hturf => ?_
  split
  · exact fitting_throw (by simp)
  · next handle hhandle =>
    have hlink : k.Links handle := ⟨turfHandle, hk.captured _ _ hturf, by rw [hturf]; exact hhandle⟩
    refine fitting_bind (fitting_requireHandle _) fun mixture _ => ?_
    split
    · exact fitting_pure trivial
    · refine fitting_bind fitting_currentTransaction fun _ _ => ?_
      split
      · exact fitting_bind (Q := fun _ => False) (fitting_throw (by simp)) fun _ h => h.elim
      · refine fitting_bind (fitting_requireRevisable _ _) fun _ _ => ?_
        exact fitting_bind (fitting_touch hk hlink _) fun _ _ => fitting_pure trivial

theorem fitting_componentFlows (search : SlotSearch) (scan : ComponentScan F) :
    Fitting k slots most (componentFlows search scan) fun _ => True := by
  unfold componentFlows
  refine fitting_bind (fitting_foldlM (R := fun _ => True) (fun _ _ _ _ => ?_) trivial)
    fun _ _ => fitting_bind (fitting_foldlM (R := fun _ => True) (fun _ _ _ _ => ?_) trivial)
      fun _ _ => fitting_pure trivial
  · unfold addBalance
    refine fitting_bind fitting_cooperate fun _ _ => ?_
    refine fitting_bind fitting_currentTransaction fun _ _ => ?_
    split <;> exact fitting_pure trivial
  · unfold addFlow
    refine fitting_bind fitting_cooperate fun _ _ => ?_
    dsimp only
    split <;> exact fitting_pure trivial

theorem fitting_equalizeComponent (hk : k.Roomy slots most) (specificHeats : Gases F)
    (search : SlotSearch) (workItems : UInt32) :
    Fitting k slots most (k.equalizeComponent specificHeats search workItems) fun _ => True := by
  have hcount : Fitting k slots most (lift (countComponent workItems search.queue))
      fun _ => True := by
    refine fitting_lift (fun _ _ => trivial) ?_
    unfold countComponent
    split <;> simp [pure, Except.pure, throw, throwThe, MonadExceptOf.throw]
  unfold equalizeComponent
  dsimp only
  refine fitting_bind (fitting_foldlM (R := fun _ => True)
    (fun scan _ slot _ => fitting_scanTurf hk scan slot) trivial) fun scan _ => ?_
  split
  · split
    · exact fitting_bind (fitting_stageDecompressionComponent _ _ _ _) fun _ _ => hcount
    · exact hcount
  · split
    · exact fitting_pure trivial
    · refine fitting_bind (fitting_componentFlows _ _) fun flows _ => ?_
      refine fitting_bind (Q := fun _ => True) ?_ fun _ _ => hcount
      unfold applyFlows
      refine fitting_bind (fitting_forM fun _ _ => ?_) fun _ _ => fitting_forM fun _ _ => ?_
      all_goals
        exact fitting_bind fitting_cooperate fun _ _ =>
          fitting_stageEqualizationTransfer _ _ _ _ _

theorem fitting_computeEqualize (hk : k.Roomy slots most) :
    Fitting k slots most k.computeEqualize fun _ => True := by
  unfold computeEqualize
  refine fitting_bind fitting_cooperate fun _ _ => ?_
  split
  · exact fitting_pure trivial
  · dsimp only
    refine fitting_bind (fitting_foldlM (R := fun _ => True) (fun progress _ start _ => ?_) trivial)
      fun _ _ => fitting_bind fitting_cooperate fun _ _ => fitting_pure trivial
    unfold equalizeFrom
    refine fitting_bind fitting_cooperate fun _ _ => ?_
    refine fitting_bind (fitting_requireTurfHandle _) fun turf _ => ?_
    split
    · exact fitting_pure trivial
    · refine fitting_bind fitting_cooperate fun _ _ => ?_
      refine fitting_bind (fitting_searchEqualize _ _ _) fun search _ => ?_
      split
      · exact fitting_pure trivial
      · exact fitting_bind (fitting_equalizeComponent hk _ _ _) fun _ _ => fitting_pure trivial

end KernelView

/-- **A computation** on a kernel with room does not run out of it. -/
theorem fits_compute [FloatFormat F] [FloatFormat D] [FloatCast F D] {kernel : ComponentKernel F}
    {slots most : Nat} (hk : kernel.view.Roomy slots most)
    {transaction : IndexedTransaction (MixtureRecord F)}
    (h : KernelView.Fits kernel.view slots most transaction) (events : List (WorldEvent F))
    (stage : WorldStage) :
    KernelView.Fits kernel.view slots most (compute kernel transaction events stage).transaction ∧
      (compute kernel transaction events stage).result ≠ .error .stateCapacityExceeded := by
  have hbody : ∀ m : ComponentM F UInt32,
      KernelView.Fitting kernel.view slots most m (fun _ => True) →
      KernelView.Fits kernel.view slots most
          (Exec.run m { polls := 0, transaction, events }).2.transaction ∧
        (Exec.run m { polls := 0, transaction, events }).1 ≠ .error .stateCapacityExceeded := by
    intro m hm
    have hrun := hm { polls := 0, transaction, events } h
    rcases heq : Exec.run m { polls := 0, transaction, events } with ⟨error | value, p⟩
    all_goals rw [heq] at hrun
    · exact ⟨hrun.1, fun hfull => hrun.2 (Except.error.inj hfull)⟩
    · exact ⟨hrun.1, fun hfull => by cases hfull⟩
  unfold compute
  dsimp only
  split
  · exact hbody _ (KernelView.fitting_computeEqualize hk)
  · exact hbody _ (KernelView.fitting_computeExcitedGroups hk)

end Dogmos
