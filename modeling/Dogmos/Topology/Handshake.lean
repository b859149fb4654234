import Dogmos.Topology.Wellformed
import Mathlib.Algebra.BigOperators.Group.Finset.Piecewise
import Mathlib.Algebra.BigOperators.Group.Finset.Sigma

/-!
# Counting edges

The sum of the degrees counts every edge twice, so the counters of a well-formed
topology are the lengths of its lists of undirected edges
(`edgeCount_eq_length_slotEdges`).
-/

/-! ## A symmetric table -/

/-- In a symmetric table, the entries above the diagonal have the sum of those below it. -/
theorem sum_above_eq_sum_below (N : Nat) (c : Nat → Nat → Nat) (hc : ∀ s t, c s t = c t s) :
    (∑ s ∈ Finset.range N, ∑ t ∈ Finset.range N, if s < t then c s t else 0) =
      ∑ s ∈ Finset.range N, ∑ t ∈ Finset.range N, if t < s then c s t else 0 := by
  rw [Finset.sum_comm]
  refine Finset.sum_congr rfl fun s _ => Finset.sum_congr rfl fun t _ => ?_
  rw [hc t s]

/-- Counting the members of a list by their value. -/
theorem sum_countP_eq {α : Type} (N : Nat) (value : α → Nat) (p : Nat → Bool) (l : List α)
    (hl : ∀ a ∈ l, value a < N) :
    (∑ t ∈ Finset.range N, if p t then l.countP (fun a => value a = t) else 0) =
      l.countP fun a => p (value a) := by
  induction l with
  | nil => simp
  | cons a rest ih =>
    have ih := ih fun b hb => hl b (by simp [hb])
    have hsplit : ∀ t, (if p t then (a :: rest).countP (fun a => value a = t) else 0) =
        (if p t then rest.countP (fun a => value a = t) else 0) +
          if t = value a then (if p t then 1 else 0) else 0 := by
      intro t
      rw [List.countP_cons]
      by_cases hp : p t
      · by_cases ht : t = value a
        · subst ht
          simp [hp]
        · simp [hp, ht, Ne.symm ht]
      · simp [hp]
    rw [Finset.sum_congr rfl fun t _ => hsplit t, Finset.sum_add_distrib, ih,
      Finset.sum_ite_eq', if_pos (Finset.mem_range.2 (hl a (by simp))), List.countP_cons]

theorem sum_map_range (f : Nat → Nat) (N : Nat) :
    ((List.range N).map f).sum = ∑ s ∈ Finset.range N, f s := rfl

namespace Dogmos

open PackedTopology

/-! ## The edges of a topology -/

variable {ok : Occupancy} {topology : PackedTopology}

theorem degreeSum_eq_sum (topology : PackedTopology) (heat : Bool) :
    topology.degreeSum heat =
      ∑ slot ∈ Finset.range topology.slots.length, (topology.neighbors heat slot).length := by
  rw [← sum_map_range]
  unfold degreeSum
  congr 1
  refine List.ext_getElem (by simp) ?_
  intro n hn hn'
  have hlen : n < topology.slots.length := by simpa using hn
  rw [List.getElem_map, List.getElem_map, List.getElem_range, neighbors_eq,
    List.getElem?_eq_getElem hlen]
  rfl

theorem length_slotEdges (topology : PackedTopology) (heat : Bool) :
    (topology.slotEdges heat).length =
      ∑ slot ∈ Finset.range topology.slots.length,
        (topology.neighbors heat slot).countP fun n => slot < n.handle.slot.toNat := by
  unfold slotEdges
  rw [List.length_flatMap, ← sum_map_range]
  congr 1
  refine List.map_congr_left fun slot _ => ?_
  induction topology.neighbors heat slot with
  | nil => rfl
  | cons n rest ih =>
    by_cases hn : slot < n.handle.slot.toNat
    · rw [List.filterMap_cons_some (by rw [if_pos hn]), List.countP_cons_of_pos (by simpa using hn),
        List.length_cons, ih]
    · rw [List.filterMap_cons_none (by rw [if_neg hn]), List.countP_cons_of_neg (by simpa using hn),
        ih]

/-- The number of entries for a slot in the row of another. -/
def entries (topology : PackedTopology) (heat : Bool) (slot other : Nat) : Nat :=
  (topology.neighbors heat slot).countP fun n => n.handle.slot.toNat = other

theorem Joined.entries_eq (h : Joined ok topology) (hok : ok.Functional) {heat : Bool}
    {slot other : Nat} :
    entries topology heat slot other =
      if ∃ n ∈ topology.neighbors heat slot, n.handle.slot.toNat = other then 1 else 0 := by
  unfold entries
  split
  · next hsome =>
    obtain ⟨n, hn, hslot⟩ := hsome
    have hone : (topology.neighbors heat slot).countP (fun m => m.handle.slot.toNat = other) =
        (topology.neighbors heat slot).countP (· == n) := by
      refine List.countP_congr fun m hm => ?_
      simp only [decide_eq_true_eq, beq_iff_eq]
      constructor
      · intro heq
        exact h.eq_of_slot hok hm hn (UInt32.toNat_inj.1 (heq.trans hslot.symm))
      · rintro rfl
        exact hslot
    rw [hone]
    exact List.count_eq_one_of_mem (h.packed.tidy heat slot).nodup hn
  · next hnone =>
    rw [List.countP_eq_zero]
    intro n hn hslot
    exact hnone ⟨n, hn, of_decide_eq_true hslot⟩

/-- A row names a slot exactly when the slot's row names it. -/
theorem Joined.entries_comm (h : Joined ok topology) (hok : ok.Functional) (heat : Bool)
    (slot other : Nat) : entries topology heat slot other = entries topology heat other slot := by
  rw [h.entries_eq hok, h.entries_eq hok]
  have hmirror : ∀ s t, (∃ n ∈ topology.neighbors heat s, n.handle.slot.toNat = t) →
      ∃ n ∈ topology.neighbors heat t, n.handle.slot.toNat = s := by
    rintro s t ⟨n, hn, rfl⟩
    have hlen := lt_of_mem_neighbors hn
    have hbound := h.bounded
    have hs : (UInt32.ofNat s).toNat = s :=
      UInt32.toNat_ofNat_of_lt' (by show s < 2 ^ 32; omega)
    rw [← hs] at hn
    obtain ⟨generation, hmem⟩ := h.mirrored heat _ n hn
    exact ⟨_, hmem, hs⟩
  congr 1
  exact propext ⟨hmirror slot other, hmirror other slot⟩

/-- The slots of a row are slots of the table. -/
theorem Joined.slot_lt (h : Joined ok topology) {heat : Bool} {slot : Nat} {n : TopologyNeighbor}
    (hn : n ∈ topology.neighbors heat slot) : n.handle.slot.toNat < topology.slots.length := by
  have hlen := lt_of_mem_neighbors hn
  have hbound := h.bounded
  have hs : (UInt32.ofNat slot).toNat = slot :=
    UInt32.toNat_ofNat_of_lt' (by show slot < 2 ^ 32; omega)
  rw [← hs] at hn
  obtain ⟨generation, hmem⟩ := h.mirrored heat _ n hn
  exact lt_of_mem_neighbors hmem

/-- **The counters count the undirected edges.** -/
theorem edgeCount_eq_length_slotEdges (h : Joined ok topology) (hok : ok.Functional)
    (heat : Bool) : topology.edgeCount heat = (topology.slotEdges heat).length := by
  have hrow : ∀ slot, (topology.neighbors heat slot).length =
      ((topology.neighbors heat slot).countP fun n => slot < n.handle.slot.toNat) +
        (topology.neighbors heat slot).countP fun n => n.handle.slot.toNat < slot := by
    intro slot
    rw [List.length_eq_countP_add_countP (fun n => decide (slot < n.handle.slot.toNat))]
    congr 1
    refine List.countP_congr fun n hn => ?_
    have hne := h.irreflexive heat slot n hn
    simp only [decide_eq_true_eq]
    omega
  have habove : ∀ slot, (∑ other ∈ Finset.range topology.slots.length,
      if slot < other then entries topology heat slot other else 0) =
        (topology.neighbors heat slot).countP fun n => slot < n.handle.slot.toNat := by
    intro slot
    rw [← sum_countP_eq topology.slots.length (fun n : TopologyNeighbor => n.handle.slot.toNat)
      (fun t => decide (slot < t)) _ fun n hn => h.slot_lt hn]
    simp only [decide_eq_true_eq, entries]
  have hbelow : ∀ slot, (∑ other ∈ Finset.range topology.slots.length,
      if other < slot then entries topology heat slot other else 0) =
        (topology.neighbors heat slot).countP fun n => n.handle.slot.toNat < slot := by
    intro slot
    rw [← sum_countP_eq topology.slots.length (fun n : TopologyNeighbor => n.handle.slot.toNat)
      (fun t => decide (t < slot)) _ fun n hn => h.slot_lt hn]
    simp only [decide_eq_true_eq, entries]
  have hsum : topology.degreeSum heat =
      (topology.slotEdges heat).length + (topology.slotEdges heat).length := by
    rw [degreeSum_eq_sum, Finset.sum_congr rfl fun slot _ => hrow slot, Finset.sum_add_distrib,
      length_slotEdges]
    congr 1
    rw [← Finset.sum_congr rfl fun slot _ => hbelow slot,
      ← Finset.sum_congr rfl fun slot _ => habove slot]
    exact (sum_above_eq_sum_below _ _ (h.entries_comm hok heat)).symm
  have hcount := h.counted heat
  omega

end Dogmos
